import RadixRouter.Router.Files

/-!
Registrations as values, so that one can be made after the other.
-/

namespace RadixRouter

/-- A registration as it is asked for. -/
inductive Call where
  | handle (method : Method) (pattern : Text) (route : Route)
  | serveFiles (pattern : Text) (files : FileSystem) (preHandler : Option PreHandler)

/-- The same registration with another callback; a mount has none. -/
def Call.withCallback (callback : Option (Method → Text → Run Unit)) : Call → Call
  | handle method pattern route => handle method pattern { route with onRegistered := callback }
  | serveFiles pattern files preHandler => serveFiles pattern files preHandler

/-- The method and the pattern that a registration is for. -/
def Call.target : Call → Method × Text
  | handle method pattern _ => (method, pattern)
  | serveFiles pattern _ _ => (Method.get, pattern)

namespace Router

/-- Makes a registration. -/
def perform (router : Router) : Call → Run (Router × Except RouteError Unit)
  | .handle method pattern route => router.handle method pattern route
  | .serveFiles pattern files preHandler => router.serveFiles pattern files preHandler

/-- Makes one registration after the other, goes on after a refusal, and tells how each one ends. -/
def outcomes (router : Router) : List Call → Run (List (Except RouteError Unit))
  | [] => pure []
  | call :: later => do
      let (next, result) ← router.perform call
      (result :: ·) <$> next.outcomes later

/-- Makes one registration after the other and goes on after a refusal. What was accepted, in that
order, comes with the router. -/
def performAll (router : Router) : List Call → Run (Router × List (Method × Text))
  | [] => pure (router, [])
  | call :: later => do
      let (next, result) ← router.perform call
      let (last, accepted) ← next.performAll later
      match result with
      | .ok () => return (last, call.target :: accepted)
      | .error _ => return (last, accepted)

end Router

end RadixRouter
