import RadixRouter.Router.Basic

/-!
Routers as they come about: by registrations for any methods, some of which are refused.
-/

namespace RadixRouter.Router

/-- Registers one endpoint after the other and goes on after a refusal. -/
def registerAll (router : Router) : List (Method × Endpoint) → Router
  | [] => router
  | (method, endpoint) :: later => (router.register method endpoint).1.registerAll later

/-- The methods and patterns of the registrations that are not refused. -/
def accepted (router : Router) : List (Method × Endpoint) → List (Method × Text)
  | [] => []
  | (method, endpoint) :: later =>
      match router.register method endpoint with
      | (next, .ok ()) => (method, endpoint.pattern) :: next.accepted later
      | (next, .error _) => next.accepted later

/-- Whether the routes of a router are those that `history` makes of nothing. Its policy is free. -/
def BuiltBy (router : Router) (history : List (Method × Endpoint)) : Prop :=
  router.trees = (registerAll {} history).trees

end RadixRouter.Router
