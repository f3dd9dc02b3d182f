import RadixRouter.Http.Message
import RadixRouter.Params
import RadixRouter.RequestId
import RadixRouter.Run

/-!
What answers requests: handlers, pre-handlers that may answer in their place, and the panic
handler. A route holds a handler, and what is to be done once it is registered.
-/

namespace RadixRouter

/-- What a handler learns about a request beside the request itself. -/
structure Context where
  requestId : RequestId
  remote : Option SocketAddress
  /-- The pattern of the route that was matched, if there was one. -/
  route : Option Text

/-- The context of a request that no route has been found for yet. -/
def Context.ofRequest (request : Request) : Context :=
  ⟨RequestId.ofHeaders request.headers, request.remote, none⟩

abbrev Handler := Request → Params → Context → Run Response

/-- Answers a request in place of the handler, or lets it through. -/
abbrev PreHandler := Request → Params → Context → Run (Option Response)

/-- Answers a request whose handler panicked. -/
abbrev PanicHandler := Request → Panic → Run Response

/-- What is to be registered under a pattern. -/
structure Route where
  handler : Handler
  preHandler : Option PreHandler := none
  /-- Called with the method and the pattern after the registration. -/
  onRegistered : Option (Method → Text → Run Unit) := none

/-- What a registered pattern leads to. -/
structure Endpoint where
  pattern : Text
  handler : Handler
  preHandler : Option PreHandler

/-- Runs the pre-handler, and the handler unless that answered. -/
def Endpoint.call (endpoint : Endpoint) : Handler := fun request params context => do
  match endpoint.preHandler with
  | none => endpoint.handler request params context
  | some preHandler =>
      match ← preHandler request params context with
      | some response => return response
      | none => endpoint.handler request params context

end RadixRouter
