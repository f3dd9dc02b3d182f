import RadixRouter.Router.Shared
import RadixRouter.Server.Intake

/-!
The way of a request from the connection to the router and back. Whatever goes wrong behind the
intake is answered.
-/

namespace RadixRouter

/-- The answer to a request that does not get as far as the router. -/
def IntakeFault.response : IntakeFault → Response
  | bodyTooLarge _ => .plain 413 "413 Payload Too Large\n".toList
  | _ => .plain 400 "400 Bad Request\n".toList

/-- The answer to a request that expects more than a server does. -/
def Incoming.unservable : Response :=
  ⟨417, [], []⟩

namespace SharedRouter

/-- The answer to an incoming request. A panic of the router that nothing else has recovered is
recovered here, and one of the intake is not. -/
def answer (shared : SharedRouter) (limit : UInt64) (incoming : Incoming) : Run Response := do
  match ← incoming.read limit with
  | .error fault => return fault.response
  | .ok request =>
      Run.recovering (shared.serve request) fun _ =>
        pure (.plain 500 "500 Internal Server Error\n".toList)

end SharedRouter

end RadixRouter
