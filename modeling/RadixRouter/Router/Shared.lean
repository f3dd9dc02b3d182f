import RadixRouter.Router.Dispatch

/-!
A routing table that is changed while it is read. A batch of registrations works on a copy, and
the copy takes the place of the table only if all of the batch succeeded.
-/

namespace RadixRouter

/-- The table that requests are answered from at present. -/
structure SharedRouter where
  current : Router

namespace SharedRouter

/-- Publishes what `batch` makes of the table, unless it fails. -/
def register {ε : Type} (shared : SharedRouter) (batch : Router → Run (Router × Except ε Unit)) :
    Run (SharedRouter × Except ε Unit) := do
  match ← batch shared.current with
  | (router, .ok ()) => return (⟨router⟩, .ok ())
  | (_, .error fault) => return (shared, .error fault)

def serve (shared : SharedRouter) (request : Request) : Run Response :=
  shared.current.serve request

def lookup (shared : SharedRouter) (method : Method) (path : Text) : Option (Endpoint × Params) :=
  match shared.current.lookup method path with
  | .hit endpoint params => some (endpoint, params)
  | .miss _ => none

end SharedRouter

end RadixRouter
