import RadixRouter.Http.Header
import RadixRouter.Http.Target
import RadixRouter.Net.Address

/-!
Requests and responses with their bodies in memory.
-/

namespace RadixRouter

structure Request where
  method : Method
  target : Target
  headers : Headers
  body : Bytes
  /-- Where the request came from, if that is known. -/
  remote : Option SocketAddress

structure Response where
  status : Nat
  headers : Headers
  body : Bytes
  deriving DecidableEq, Repr

namespace Request

/-- The request of the given parts, if method, target and headers are valid. -/
def ofParts? (method target : Text) (headers : List (Text × Text)) (body : Bytes)
    (remote : Option SocketAddress) : Option Request := do
  let method ← Method.ofText? method
  let target ← Target.ofText? target
  let headers ← headers.mapM fun (name, value) => Header.ofText? name value
  return ⟨method, target, headers, body, remote⟩

end Request

namespace Response

def ok (body : Bytes) : Response :=
  ⟨200, [], body⟩

/-- A response that consists of plain text. -/
def plain (status : Nat) (body : Text) : Response :=
  ⟨status, [⟨Header.contentType, Text.utf8 "text/plain; charset=utf-8".toList⟩], Text.utf8 body⟩

/-- A short answer that no browser should take for anything but plain text. -/
def notice (status : Nat) (body : Text) : Response :=
  let response := plain status body
  { response with
    headers := response.headers ++ [⟨Header.contentTypeOptions, Text.utf8 "nosniff".toList⟩] }

end Response

end RadixRouter
