import RadixRouter.Http.Message
import RadixRouter.Run
import RadixRouter.Text.Blank
import RadixRouter.Text.Decimal

/-!
Requests as they come in from a connection, and how they become requests that a router answers.
A body is read up to one byte more than it may be long. The limit is a machine word, and so is the
number of bytes to be read, which is worked out with a check.
-/

namespace RadixRouter

/-- A body still to be read. -/
inductive BodySource where
  /-- These bytes and no more. -/
  | plain (bytes : Bytes)
  /-- Bytes in chunks, each behind its length. -/
  | chunked (bytes : Bytes)
  deriving DecidableEq

/-- A request as it comes in: nothing but the length of its body has been looked at. -/
structure Incoming where
  method : Text
  uri : Text
  headers : List (Text × Text)
  /-- The length of the body, if the sender declared one. -/
  declared : Option Nat
  body : BodySource
  remote : Option SocketAddress

/-- Why an incoming request is not answered by the router. -/
inductive IntakeFault where
  | bodyTooLarge (limit : UInt64)
  | unreadable
  | malformed
  deriving DecidableEq, Repr

/-- The message for people, as far as it does not depend on what went wrong below. -/
def IntakeFault.message : IntakeFault → String
  | bodyTooLarge limit => "request body exceeds " ++ toString limit.toNat ++ " bytes"
  | unreadable => "failed to read request body"
  | malformed => "malformed request"

namespace Chunk

def cr : UInt8 := 0x0D

def lf : UInt8 := 0x0A

def semicolon : UInt8 := 0x3B

/-- The number of hexadecimal digits, which may have a plus sign in front of them. -/
def hex? (text : Text) : Option Nat :=
  let digits := match text with
    | '+' :: rest => rest
    | _ => text
  if digits = [] then none
  else do
    let values ← digits.mapM (Net.digit? 16)
    let n := values.foldl (fun n d => n * 16 + d) 0
    if n < Decimal.wordBound then some n else none

/-- What follows a line end. -/
def afterLineEnd? : Bytes → Option Bytes
  | a :: b :: rest => if a = cr && b = lf then some rest else none
  | _ => none

/-- The length of the next chunk, and what follows the line that tells it. What stands behind a
semicolon on that line does not count. -/
def length? (bytes : Bytes) : Option (Nat × Bytes) := do
  let digits := bytes.takeWhile fun b => b ≠ cr && b ≠ semicolon
  let line := bytes.takeWhile (· ≠ cr)
  let rest ← afterLineEnd? (bytes.drop line.length)
  let text ← Text.ofUtf8? digits
  let n ← hex? (Text.trim text)
  return (n, rest)

theorem length_afterLineEnd? {bytes rest : Bytes} (h : afterLineEnd? bytes = some rest) :
    rest.length < bytes.length := by
  match bytes, h with
  | a :: b :: tail, h =>
      rw [afterLineEnd?] at h
      split at h
      · cases h; simp only [List.length_cons]; omega
      · contradiction

theorem rest_lt_of_length? {bytes rest : Bytes} {n : Nat} (h : length? bytes = some (n, rest)) :
    rest.length < bytes.length := by
  simp only [length?, bind, Option.bind_eq_some_iff, pure, Option.some.injEq,
    Prod.mk.injEq] at h
  obtain ⟨tail, htail, _, _, _, _, _, rfl⟩ := h
  have := length_afterLineEnd? htail
  rw [List.length_drop] at this
  omega

/-- Reads chunks until `budget` bytes are read, the last chunk is reached, or the bytes give out.
A chunk that ends within the budget has to end with its line. -/
def read? (budget : Nat) (bytes : Bytes) : Option Bytes :=
  if budget = 0 then some []
  else match _h : length? bytes with
    | none => none
    | some (0, rest) => (afterLineEnd? rest).map fun _ => []
    | some (n + 1, rest) =>
        if budget < n + 1 || rest.length < n + 1 then some (rest.take (min budget (n + 1)))
        else match _h' : afterLineEnd? (rest.drop (n + 1)) with
          | none => none
          | some more => (read? (budget - (n + 1)) more).map (rest.take (n + 1) ++ ·)
termination_by bytes.length
decreasing_by
  have shorter := rest_lt_of_length? _h
  have := length_afterLineEnd? _h'
  rw [List.length_drop] at this
  omega

end Chunk

namespace BodySource

/-- Reads at most `budget` bytes, unless the source is broken before. -/
def read? (budget : UInt64) : BodySource → Option Bytes
  | plain bytes => some (bytes.take budget.toNat)
  | chunked bytes => Chunk.read? budget.toNat bytes

end BodySource

namespace Incoming

def value? (headers : List (Text × Text)) (name : String) : Option Text :=
  (headers.find? fun h => Text.lowerAscii h.1 = name.toList).map Prod.snd

/-- Whether the sender asks for another protocol, and so may send whatever it likes. -/
def upgrades (headers : List (Text × Text)) : Bool :=
  (value? headers "connection").any fun value =>
    Text.includes "upgrade".toList (Text.lowerAscii value)

/-- Whether the sender expects nothing but, at most, to be told to go on. -/
def isServable (headers : List (Text × Text)) : Bool :=
  (value? headers "expect").all fun value => Text.lowerAscii value = "100-continue".toList

/-- The declared length and the source of a body, by the headers of the request. A transfer coding
means chunks whatever the length, a length that cannot be read means no body, and a sender that
asks for another protocol is read to the end. -/
def framing (headers : List (Text × Text)) (bytes : Bytes) : Option Nat × BodySource :=
  let coded := (value? headers "transfer-encoding").isSome
  let declared :=
    if coded then none else (value? headers "content-length").bind Decimal.word?
  if upgrades headers then (declared, .plain bytes)
  else if coded then (none, .chunked bytes)
  else (declared, .plain (bytes.take (declared.getD 0)))

/-- A request with these bytes behind its headers, unless more is expected than a server does. A
length is declared for it if it has none. -/
def ofParts? (method uri : Text) (headers : List (Text × Text)) (bytes : Bytes)
    (remote : Option SocketAddress) : Option Incoming :=
  let declares := (value? headers "content-length").isSome
  let headers :=
    if declares then headers
    else headers ++ [("Content-Length".toList, Decimal.write bytes.length)]
  let (declared, body) := framing headers bytes
  if isServable headers then some ⟨method, uri, headers, declared, body, remote⟩ else none

/-- The request with so much of its body as `budget` allows for, unless that is longer than `limit`,
cannot be read, or belongs to something that is no request. -/
def readWithin (limit budget : UInt64) (incoming : Incoming) : Except IntakeFault Request :=
  match incoming.body.read? budget with
  | none => .error .unreadable
  | some body =>
      if limit.toNat < body.length then .error (.bodyTooLarge limit)
      else match Request.ofParts? incoming.method incoming.uri incoming.headers body
          incoming.remote with
        | some request => .ok request
        | none => .error .malformed

/-- The request with its body. It panics where one byte more than `limit` is no machine word, unless
the declared length alone is too large. -/
def read (limit : UInt64) (incoming : Incoming) : Run (Except IntakeFault Request) :=
  if incoming.declared.any (limit.toNat < ·) then pure (.error (.bodyTooLarge limit))
  else do
    let budget ← Run.addWord limit 1
    return incoming.readWithin limit budget

end Incoming

end RadixRouter
