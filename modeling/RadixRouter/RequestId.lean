import RadixRouter.Http.Header
import RadixRouter.Text.Blank

/-!
Request identifiers: numbers of 128 bits, written as 26 digits of base 32 without the letters
I, L, O and U.
-/

namespace RadixRouter

/-- An identifier that came with a request. -/
structure Ulid where
  value : BitVec 128
  deriving DecidableEq

inductive UlidFault where
  | length
  | digit
  deriving DecidableEq, Repr

def UlidFault.message : UlidFault → String
  | length => "invalid length"
  | digit => "invalid character"

namespace Ulid

def digits : Text := "0123456789ABCDEFGHJKMNPQRSTVWXYZ".toList

/-- How many digits an identifier has. -/
def width : Nat := 26

def digit? (c : Char) : Option Nat :=
  digits.findIdx? (· = c.toUpper)

/-- Reads an identifier. The first digit has two bits more than the number; they are dropped. -/
def ofText (text : Text) : Except UlidFault Ulid :=
  if Text.byteLength text ≠ width then .error .length
  else match text.mapM digit? with
    | some values => .ok ⟨values.foldl (fun n d => n <<< 5 ||| BitVec.ofNat 128 d) 0⟩
    | none => .error .digit

def write (id : Ulid) : Text :=
  (List.range width).map fun i =>
    digits.getD ((id.value >>> (5 * (width - 1 - i))).toNat % 32) '0'

end Ulid

/-- The identifier of a request: the one it brought, or a fresh one. -/
inductive RequestId where
  | supplied (id : Ulid)
  | generated
  deriving DecidableEq

namespace RequestId

/-- The identifier in the first header for it, if that is visible text and an identifier between
blanks. -/
def ofHeaders (headers : Headers) : RequestId :=
  match headers.visible? Header.requestId with
  | some text =>
      match Ulid.ofText (Text.trim text) with
      | .ok id => supplied id
      | .error _ => generated
  | none => generated

/-- The identifier as text; a fresh one has no text that can be foretold. -/
def write : RequestId → Text
  | supplied id => id.write
  | generated => "<generated>".toList

end RequestId

end RadixRouter
