import RadixRouter.Text.Utf8

/-!
Character boundaries told from the bytes of a text, the count of shared bytes backed off to one of
them step by step, and cuts that fail unless they fall on one.
-/

namespace RadixRouter.Text

/-- Whether a character begins at a byte offset, or the text ends there. -/
def isBoundary (text : Text) (offset : Nat) : Bool :=
  match (utf8 text)[offset]? with
  | some b => b.IsUTF8FirstByte
  | none => offset = byteLength text

/-- The last boundary up to `offset`, sought one byte after the other. -/
def backOff (text : Text) : (offset : Nat) → Nat
  | 0 => 0
  | offset + 1 => if isBoundary text (offset + 1) then offset + 1 else backOff text offset

/-- How many bytes `a` and `b` share, backed off to a boundary of `a` alone. -/
def sharedOffset (a b : Text) : Nat :=
  backOff a (commonBytes (utf8 a) (utf8 b))

/-- The text up to a byte offset, unless the cut would fall into a character. -/
def upToByte? (offset : Nat) (text : Text) : Option Text :=
  slice? 0 offset text

/-- The text from a byte offset on, unless the cut would fall into a character. -/
def fromByte? (offset : Nat) (text : Text) : Option Text :=
  slice? offset (byteLength text) text

end RadixRouter.Text
