import RadixRouter.Text

/-!
Natural numbers in decimal, as settings and arguments have them: digits, with a plus sign in front
of them or without.
-/

namespace RadixRouter.Decimal

/-- The number of which `text` is the digits, if it is some digits and nothing else. -/
def ofDigits? (text : Text) : Option Nat :=
  if text ≠ [] && text.all Char.isDigit then
    some (text.foldl (fun n c => n * 10 + (c.toNat - '0'.toNat)) 0)
  else none

/-- The number below `bound` that `text` spells. -/
def below? (bound : Nat) (text : Text) : Option Nat :=
  let digits := match text with
    | '+' :: rest => rest
    | _ => text
  (ofDigits? digits).filter (· < bound)

/-- How many numbers a machine word holds. -/
def wordBound : Nat := UInt64.size

def word? (text : Text) : Option Nat :=
  below? wordBound text

def write (n : Nat) : Text :=
  Nat.toDigits 10 n

end RadixRouter.Decimal
