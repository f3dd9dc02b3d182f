import RadixRouter.Text.Lowercase

/-!
Comparison of text without regard to case. Characters are compared one to one; no character is
taken for two others.
-/

namespace RadixRouter

/-- Two characters are the same letter if they are equal or have the same lowercase form. -/
def foldsTo (a b : Char) : Bool :=
  a = b || Lowercase.char a = Lowercase.char b

namespace Text

/-- What follows `front` in `text`, when `text` begins with it but for case. -/
def afterFold? : (front text : Text) → Option Text
  | [], text => some text
  | _ :: _, [] => none
  | a :: front, b :: text => if foldsTo b a then afterFold? front text else none

/-- Two texts are equal but for case if they have equally many characters and each two at the
same position are the same letter. -/
inductive FoldEq : Text → Text → Prop where
  | nil : FoldEq [] []
  | cons {a b : Char} {s t : Text} : foldsTo a b = true → FoldEq s t → FoldEq (a :: s) (b :: t)

/-- The whole of a text without regard to case. -/
def lower (text : Text) : Text :=
  text.flatMap Lowercase.char

end Text

end RadixRouter
