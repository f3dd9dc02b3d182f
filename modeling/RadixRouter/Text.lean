/-!
Text as a list of characters, with the few cuts that paths and patterns need: dropping a known
front, cutting at a separator, and telling the front up to a character from what follows.
-/

namespace RadixRouter

/-- Paths, patterns, names and all other text that the router takes apart. -/
abbrev Text := List Char

namespace Text

/-- What follows `front` in `text`, when `text` begins with it. -/
def after? : (front text : Text) → Option Text
  | [], text => some text
  | _ :: _, [] => none
  | a :: front, b :: text => if a = b then after? front text else none

theorem after?_eq_some_iff {front text rest : Text} :
    after? front text = some rest ↔ text = front ++ rest := by
  induction front generalizing text with
  | nil => simp [after?]
  | cons a front ih =>
      cases text with
      | nil => simp [after?]
      | cons b text =>
          by_cases h : a = b
          · simp [after?, h, ih]
          · simp [after?, h, Ne.symm h]

/-- The front of `text` up to the next `sep`. -/
def upTo (sep : Char) (text : Text) : Text :=
  text.takeWhile (· ≠ sep)

/-- The rest of `text` from the next `sep` on. -/
def fromNext (sep : Char) (text : Text) : Text :=
  text.dropWhile (· ≠ sep)

theorem upTo_append_fromNext (sep : Char) (text : Text) :
    upTo sep text ++ fromNext sep text = text :=
  List.takeWhile_append_dropWhile

theorem length_fromNext_le (sep : Char) (text : Text) :
    (fromNext sep text).length ≤ text.length :=
  (List.dropWhile_suffix _).length_le

/-- The pieces of `text` between the separators; text without a separator is one piece. -/
def splitAt (sep : Char) : Text → List Text
  | [] => [[]]
  | c :: rest =>
      if c = sep then [] :: splitAt sep rest
      else match splitAt sep rest with
        | [] => [[c]]
        | piece :: pieces => (c :: piece) :: pieces

/-- The pieces with one separator between each two of them. -/
def joinWith (sep : Char) (pieces : List Text) : Text :=
  List.intercalate [sep] pieces

def endsWith (back text : Text) : Bool :=
  back.isSuffixOf text

def includes (part : Text) : Text → Bool
  | [] => part.isEmpty
  | c :: rest => part.isPrefixOf (c :: rest) || includes part rest

theorem includes_iff {part text : Text} : includes part text = true ↔ part <:+: text := by
  induction text with
  | nil => simp [includes]
  | cons c rest ih =>
      simp only [includes, Bool.or_eq_true, List.isPrefixOf_iff_prefix, ih, List.infix_cons_iff]

/-- ASCII capitals become small letters; every other character stays. -/
def lowerAscii (text : Text) : Text :=
  text.map Char.toLower

end Text

end RadixRouter
