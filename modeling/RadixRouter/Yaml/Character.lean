import RadixRouter.Text

/-!
The characters of a YAML document: what parts its words and lines, what may occur in it at all,
and the marks at which a document begins and ends.
-/

namespace RadixRouter.Yaml

/-- The characters that a document may consist of. -/
def isAllowed (c : Char) : Bool :=
  let n := c.toNat
  n = 0x09 || n = 0x0A || n = 0x0D || (0x20 ≤ n && n ≤ 0x7E) || n = 0x85
    || (0xA0 ≤ n && n ≤ 0xD7FF) || (0xE000 ≤ n && n ≤ 0xFFFD) || 0x10000 ≤ n

/-- The text with one spelling for the line ends that mean the same. The separators of lines and
paragraphs keep their own. -/
def unifyBreaks : Text → Text
  | [] => []
  | '\r' :: '\n' :: rest => '\n' :: unifyBreaks rest
  | c :: rest => (if c = '\r' || c = '\u0085' then '\n' else c) :: unifyBreaks rest

/-- The characters that end a line. -/
def isBreak (c : Char) : Bool :=
  c = '\n' || c = '\u2028' || c = '\u2029'

/-- A space or a tab. -/
def isSpace (c : Char) : Bool :=
  c = ' ' || c = '\t'

/-- The characters between words. -/
def isGap (c : Char) : Bool :=
  isSpace c || isBreak c

/-- Whether no word goes on at the front of `text`. -/
def atGap (text : Text) : Bool :=
  text.head?.all isGap

/-- The mark of byte order, which may stand in front of a line. -/
def orderMark : Char := '\uFEFF'

/-- The characters of anchors and of the names of directives and tag handles. -/
def isNameChar (c : Char) : Bool :=
  c.isAlphanum || c = '_' || c = '-'

/-- Whether a document's mark, three times `c`, stands at the front of `text`. -/
def isMark (c : Char) (text : Text) : Bool :=
  text.take 3 = [c, c, c] && atGap (text.drop 3)

/-- Whether the mark of a beginning or of an end stands at the front of `text`. -/
def atMark (text : Text) : Bool :=
  isMark '-' text || isMark '.' text

def hexDigit? (c : Char) : Option Nat :=
  if c.isDigit then some (c.toNat - '0'.toNat)
  else if 'a' ≤ c && c ≤ 'f' then some (c.toNat - 'a'.toNat + 10)
  else if 'A' ≤ c && c ≤ 'F' then some (c.toNat - 'A'.toNat + 10)
  else none

def hex? (digits : Text) : Option Nat :=
  (digits.mapM hexDigit?).map fun values => values.foldl (fun n d => n * 16 + d) 0

end RadixRouter.Yaml
