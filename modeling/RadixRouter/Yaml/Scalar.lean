import RadixRouter.Yaml.Character

/-!
Scalars: plain words, texts in quotes, and blocks of lines. Where a scalar goes on in another line
the line ends are folded: one becomes a space, and of several the first is dropped.
-/

namespace RadixRouter.Yaml

/-- How a scalar is written. -/
inductive ScalarStyle where
  | plain
  | quoted
  | literal
  | folded
  deriving DecidableEq, Repr

/-- The line ends of a gap as they count in the text, the first of which is `first`. -/
def foldBreaks (first : Char) (rest : Text) : Text :=
  let more := rest.filter isBreak
  if first ≠ '\n' then first :: more else if more = [] then [' '] else more

/-- What a gap between two words stands for: itself within a line, folded line ends otherwise. -/
def foldGap (gap : Text) : Text :=
  match gap.dropWhile isSpace with
  | [] => gap
  | first :: rest => foldBreaks first rest

/-- The column behind a gap that ends a line. -/
def columnAfter (gap : Text) : Nat :=
  (gap.reverse.takeWhile isSpace).length

/-- Whether a gap leaves its line and brings a document's mark to the front of the next one. -/
def leadsToMark (gap rest : Text) : Bool :=
  gap.any isBreak && columnAfter gap = 0 && atMark rest

namespace Quoted

/-- The character that an escape letter stands for. -/
def escaped? (letter : Char) : Option Char :=
  [('0', '\x00'), ('a', '\x07'), ('b', '\x08'), ('t', '\t'), ('\t', '\t'), ('n', '\n'),
   ('v', '\x0B'), ('f', '\x0C'), ('r', '\r'), ('e', '\x1B'), (' ', ' '), ('"', '"'), ('/', '/'),
   ('\\', '\\'), ('N', '\u0085'), ('_', '\u00A0'), ('L', '\u2028'), ('P', '\u2029')].lookup letter

def escapeWidth (letter : Char) : Nat :=
  if letter = 'x' then 2 else if letter = 'u' then 4 else if letter = 'U' then 8 else 0

/-- The character that `digits` name, if they are `width` digits. -/
def numbered? (width : Nat) (digits : Text) : Option Char := do
  let n ← hex? digits
  if digits.length = width && n.isValidChar then some (Char.ofNat n) else none

/-- Reads the rest of a text in single quotes; a quote is written twice in it. -/
def single? (read : Text) (text : Text) : Option (Text × Text) :=
  match text with
  | [] => none
  | '\'' :: '\'' :: rest => single? (read ++ ['\'']) rest
  | '\'' :: rest => some (read, rest)
  | c :: rest =>
      if isGap c then
        let gap := c :: rest.takeWhile isGap
        let after := rest.dropWhile isGap
        if leadsToMark gap after then none else single? (read ++ foldGap gap) after
      else single? (read ++ [c]) rest
termination_by text.length
decreasing_by
  all_goals first
    | (simp only [List.length_cons]; omega)
    | exact Nat.lt_succ_of_le (List.dropWhile_suffix _).length_le

/-- Reads the rest of a text in double quotes. A backslash at the end of a line joins the next one
to it. -/
def double? (read : Text) (text : Text) : Option (Text × Text) :=
  match text with
  | [] => none
  | '"' :: rest => some (read, rest)
  | '\\' :: [] => none
  | '\\' :: letter :: rest =>
      if isBreak letter then
        let gap := rest.takeWhile isGap
        let after := rest.dropWhile isGap
        if leadsToMark (letter :: gap) after then none
        else double? (read ++ gap.filter isBreak) after
      else
        let width := escapeWidth letter
        let c := if width = 0 then escaped? letter else numbered? width (rest.take width)
        match c with
        | some c => double? (read ++ [c]) (rest.drop width)
        | none => none
  | c :: rest =>
      if isGap c then
        let gap := c :: rest.takeWhile isGap
        let after := rest.dropWhile isGap
        if leadsToMark gap after then none else double? (read ++ foldGap gap) after
      else double? (read ++ [c]) rest
termination_by text.length
decreasing_by
  all_goals first
    | (simp only [List.length_cons, List.length_drop]; omega)
    | exact Nat.lt_succ_of_le (List.dropWhile_suffix _).length_le
    | exact Nat.lt_succ_of_lt (Nat.lt_succ_of_le (List.dropWhile_suffix _).length_le)

end Quoted

namespace Plain

/-- The characters that have a meaning of their own in braces. -/
def isFlowIndicator (c : Char) : Bool :=
  ",[]\x7b\x7d".toList.contains c

/-- Cuts the word at the front of a text off. It ends in front of a gap, of a colon before a gap,
and in braces of an indicator, which may not follow a colon. -/
def word? (braces : Bool) : Text → Option (Text × Text)
  | [] => some ([], [])
  | c :: rest =>
      if isGap c then some ([], c :: rest)
      else if braces && c = ':' && rest.head?.any (fun d => d = '?' || isFlowIndicator d) then none
      else if (c = ':' && atGap rest) || (braces && isFlowIndicator c) then some ([], c :: rest)
      else (word? braces rest).map fun (word, rest) => (c :: word, rest)

/-- Whether a gap has a tab to the left of `indent` on a line that begins in it. The column is that
of the gap's next character, if it stands on such a line. -/
def hasEarlyTab (indent : Nat) : (column : Option Nat) → (gap : Text) → Bool
  | _, [] => false
  | column, c :: rest =>
      if isBreak c then hasEarlyTab indent (some 0) rest
      else match column with
        | none => hasEarlyTab indent none rest
        | some n => (c = '\t' && n < indent) || hasEarlyTab indent (some (n + 1)) rest

/-- Whether a plain scalar ends behind a gap: at a smaller indentation, at a document's mark, at a
comment. -/
def endsAfter (braces : Bool) (indent : Nat) (gap rest : Text) : Bool :=
  (!braces && gap.any isBreak && columnAfter gap < indent) || leadsToMark gap rest
    || rest.head? = some '#'

/-- What has been read of a plain scalar. -/
structure Result where
  text : Text
  rest : Text
  /-- Whether the scalar is followed by a new line. -/
  endsLine : Bool

/-- Reads a plain scalar on from a word that has been cut off; its lines stand at `indent` or
further to the right. -/
def read? (braces : Bool) (indent : Nat) (text : Text) (rest : Text) : Option Result :=
  let gap := rest.takeWhile isGap
  let after := rest.dropWhile isGap
  if hasEarlyTab indent none gap then none
  else if endsAfter braces indent gap after then some ⟨text, after, gap.any isBreak⟩
  else
    match word? braces after with
    | none => none
    | some ([], _) => some ⟨text, after, gap.any isBreak⟩
    | some (c :: word, more) =>
        if more.length < rest.length then
          read? braces indent (text ++ foldGap gap ++ c :: word) more
        else none
termination_by rest.length

def ofFront? (braces : Bool) (indent : Nat) (text : Text) : Option Result :=
  (word? braces text).bind fun (word, rest) => read? braces indent word rest

end Plain

namespace Block

/-- What becomes of the line ends at the end of a block. -/
inductive Chomping where
  | strip
  | clip
  | keep
  deriving DecidableEq, Repr

def chomping? (c : Char) : Option Chomping :=
  if c = '-' then some .strip else if c = '+' then some .keep else none

def increment? (c : Char) : Option Nat :=
  if c.isDigit then some (c.toNat - '0'.toNat) else none

/-- Reads the header of a block: a sign and a digit in either order, each at most once, and a
comment. The rest begins with a new line, if there is one. -/
def header? (text : Text) : Option (Chomping × Option Nat × Text) :=
  let (chomping, increment, rest) := match text with
    | [] => (Chomping.clip, none, [])
    | a :: rest =>
        match chomping? a with
        | some chomping =>
            match rest.head?.bind increment? with
            | some n => (chomping, some n, rest.drop 1)
            | none => (chomping, none, rest)
        | none =>
            match increment? a with
            | some n =>
                match rest.head?.bind chomping? with
                | some chomping => (chomping, some n, rest.drop 1)
                | none => (.clip, some n, rest)
            | none => (.clip, none, a :: rest)
  let line := rest.dropWhile isSpace
  let line := if line.head? = some '#' then line.dropWhile (!isBreak ·) else line
  if increment = some 0 || !line.head?.all isBreak then none
  else some (chomping, increment, line.drop 1)

/-- What stands in front of a line of a block. -/
structure Margin where
  /-- The line ends of the empty lines. -/
  breaks : Text
  /-- The furthest column that has been reached. -/
  widest : Nat
  /-- The column where something stands. -/
  column : Nat
  rest : Text

/-- Reads the margin of a block's next line, up to column `indent` if that is known. -/
def margin? (indent : Option Nat) (breaks : Text) (widest column : Nat) : Text → Option Margin
  | [] => some ⟨breaks, max widest column, column, []⟩
  | c :: rest =>
      let inside := indent.all (column < ·)
      if c = ' ' && inside then margin? indent breaks widest (column + 1) rest
      else if c = '\t' && inside then none
      else if isBreak c then margin? indent (breaks ++ [c]) (max widest column) 0 rest
      else some ⟨breaks, max widest column, column, c :: rest⟩

theorem length_margin_le {indent : Option Nat} {breaks text : Text} {widest column : Nat}
    {margin : Margin} (h : margin? indent breaks widest column text = some margin) :
    margin.rest.length ≤ text.length := by
  induction text generalizing breaks widest column with
  | nil => cases h; exact Nat.le_refl _
  | cons c rest ih =>
      simp only [margin?] at h
      split at h
      · exact Nat.le_succ_of_le (ih h)
      · split at h
        · contradiction
        · split at h
          · exact Nat.le_succ_of_le (ih h)
          · cases h; exact Nat.le_refl _

/-- What has been read of a block. -/
structure Lines where
  text : Text
  /-- The line end of the last line. -/
  ending : Text
  /-- The line ends of the empty lines behind it. -/
  breaks : Text
  /-- Whether the last line began with a space. -/
  spaced : Bool

/-- The text in front of a line that begins with a space or not. In a folded block a single line
end between lines without becomes a space. -/
def Lines.joined (literal spaced : Bool) (lines : Lines) : Text :=
  if !literal && lines.ending.head? = some '\n' && !lines.spaced && !spaced then
    lines.text ++ (if lines.breaks = [] then [' '] else []) ++ lines.breaks
  else lines.text ++ lines.ending ++ lines.breaks

def lines? (literal : Bool) (indent : Nat) (lines : Lines) (column : Nat) (text : Text) :
    Option (Lines × Text) :=
  match text with
  | [] => some (lines, [])
  | c :: rest =>
      if column ≠ indent then some (lines, c :: rest)
      else
        let spaced := isSpace c
        let line := c :: rest.takeWhile (!isBreak ·)
        let after := rest.dropWhile (!isBreak ·)
        match _h : margin? (some indent) [] 0 0 (after.drop 1) with
        | none => none
        | some margin =>
            lines? literal indent
              ⟨lines.joined literal spaced ++ line, after.take 1, margin.breaks, spaced⟩
              margin.column margin.rest
termination_by text.length
decreasing_by
  have shorter := length_margin_le _h
  have suffix : after.length ≤ rest.length := (List.dropWhile_suffix _).length_le
  rw [List.length_drop] at shorter
  simp only [List.length_cons]
  omega

/-- Reads a block behind its indicator, within a mapping whose keys stand in column `parent`. -/
def read? (literal : Bool) (parent : Option Nat) (text : Text) : Option (Text × Text) := do
  let (chomping, increment, body) ← header? text
  let least := parent.elim 0 (· + 1)
  let fixed := increment.map (parent.getD 0 + ·)
  let margin ← margin? fixed [] 0 0 body
  let indent := fixed.getD (max (max margin.widest least) 1)
  let (lines, rest) ← lines? literal indent ⟨[], [], margin.breaks, false⟩ margin.column margin.rest
  let tail := match chomping with
    | .strip => []
    | .clip => lines.ending
    | .keep => lines.ending ++ lines.breaks
  return (lines.text ++ tail, rest)

end Block

end RadixRouter.Yaml
