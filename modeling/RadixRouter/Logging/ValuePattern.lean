import RadixRouter.Text.Alphanumeric
import RadixRouter.Text.Blank

/-!
What a directive may ask of the value of a field: a number, or a regular expression that the value
has to match. No event is told from another by the value of a field, so all that counts is which
texts can be asked for.

An expression has single characters, classes, groups, alternatives and repetitions; the number of a
repetition cannot be given, since braces belong to the directive around it. There are no tables of
the properties and cases of characters, so what needs them is refused: `\\w` and its like, and small
and capital letters taken for the same. They are there for ASCII, with `(?-u)`, as long as nothing
but ASCII can be matched by them.
-/

namespace RadixRouter.ValuePattern

/-- Whether `text` is some digits, or none. -/
def isDigits (text : Text) : Bool :=
  text.all Char.isDigit

def isExponent : Text → Bool
  | [] => true
  | e :: rest =>
      let digits := match rest with
        | sign :: digits => if sign = '+' || sign = '-' then digits else rest
        | [] => []
      (e = 'e' || e = 'E') && digits ≠ [] && isDigits digits

/-- Whether `text` is a number: with or without a sign, a point and an exponent. -/
def isNumber (text : Text) : Bool :=
  let digits := match text with
    | sign :: rest => if sign = '+' || sign = '-' then rest else text
    | [] => []
  let whole := digits.takeWhile Char.isDigit
  let rest := digits.dropWhile Char.isDigit
  let part := match rest with
    | '.' :: rest => rest.takeWhile Char.isDigit
    | _ => []
  let rest := match rest with
    | '.' :: rest => rest.dropWhile Char.isDigit
    | _ => rest
  ["inf", "infinity", "nan"].any (·.toList = Text.lowerAscii digits)
    || ((whole ≠ [] || part ≠ []) && isExponent rest)

/-- How an expression is read from some place on. -/
structure Mode where
  /-- Whether small and capital letters are the same. -/
  ignoreCase : Bool := false
  /-- Whether more than ASCII is meant. -/
  unicode : Bool := true
  /-- Whether blanks and comments do not count. -/
  spaced : Bool := false

/-- Sets what the letter of a flag stands for; most letters change nothing that counts here. -/
def Mode.set (mode : Mode) (letter : Char) (on : Bool) : Mode :=
  if letter = 'i' then { mode with ignoreCase := on }
  else if letter = 'u' then { mode with unicode := on }
  else if letter = 'x' then { mode with spaced := on }
  else mode

def skipBlanks (comment : Bool) : Text → Text
  | [] => []
  | c :: rest =>
      if comment then skipBlanks (c ≠ '\n') rest
      else if isBlank c then skipBlanks false rest
      else if c = '#' then skipBlanks true rest
      else c :: rest

def Mode.skip (mode : Mode) (text : Text) : Text :=
  if mode.spaced then skipBlanks false text else text

/-- What stands for a part of a text, or for a place in it. -/
inductive Atom where
  /-- A character, written as a byte or not. -/
  | char (c : Char) (byte : Bool)
  /-- One of the classes of digits, blanks and word characters, or what is outside of it. -/
  | named (negated : Bool)
  /-- A place: a border of words, or an end of the text. -/
  | place (word : Bool)

def Atom.fits (mode : Mode) : Atom → Bool
  | char c byte => if mode.unicode then !mode.ignoreCase else !byte || c.toNat < 0x80
  | named negated => !mode.unicode && !negated
  | place word => !word || !mode.unicode

def hexDigit? (c : Char) : Option Nat :=
  if c.isDigit then some (c.toNat - '0'.toNat)
  else if 'a' ≤ c && c ≤ 'f' then some (c.toNat - 'a'.toNat + 10)
  else if 'A' ≤ c && c ≤ 'F' then some (c.toNat - 'A'.toNat + 10)
  else none

/-- Reads `count` hexadecimal digits behind those that make `n`. -/
def hex? (mode : Mode) (n : Nat) : (count : Nat) → Text → Option (Nat × Text)
  | 0, text => some (n, text)
  | count + 1, text =>
      match mode.skip text with
      | c :: rest => (hexDigit? c).bind fun d => hex? mode (n * 16 + d) count rest
      | [] => none

/-- Reads an escape behind its backslash. Of the letters and digits only some may be escaped. -/
def escape? (mode : Mode) : Text → Option (Atom × Text)
  | [] => none
  | c :: rest =>
      let width := if c = 'x' then 2 else if c = 'u' then 4 else if c = 'U' then 8 else 0
      if width ≠ 0 then do
        let (n, rest) ← hex? mode 0 width rest
        if n.isValidChar then return (.char (Char.ofNat n) (c = 'x'), rest) else none
      else if "dsw".toList.contains c then some (.named false, rest)
      else if "DSW".toList.contains c then some (.named true, rest)
      else if "Az".toList.contains c then some (.place false, rest)
      else if "bB<>".toList.contains c then some (.place true, rest)
      else if "aftnrv".toList.contains c || (c.toNat < 0x80 && !c.isAlphanum) then
        some (.char c false, rest)
      else none

/-- What has been read side by side: how many parts, and how deep they are nested. -/
structure Level where
  count : Nat := 0
  depth : Nat := 0

def Level.add (level : Level) (depth : Nat) : Level :=
  ⟨level.count + 1, max level.depth depth⟩

/-- The depth of all parts together: several of them are one deeper than the deepest. -/
def Level.total (level : Level) : Nat :=
  if level.count ≤ 1 then level.depth else level.depth + 1

namespace Bracket

/-- A class that has been opened: its items, and the depth of what an operator has in front of
it. -/
structure Frame where
  items : Level := {}
  left : Option Nat := none

def Frame.total (frame : Frame) : Nat :=
  match frame.left with
  | none => frame.items.total
  | some left => max left frame.items.total + 1

/-- The classes that have names. -/
def names : List String :=
  ["alnum", "alpha", "ascii", "blank", "cntrl", "digit", "graph", "lower", "print", "punct",
   "space", "upper", "word", "xdigit"]

/-- Reads the name of a class between colons and what closes it; tells whether it is negated. -/
def named? (text : Text) : Option (Bool × Text) := do
  let text ← Text.after? [':'] text
  let (negated, text) := match text with
    | '^' :: rest => (true, rest)
    | _ => (false, text)
  let rest ← Text.after? [':', ']'] (Text.fromNext ':' text)
  if names.any (·.toList = Text.upTo ':' text) then return (negated, rest) else none

/-- Takes the hyphens at the front of a class for themselves. -/
def hyphens (mode : Mode) (comment : Bool) (items : Level) : Text → Level × Text
  | [] => (items, [])
  | c :: rest =>
      if comment then hyphens mode (c ≠ '\n') items rest
      else if c = '-' then hyphens mode false (items.add 0) rest
      else if mode.spaced && isBlank c then hyphens mode false items rest
      else if mode.spaced && c = '#' then hyphens mode true items rest
      else (items, c :: rest)

/-- Reads the front of a class behind its bracket: whether it is negated, hyphens, and a closing
bracket that stands for itself. -/
def front (mode : Mode) (text : Text) : Bool × Level × Text :=
  let text := mode.skip text
  let negated := text.head? = some '^'
  let (items, rest) := hyphens mode false {} (if negated then text.drop 1 else text)
  if items.count = 0 && rest.head? = some ']' then (negated, items.add 0, rest.drop 1)
  else (negated, items, rest)

/-- Reads a character of a class, or something that stands for several. -/
def item? (mode : Mode) : Text → Option (Atom × Text)
  | [] => none
  | '\\' :: rest => escape? mode rest
  | c :: rest => some (.char c false, rest)

def isMember (mode : Mode) (atom : Atom) : Bool :=
  match atom with
  | .char c _ => mode.unicode || c.toNat < 0x80
  | .named negated => !mode.unicode && !negated
  | .place _ => false

/-- Reads a character of a class or a range of them. A hyphen makes a range, unless the class ends
behind it or another hyphen follows. -/
def range? (mode : Mode) (text : Text) : Option Text := do
  let (first, rest) ← item? mode text
  let rest := mode.skip rest
  let isRange := match rest with
    | '-' :: more => !(mode.skip more).head?.any fun c => c = ']' || c = '-'
    | _ => false
  if !isMember mode first then none
  else if !isRange then return rest
  else do
    let (last, rest) ← item? mode (mode.skip (rest.drop 1))
    match first, last with
    | .char a _, .char b _ => if isMember mode last && a ≤ b then return rest else none
    | _, _ => none

/-- The two characters of an operator between classes. -/
def isOperator (text : Text) : Bool :=
  ["&&", "--", "~~"].any (·.toList = text.take 2)

/-- Reads a class on; `outer` are the classes around the one at hand. -/
def read? (mode : Mode) (outer : List Frame) (frame : Frame) (text : Text) : Option (Nat × Text) :=
  let next (outer : List Frame) (frame : Frame) (rest : Text) : Option (Nat × Text) :=
    if rest.length < text.length then read? mode outer frame rest else none
  match mode.skip text with
  | [] => none
  | ']' :: rest =>
      match outer with
      | [] => some (frame.total + 1, rest)
      | around :: outer =>
          next outer { around with items := around.items.add (frame.total + 1) } rest
  | c :: rest =>
      match if c = '[' then named? rest else none with
      | some (negated, rest) =>
          if negated && !mode.unicode then none
          else next outer { frame with items := frame.items.add 0 } rest
      | none =>
          if c = '[' then
            let (negated, items, rest) := front mode rest
            if negated && !mode.unicode then none else next (frame :: outer) { items } rest
          else if isOperator (c :: rest) then
            next outer { left := some frame.total } (rest.drop 1)
          else
            match range? mode (c :: rest) with
            | some rest => next outer { frame with items := frame.items.add 0 } rest
            | none => none
termination_by text.length

/-- Reads a class behind its bracket; gives its depth. -/
def ofFront? (mode : Mode) (text : Text) : Option (Nat × Text) :=
  let (negated, items, rest) := front mode text
  if (negated && !mode.unicode) || (mode.ignoreCase && mode.unicode) then none
  else read? mode [] { items } rest

end Bracket

/-- Reads the flags behind a question mark, up to the colon or bracket behind them. -/
def flags? (seen : List Char) (on dangling : Bool) (mode : Mode) :
    Text → Option (Mode × List Char × Text)
  | [] => none
  | c :: rest =>
      if c = ':' || c = ')' then if dangling then none else some (mode, seen, c :: rest)
      else if c = '-' then if on then flags? seen false true mode rest else none
      else if "imsUuRx".toList.contains c && !seen.contains c then
        flags? (c :: seen) on false (mode.set c on) rest
      else none

def isName (name : Text) : Bool :=
  match name with
  | [] => false
  | c :: rest =>
      (c = '_' || Alphanumeric.isLetter c)
        && rest.all fun c => "_.[]".toList.contains c || Alphanumeric.isLetterOrNumber c

/-- An expression that has been read in part. -/
structure Progress where
  mode : Mode := {}
  /-- The alternatives in front of the one at hand. -/
  alternatives : Level := {}
  /-- The parts of the alternative at hand. -/
  parts : Level := {}
  /-- The depth of the last part, if it can be repeated. -/
  last : Option Nat := none
  /-- The groups around, with the modes outside of them. -/
  outer : List (Mode × Level × Level) := []
  /-- The names of groups. -/
  names : List Text := []

namespace Progress

def maxDepth : Nat := 250

/-- Adds a part that can be repeated. -/
def add (progress : Progress) (depth : Nat) : Progress :=
  { progress with parts := progress.parts.add depth, last := some depth }

def repeat? (progress : Progress) : Option Progress :=
  progress.last.map fun depth =>
    { progress with
      parts := { progress.parts with depth := max progress.parts.depth (depth + 1) }
      last := some (depth + 1) }

/-- The depth of all alternatives. -/
def total (progress : Progress) : Nat :=
  (progress.alternatives.add progress.parts.total).total

def alternate (progress : Progress) : Progress :=
  { progress with
    alternatives := progress.alternatives.add progress.parts.total, parts := {}, last := none }

def openGroup (progress : Progress) (mode : Mode) : Progress :=
  { progress with
    mode
    outer := (progress.mode, progress.alternatives, progress.parts) :: progress.outer
    alternatives := {}
    parts := {}
    last := none }

def closeGroup? (progress : Progress) : Option Progress :=
  match progress.outer with
  | [] => none
  | (mode, alternatives, parts) :: outer =>
      some ({ progress with mode, alternatives, parts, outer }.add (progress.total + 1))

/-- Reads what follows an opening bracket: a name, flags, or nothing. Flags without a colon hold up
to the end of the group around them. -/
def group? (progress : Progress) (text : Text) : Option (Progress × Text) :=
  let name (text : Text) : Option (Progress × Text) :=
    let name := Text.upTo '>' text
    if isName name && !progress.names.contains name && text.contains '>' then
      some ({ progress with names := name :: progress.names }.openGroup progress.mode,
        (Text.fromNext '>' text).drop 1)
    else none
  match progress.mode.skip text with
  | '?' :: 'P' :: '<' :: rest => name rest
  | '?' :: '<' :: rest => name rest
  | '?' :: rest => do
      let (mode, seen, rest) ← flags? [] true false progress.mode rest
      if rest.head? = some ':' then return (progress.openGroup mode, rest.drop 1)
      else if seen = [] then none
      else return ({ progress with mode, parts := progress.parts.add 0, last := none }, rest.drop 1)
  | rest => some (progress.openGroup progress.mode, rest)

/-- Reads the part that begins with `c`, in front of `rest`. -/
def read? (progress : Progress) (c : Char) (rest : Text) : Option (Progress × Text) :=
  let mode := progress.mode
  if c = '(' then progress.group? rest
  else if c = ')' then progress.closeGroup?.map (·, rest)
  else if c = '|' then some (progress.alternate, rest)
  else if c = '[' then
    (Bracket.ofFront? mode rest).map fun (depth, rest) => (progress.add depth, rest)
  else if c = '?' || c = '*' || c = '+' then
    progress.repeat?.map (·, if rest.head? = some '?' then rest.drop 1 else rest)
  else if c = '\x7b' then none
  else if c = '\\' then
    (escape? mode rest).bind fun (atom, rest) =>
      if atom.fits mode then some (progress.add 0, rest) else none
  else if c = '.' then if mode.unicode then some (progress.add 0, rest) else none
  else if c = '^' || c = '$' || (Atom.char c false).fits mode then some (progress.add 0, rest)
  else none

/-- Whether the rest of an expression is well formed. -/
def accepts (progress : Progress) (text : Text) : Bool :=
  match progress.mode.skip text with
  | [] => progress.outer.isEmpty && progress.total ≤ maxDepth
  | c :: rest =>
      match progress.read? c rest with
      | none => false
      | some (later, rest) => if rest.length < text.length then later.accepts rest else false
termination_by text.length

end Progress

def isExpression (text : Text) : Bool :=
  Progress.accepts {} text

/-- Whether the value of a field can be asked to be `text`. -/
def isValid (text : Text) : Bool :=
  isNumber text || isExpression text

end RadixRouter.ValuePattern
