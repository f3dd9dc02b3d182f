import RadixRouter.Yaml.Scalar
import RadixRouter.Yaml.Tag

/-!
The tokens of a YAML document without sequences and without mappings inside of mappings. Where a
mapping of lines begins and ends follows from columns. A key needs no mark if a colon follows it on
its line and not too far away, so each place where one may begin is kept in mind until the colon is
found or can no longer come.
-/

namespace RadixRouter.Yaml

/-- The parts of a document. -/
inductive Token where
  | version (major minor : Nat)
  | tagHandle (handle name : Text)
  | documentStart
  | documentEnd
  | blockStart
  | blockEnd
  | braceOpen
  | braceClose
  | comma
  | key
  | value
  | anchor (name : Text)
  | reference (name : Text)
  | tag (tag : Tag)
  | scalar (text : Text) (style : ScalarStyle)
  deriving DecidableEq, Repr

structure Cursor where
  line : Nat
  column : Nat
  rest : Text

namespace Cursor

/-- The cursor with `rest` in front of it, which is what follows `count` characters. -/
def advance (cursor : Cursor) (count : Nat) : Cursor :=
  { (cursor.rest.take count).foldl (fun (cursor : Cursor) c =>
      if isBreak c then { cursor with line := cursor.line + 1, column := 0 }
      else { cursor with column := cursor.column + 1 }) cursor with
    rest := cursor.rest.drop count }

/-- The cursor at an end of its text. -/
def moveTo (cursor : Cursor) (rest : Text) : Cursor :=
  cursor.advance (cursor.rest.length - rest.length)

/-- Skips spaces, comments, line ends, and marks of byte order in front of lines. Tabs are skipped
where `tabs` says so, and in a block no longer on the next line. The result tells whether a line of
a block has begun. -/
def skipFrom (braces tabs comment : Bool) (line column : Nat) : Text → Bool × Cursor
  | [] => (false, ⟨line, column, []⟩)
  | c :: rest =>
      if isBreak c then
        let (_, cursor) := skipFrom braces braces false (line + 1) 0 rest
        (!braces, cursor)
      else if comment || (c = orderMark && column = 0) || c = ' ' || (c = '\t' && tabs) then
        skipFrom braces tabs comment line (column + 1) rest
      else if c = '#' then skipFrom braces tabs true line (column + 1) rest
      else (false, ⟨line, column, c :: rest⟩)

end Cursor

/-- A place where a key may have begun. -/
structure Candidate where
  line : Nat
  column : Nat
  /-- Whether nothing but a key may begin there. -/
  required : Bool

/-- How far a key may reach from where it begins to its colon. -/
def maxKeyLength : Nat := 1024

/-- Whether a key that begins at the candidate can still end at the cursor. -/
def Candidate.reaches (candidate : Candidate) (cursor : Cursor) : Bool :=
  cursor.line ≤ candidate.line && cursor.column ≤ candidate.column + maxKeyLength

/-- What is known while tokens are read. -/
structure Reader where
  cursor : Cursor
  braces : Bool
  /-- The column of the keys of the block that is being read. -/
  indent : Option Nat
  /-- Whether a key may begin here. -/
  keyAllowed : Bool
  candidate : Option Candidate
  /-- The tokens in front of the candidate, the last one first. -/
  settled : List Token
  /-- The tokens from the candidate on, the last one first. -/
  held : List Token

namespace Reader

def start (text : Text) : Reader :=
  { cursor := ⟨0, 0, text⟩
    braces := false
    indent := none
    keyAllowed := true
    candidate := none
    settled := []
    held := [] }

def tokens (reader : Reader) : List Token :=
  reader.settled.reverse ++ reader.held.reverse

def push (reader : Reader) (token : Token) : Reader :=
  { reader with held := token :: reader.held }

/-- Adds a token of `count` characters, behind which a key may begin or not. -/
def take (reader : Reader) (count : Nat) (token : Token) (keyAllowed : Bool) : Reader :=
  { reader.push token with cursor := reader.cursor.advance count, keyAllowed }

/-- Gives the candidate up, unless it has to be a key. -/
def dismiss? (reader : Reader) : Option Reader :=
  if reader.candidate.any (·.required) then none else some { reader with candidate := none }

/-- Gives the candidate up if its colon can no longer come. -/
def expire? (reader : Reader) : Option Reader :=
  if reader.candidate.all (·.reaches reader.cursor) then some reader else reader.dismiss?

/-- Takes this place for one where a key may begin, if one may. -/
def mayBegin? (reader : Reader) : Option Reader :=
  if reader.keyAllowed then do
    let cursor := reader.cursor
    let required := !reader.braces && reader.indent = some cursor.column
    let reader ← reader.dismiss?
    return { reader with
      candidate := some ⟨cursor.line, cursor.column, required⟩
      settled := reader.held ++ reader.settled
      held := [] }
  else some reader

def endBlock (reader : Reader) : Reader :=
  if !reader.braces && reader.indent.isSome then { reader.push .blockEnd with indent := none }
  else reader

/-- Ends the block if the cursor is to the left of its keys. -/
def dedent (reader : Reader) : Reader :=
  if reader.indent.any (reader.cursor.column < ·) then reader.endBlock else reader

/-- The column of the block's keys once there is a key at `column`, and what begins there. A block
does not begin within a block. -/
def blockAt? (reader : Reader) (column : Nat) : Option (Option Nat × List Token) :=
  if reader.braces then some (reader.indent, [])
  else match reader.indent with
    | none => some (some column, [.blockStart])
    | some indent => if indent < column then none else some (reader.indent, [])

/-- Begins a key or a value that has a mark of its own. -/
def marked? (reader : Reader) (token : Token) : Option Reader := do
  if !reader.braces && !reader.keyAllowed then none
  let (indent, start) ← reader.blockAt? reader.cursor.column
  let reader ← { reader with indent, held := start ++ reader.held }.dismiss?
  return reader.take 1 token !reader.braces

/-- Begins a value: what stands behind the candidate is its key, or the key has had a mark. -/
def colon? (reader : Reader) : Option Reader :=
  match reader.candidate with
  | none => reader.marked? .value
  | some candidate => do
      let (indent, start) ← reader.blockAt? candidate.column
      let settled := .key :: start ++ reader.settled
      return { reader with indent, settled, candidate := none }.take 1 .value false

/-- Reads a mark at which a document begins or ends. -/
def mark? (reader : Reader) (token : Token) : Option Reader := do
  if reader.braces then none
  let reader ← reader.endBlock.dismiss?
  return reader.take 3 token false

/-- The number at the front of a text; it has nine digits at most. -/
def number? (text : Text) : Option (Nat × Text) :=
  let digits := text.takeWhile Char.isDigit
  if digits = [] || 9 < digits.length then none
  else some (digits.foldl (fun n c => n * 10 + (c.toNat - '0'.toNat)) 0,
    text.dropWhile Char.isDigit)

/-- Reads what a directive says behind its percent sign. -/
def directiveToken? (text : Text) : Option (Token × Text) := do
  let name := text.takeWhile isNameChar
  let rest := text.dropWhile isNameChar
  if !atGap rest then none
  let rest := rest.dropWhile isSpace
  if name = "YAML".toList then
    let (major, rest) ← number? rest
    match rest with
    | '.' :: rest =>
        let (minor, rest) ← number? rest
        return (.version major minor, rest)
    | _ => none
  else if name = "TAG".toList then
    let (handle, name, rest) ← Tag.declaration? rest
    return (.tagHandle handle name, rest)
  else none

def directive? (reader : Reader) : Option Reader := do
  if reader.braces then none
  let reader ← reader.endBlock.dismiss?
  let (token, rest) ← directiveToken? (reader.cursor.rest.drop 1)
  let line := rest.dropWhile isSpace
  let line := if line.head? = some '#' then line.dropWhile (!isBreak ·) else line
  if !line.head?.all isBreak then none
  return { reader.push token with
    cursor := reader.cursor.moveTo (line.drop 1), keyAllowed := false }

/-- Reads the name of an anchor or a reference to one. -/
def name? (reader : Reader) (token : Text → Token) : Option Reader := do
  let reader ← reader.mayBegin?
  let text := reader.cursor.rest.drop 1
  let name := text.takeWhile isNameChar
  let rest := text.dropWhile isNameChar
  if name = [] || !(atGap rest || rest.head?.any "?:,]\x7d%@\x60".toList.contains) then none
  return reader.take (name.length + 1) (token name) false

def tag? (reader : Reader) : Option Reader := do
  let reader ← reader.mayBegin?
  let (tag, rest) ← Tag.ofFront? (reader.cursor.rest.drop 1)
  if !atGap rest && !(reader.braces && rest.head? = some ',') then none
  return { reader.push (.tag tag) with cursor := reader.cursor.moveTo rest, keyAllowed := false }

def quoted? (reader : Reader) (read : Text → Option (Text × Text)) : Option Reader := do
  let reader ← reader.mayBegin?
  let (text, rest) ← read (reader.cursor.rest.drop 1)
  return { reader.push (.scalar text .quoted) with
    cursor := reader.cursor.moveTo rest, keyAllowed := false }

/-- Reads a block of lines. A key may begin behind it. -/
def lines? (reader : Reader) (literal : Bool) : Option Reader := do
  let reader ← reader.dismiss?
  let (text, rest) ← Block.read? literal reader.indent (reader.cursor.rest.drop 1)
  return { reader.push (.scalar text (if literal then .literal else .folded)) with
    cursor := reader.cursor.moveTo rest, keyAllowed := true }

def plain? (reader : Reader) : Option Reader := do
  let reader ← reader.mayBegin?
  let least := reader.indent.elim 0 (· + 1)
  let result ← Plain.ofFront? reader.braces least reader.cursor.rest
  return { reader.push (.scalar result.text .plain) with
    cursor := reader.cursor.moveTo result.rest, keyAllowed := result.endsLine }

/-- Begins a mapping in braces, which has to be the whole document. -/
def openBrace? (reader : Reader) : Option Reader :=
  if reader.braces || reader.indent.isSome then none
  else some { reader.take 1 .braceOpen true with braces := true, candidate := none }

def closeBrace? (reader : Reader) : Option Reader :=
  if reader.braces then
    some { reader.take 1 .braceClose false with braces := false, candidate := none }
  else none

def comma? (reader : Reader) : Option Reader :=
  if reader.braces then some { reader.take 1 .comma true with candidate := none } else none

/-- Reads the token that begins with `c`, in front of `rest`. -/
def read? (reader : Reader) (c : Char) (rest : Text) : Option Reader :=
  let lineStart := reader.cursor.column = 0
  let alone := reader.braces || atGap rest
  if lineStart && c = '%' then reader.directive?
  else if lineStart && isMark '-' (c :: rest) then reader.mark? .documentStart
  else if lineStart && isMark '.' (c :: rest) then reader.mark? .documentEnd
  else if c = '\x7b' then reader.openBrace?
  else if c = '\x7d' then reader.closeBrace?
  else if c = ',' then reader.comma?
  else if c = '?' && alone then reader.marked? .key
  else if c = ':' && alone then reader.colon?
  else if c = '*' then reader.name? .reference
  else if c = '&' then reader.name? .anchor
  else if c = '!' then reader.tag?
  else if c = '|' && !reader.braces then reader.lines? true
  else if c = '>' && !reader.braces then reader.lines? false
  else if c = '\'' then reader.quoted? (Quoted.single? [])
  else if c = '"' then reader.quoted? (Quoted.double? [])
  else if isGap c || "[]|>%@\x60".toList.contains c || (c = '-' && atGap rest) then none
  else reader.plain?

def skip (reader : Reader) : Reader :=
  let braces := reader.braces
  let (begun, cursor) := Cursor.skipFrom braces (braces || !reader.keyAllowed) false
    reader.cursor.line reader.cursor.column reader.cursor.rest
  { reader with cursor, keyAllowed := reader.keyAllowed || begun }

def run? (reader : Reader) : Option (List Token) :=
  match reader.skip.expire?.map dedent with
  | none => none
  | some next =>
      match next.cursor.rest with
      | [] => next.endBlock.dismiss?.map tokens
      | c :: rest =>
          match next.read? c rest with
          | none => none
          | some later =>
              if later.cursor.rest.length < reader.cursor.rest.length then later.run? else none
termination_by reader.cursor.rest.length

end Reader

def Token.ofText? (text : Text) : Option (List Token) :=
  (Reader.start text).run?

end RadixRouter.Yaml
