import RadixRouter.Yaml.Character

/-!
Tags: a handle, which stands for the front of a name that has been declared, and the rest of the
name. Bytes can be written as a percent sign and two hexadecimal digits, if they make up characters.
-/

namespace RadixRouter.Yaml

/-- A tag as it is written. The handle is empty where the whole name is given. -/
structure Tag where
  handle : Text
  suffix : Text
  deriving DecidableEq, Repr

namespace Tag

def isUriChar (c : Char) : Bool :=
  isNameChar c || ";/?:@&=+$.!~*'()".toList.contains c

/-- How many bytes follow the first byte of a character. -/
def following? (byte : Nat) : Option Nat :=
  if byte < 0x80 then some 0
  else if byte < 0xC0 then none
  else if byte < 0xE0 then some 1
  else if byte < 0xF0 then some 2
  else if byte < 0xF8 then some 3
  else none

/-- How many bytes of a character are left behind a byte, where `pending` were left before it. -/
def left? (pending byte : Nat) : Option Nat :=
  if pending = 0 then following? byte
  else if 0x80 ≤ byte && byte < 0xC0 then some (pending - 1)
  else none

/-- Reads a name, in the middle of a character of which `pending` bytes are left. Between angle
brackets commas and square brackets belong to it. -/
def uri? (bracketed : Bool) (pending : Nat) : Text → Option (Text × Text)
  | '%' :: high :: low :: rest => do
      let byte ← hex? [high, low]
      let pending ← left? pending byte
      let (name, rest) ← uri? bracketed pending rest
      return (Char.ofNat byte :: name, rest)
  | c :: rest =>
      if pending ≠ 0 || c = '%' then none
      else if isUriChar c || (bracketed && ",[]".toList.contains c) then
        (uri? bracketed 0 rest).map fun (name, rest) => (c :: name, rest)
      else some ([], c :: rest)
  | [] => if pending = 0 then some ([], []) else none

/-- Reads a name that is not empty. A zero byte ends what counts of it. -/
def name? (bracketed : Bool) (text : Text) : Option (Text × Text) := do
  let (name, rest) ← uri? bracketed 0 text
  if name = [] then none else return (Text.upTo '\x00' name, rest)

/-- Reads a tag behind its exclamation mark. -/
def ofFront? (text : Text) : Option (Tag × Text) :=
  let front := text.takeWhile isNameChar
  match text, text.dropWhile isNameChar with
  | '<' :: text, _ => do
      let (name, rest) ← name? true text
      match rest with
      | '>' :: rest => return (⟨[], name⟩, rest)
      | _ => none
  | _, '!' :: text => do
      let (name, rest) ← name? false text
      return (⟨'!' :: front ++ ['!'], name⟩, rest)
  | _, _ => do
      let (name, rest) ← uri? false 0 text
      let name := Text.upTo '\x00' name
      return (if name = [] then ⟨[], ['!']⟩ else ⟨['!'], name⟩, rest)

/-- Reads what a directive declares: a handle, and the front of a name that it stands for. -/
def declaration? (text : Text) : Option (Text × Text × Text) :=
  match text with
  | '!' :: text => do
      let front := text.takeWhile isNameChar
      let (handle, rest) ← match text.dropWhile isNameChar with
        | '!' :: rest => some ('!' :: front ++ ['!'], rest)
        | rest => if front = [] then some (['!'], rest) else none
      if !rest.head?.any isSpace then none
      let (name, rest) ← name? true (rest.dropWhile isSpace)
      if atGap rest then return (handle, name, rest) else none
  | _ => none

/-- The handles that need no declaration. -/
def knownHandles : List (Text × Text) :=
  [(['!'], ['!']), (['!', '!'], "tag:yaml.org,2002:".toList)]

/-- The whole name of a tag. -/
def resolve? (handles : List (Text × Text)) (tag : Tag) : Option Text :=
  if tag.handle = [] then some tag.suffix
  else ((handles ++ knownHandles).lookup tag.handle).map (· ++ tag.suffix)

end Tag

end RadixRouter.Yaml
