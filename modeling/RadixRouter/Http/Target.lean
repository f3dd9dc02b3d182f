import RadixRouter.Text.Utf8

/-!
Request targets: origin form, absolute form, authority form and the asterisk, reduced to what
routing needs, a path and a query. A fragment is dropped.
-/

namespace RadixRouter

/-- The path and the query of a request target. -/
structure Target where
  path : Text
  /-- The text behind the question mark, if there is one. -/
  query : Option Text
  deriving DecidableEq, Repr

namespace Target

/-- The characters of a path that need no percent-coding, and those that are tolerated without
it. -/
def isPathChar (c : Char) : Bool :=
  let n := c.toNat
  n = 0x21 || n = 0x22 || (0x24 ≤ n && n ≤ 0x3B) || n = 0x3D || (0x40 ≤ n && n ≤ 0x5F)
    || (0x61 ≤ n && n ≤ 0x7E) || 0x80 ≤ n

def isQueryChar (c : Char) : Bool :=
  let n := c.toNat
  n = 0x21 || (0x24 ≤ n && n ≤ 0x3B) || n = 0x3D || (0x3F ≤ n && n ≤ 0x7E) || 0x80 ≤ n

/-- The characters that may stand in an authority unescaped. -/
def isAuthorityChar (c : Char) : Bool :=
  c.isAlphanum || "!$&'()*+,-.:;=@[]_~".toList.contains c

def isSchemeChar (c : Char) : Bool :=
  c.isAlphanum || "+-.~".toList.contains c

def maxSchemeLength : Nat := 64

/-- The longest target, in bytes. -/
def maxByteLength : Nat := 65534

def endsAuthority (c : Char) : Bool :=
  c = '/' || c = '?' || c = '#'

/-- What has been seen of an authority: colons that may introduce a port, brackets, a percent sign
outside user info and brackets, and whether the last character was an at sign. -/
structure AuthorityScan where
  colons : Nat
  opened : Bool
  closed : Bool
  percent : Bool
  afterAt : Bool

/-- Reads one character of an authority, if it may stand there. -/
def AuthorityScan.step (s : AuthorityScan) (c : Char) : Option AuthorityScan :=
  let s := { s with afterAt := false }
  if c = ':' then (if s.colons < 8 then some { s with colons := s.colons + 1 } else none)
  else if c = '[' then
    if s.percent || s.opened then none else some { s with opened := true }
  else if c = ']' then
    if !s.opened || s.closed then none
    else some { s with closed := true, colons := 0, percent := false }
  else if c = '@' then some { s with colons := 0, percent := false, afterAt := true }
  else if c = '%' then some { s with percent := true }
  else if isAuthorityChar c then some s
  else none

/-- Whether `text` is an authority: one colon at most outside brackets and user info, brackets in
a pair, something behind a final at sign. -/
def isAuthority (text : Text) : Bool :=
  match text.foldlM AuthorityScan.step ⟨0, false, false, false, false⟩ with
  | some s => (s.opened == s.closed) && s.colons ≤ 1 && !s.afterAt && !s.percent
  | none => false

def ofPathAndQuery? (text : Text) : Option Target :=
  let text := Text.upTo '#' text
  let path := Text.upTo '?' text
  if path.all isPathChar then
    match Text.fromNext '?' text with
    | [] => some ⟨path, none⟩
    | _ :: query => if query.all isQueryChar then some ⟨path, some query⟩ else none
  else none

/-- How a text that is not in origin form begins. -/
inductive SchemeScan where
  /-- No scheme in front. -/
  | absent
  /-- A scheme too long to be one. -/
  | tooLong
  /-- What follows the scheme and its two slashes. -/
  | present (rest : Text)

def scanScheme (text : Text) : SchemeScan :=
  match Text.after? [':', '/', '/'] (text.dropWhile isSchemeChar) with
  | some rest =>
      if (text.takeWhile isSchemeChar).length > maxSchemeLength then .tooLong else .present rest
  | none => .absent

/-- Reads an absolute target behind its scheme. -/
def ofHierarchy? (rest : Text) : Option Target :=
  let authority := rest.takeWhile (!endsAuthority ·)
  if authority ≠ [] && isAuthority authority then
    (ofPathAndQuery? (rest.dropWhile (!endsAuthority ·))).map fun t =>
      if t.path = [] then { t with path := ['/'] } else t
  else none

def ofText? (text : Text) : Option Target :=
  if Text.byteLength text > maxByteLength then none
  else match text with
    | [] => none
    | ['*'] => some ⟨['*'], none⟩
    | '/' :: _ => ofPathAndQuery? text
    | _ =>
        match scanScheme text with
        | .present rest => ofHierarchy? rest
        | .tooLong => none
        | .absent => if isAuthority text then some ⟨[], none⟩ else none

end Target

end RadixRouter
