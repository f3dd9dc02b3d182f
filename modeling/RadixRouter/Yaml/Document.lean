import RadixRouter.Yaml.Token

/-!
Documents: one mapping of scalars, or nothing. A scalar may be given a name with an anchor, and a
reference stands for the scalar of that name.
-/

namespace RadixRouter.Yaml

/-- A scalar with the whole name of its tag. -/
structure Scalar where
  tag : Option Text
  text : Text
  style : ScalarStyle
  deriving DecidableEq, Repr

/-- A key or a value. -/
inductive Node where
  | scalar (anchor : Option Text) (scalar : Scalar)
  | reference (name : Text)
  deriving DecidableEq, Repr

/-- A document: the anchor of its mapping, and the entries in their order. -/
structure Document where
  anchor : Option Text := none
  entries : List (Node × Node) := []
  deriving DecidableEq, Repr

/-- The anchor and the tag in front of a node. -/
structure Properties where
  anchor : Option Text
  tag : Option Tag

/-- Reads an anchor and a tag, in either order and each at most once. -/
def Properties.ofTokens : List Token → Properties × List Token
  | .anchor name :: .tag tag :: rest => (⟨some name, some tag⟩, rest)
  | .tag tag :: .anchor name :: rest => (⟨some name, some tag⟩, rest)
  | .anchor name :: rest => (⟨some name, none⟩, rest)
  | .tag tag :: rest => (⟨none, some tag⟩, rest)
  | rest => (⟨none, none⟩, rest)

/-- The whole name of the tag, if there is one and its handle is known. -/
def Properties.name? (handles : List (Text × Text)) (properties : Properties) :
    Option (Option Text) :=
  match properties.tag with
  | none => some none
  | some tag => (tag.resolve? handles).map some

def Node.ofTokens? (handles : List (Text × Text)) (tokens : List Token) :
    Option (Node × List Token) :=
  match tokens with
  | .reference name :: rest => some (.reference name, rest)
  | tokens => do
      let (properties, rest) := Properties.ofTokens tokens
      let tag ← properties.name? handles
      match rest with
      | .scalar text style :: rest => return (.scalar properties.anchor ⟨tag, text, style⟩, rest)
      | _ => none

def entry? (handles : List (Text × Text)) (tokens : List Token) :
    Option ((Node × Node) × List Token) :=
  match tokens with
  | .key :: rest => do
      let (key, rest) ← Node.ofTokens? handles rest
      match rest with
      | .value :: rest =>
          let (value, rest) ← Node.ofTokens? handles rest
          return ((key, value), rest)
      | _ => none
  | _ => none

/-- Reads the entries of a block up to its end. There are no more of them than `bound`. -/
def blockEntries? (handles : List (Text × Text)) :
    (bound : Nat) → List Token → Option (List (Node × Node) × List Token)
  | _, .blockEnd :: rest => some ([], rest)
  | 0, _ => none
  | bound + 1, tokens => do
      let (entry, rest) ← entry? handles tokens
      let (entries, rest) ← blockEntries? handles bound rest
      return (entry :: entries, rest)

/-- Reads the entries in braces up to the closing one; a comma may follow the last entry. There are
no more of them than `bound`. -/
def braceEntries? (handles : List (Text × Text)) :
    (bound : Nat) → List Token → Option (List (Node × Node) × List Token)
  | _, .braceClose :: rest => some ([], rest)
  | 0, _ => none
  | bound + 1, tokens => do
      let (entry, rest) ← entry? handles tokens
      match rest with
      | .comma :: rest =>
          let (entries, rest) ← braceEntries? handles bound rest
          return (entry :: entries, rest)
      | .braceClose :: rest => return ([entry], rest)
      | _ => none

/-- Whether a document has no content where `tokens` follow its beginning. -/
def endsAtOnce (tokens : List Token) : Bool :=
  match tokens with
  | [] | .documentStart :: _ | .documentEnd :: _ | .version .. :: _ | .tagHandle .. :: _ => true
  | _ => false

namespace Document

/-- Reads the content of a document. A tag or an anchor alone stands for nothing. -/
def content? (handles : List (Text × Text)) (tokens : List Token) :
    Option (Document × List Token) := do
  let (properties, rest) := Properties.ofTokens tokens
  let _ ← properties.name? handles
  match rest with
  | .blockStart :: rest =>
      let (entries, rest) ← blockEntries? handles rest.length rest
      return (⟨properties.anchor, entries⟩, rest)
  | .braceOpen :: rest =>
      let (entries, rest) ← braceEntries? handles rest.length rest
      return (⟨properties.anchor, entries⟩, rest)
  | .scalar .. :: _ => none
  | rest => if properties.anchor.isSome || properties.tag.isSome then return ({}, rest) else none

/-- What directives declare: whether the version is known, and the handles of tags. -/
structure Declarations where
  versioned : Bool := false
  handles : List (Text × Text) := []

/-- Reads the directives of a document up to the mark of its beginning. The version has to be 1.1
or 1.2, and nothing is declared twice. -/
def declarations? (declared : Declarations) : List Token → Option (Declarations × List Token)
  | .version major minor :: rest =>
      if declared.versioned || major ≠ 1 || !(minor = 1 || minor = 2) then none
      else declarations? { declared with versioned := true } rest
  | .tagHandle handle name :: rest =>
      if (declared.handles.lookup handle).isSome then none
      else declarations? { declared with handles := (handle, name) :: declared.handles } rest
  | .documentStart :: rest => some (declared, rest)
  | _ => none

/-- Reads the one document of a text. -/
def ofTokens? (tokens : List Token) : Option Document := do
  if tokens = [] then return {}
  let (document, rest) ←
    if endsAtOnce tokens then do
      let (declared, rest) ← declarations? {} tokens
      if endsAtOnce rest then some ({}, rest) else content? declared.handles rest
    else content? [] tokens
  if rest.all (· = .documentEnd) then return document else none

/-- Reads a text that has no more than one document. -/
def ofText? (text : Text) : Option Document :=
  if text.all isAllowed then (Token.ofText? (unifyBreaks text)).bind ofTokens? else none

end Document

/-- The scalars with anchors. Each name belongs to a number, and each number to what got it last;
a name that is used again gets the number of names used so far. -/
structure Anchors where
  numbers : List (Text × Nat) := []
  targets : List (Nat × Option Scalar) := []

namespace Anchors

/-- Gives a name to a scalar, or to what is none. -/
def define (anchors : Anchors) (name : Text) (target : Option Scalar) : Anchors :=
  let number := anchors.numbers.length
  { numbers := (name, number) :: anchors.numbers.filter (·.1 ≠ name)
    targets := (number, target) :: anchors.targets }

/-- The scalar that belongs to a number in the end. -/
def target? (anchors : Anchors) (number : Nat) : Option Scalar :=
  (anchors.targets.lookup number).bind id

/-- Looks the name of a reference up, and defines that of an anchor. -/
def visit? (anchors : Anchors) : Node → Option (Anchors × (Scalar ⊕ Nat))
  | .scalar name scalar => some (name.elim anchors (anchors.define · (some scalar)), .inl scalar)
  | .reference name => (anchors.numbers.lookup name).map fun number => (anchors, .inr number)

/-- Visits the nodes of a document in their order. -/
def visitAll? (anchors : Anchors) : List Node → Option (Anchors × List (Scalar ⊕ Nat))
  | [] => some (anchors, [])
  | node :: nodes => do
      let (anchors, place) ← anchors.visit? node
      let (anchors, places) ← anchors.visitAll? nodes
      return (anchors, place :: places)

end Anchors

/-- The keys and values of a document, one after the other, with the scalars that references stand
for. -/
def Document.scalars? (document : Document) : Option (List Scalar) := do
  let anchors := document.anchor.elim {} (Anchors.define {} · none)
  let (anchors, places) ←
    anchors.visitAll? (document.entries.flatMap fun (key, value) => [key, value])
  places.mapM fun
    | .inl scalar => some scalar
    | .inr number => anchors.target? number

end RadixRouter.Yaml
