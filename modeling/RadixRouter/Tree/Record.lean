import RadixRouter.Pattern.Scan
import RadixRouter.Text.Boundary
import RadixRouter.Tree.Layout

/-!
Registration as it runs over the plain fields of a tree. The rest of the pattern is taken along with
the byte offset at which it begins; text is cut out at byte offsets, and children are taken by their
positions. There is no result when a cut would fall into a character, when no child stands at a
position, or when more rounds are needed than are given.
-/

namespace RadixRouter

/-- The fields of a place. -/
structure Record (α : Type) where
  segment : Text
  kind : NodeKind
  name : Option Text
  wildChild : Bool
  indices : Text
  children : List (Layout α)
  priority : Nat
  value : Option α
  pattern : Text

variable {α : Type}

def Layout.record : Layout α → Record α
  | .mk segment kind name wildChild indices children priority value pattern =>
      ⟨segment, kind, name, wildChild, indices, children, priority, value, pattern⟩

namespace Record

def layout (place : Record α) : Layout α :=
  .mk place.segment place.kind place.name place.wildChild place.indices place.children
    place.priority place.value place.pattern

/-- A place with nothing behind it. -/
def blank (kind : NodeKind) (pattern : Text) : Record α :=
  ⟨[], kind, none, false, [], [], 0, none, pattern⟩

def ofWildcard? (kind : NodeKind) (wildcard pattern : Text) : Option (Record α) := do
  let name ← Text.fromByte? 1 wildcard
  some ⟨wildcard, kind, some name, false, [], [], 1, none, pattern⟩

/-- Counts a route more at and behind a place. -/
def counted (place : Record α) : Record α :=
  { place with priority := place.priority + 1 }

def catchAllChild? (place : Record α) : Option (Layout α) :=
  if place.wildChild then place.children.getLast?.filter (·.record.kind = .catchAll) else none

/-! ### New places -/

/-- Puts a wildcard behind the other children. -/
def attach (place wild : Record α) : Record α :=
  { place with wildChild := true, children := place.children ++ [wild.layout] }

/-- The text in front of a wildcard, or the segment as it is when there is none. -/
def leading? (start : Nat) (rest segment : Text) : Option Text :=
  if 0 < start then Text.upToByte? start rest else some segment

/-- The text from a wildcard on. -/
def trailing? (start : Nat) (rest : Text) : Option Text :=
  if 0 < start then Text.fromByte? start rest else some rest

/-- Leads on from a place along `rest`, up to where the route ends. -/
def fill? (pattern : Text) (value : α) :
    (rounds : Nat) → (rest : Text) → Record α → Option (Record α)
  | 0, _, _ => none
  | rounds + 1, rest, place => do
      match ← Pattern.search? rest with
      | .absent => some { place with segment := rest, value := some value, pattern := pattern }
      | .found wildcard start =>
          let segment ← leading? start rest place.segment
          let place := { place with segment := segment }
          if wildcard.head? = some ':' then
            let rest ← trailing? start rest
            let param ← ofWildcard? .param wildcard pattern
            if Text.byteLength wildcard < Text.byteLength rest then
              let deeper ← Text.fromByte? (Text.byteLength wildcard) rest
              let next ← fill? pattern value rounds deeper (blank .literal pattern).counted
              some (place.attach { param with indices := ['/'], children := [next.layout] })
            else some (place.attach { param with value := some value })
          else
            let catchAll ← ofWildcard? .catchAll wildcard pattern
            some (place.attach { catchAll with value := some value })

/-- Counts a route and leads on to where it ends. -/
def grow? (pattern : Text) (value : α) (rest : Text) (place : Record α) : Option (Record α) :=
  fill? pattern value (rest.length + 1) rest place.counted

/-! ### Places that are there -/

/-- Cuts the segment behind `shared` bytes, if there is more to it: all that the place was is then
the one child of what is in front of the cut. -/
def split? (pattern : Text) (depth shared : Nat) (place : Record α) : Option (Record α) :=
  if shared < Text.byteLength place.segment then do
    let back ← Text.fromByte? shared place.segment
    let front ← Text.upToByte? shared place.segment
    let noted ← Text.upToByte? (depth + shared) pattern
    let half : Record α := { place with segment := back, kind := .literal, name := none }
    some { place with
      segment := front, wildChild := false, indices := back.head?.toList,
      children := [half.layout], value := none, pattern := noted }
  else some place

def claim (pattern : Text) (value : α) (place : Record α) : Record α × Except RouteError Unit :=
  if place.value.isSome then (place, .error (.duplicate [] pattern))
  else match place.catchAllChild? with
    | some existing => (place, .error (.catchAllConflict pattern existing.record.pattern))
    | none =>
        ({ place.counted with value := some value, pattern := pattern }, .ok ())

/-- Moves the child at `position`, which leads to so many routes, in front of those that lead to
fewer, and its index character with it. -/
def promote? (priority : Nat) : (position : Nat) → Record α → Option (Record α)
  | 0, place => some place
  | position + 1, place => do
      let before ← place.children[position]?
      if before.record.priority < priority then
        let moved ← place.children[position + 1]?
        let index ← place.indices[position]?
        let movedIndex ← place.indices[position + 1]?
        promote? priority position { place with
          children := (place.children.set position moved).set (position + 1) before
          indices := (place.indices.set position movedIndex).set (position + 1) index }
      else some place

def reorder? (position : Nat) (place : Record α) : Option (Record α) := do
  let child ← place.children[position]?
  promote? child.record.priority position place

/-- Registers at the child at `position`, and counts the route if it is accepted there. -/
def descend? (register : Layout α → Option (Layout α × Except RouteError Unit)) (position : Nat)
    (place : Record α) : Option (Record α × Except RouteError Unit) := do
  let child ← place.children[position]?
  let (child', result) ← register child
  let place := { place with children := place.children.set position child' }
  match result with
  | .ok () => some (place.counted, .ok ())
  | .error fault => some (place, .error fault)

/-- Whether `rest` goes on with the wildcard, and not with a longer name. -/
def goesOnWith? (wildcard rest : Text) : Option Bool :=
  if wildcard.isPrefixOf rest then do
    let behind ← Text.fromByte? (Text.byteLength wildcard) rest
    some (behind.head?.all (· = '/'))
  else some false

/-- Registers what goes on with the character `c`: at the child with this index, or as a new one. -/
def addLiteral? (register : Layout α → Option (Layout α × Except RouteError Unit)) (pattern : Text)
    (value : α) (c : Char) (rest : Text) (place : Record α) :
    Option (Record α × Except RouteError Unit) :=
  match place.indices.idxOf? c with
  | some position => do
      match ← place.descend? register position with
      | (place, .ok ()) =>
          let place ← place.reorder? position
          some (place, .ok ())
      | (place, .error fault) => some (place, .error fault)
  | none =>
      match place.catchAllChild? with
      | some existing =>
          some (place, .error (.catchAllConflict pattern existing.record.pattern))
      | none => do
          let child ← (blank .literal pattern).grow? pattern value rest
          let position := place.indices.length
          let place ← reorder? position { place.counted with
            indices := place.indices ++ [c]
            children := place.children.insertIdx position child.layout }
          some (place, .ok ())

/-- Why a catch-all cannot begin here, where no wildcard is. -/
def mountFault? (pattern : Text) (place : Record α) : Option RouteError :=
  match place.children.head? with
  | some sibling => some (.catchAllConflict pattern sibling.record.pattern)
  | none => if place.value.isSome then some (.catchAllConflict pattern place.pattern) else none

/-- Registers what goes on with a wildcard, at byte `depth` of the pattern: at the wildcard that is
there, if it is the same, or as a new one. -/
def addWildcard? (register : Layout α → Option (Layout α × Except RouteError Unit))
    (pattern : Text) (value : α) (depth : Nat) (rest : Text) (place : Record α) :
    Option (Record α × Except RouteError Unit) :=
  if place.wildChild then
    match place.children.getLast? with
    | none => some (place, .ok ())
    | some child => do
        let existing := child.record
        let same ← goesOnWith? existing.segment rest
        if same && existing.kind = .catchAll then some (place, .error (.duplicate [] pattern))
        else if same then place.descend? register (place.children.length - 1)
        else
          let segment := if existing.kind = .catchAll then rest else Text.upTo '/' rest
          let above ← Text.upToByte? depth pattern
          some (place, .error
            (.wildcardConflict segment pattern existing.segment (above ++ existing.segment)))
  else match if rest.head? = some '*' then place.mountFault? pattern else none with
    | some fault => some (place, .error fault)
    | none => do
        let place ← place.grow? pattern value rest
        some (place, .ok ())

/-- Registers, at a place that the pattern has been followed to, what goes on with `rest`. -/
def addRest? (register : Layout α → Option (Layout α × Except RouteError Unit)) (pattern : Text)
    (value : α) (depth : Nat) (rest : Text) (place : Record α) :
    Option (Record α × Except RouteError Unit) :=
  match rest.head? with
  | none => some (place, .ok ())
  | some c =>
      if Pattern.isMark c then place.addWildcard? register pattern value depth rest
      else place.addLiteral? register pattern value c rest

/-- Registers behind a place the part of the pattern that begins at byte `depth`. -/
def addWithin? (pattern : Text) (value : α) :
    (rounds depth : Nat) → (path : Text) → Layout α → Option (Layout α × Except RouteError Unit)
  | 0, _, _, _ => none
  | rounds + 1, depth, path, node => do
      let shared := Text.sharedOffset path node.record.segment
      let place ← node.record.split? pattern depth shared
      if shared = Text.byteLength path then
        let (place, result) := place.claim pattern value
        some (place.layout, result)
      else
        let rest ← Text.fromByte? shared path
        let (place, result) ← place.addRest?
          (addWithin? pattern value rounds (depth + shared) rest) pattern value (depth + shared)
          rest
        some (place.layout, result)

end Record

/-- Registers `value` under `pattern` in a laid-out tree. -/
def Layout.insert? (pattern : Text) (value : α) (root : Layout α) :
    Option (Layout α × Except RouteError Unit) :=
  match Pattern.check pattern with
  | .error fault => some (root, .error fault)
  | .ok () =>
      if root.record.segment.isEmpty && root.record.children.isEmpty then do
        let place ← root.record.grow? pattern value pattern
        some ({ place with kind := .root }.layout, .ok ())
      else Record.addWithin? pattern value (pattern.length + 1) 0 pattern root

/-- Registers one route after the other in a laid-out tree and goes on after a refusal. -/
def Layout.insertAll? (root : Layout α) : List (Text × α) → Option (Layout α)
  | [] => some root
  | (pattern, value) :: later => do
      let (root, _) ← root.insert? pattern value
      root.insertAll? later

end RadixRouter
