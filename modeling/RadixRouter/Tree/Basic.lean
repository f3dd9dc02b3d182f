import RadixRouter.Text.Utf8

/-!
The route tree. Routes that begin alike share the way to where they part. A `Node` is a place
that some front of a path leads to; its `Ways` lead on: literal labels in the order in which they
are tried, then at most one wildcard. That a wildcard comes last, stands alone, and that nothing
follows a catch-all is part of the type.
-/

namespace RadixRouter

mutual

/-- A place in the tree: the value of the route that ends here, the pattern that made or last
claimed the place, how many routes end here or further on, and the ways on. The count is a natural
number; a word of 32 bits holds the same one in a tree of less than `2 ^ 32` routes. -/
inductive Node (α : Type) where
  | mk (value : Option α) (pattern : Text) (priority : Nat) (ways : Ways α)

/-- The ways on from a place. -/
inductive Ways (α : Type) where
  /-- No way on. -/
  | none
  /-- Along the characters of `label`, and the ways after it in order. -/
  | literal (label : Text) (next : Node α) (others : Ways α)
  /-- Along one path element, whatever it is. -/
  | param (name : Text) (next : Node α)
  /-- Along the whole rest of the path, where the route of `value` ends. -/
  | catchAll (name : Text) (value : α) (pattern : Text)

end

/-- The routes of one method: nothing yet, or a first label and the place it leads to. -/
inductive Tree (α : Type) where
  | empty
  | root (label : Text) (node : Node α)

variable {α : Type}

namespace Node

def value : Node α → Option α
  | mk value _ _ _ => value

def pattern : Node α → Text
  | mk _ pattern _ _ => pattern

def priority : Node α → Nat
  | mk _ _ priority _ => priority

def ways : Node α → Ways α
  | mk _ _ _ ways => ways

/-- The place where the one route `pattern` ends. -/
def leaf (pattern : Text) (value : α) : Node α :=
  mk (some value) pattern 1 .none

end Node

namespace Ways

/-- The catch-all among the ways: its name, value and pattern. -/
def catchAll? : Ways α → Option (Text × α × Text)
  | literal _ _ others => others.catchAll?
  | catchAll name value pattern => some (name, value, pattern)
  | _ => Option.none

end Ways

namespace Node

/-- Whether a path that ends here is matched: a route ends here, or a catch-all begins here and
takes the empty rest. -/
def terminates (node : Node α) : Bool :=
  node.value.isSome || node.ways.catchAll?.isSome

end Node

namespace Ways

/-- Whether a slash alone leads from here to the end of a route. -/
def hasSlashLeaf : Ways α → Bool
  | literal label next others => (label = ['/'] && next.terminates) || others.hasSlashLeaf
  | _ => false

end Ways

mutual

/-- The patterns of the routes at and after a place, in the order in which they are tried. -/
def Node.patterns : Node α → List Text
  | .mk value pattern _ ways => (if value.isSome then [pattern] else []) ++ ways.patterns

/-- The patterns of the routes along the ways, in the order in which they are tried. -/
def Ways.patterns : Ways α → List Text
  | .none => []
  | .literal _ next others => next.patterns ++ others.patterns
  | .param _ next => next.patterns
  | .catchAll _ _ pattern => [pattern]

end

namespace Tree

/-- The registered patterns in the order in which they are tried. -/
def patterns : Tree α → List Text
  | empty => []
  | root _ node => node.patterns

/-- How many routes the tree holds. -/
def priority : Tree α → Nat
  | empty => 0
  | root _ node => node.priority

def isEmpty (tree : Tree α) : Bool :=
  tree.priority = 0

end Tree

end RadixRouter
