import RadixRouter.Tree.Basic

/-!
The tree laid out for inspection: every place with the segment that leads to it, as a record of
plain fields.
-/

namespace RadixRouter

/-- How a place is reached. -/
inductive NodeKind where
  /-- The first place of a tree. -/
  | root
  /-- Along a literal label. -/
  | literal
  /-- Along one path element. -/
  | param
  /-- Along the whole rest of a path. -/
  | catchAll
  deriving DecidableEq, Repr

/-- A place and all that lies behind it. -/
inductive Layout (α : Type) where
  | mk (segment : Text) (kind : NodeKind) (name : Option Text) (wildChild : Bool)
      (indices : Text) (children : List (Layout α)) (priority : Nat) (value : Option α)
      (pattern : Text)

variable {α : Type}

def Ways.hasWildcard : Ways α → Bool
  | .none => false
  | .literal _ _ others => others.hasWildcard
  | .param _ _ => true
  | .catchAll _ _ _ => true

/-- The first characters of the labels, in order. -/
def Ways.indices : Ways α → Text
  | .literal label _ others => label.head?.toList ++ others.indices
  | _ => []

mutual

/-- Lays out a place that `segment` leads to. -/
def Node.layout (segment : Text) (kind : NodeKind) (name : Option Text) : Node α → Layout α
  | .mk value pattern priority ways =>
      .mk segment kind name ways.hasWildcard ways.indices ways.layouts priority value pattern

/-- Lays out the places that the ways lead to. -/
def Ways.layouts : Ways α → List (Layout α)
  | .none => []
  | .literal label next others => next.layout label .literal none :: others.layouts
  | .param name next => [next.layout (':' :: name) .param (some name)]
  | .catchAll name value pattern =>
      [.mk ('*' :: name) .catchAll (some name) false [] [] 1 (some value) pattern]

end

def Tree.layout : Tree α → Layout α
  | .empty => .mk [] .root none false [] [] 0 none []
  | .root label node => node.layout label .root none

end RadixRouter
