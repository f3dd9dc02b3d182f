import RadixRouter.Tree.Basic
import RadixRouter.Params

/-!
Resolution of a path. At every place labels are tried before the wildcard, and a way that leads
nowhere is left again. A miss tells whether one slash more or less at the end would have been a
match.
-/

namespace RadixRouter

/-- What a path resolves to. -/
inductive Lookup (α : Type) where
  /-- The value of the matched route and the text of its wildcards. -/
  | hit (value : α) (params : Params)
  /-- No match; `slash` tells whether the path with one slash added or removed at its end has
  one. -/
  | miss (slash : Bool)
  deriving DecidableEq, Repr

variable {α : Type}

namespace Lookup

def value? : Lookup α → Option α
  | hit value _ => some value
  | miss _ => none

def params : Lookup α → Params
  | hit _ params => params
  | miss _ => []

/-- Whether the lookup missed and a change of the last slash helps. -/
def slash : Lookup α → Bool
  | hit _ _ => false
  | miss slash => slash

def isHit (lookup : Lookup α) : Bool :=
  lookup.value?.isSome

/-- The first hit of the two; a miss of both keeps either hint. -/
def orElse : Lookup α → (Unit → Lookup α) → Lookup α
  | hit value params, _ => hit value params
  | miss slash, next =>
      match next () with
      | hit value params => hit value params
      | miss slash' => miss (slash || slash')

/-- Puts a binding in front of those of a hit. -/
def bind (name value : Text) : Lookup α → Lookup α
  | hit found params => hit found (⟨name, value⟩ :: params)
  | miss slash => miss slash

end Lookup

/-- Resolves along `label` and goes on with `deeper`. A path that lacks just the label's final
slash gets the hint. -/
def Lookup.along (label : Text) (node : Node α) (path : Text) (deeper : Text → Lookup α) :
    Lookup α :=
  match Text.after? label path with
  | some rest => deeper rest
  | none => .miss (label = path ++ ['/'] && node.terminates)

mutual

/-- Resolves the rest of a path at a place. -/
def Node.lookup : Node α → Text → Lookup α
  | .mk held _ _ ways, [] =>
      match held with
      | some value => .hit value []
      | none =>
          match ways.catchAll? with
          | some (name, value, _) => .hit value [⟨name, []⟩]
          | none => .miss ways.hasSlashLeaf
  | .mk held _ _ ways, c :: rest =>
      (ways.lookup (c :: rest)).orElse fun _ => .miss (c :: rest = ['/'] && held.isSome)

/-- Resolves the rest of a path, which is not empty, along the first way that matches. -/
def Ways.lookup : Ways α → Text → Lookup α
  | .none, _ => .miss false
  | .literal label next others, rest =>
      (Lookup.along label next rest fun deeper => next.lookup deeper).orElse fun _ =>
        others.lookup rest
  | .param name next, rest =>
      if Text.upTo '/' rest = [] then .miss false
      else (next.lookup (Text.fromNext '/' rest)).bind name (Text.upTo '/' rest)
  | .catchAll name value _, rest => .hit value [⟨name, rest⟩]

end

/-- Resolves `path` in the tree, character by character. -/
def Tree.lookup (tree : Tree α) (path : Text) : Lookup α :=
  match tree with
  | .empty => .miss false
  | .root label node => Lookup.along label node path node.lookup

end RadixRouter
