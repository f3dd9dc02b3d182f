import RadixRouter.Tree.Basic
import RadixRouter.Text.Fold

/-!
Repair of a path whose letters have the wrong case, and on request of one whose final slash is
missing or superfluous. The repaired path has the spelling of the tree where the route is literal
and the spelling of the request where a wildcard takes it.
-/

namespace RadixRouter

variable {α : Type}

/-- Repairs along `label`, which leads to `node`, and goes on with `deeper`. A path that lacks just
the label's final slash gets it on request. -/
def Node.repairAlong (fixSlash : Bool) (label : Text) (node : Node α) (path : Text)
    (deeper : Text → Option Text) : Option Text :=
  match Text.afterFold? label path with
  | some rest => (deeper rest).map (label ++ ·)
  | none =>
      if fixSlash && Text.afterFold? path label = some ['/'] && node.terminates then some label
      else none

mutual

/-- The repaired form of the rest of a path at a place. -/
def Node.repair (fixSlash : Bool) : Node α → Text → Option Text
  | .mk held pattern priority ways, [] =>
      if (Node.mk held pattern priority ways).terminates then some []
      else if fixSlash && ways.hasSlashLeaf then some ['/']
      else none
  | .mk held _ _ ways, c :: rest =>
      match ways.repair fixSlash (c :: rest) with
      | some repaired => some repaired
      | none => if fixSlash && c :: rest = ['/'] && held.isSome then some [] else none

/-- The repaired form of the rest of a path, which is not empty, along the first way that has
one. -/
def Ways.repair (fixSlash : Bool) : Ways α → Text → Option Text
  | .none, _ => none
  | .literal label next others, rest =>
      match Node.repairAlong fixSlash label next rest fun deeper => next.repair fixSlash deeper with
      | some repaired => some repaired
      | none => others.repair fixSlash rest
  | .param _ next, rest =>
      if Text.upTo '/' rest = [] then none
      else (next.repair fixSlash (Text.fromNext '/' rest)).map (Text.upTo '/' rest ++ ·)
  | .catchAll _ _ _, rest => some rest

end

/-- The path that `path` was meant to be, if the tree has a route for it. -/
def Tree.repair (tree : Tree α) (fixSlash : Bool) (path : Text) : Option Text :=
  match tree with
  | .empty => none
  | .root label node => Node.repairAlong fixSlash label node path (node.repair fixSlash)

end RadixRouter
