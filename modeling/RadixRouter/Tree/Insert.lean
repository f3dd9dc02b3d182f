import RadixRouter.Tree.Basic
import RadixRouter.Pattern.Basic

/-!
Registration. A pattern is followed from the root as far as the tree goes along with it; where
the two part, a label is cut in two or a new way is added. A refusal comes with the tree too: it
may have had a label cut, which no lookup can tell.
-/

namespace RadixRouter

variable {α : Type}

namespace Ways

/-- The ways that lead along `rest` to the end of the route `pattern`. -/
def chain (pattern : Text) (value : α) (rest : Text) : Ways α :=
  match _h : Pattern.cut? rest with
  | Option.none => literal rest (.leaf pattern value) .none
  | some c =>
      let wild : Ways α :=
        if c.mark = '*' then catchAll c.name value pattern
        else if c.rest = [] then param c.name (.leaf pattern value)
        else param c.name (.mk Option.none pattern 1 (chain pattern value c.rest))
      if c.literal = [] then wild else literal c.literal (.mk Option.none pattern 1 wild) .none
termination_by rest.length
decreasing_by exact Pattern.length_rest_lt _h

/-- Adds the ways `more` where they have their place: a label after the other labels, a wildcard
at the end. -/
def graft : (ways more : Ways α) → Ways α
  | none, more => more
  | literal label next others, more => literal label next (others.graft more)
  | wild, literal label next _ => literal label next wild
  | wild, _ => wild

/-- Puts a label in front of the others, or behind the first of them if that one leads to more
routes. -/
def rank (label : Text) (next : Node α) : Ways α → Ways α
  | literal label' next' others =>
      if next.priority < next'.priority then literal label' next' (literal label next others)
      else literal label next (literal label' next' others)
  | others => literal label next others

/-- The wildcard among the ways, as it is written, with whether it is a catch-all. -/
def wildcard? : Ways α → Option (Text × Bool)
  | none => Option.none
  | literal _ _ others => others.wildcard?
  | param name _ => some (':' :: name, false)
  | catchAll name _ _ => some ('*' :: name, true)

/-- The pattern noted where the first way leads. -/
def firstPattern? : Ways α → Option Text
  | none => Option.none
  | literal _ next _ => some next.pattern
  | param _ next => some next.pattern
  | catchAll _ _ pattern => some pattern

end Ways

namespace Node

/-- Ends the route `pattern` here. -/
def claim (pattern : Text) (value : α) : Node α → Node α × Except RouteError Unit
  | node@(mk held _ priority ways) =>
      if held.isSome then (node, .error (.duplicate [] pattern))
      else match ways.catchAll? with
        | some (_, _, existing) => (node, .error (.catchAllConflict pattern existing))
        | none => (mk (some value) pattern (priority + 1) ways, .ok ())

/-- Why the wildcard that begins `rest` cannot stand beside the wildcard `existing`. -/
def wildcardFault (above rest existing : Text) (catchAll : Bool) : RouteError :=
  let segment := Text.upTo '/' rest
  if catchAll && segment = existing then .duplicate [] (above ++ rest)
  else .wildcardConflict (if catchAll then rest else segment) (above ++ rest) existing
    (above ++ existing)

/-- Why the wildcard that begins `rest` cannot be added to a place without one, if it cannot: a
catch-all tolerates neither another way nor a route that ends where it begins. -/
def mountFault? (above rest : Text) : Node α → Option RouteError
  | mk held pattern _ ways =>
      if rest.head? = some '*' then
        match ways.firstPattern? with
        | some existing => some (.catchAllConflict (above ++ rest) existing)
        | none => if held.isSome then some (.catchAllConflict (above ++ rest) pattern) else none
      else none

/-- Adds a way of its own for `rest`, the part of the pattern behind `above` that none of the ways
here goes along with. -/
def sprout (above : Text) (value : α) (rest : Text) :
    Node α → Node α × Except RouteError Unit
  | node@(mk held pattern priority ways) =>
      let grown := mk held pattern (priority + 1) (ways.graft (.chain (above ++ rest) value rest))
      if rest.head?.any Pattern.isMark then
        match ways.wildcard? with
        | some (existing, catchAll) =>
            (node, .error (wildcardFault above rest existing catchAll))
        | none =>
            match node.mountFault? above rest with
            | some fault => (node, .error fault)
            | none => (grown, .ok ())
      else
        match ways.catchAll? with
        | some (_, _, existing) =>
            (node, .error (.catchAllConflict (above ++ rest) existing))
        | none => (grown, .ok ())

/-- Registers at a place whose ways all part from `rest` at once. -/
def place (above : Text) (value : α) (rest : Text) (node : Node α) :
    Node α × Except RouteError Unit :=
  if rest = [] then node.claim above value else node.sprout above value rest

/-- The place in the middle of a label: all that was behind the label is now behind `tail`. -/
def split (pattern tail : Text) (node : Node α) : Node α :=
  mk none pattern node.priority (.literal tail node .none)

/-- Registers behind `label`, which leads from `above` to `node`. Where `rest` leaves the label,
the label is cut; otherwise `deeper` registers the remaining text at the node. -/
def along (above : Text) (value : α) (rest label : Text) (node : Node α)
    (deeper : Text → Node α × Except RouteError Unit) :
    Text × Node α × Except RouteError Unit :=
  let shared := Text.sharedBytes rest label
  if shared < Text.byteLength label then
    let front := Text.takeBytes shared label
    let middle := node.split (above ++ front) (Text.dropBytes shared label)
    (front, middle.place (above ++ front) value (Text.dropBytes shared rest))
  else (label, deeper (Text.dropBytes shared rest))

end Node

mutual

/-- Registers at a place that `above` leads to the route that goes on with `rest`. -/
def Node.insert (above : Text) (value : α) :
    Node α → Text → Node α × Except RouteError Unit
  | .mk held pattern priority ways, rest =>
      if rest = [] then Node.claim above value (.mk held pattern priority ways)
      else match ways.follow above value rest with
        | none => Node.sprout above value rest (.mk held pattern priority ways)
        | some (ways', .ok ()) => (.mk held pattern (priority + 1) ways', .ok ())
        | some (ways', .error fault) => (.mk held pattern priority ways', .error fault)

/-- Registers along the way that goes on as `rest` does, if there is one: the label with the same
first character, or the same parameter. -/
def Ways.follow (above : Text) (value : α) :
    Ways α → Text → Option (Ways α × Except RouteError Unit)
  | .literal label next others, rest =>
      if label.head? = rest.head? then
        let (label', next', result) :=
          Node.along above value rest label next fun deeper =>
            next.insert (above ++ label) value deeper
        some (.literal label' next' others, result)
      else (others.follow above value rest).map fun (others', result) =>
        (.rank label next others', result)
  | .param name next, rest =>
      if Text.upTo '/' rest = ':' :: name then
        let (next', result) := next.insert (above ++ ':' :: name) value (Text.fromNext '/' rest)
        some (.param name next', result)
      else none
  | _, _ => none

end

namespace Tree

/-- The tree of the one route `pattern`. A first place that no route ends at carries no pattern. -/
def plant (pattern : Text) (value : α) : Tree α :=
  match Ways.chain pattern value pattern with
  | .literal label (.mk none _ priority ways) _ => .root label (.mk none [] priority ways)
  | .literal label node _ => .root label node
  | _ => .empty

/-- Registers `value` under `pattern`. -/
def insert (pattern : Text) (value : α) (tree : Tree α) : Tree α × Except RouteError Unit :=
  match Pattern.check pattern with
  | .error fault => (tree, .error fault)
  | .ok () =>
      match tree with
      | empty => (plant pattern value, .ok ())
      | root label node =>
          let (label', node', result) :=
            Node.along [] value pattern label node (node.insert label value ·)
          (root label' node', result)

end Tree

end RadixRouter
