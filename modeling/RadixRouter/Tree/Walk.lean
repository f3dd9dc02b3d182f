import RadixRouter.Tree.Lookup

/-!
Resolution of a path with one trail that is written to all the way. A binding is noted when the way
into a parameter is taken, and the trail is cut back when that way is left again; a hint stays.
-/

namespace RadixRouter

/-- What is noted on the way through a tree: the bindings, and whether a change of the last slash
would help. -/
structure Trail where
  params : Params := []
  slash : Bool := false
  deriving DecidableEq, Repr

namespace Trail

/-- Notes a binding behind the others. -/
def push (name value : Text) (trail : Trail) : Trail :=
  { trail with params := trail.params ++ [⟨name, value⟩] }

/-- Forgets all but the first `count` bindings. -/
def truncate (count : Nat) (trail : Trail) : Trail :=
  { trail with params := trail.params.take count }

/-- Notes that a change of the last slash would help, if it does. -/
def hint (helps : Bool) (trail : Trail) : Trail :=
  { trail with slash := trail.slash || helps }

end Trail

variable {α : Type}

/-- The first walk, and where it finds nothing the second one, on the trail the first left. -/
def Trail.orElse : Option α × Trail → (Trail → Option α × Trail) → Option α × Trail
  | (some value, left), _ => (some value, left)
  | (none, left), next => next left

def Node.walkAlong (label : Text) (node : Node α) (path : Text) (trail : Trail)
    (deeper : Text → Option α × Trail) : Option α × Trail :=
  match Text.after? label path with
  | some rest => deeper rest
  | none => (none, trail.hint (label = path ++ ['/'] && node.terminates))

mutual

def Node.walk : Node α → Text → Trail → Option α × Trail
  | .mk held _ _ ways, [], trail =>
      match held with
      | some value => (some value, trail)
      | none =>
          match ways.catchAll? with
          | some (name, value, _) => (some value, trail.push name [])
          | none => (none, trail.hint ways.hasSlashLeaf)
  | .mk held _ _ ways, c :: rest, trail =>
      Trail.orElse (ways.walk (c :: rest) trail) fun left =>
        (none, left.hint (c :: rest = ['/'] && held.isSome))

/-- Walks the rest of a path, which is not empty, along the first way that matches. -/
def Ways.walk : Ways α → Text → Trail → Option α × Trail
  | .none, _, trail => (none, trail)
  | .literal label next others, rest, trail =>
      Trail.orElse (Node.walkAlong label next rest trail fun deeper => next.walk deeper trail)
        fun left => others.walk rest left
  | .param name next, rest, trail =>
      if Text.upTo '/' rest = [] then (none, trail)
      else
        Trail.orElse
          (next.walk (Text.fromNext '/' rest) (trail.push name (Text.upTo '/' rest)))
          fun left => (none, left.truncate trail.params.length)
  | .catchAll name value _, rest, trail => (some value, trail.push name rest)

end

def Tree.walk (tree : Tree α) (path : Text) (trail : Trail) : Option α × Trail :=
  match tree with
  | .empty => (none, trail)
  | .root label node => Node.walkAlong label node path trail fun rest => node.walk rest trail

end RadixRouter
