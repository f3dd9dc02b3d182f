import RadixRouter.Proofs.Pattern.Follows
import RadixRouter.Tree.Layout

/-!
The routes of a tree as a list, and what holds at every place of a tree. `entries` is the view
that all laws of the tree are said with: for each route the tokens that are left of its pattern,
in the order in which the tree tries them.
-/

namespace RadixRouter

open Pattern

variable {α : Type}

/-- A route behind some place: what is left of its tokens there, and its value. -/
structure Entry (α : Type) where
  tokens : List Token
  value : α

namespace Entry

/-- The route with `front` in front of it. -/
def under (front : List Token) (entry : Entry α) : Entry α :=
  ⟨front ++ entry.tokens, entry.value⟩

def ofRoute (route : Text × α) : Entry α :=
  ⟨Pattern.tokens route.1, route.2⟩

@[simp] theorem under_tokens (front : List Token) (entry : Entry α) :
    (entry.under front).tokens = front ++ entry.tokens := rfl

@[simp] theorem under_comp_under (front back : List Token) :
    (under front ∘ under back : Entry α → Entry α) = under (front ++ back) := by
  funext entry
  simp [under]

end Entry

mutual

/-- The routes at and after a place. -/
def Node.entries : Node α → List (Entry α)
  | .mk held _ _ ways => held.toList.map (⟨[], ·⟩) ++ ways.entries

/-- The routes along the ways. -/
def Ways.entries : Ways α → List (Entry α)
  | .none => []
  | .literal label next others =>
      next.entries.map (Entry.under (label.map .char)) ++ others.entries
  | .param name next => next.entries.map (Entry.under [.param name])
  | .catchAll name value _ => [⟨[.catchAll name], value⟩]

end

def Tree.entries : Tree α → List (Entry α)
  | .empty => []
  | .root label node => node.entries.map (Entry.under (label.map .char))

/-- How many routes each label leads to. -/
def Ways.counts : Ways α → List Nat
  | .literal _ next others => next.priority :: others.counts
  | _ => []

/-- What a label is like: there is something to it, and no wildcard in it. -/
structure Label (label : Text) : Prop where
  ne_nil : label ≠ []
  plain : Plain label

/-- How the first way stands to the others: no other label begins with the same character or leads
to more routes, and a catch-all would tolerate no label beside it. -/
structure Ways.Fork (label : Text) (next : Node α) (others : Ways α) : Prop where
  apart : ∀ c ∈ label.head?, c ∉ others.indices
  ranked : ∀ count ∈ others.counts, count ≤ next.priority
  alone : others.catchAll? = Option.none

/-- What may follow a parameter: nothing, or one label that begins with a slash. -/
def Ways.AfterElement : Ways α → Prop
  | .none => True
  | .literal label _ .none => label.head? = some '/'
  | _ => False

/-- How the fields of a place agree with the front `above` that leads to it and with the ways. -/
structure Node.Fields (above : Text) (held : Option α) (pattern : Text) (priority : Nat)
    (ways : Ways α) : Prop where
  named : held.isSome → pattern = above
  counted : priority = held.toList.length + ways.entries.length
  live : ways = .none → held.isSome
  mount : ways.catchAll?.isSome → held = none ∧ above.getLast? = some '/'

mutual

/-- What holds at a place that `above` leads to, and at all places behind it. -/
def Node.Sound (above : Text) : Node α → Prop
  | .mk held pattern priority ways =>
      Node.Fields above held pattern priority ways ∧ ways.Sound above

/-- What holds of the ways from a place that `above` leads to. -/
def Ways.Sound (above : Text) : Ways α → Prop
  | .none => True
  | .literal label next others =>
      Label label ∧ next.Sound (above ++ label) ∧ others.Sound above ∧ Ways.Fork label next others
  | .param name next =>
      Name name ∧ next.Sound (above ++ ':' :: name) ∧ next.ways.AfterElement
  | .catchAll name _ pattern => Name name ∧ pattern = above ++ '*' :: name

end

/-- What holds of a tree. -/
def Tree.Sound : Tree α → Prop
  | .empty => True
  | .root label node => Label label ∧ label.head? = some '/' ∧ node.Sound label

@[simp] theorem Node.sound_mk {above pattern : Text} {held : Option α} {priority : Nat}
    {ways : Ways α} :
    (Node.mk held pattern priority ways).Sound above
      ↔ Node.Fields above held pattern priority ways ∧ ways.Sound above := by
  rw [Node.Sound]

@[simp] theorem Ways.sound_none {above : Text} : (Ways.none : Ways α).Sound above := by
  simp [Ways.Sound]

@[simp] theorem Ways.sound_literal {above label : Text} {next : Node α} {others : Ways α} :
    (Ways.literal label next others).Sound above
      ↔ Label label ∧ next.Sound (above ++ label) ∧ others.Sound above
        ∧ Ways.Fork label next others := by
  rw [Ways.Sound]

@[simp] theorem Ways.sound_param {above name : Text} {next : Node α} :
    (Ways.param name next).Sound above
      ↔ Name name ∧ next.Sound (above ++ ':' :: name) ∧ next.ways.AfterElement := by
  rw [Ways.Sound]

@[simp] theorem Ways.sound_catchAll {above name pattern : Text} {value : α} :
    (Ways.catchAll name value pattern).Sound above
      ↔ Name name ∧ pattern = above ++ '*' :: name := by
  rw [Ways.Sound]

@[simp] theorem Node.entries_mk {held : Option α} {pattern : Text} {priority : Nat}
    {ways : Ways α} :
    (Node.mk held pattern priority ways).entries
      = held.toList.map (⟨[], ·⟩) ++ ways.entries := by
  rw [Node.entries]

@[simp] theorem Ways.entries_none : (Ways.none : Ways α).entries = [] := by
  rw [Ways.entries]

@[simp] theorem Ways.entries_literal {label : Text} {next : Node α} {others : Ways α} :
    (Ways.literal label next others).entries
      = next.entries.map (Entry.under (label.map .char)) ++ others.entries := by
  rw [Ways.entries]

@[simp] theorem Ways.entries_param {name : Text} {next : Node α} :
    (Ways.param name next).entries = next.entries.map (Entry.under [.param name]) := by
  rw [Ways.entries]

@[simp] theorem Ways.entries_catchAll {name pattern : Text} {value : α} :
    (Ways.catchAll name value pattern).entries = [⟨[.catchAll name], value⟩] := by
  rw [Ways.entries]

/-- The priority of a place is the number of routes at and behind it. -/
theorem Node.Sound.priority_eq {above : Text} {node : Node α} (hsound : node.Sound above) :
    node.priority = node.entries.length := by
  cases node with
  | mk held pattern priority ways =>
      have hfields := (Node.sound_mk.mp hsound).1
      simp [Node.priority, hfields.counted]

-- A place without ways on holds a value itself, so every way leads to a route.
mutual

theorem Node.Sound.entries_ne_nil {node : Node α} :
    ∀ {above : Text}, node.Sound above → node.entries ≠ [] := by
  intro above hsound
  cases node with
  | mk held pattern priority ways =>
      obtain ⟨hfields, hways⟩ := Node.sound_mk.mp hsound
      cases held with
      | some value => simp
      | none =>
          have hne : ways ≠ .none := by
            intro hnone
            simpa using hfields.live hnone
          simpa using hways.entries_ne_nil hne

theorem Ways.Sound.entries_ne_nil {ways : Ways α} :
    ∀ {above : Text}, ways.Sound above → ways ≠ .none → ways.entries ≠ [] := by
  intro above hsound hne
  cases ways with
  | none => contradiction
  | literal label next others =>
      have hnext := (Ways.sound_literal.mp hsound).2.1
      simp [hnext.entries_ne_nil]
  | param name next =>
      have hnext := (Ways.sound_param.mp hsound).2.1
      simp [hnext.entries_ne_nil]
  | catchAll name value pattern => simp

end

theorem Node.Sound.priority_pos {above : Text} {node : Node α} (hsound : node.Sound above) :
    0 < node.priority := by
  rw [hsound.priority_eq]
  exact List.length_pos_iff.mpr hsound.entries_ne_nil

end RadixRouter
