import RadixRouter.Proofs.Pattern.Fill
import RadixRouter.Proofs.Tree.Resolution
import RadixRouter.Tree.Walk

/-!
The bindings of a match. A walk leaves on its trail what a look-up finds: the bindings of the way
that led to the route, and nothing of the ways that were left again. They are one for each wildcard
of the route, and give the path back.
-/

namespace RadixRouter

open Pattern

variable {α : Type}

/-- Whether a walk that began with `trail` ended as the look-up says: a hit adds its bindings to the
trail, and a miss adds nothing but its hint. -/
def Lookup.TracedBy (trail : Trail) (walked : Option α × Trail) : Lookup α → Prop
  | .hit value params => walked.1 = some value ∧ walked.2.params = trail.params ++ params
  | .miss slash => walked = (none, trail.hint slash)

namespace Lookup.TracedBy

variable {trail : Trail} {walked : Option α × Trail} {lookup : Lookup α}

/-- The second walk begins where the first one left the trail. -/
theorem orElse {second : Unit → Lookup α} {next : Trail → Option α × Trail}
    (hfirst : lookup.TracedBy trail walked)
    (hsecond : ∀ left, (second ()).TracedBy left (next left)) :
    (lookup.orElse second).TracedBy trail (Trail.orElse walked next) := by
  obtain ⟨found, left⟩ := walked
  cases lookup with
  | hit value params =>
      obtain ⟨rfl, hparams⟩ : found = some value ∧ left.params = trail.params ++ params := hfirst
      exact ⟨rfl, hparams⟩
  | miss slash =>
      cases hfirst
      have hnext := hsecond (trail.hint slash)
      rw [Lookup.orElse, Trail.orElse]
      cases hfound : second () with
      | hit value params =>
          rw [hfound] at hnext
          exact hnext
      | miss slash' =>
          rw [hfound] at hnext
          simpa [TracedBy, Trail.hint, Bool.or_assoc] using hnext

/-- Behind a parameter, the trail is cut back on a miss. -/
theorem bind {name value : Text} (h : lookup.TracedBy (trail.push name value) walked) :
    (lookup.bind name value).TracedBy trail
      (Trail.orElse walked fun left => (none, left.truncate trail.params.length)) := by
  obtain ⟨found, left⟩ := walked
  cases lookup with
  | hit found' params =>
      obtain ⟨rfl, hparams⟩ : found = some found'
        ∧ left.params = (trail.push name value).params ++ params := h
      exact ⟨rfl, by simp [Trail.orElse, hparams, Trail.push]⟩
  | miss slash =>
      cases h
      simp [Lookup.bind, Trail.orElse, TracedBy, Trail.truncate, Trail.hint, Trail.push]

end Lookup.TracedBy

theorem Node.walkAlong_traced {label path : Text} {node : Node α} {trail : Trail}
    {deeper : Text → Lookup α} {walkDeeper : Text → Option α × Trail}
    (hdeeper : ∀ rest, (deeper rest).TracedBy trail (walkDeeper rest)) :
    (Lookup.along label node path deeper).TracedBy trail
      (walkAlong label node path trail walkDeeper) := by
  unfold Lookup.along walkAlong
  cases Text.after? label path with
  | some rest => exact hdeeper rest
  | none => rfl

theorem Node.walk_nil_traced (node : Node α) (trail : Trail) :
    (node.lookup []).TracedBy trail (node.walk [] trail) := by
  cases node with
  | mk held pattern priority ways =>
      cases held with
      | some value => simp [Node.lookup, Node.walk, Lookup.TracedBy]
      | none =>
          rw [Node.lookup, Node.walk]
          cases ways.catchAll? with
          | some existing => exact ⟨rfl, rfl⟩
          | none => rfl

-- Induction on the tree: a walk through a place is put together from those along its ways.
mutual

theorem Node.walk_traced {node : Node α} : ∀ (path : Text) (trail : Trail),
    (node.lookup path).TracedBy trail (node.walk path trail) := by
  intro path trail
  cases path with
  | nil => exact Node.walk_nil_traced node trail
  | cons c rest =>
      cases node with
      | mk held pattern priority ways =>
          rw [Node.lookup, Node.walk]
          exact (Ways.walk_traced (c :: rest) trail).orElse fun left => rfl

theorem Ways.walk_traced {ways : Ways α} : ∀ (path : Text) (trail : Trail),
    (ways.lookup path).TracedBy trail (ways.walk path trail) := by
  intro path trail
  cases ways with
  | none => simp [Ways.lookup, Ways.walk, Lookup.TracedBy, Trail.hint]
  | literal label next others =>
      rw [Ways.lookup, Ways.walk]
      apply Lookup.TracedBy.orElse
      · exact Node.walkAlong_traced fun rest => Node.walk_traced rest trail
      · exact fun left => Ways.walk_traced path left
  | param name next =>
      rw [Ways.lookup, Ways.walk]
      by_cases hsegment : Text.upTo '/' path = []
      · simp [hsegment, Lookup.TracedBy, Trail.hint]
      · rw [if_neg hsegment, if_neg hsegment]
        exact (Node.walk_traced _ _).bind
  | catchAll name value pattern =>
      rw [Ways.lookup, Ways.walk]
      exact ⟨rfl, rfl⟩

end

/-- A walk ends as the look-up says, whatever was on the trail. -/
theorem Tree.walk_traced (tree : Tree α) (path : Text) (trail : Trail) :
    (tree.lookup path).TracedBy trail (tree.walk path trail) := by
  cases tree with
  | empty => simp [Tree.lookup, Tree.walk, Lookup.TracedBy, Trail.hint]
  | root label node => exact Node.walkAlong_traced fun rest => Node.walk_traced rest trail

namespace Tree

/-- The bindings of a hit give the path back when they are put in for the wildcards of the route
that was found, and they are all that a walk to it leaves on its trail. -/
theorem ofHistory_lookup_rebuilds (history : List (Text × α)) {path : Text} {value : α}
    {params : Params} (hhit : (ofHistory history).lookup path = .hit value params) :
    (∃ pattern, MostSpecific (routesOf history) path (pattern, value) params
        ∧ Rebuilds (tokens pattern) params path)
      ∧ ∀ trail, ((ofHistory history).walk path trail).1 = some value
        ∧ ((ofHistory history).walk path trail).2.params = trail.params ++ params := by
  constructor
  · obtain ⟨pattern, hmost⟩ := (holds_ofHistory history).exists_mostSpecific hhit
    exact ⟨pattern, hmost, Rebuilds.of_bind? hmost.binds⟩
  · intro trail
    have htraced := (ofHistory history).walk_traced path trail
    rwa [hhit] at htraced

/-- A route with two parameters, and beside it one that begins with a parameter. -/
def detours : List (Text × Nat) :=
  [("/u/:id/:tab/x".toList, 1), ("/:who/*rest".toList, 2)]

/-- The way that is tried first binds two parameters, and is left again behind them. -/
theorem detours_lookup_rebuilds :
    (ofHistory detours).lookup "/u/7/t/y".toList
        = .hit 2 [⟨"who".toList, "u".toList⟩, ⟨"rest".toList, "7/t/y".toList⟩]
      ∧ (∃ pattern, MostSpecific (routesOf detours) "/u/7/t/y".toList (pattern, 2)
            [⟨"who".toList, "u".toList⟩, ⟨"rest".toList, "7/t/y".toList⟩]
          ∧ Rebuilds (tokens pattern)
            [⟨"who".toList, "u".toList⟩, ⟨"rest".toList, "7/t/y".toList⟩] "/u/7/t/y".toList)
      ∧ ∀ trail, ((ofHistory detours).walk "/u/7/t/y".toList trail).1 = some 2
        ∧ ((ofHistory detours).walk "/u/7/t/y".toList trail).2.params
          = trail.params ++ [⟨"who".toList, "u".toList⟩, ⟨"rest".toList, "7/t/y".toList⟩] := by
  have hhit : (ofHistory detours).lookup "/u/7/t/y".toList
      = .hit 2 [⟨"who".toList, "u".toList⟩, ⟨"rest".toList, "7/t/y".toList⟩] := by decide +kernel
  exact ⟨hhit, ofHistory_lookup_rebuilds detours hhit⟩

end Tree

end RadixRouter
