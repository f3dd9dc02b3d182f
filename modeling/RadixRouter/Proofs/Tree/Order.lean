import RadixRouter.Proofs.Tree.Conflict
import RadixRouter.Proofs.Tree.Patterns
import RadixRouter.Proofs.Tree.Repair

/-!
Routes may be registered in any order: whether none of them is refused, and what the tree answers
then, depends on the routes alone.
-/

namespace RadixRouter

open Pattern

variable {α : Type}

namespace Pattern

theorem Compatible.symm {p q : List Token} (h : Compatible p q) : Compatible q p := by
  refine ⟨h.ne.symm, ?_, ?_⟩
  · rintro ⟨v, front, w, back, hv, hw, hpart⟩
    have hswapped : part p q = (w :: back, v :: front) := by
      rw [part_swap, hpart, Prod.swap_prod_mk]
    exact h.wildcards ⟨w, back, v, front, hw, hv, hswapped⟩
  · rintro ⟨token, htoken, hcatchAll⟩
    rw [part_swap, Prod.fst_swap, Prod.snd_swap, List.mem_append, or_comm] at htoken
    exact h.catchAll ⟨token, List.mem_append.mpr htoken, hcatchAll⟩

/-- Whether two patterns may stand in one tree. -/
def Tolerates (p q : Text) : Prop :=
  Compatible (tokens p) (tokens q)

/-- A pattern is accepted if and only if all earlier ones tolerate it. -/
theorem Settles.accepted_iff {patterns : List Text} {q : Text} {outcome : Except RouteError Unit}
    (h : Settles patterns q outcome) :
    outcome = .ok () ↔ ∀ p ∈ patterns, Tolerates p q := by
  rw [h.accepted]
  constructor
  · rintro ⟨hnew, hfree⟩ p hp
    have hne : tokens p ≠ tokens q := by
      intro heq
      exact hnew (tokens_injective heq ▸ hp)
    exact ⟨hne, (hfree p hp).1, (hfree p hp).2⟩
  · intro htolerates
    exact ⟨fun hq => (htolerates q hq).ne rfl,
      fun p hp => ⟨(htolerates p hp).wildcards, (htolerates p hp).catchAll⟩⟩

end Pattern

namespace Tree

theorem accepted_eq_of_takesAll {tree : Tree α} {history : List (Text × α)}
    (htakes : tree.takesAll history = true) : tree.accepted history = history := by
  induction history generalizing tree with
  | nil => rfl
  | cons route later ih =>
      obtain ⟨pattern, value⟩ := route
      rw [takesAll] at htakes
      rw [accepted]
      rcases hinsert : tree.insert pattern value with ⟨next, _ | _⟩
      · simp [hinsert] at htakes
      · rw [hinsert] at htakes
        exact congrArg ((pattern, value) :: ·) (ih htakes)

namespace Holds

variable {tree tree' : Tree α} {routes routes' : List (Text × α)}

theorem perm (h : tree.Holds routes) (hperm : routes.Perm routes') : tree.Holds routes' :=
  ⟨h.sound, h.entries.trans (hperm.map _)⟩

theorem insert_ok_iff (h : tree.Holds routes) (q : Text) (value : α) :
    (tree.insert q value).2 = .ok ()
      ↔ Pattern.check q = .ok () ∧ ∀ route ∈ routes, Tolerates route.1 q := by
  cases hcheck : Pattern.check q with
  | error fault => simp [insert, hcheck]
  | ok _ =>
      rw [(h.insert_settles hcheck value).accepted_iff]
      simp

/-- Routes are all accepted if and only if each one is well formed and tolerated by those that are
there already, and every two of them tolerate each other. -/
theorem takesAll_iff (h : tree.Holds routes) (history : List (Text × α)) :
    tree.takesAll history = true
      ↔ (∀ route ∈ history, Pattern.check route.1 = .ok ())
        ∧ (∀ old ∈ routes, ∀ route ∈ history, Tolerates old.1 route.1)
        ∧ history.Pairwise fun route later => Tolerates route.1 later.1 := by
  induction history generalizing tree routes with
  | nil => simp [takesAll]
  | cons route later ih =>
      obtain ⟨pattern, value⟩ := route
      have hok := h.insert_ok_iff pattern value
      rw [takesAll]
      rcases hinsert : tree.insert pattern value with ⟨next, fault | _⟩
      · rw [hinsert] at hok
        simp only [reduceCtorEq, false_iff, not_and] at hok
        simp only [Bool.false_eq_true, false_iff]
        rintro ⟨hchecks, htolerated, -⟩
        exact hok (hchecks _ List.mem_cons_self)
          fun old hold => htolerated old hold _ List.mem_cons_self
      · rw [hinsert] at hok
        obtain ⟨hcheck, htolerated⟩ := hok.mp rfl
        simp only [ih (h.insert_ok hinsert), List.mem_append, List.mem_singleton, or_imp,
          forall_and, forall_eq, List.forall_mem_cons, List.pairwise_cons, hcheck, true_and]
        constructor
        · rintro ⟨hchecks, ⟨hold, hnew⟩, hpairs⟩
          exact ⟨hchecks, ⟨htolerated, hold⟩, hnew, hpairs⟩
        · rintro ⟨hchecks, ⟨-, hold⟩, hnew, hpairs⟩
          exact ⟨hchecks, ⟨hold, hnew⟩, hpairs⟩

end Holds

/-- Whether two trees resolve every path alike, repair the same paths and list the same patterns.
Which one of the spellings of a repaired path is found first depends on the order of the labels. -/
structure Equivalent (tree tree' : Tree α) : Prop where
  lookup : ∀ path, tree'.lookup path = tree.lookup path
  repairs : ∀ fixSlash path,
    (tree'.repair fixSlash path).isSome = (tree.repair fixSlash path).isSome
  patterns : tree'.patterns.Perm tree.patterns

theorem Holds.equivalent {tree tree' : Tree α} {routes : List (Text × α)} (h : tree.Holds routes)
    (h' : tree'.Holds routes) : Equivalent tree tree' where
  lookup := h.lookup_eq h'
  repairs fixSlash path := by
    rw [Bool.eq_iff_iff, h.repair_isSome_iff, h'.repair_isSome_iff]
  patterns := h'.patterns_perm.trans h.patterns_perm.symm

/-- The order of registrations matters neither to whether all of them are accepted nor to what the
tree answers if they are. -/
theorem ofHistory_perm {history history' : List (Text × α)} (hperm : history.Perm history') :
    (empty.takesAll history = true ↔ empty.takesAll history' = true)
      ∧ (empty.takesAll history = true → Equivalent (ofHistory history) (ofHistory history')) := by
  have hiff : empty.takesAll history = true ↔ empty.takesAll history' = true := by
    have hpairs : (history.Pairwise fun route later => Tolerates route.1 later.1)
        ↔ history'.Pairwise fun route later => Tolerates route.1 later.1 :=
      hperm.pairwise_iff Compatible.symm
    rw [holds_empty.takesAll_iff, holds_empty.takesAll_iff, hpairs]
    simp only [hperm.mem_iff]
  refine ⟨hiff, ?_⟩
  intro htakes
  have h := holds_ofHistory history
  have h' := holds_ofHistory history'
  rw [routesOf, accepted_eq_of_takesAll htakes] at h
  rw [routesOf, accepted_eq_of_takesAll (hiff.mp htakes)] at h'
  exact h.equivalent (h'.perm hperm.symm)

/-- Two patterns on each side of the first place; none of the sides has more than the other. -/
def crossing : List (Text × Nat) :=
  [("/user/:name".toList, 1), ("/user/list".toList, 2), ("/items".toList, 3), ("/item".toList, 4)]

/-- The trees of the patterns and of their reverse list them in different orders. -/
theorem crossing_reverse :
    empty.takesAll crossing = true
      ∧ (ofHistory crossing.reverse).patterns ≠ (ofHistory crossing).patterns
      ∧ (empty.takesAll crossing = true ↔ empty.takesAll crossing.reverse = true)
      ∧ Equivalent (ofHistory crossing) (ofHistory crossing.reverse) := by
  have htakes : empty.takesAll crossing = true := by decide +kernel
  have hperm := ofHistory_perm crossing.reverse_perm.symm
  exact ⟨htakes, by decide +kernel, hperm.1, hperm.2 htakes⟩

end Tree

end RadixRouter
