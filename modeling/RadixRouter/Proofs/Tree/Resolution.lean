import RadixRouter.Proofs.Tree.Lookup

/-!
Look-ups in trees that come about by registrations, said without a tree: a path resolves to the
most specific of the accepted routes that match it.
-/

namespace RadixRouter

open Pattern

variable {α : Type}

/-- Whether one of the routes matches `path`. -/
def Pattern.Matched (routes : List (Text × α)) (path : Text) : Prop :=
  ∃ route ∈ routes, Matches route.1 path

/-- What a flat list of routes resolves a path to: a route that matches with the given bindings,
and that is more specific than every other one that matches. -/
structure Pattern.MostSpecific (routes : List (Text × α)) (path : Text) (route : Text × α)
    (params : Params) : Prop where
  mem : route ∈ routes
  binds : bind? (tokens route.1) path = some params
  best : ∀ other ∈ routes, other ≠ route → Matches other.1 path → MoreSpecific route.1 other.1

namespace Pattern.MostSpecific

variable {routes : List (Text × α)} {path : Text} {route route' : Text × α}
  {params params' : Params}

theorem matches_path (h : MostSpecific routes path route params) : Matches route.1 path := by
  simp [Matches, h.binds]

/-- A flat list of routes resolves a path in one way at most. -/
theorem unique (h : MostSpecific routes path route params)
    (h' : MostSpecific routes path route' params') : route = route' ∧ params = params' := by
  have hroute : route = route' := by
    apply Classical.byContradiction
    intro hne
    have hmore := h.best route' h'.mem (Ne.symm hne) h'.matches_path
    exact MoreSpecificTokens.asymm hmore (h'.best route h.mem hne h.matches_path)
  subst hroute
  exact ⟨rfl, Option.some.inj (h.binds.symm.trans h'.binds)⟩

end Pattern.MostSpecific

namespace Tree.Holds

variable {tree : Tree α} {routes : List (Text × α)}

theorem exists_mostSpecific (h : tree.Holds routes) {path : Text} {value : α} {params : Params}
    (hlookup : tree.lookup path = .hit value params) :
    ∃ pattern, MostSpecific routes path (pattern, value) params := by
  have hanswers := Tree.lookup_answers path h.sound
  rw [hlookup] at hanswers
  obtain ⟨entry, hentry, hvalue, hbind, hbest⟩ := hanswers
  obtain ⟨⟨pattern, value'⟩, hroute, rfl⟩ := h.mem_entries_iff.mp hentry
  subst hvalue
  refine ⟨pattern, hroute, hbind, ?_⟩
  intro other hother hne hmatches
  refine hbest _ (h.mem_entries_iff.mpr ⟨other, hother, rfl⟩) ?_ hmatches
  intro heq
  apply hne
  exact Prod.ext (tokens_injective (congrArg Entry.tokens heq)) (congrArg Entry.value heq)

theorem not_matches_of_miss (h : tree.Holds routes) {path : Text} {slash : Bool}
    (hlookup : tree.lookup path = .miss slash) :
    ∀ route ∈ routes, ¬ Matches route.1 path := by
  have hanswers := Tree.lookup_answers path h.sound
  rw [hlookup] at hanswers
  intro route hroute
  exact hanswers _ (h.mem_entries_iff.mpr ⟨route, hroute, rfl⟩)

theorem isHit_iff (h : tree.Holds routes) (path : Text) :
    (tree.lookup path).isHit = true ↔ Matched routes path := by
  rw [Matched]
  cases hlookup : tree.lookup path with
  | hit value params =>
      obtain ⟨pattern, hmost⟩ := h.exists_mostSpecific hlookup
      simpa [Lookup.isHit, Lookup.value?] using
        ⟨pattern, ⟨value, hmost.mem⟩, hmost.matches_path⟩
  | miss slash =>
      have hnone := h.not_matches_of_miss hlookup
      simpa [Lookup.isHit, Lookup.value?] using
        fun pattern value hroute => hnone (pattern, value) hroute

theorem lookup_eq_hit_iff (h : tree.Holds routes) (path : Text) (value : α) (params : Params) :
    tree.lookup path = .hit value params
      ↔ ∃ pattern, MostSpecific routes path (pattern, value) params := by
  constructor
  · exact h.exists_mostSpecific
  · rintro ⟨pattern, hmost⟩
    cases hlookup : tree.lookup path with
    | hit value' params' =>
        obtain ⟨pattern', hmost'⟩ := h.exists_mostSpecific hlookup
        obtain ⟨hroute, rfl⟩ := hmost.unique hmost'
        cases hroute
        rfl
    | miss slash =>
        exact (h.not_matches_of_miss hlookup _ hmost.mem hmost.matches_path).elim

end Tree.Holds

namespace Tree

/-- A tree resolves a path as the flat list of its accepted routes does: it hits if and only if
some route matches, and it yields the value and the bindings of the most specific one. -/
theorem ofHistory_lookup_iff (history : List (Text × α)) (path : Text) :
    (((ofHistory history).lookup path).isHit = true
        ↔ ∃ route ∈ routesOf history, Matches route.1 path)
      ∧ ∀ value params, (ofHistory history).lookup path = .hit value params
        ↔ ∃ pattern, MostSpecific (routesOf history) path (pattern, value) params := by
  have hholds := holds_ofHistory history
  exact ⟨hholds.isHit_iff path, hholds.lookup_eq_hit_iff path⟩

end Tree

end RadixRouter
