import RadixRouter.Proofs.Router.Dispatch

/-!
What a new route changes: nothing but what the paths that it matches resolve to, and of those none
is missed.
-/

namespace RadixRouter

open Pattern

variable {α : Type}

/-- The value and the bindings of a hit. A miss has neither, whatever its hint. -/
def Lookup.found? : Lookup α → Option (α × Params)
  | hit value params => some (value, params)
  | miss _ => none

theorem Lookup.found?_eq_some_iff {lookup : Lookup α} {value : α} {params : Params} :
    lookup.found? = some (value, params) ↔ lookup = .hit value params := by
  cases lookup <;> simp [found?]

namespace Pattern.MostSpecific

variable {routes : List (Text × α)} {path : Text} {route added : Text × α} {params : Params}

/-- A route that does not match is not in the way. -/
theorem concat_iff_of_not_matches (hnot : ¬ Matches added.1 path) :
    MostSpecific (routes ++ [added]) path route params ↔ MostSpecific routes path route params := by
  constructor
  · intro h
    have hne : route ≠ added := by
      rintro rfl
      exact hnot h.matches_path
    have hmem : route ∈ routes := by simpa [hne] using h.mem
    exact ⟨hmem, h.binds, fun other hother => h.best other (List.mem_append_left _ hother)⟩
  · intro h
    refine ⟨List.mem_append_left _ h.mem, h.binds, ?_⟩
    intro other hother hne hmatches
    rcases List.mem_append.mp hother with hold | hnew
    · exact h.best other hold hne hmatches
    · rw [List.mem_singleton.mp hnew] at hmatches
      exact (hnot hmatches).elim

/-- The most specific one of a route more is the new one, or the most specific one of the others. -/
theorem of_concat (h : MostSpecific (routes ++ [added]) path route params) :
    route = added ∨ MostSpecific routes path route params := by
  rcases List.mem_append.mp h.mem with hold | hnew
  · exact Or.inr ⟨hold, h.binds, fun other hother => h.best other (List.mem_append_left _ hother)⟩
  · exact Or.inl (List.mem_singleton.mp hnew)

end Pattern.MostSpecific

namespace Tree.Holds

variable {tree tree' : Tree α} {routes : List (Text × α)} {pattern path : Text} {value : α}

theorem found?_concat (h : tree.Holds routes) (h' : tree'.Holds (routes ++ [(pattern, value)]))
    (hnot : ¬ Matches pattern path) : (tree'.lookup path).found? = (tree.lookup path).found? := by
  apply Option.ext
  rintro ⟨found, params⟩
  simp only [Lookup.found?_eq_some_iff, h.lookup_eq_hit_iff, h'.lookup_eq_hit_iff]
  exact exists_congr fun _ => MostSpecific.concat_iff_of_not_matches hnot

theorem lookup_concat (h : tree.Holds routes) (h' : tree'.Holds (routes ++ [(pattern, value)]))
    (hmatches : Matches pattern path) :
    (tree'.lookup path).isHit = true
      ∧ (tree'.lookup path = tree.lookup path
        ∨ ∃ params, bind? (tokens pattern) path = some params
          ∧ tree'.lookup path = .hit value params) := by
  have hhit : (tree'.lookup path).isHit = true :=
    (h'.isHit_iff path).mpr ⟨(pattern, value), by simp, hmatches⟩
  refine ⟨hhit, ?_⟩
  cases hlookup : tree'.lookup path with
  | miss slash => simp [hlookup, Lookup.isHit, Lookup.value?] at hhit
  | hit found params =>
      obtain ⟨foundPattern, hmost⟩ := h'.exists_mostSpecific hlookup
      rcases hmost.of_concat with hnew | hold
      · obtain ⟨rfl, rfl⟩ := Prod.mk.inj hnew
        exact Or.inr ⟨params, hmost.binds, rfl⟩
      · exact Or.inl ((h.lookup_eq_hit_iff path found params).mpr ⟨foundPattern, hold⟩).symm

end Tree.Holds

namespace Router

/-- Whether the second router resolves as the first one does but for paths that `endpoint` matches
with `method`, and those to what the first one finds or to `endpoint` with its own bindings. -/
structure Adds (method : Method) (endpoint : Endpoint) (router router' : Router) : Prop where
  apart : ∀ other path, other ≠ method → router'.lookup other path = router.lookup other path
  unmatched : ∀ other path, ¬ Matches endpoint.pattern path →
    (router'.lookup other path).found? = (router.lookup other path).found?
  hit : ∀ path, Matches endpoint.pattern path → (router'.lookup method path).isHit = true
  matched : ∀ path, Matches endpoint.pattern path →
    router'.lookup method path = router.lookup method path
      ∨ ∃ params, bind? (tokens endpoint.pattern) path = some params
        ∧ router'.lookup method path = .hit endpoint params

theorem Holds.adds_of_accepted {router router' : Router} {registrations : List (Method × Endpoint)}
    {method : Method} {endpoint : Endpoint} (h : router.Holds registrations)
    (haccepted : router.register method endpoint = (router', .ok ())) :
    Adds method endpoint router router' := by
  have hafter := h.of_accepted haccepted
  have hself := hafter.tree method
  rw [routesFor_concat_self] at hself
  have hother : ∀ other path, other ≠ method →
      router'.lookup other path = router.lookup other path := by
    intro other path hne
    have htree := hafter.tree other
    rw [routesFor_concat_of_ne hne.symm] at htree
    rw [lookup_eq, lookup_eq]
    exact (h.tree other).lookup_eq htree path
  refine ⟨hother, ?_, ?_, ?_⟩
  · intro other path hnot
    by_cases hmethod : other = method
    · subst hmethod
      rw [lookup_eq, lookup_eq]
      exact (h.tree other).found?_concat hself hnot
    · rw [hother other path hmethod]
  · intro path hmatches
    rw [lookup_eq]
    exact ((h.tree method).lookup_concat hself hmatches).1
  · intro path hmatches
    rw [lookup_eq, lookup_eq]
    exact ((h.tree method).lookup_concat hself hmatches).2

/-- A new route affects the paths that it matches, and no others. -/
theorem BuiltBy.handle_adds {router router' : Router} {history : List (Method × Endpoint)}
    {method : Method} {pattern : Text} {route : Route} {notes later : List Text}
    (h : router.BuiltBy history)
    (hhandle : (router.handle method pattern route).Yields notes (router', .ok ()) later) :
    Adds method ⟨pattern, route.handler, route.preHandler⟩ router router' :=
  h.holds.adds_of_accepted (register_of_handle_yields hhandle)

/-- A router whose route takes any name. -/
def lobby : Router :=
  registerAll {} [(Method.get, ⟨"/user/:name".toList, fun _ _ _ => pure (.ok []), none⟩)]

/-- A route whose callback leaves a note. -/
def porter : Route where
  handler := fun _ _ _ => pure (.ok [])
  onRegistered := some fun _ pattern => Run.note pattern

/-- One of the names gets a route of its own. -/
theorem lobby_adds :
    ∃ router', (lobby.handle Method.get "/user/list".toList porter).Yields []
          (router', .ok ()) ["/user/list".toList]
      ∧ Adds Method.get ⟨"/user/list".toList, porter.handler, none⟩ lobby router' := by
  have hbuilt : lobby.BuiltBy
      [(Method.get, ⟨"/user/:name".toList, fun _ _ _ => pure (.ok []), none⟩)] := rfl
  obtain ⟨router', hregister⟩ : ∃ router',
      lobby.register Method.get ⟨"/user/list".toList, porter.handler, porter.preHandler⟩
        = (router', .ok ()) := ⟨_, Prod.ext rfl (by decide +kernel)⟩
  have hhandle : (lobby.handle Method.get "/user/list".toList porter).Yields []
      (router', .ok ()) ["/user/list".toList] := by
    rw [handle_eq, hregister]
    exact Run.Yields.bind_iff.mpr ⟨(), _, rfl, Run.Yields.pure_iff.mpr ⟨rfl, rfl⟩⟩
  exact ⟨router', hhandle, hbuilt.handle_adds hhandle⟩

end Router

end RadixRouter
