import Mathlib.Data.List.Forall2
import RadixRouter.Proofs.Router.Allowed
import RadixRouter.Proofs.Tree.Conflict
import RadixRouter.Proofs.Tree.Recut
import RadixRouter.Router.Call

/-!
A refused registration leaves no trace: no question to the router and no later registration tells
whether it was tried.
-/

namespace RadixRouter

open Pattern

/-! ### Trees side by side -/

namespace MethodTree

/-- Whether two trees are for the same method and no question tells the one from the other. -/
structure Alike (entry entry' : MethodTree) : Prop where
  method : entry'.method = entry.method
  tree : entry.tree.Alike entry'.tree

theorem Alike.refl (entry : MethodTree) : entry.Alike entry :=
  ⟨rfl, Tree.Alike.refl entry.tree⟩

variable {trees trees' : List MethodTree} {β : Type}

/-- What is read off each of the trees. -/
theorem map_eq (h : List.Forall₂ Alike trees trees') {read : MethodTree → β}
    (hread : ∀ entry entry', entry.Alike entry' → read entry' = read entry) :
    trees'.map read = trees.map read := by
  induction h with
  | nil => rfl
  | cons hentry _ ih => rw [List.map_cons, List.map_cons, hread _ _ hentry, ih]

/-- What is read off the tree of a method. -/
theorem find?_eq (h : List.Forall₂ Alike trees trees') {read : Tree Endpoint → β}
    (hread : ∀ tree tree', tree.Alike tree' → read tree' = read tree) (method : Method) :
    ((trees'.find? (·.method = method)).map MethodTree.tree).map read
      = ((trees.find? (·.method = method)).map MethodTree.tree).map read := by
  induction h with
  | nil => rfl
  | @cons entry entry' _ _ hentry _ ih =>
      by_cases hsame : entry.method = method
      · simp [hentry.method, hsame, hread _ _ hentry.tree]
      · simpa [hentry.method, hsame] using ih

/-- The methods of the trees that are picked. -/
theorem filter_eq (h : List.Forall₂ Alike trees trees') {pick : MethodTree → Bool}
    (hpick : ∀ entry entry', entry.Alike entry' → pick entry' = pick entry) :
    (trees'.filter pick).map MethodTree.method = (trees.filter pick).map MethodTree.method := by
  induction h with
  | nil => rfl
  | @cons entry entry' _ _ hentry _ ih =>
      rw [List.filter_cons, List.filter_cons, hpick _ _ hentry]
      split
      · rw [List.map_cons, List.map_cons, hentry.method, ih]
      · exact ih

end MethodTree

namespace Router

variable {router router' next : Router} {registrations : List (Method × Endpoint)} {β : Type}

/-! ### A refused registration -/

theorem Holds.treeOf_eq {entry : MethodTree} (h : router.Holds registrations)
    (hentry : entry ∈ router.trees) : router.treeOf entry.method = entry.tree := by
  rw [treeOf, tree?, (MethodTree.find?_eq_some_iff h.distinct).mpr ⟨hentry, rfl⟩]
  rfl

/-- A refused registration leaves trees behind that no question tells from the ones before, and
neither adds nor drops one. -/
theorem Holds.alike_of_refused {method : Method} {endpoint : Endpoint} {fault : RouteError}
    (h : router.Holds registrations)
    (hrefused : router.register method endpoint = (router', .error fault)) :
    ∃ trees, router' = { router with trees := trees }
      ∧ List.Forall₂ MethodTree.Alike router.trees trees := by
  have htree := h.tree method
  rw [register_eq] at hrefused
  rcases hinsert : (router.treeOf method).insert endpoint.pattern endpoint with ⟨tree, _ | _⟩
  · rw [hinsert] at hrefused
    obtain ⟨rfl, -⟩ := Prod.mk.inj hrefused
    have hafter := htree.insert_error hinsert
    by_cases hempty : tree.isEmpty = true
    · have hnone : routesFor registrations method = [] :=
        hafter.eq_empty_iff.mp (eq_empty_of_isEmpty hafter.sound hempty)
      have habsent : ∀ entry ∈ router.trees, entry.method ≠ method :=
        fun entry hentry hmethod => (h.exists_tree_iff method).mp ⟨entry, hentry, hmethod⟩ hnone
      refine ⟨router.trees, ?_, List.forall₂_same.mpr fun entry _ => MethodTree.Alike.refl entry⟩
      rw [putTree, if_pos hempty, List.filter_eq_self.mpr (by simpa using habsent)]
    · have hsome : routesFor registrations method ≠ [] := by
        intro hnone
        rw [hafter.eq_empty_iff.mpr hnone] at hempty
        exact hempty rfl
      obtain ⟨entry, hentry, hmethod⟩ := (h.exists_tree_iff method).mpr hsome
      have hany : router.trees.any (·.method = method) = true :=
        List.any_eq_true.mpr ⟨entry, hentry, by simpa using hmethod⟩
      refine ⟨_, by rw [putTree, if_neg hempty, if_pos hany], ?_⟩
      rw [List.forall₂_map_right_iff, List.forall₂_same]
      intro entry hentry
      split
      · next hsame =>
          subst hsame
          have halike := htree.alike_of_insert_error hinsert
          rw [h.treeOf_eq hentry] at halike
          exact ⟨rfl, halike⟩
      · exact MethodTree.Alike.refl entry
  · rw [hinsert] at hrefused
    have hresult := (Prod.mk.inj hrefused).2
    contradiction

/-! ### Later registrations -/

theorem mapError_withMethod (method : Text) (result : Except RouteError Unit) :
    (result.mapError (·.withMethod method)).mapError RouteError.unquoted
      = (result.mapError RouteError.unquoted).mapError (·.withMethod method) := by
  cases result with
  | ok _ => rfl
  | error fault => cases fault <;> rfl

/-- Routers of the same registrations end the next one alike, up to what a catch-all conflict
quotes. -/
theorem Holds.register_mapError_eq (h : router.Holds registrations)
    (h' : router'.Holds registrations) (method : Method) (endpoint : Endpoint) :
    (router'.register method endpoint).2.mapError RouteError.unquoted
      = (router.register method endpoint).2.mapError RouteError.unquoted := by
  have htrees := (h'.tree method).insert_mapError_eq (h.tree method) (fun p => Iff.rfl)
    endpoint.pattern endpoint endpoint
  simp only [register_eq, mapError_withMethod, htrees]

/-- Routers of the same registrations both accept the next one or both refuse it, and have the same
registrations after it. -/
theorem Holds.register_cases (h : router.Holds registrations) (h' : router'.Holds registrations)
    (method : Method) (endpoint : Endpoint) :
    ∃ next next' registrations', next.Holds registrations' ∧ next'.Holds registrations'
      ∧ (router.register method endpoint = (next, .ok ())
          ∧ router'.register method endpoint = (next', .ok ())
        ∨ ∃ fault fault', fault'.unquoted = fault.unquoted
          ∧ router.register method endpoint = (next, .error fault)
          ∧ router'.register method endpoint = (next', .error fault')) := by
  have hresult := h.register_mapError_eq h' method endpoint
  rcases hnext : router.register method endpoint with ⟨next, fault | _⟩
  · rcases hnext' : router'.register method endpoint with ⟨next', fault' | _⟩
    · rw [hnext, hnext'] at hresult
      exact ⟨next, next', registrations, h.of_refused hnext, h'.of_refused hnext',
        Or.inr ⟨fault, fault', Except.error.inj hresult, rfl, rfl⟩⟩
    · simp [hnext, hnext', Except.mapError] at hresult
  · rcases hnext' : router'.register method endpoint with ⟨next', fault' | _⟩
    · simp [hnext, hnext', Except.mapError] at hresult
    · exact ⟨next, next', _, h.of_accepted hnext, h'.of_accepted hnext', Or.inl ⟨rfl, rfl⟩⟩

theorem handle_of_refused {method : Method} {pattern : Text} {route : Route} {fault : RouteError}
    (hrefused : router.register method ⟨pattern, route.handler, route.preHandler⟩
      = (router', .error fault)) :
    router.handle method pattern route = pure (router', .error fault) := by
  rw [handle_eq, hrefused]

section Twins

/-- Whether a computation goes on alike after registrations that end alike and leave routers of the
same registrations. -/
def Blind (goOn : Router × Except RouteError Unit → Run β) : Prop :=
  ∀ (next next' : Router) (registrations : List (Method × Endpoint))
    (result result' : Except RouteError Unit),
    next.Holds registrations → next'.Holds registrations →
    result'.mapError RouteError.unquoted = result.mapError RouteError.unquoted →
    goOn (next', result') = goOn (next, result)

variable (h : router.Holds registrations) (h' : router'.Holds registrations)
  {goOn : Router × Except RouteError Unit → Run β} (hblind : Blind goOn)
include h h' hblind

theorem Holds.handle_bind_eq (method : Method) (pattern : Text) (route : Route) :
    router'.handle method pattern route >>= goOn = router.handle method pattern route >>= goOn := by
  obtain ⟨next, next', registrations', hnext, hnext', hcases⟩ :=
    h.register_cases h' method ⟨pattern, route.handler, route.preHandler⟩
  rw [handle_eq, handle_eq]
  rcases hcases with ⟨hok, hok'⟩ | ⟨fault, fault', hfault, herror, herror'⟩
  · rw [hok, hok']
    simp only [bind_assoc, pure_bind]
    rw [hblind next next' registrations' _ _ hnext hnext' rfl]
  · rw [herror, herror']
    simp only [pure_bind]
    exact hblind next next' registrations' _ _ hnext hnext' (congrArg Except.error hfault)

theorem Holds.perform_bind_eq (call : Call) :
    router'.perform call >>= goOn = router.perform call >>= goOn := by
  cases call with
  | handle method pattern route => exact h.handle_bind_eq h' hblind method pattern route
  | serveFiles pattern files preHandler =>
      simp only [perform, Router.serveFiles]
      split
      · exact h.handle_bind_eq h' hblind _ _ _
      · simp only [pure_bind]
        exact hblind _ _ _ _ _ h h' rfl

end Twins

/-- Routers of the same registrations end all later ones alike, up to what catch-all conflicts
quote. -/
theorem Holds.outcomes_eq (h : router.Holds registrations) (h' : router'.Holds registrations)
    (calls : List Call) :
    List.map (Except.mapError RouteError.unquoted) <$> router'.outcomes calls
      = List.map (Except.mapError RouteError.unquoted) <$> router.outcomes calls := by
  induction calls generalizing router router' registrations with
  | nil => rfl
  | cons call later ih =>
      simp only [outcomes, map_bind]
      apply h.perform_bind_eq h'
      intro next next' registrations' result result' hnext hnext' hresult
      have hlater := congrArg ((result.mapError RouteError.unquoted :: ·) <$> ·) (ih hnext hnext')
      simpa only [Functor.map_map, List.map_cons, hresult] using hlater

/-! ### Questions to routers -/

section Side

variable {trees : List MethodTree} (halike : List.Forall₂ MethodTree.Alike router.trees trees)
include halike

theorem repair_replaced (method : Method) (fixSlash : Bool) (path : Text) :
    (tree? { router with trees := trees } method).map (·.repair fixSlash path)
      = (router.tree? method).map (·.repair fixSlash path) :=
  MethodTree.find?_eq halike (fun _ _ htree => htree.repair fixSlash path) method

theorem lookup_replaced (method : Method) (path : Text) :
    lookup { router with trees := trees } method path = router.lookup method path := by
  have hlookup : ∀ router : Router, router.lookup method path
      = ((router.tree? method).map (·.lookup path)).getD (.miss false) := by
    intro router
    unfold lookup
    cases router.tree? method <;> rfl
  rw [hlookup, hlookup]
  exact congrArg (Option.getD · _)
    (MethodTree.find?_eq halike (fun _ _ htree => htree.lookup path) method)

theorem treeOf_repair_replaced (method : Method) (fixSlash : Bool) (path : Text) :
    (treeOf { router with trees := trees } method).repair fixSlash path
      = (router.treeOf method).repair fixSlash path := by
  have hrepair : ∀ router : Router, (router.treeOf method).repair fixSlash path
      = ((router.tree? method).map (·.repair fixSlash path)).getD none := by
    intro router
    unfold treeOf
    cases router.tree? method <;> rfl
  rw [hrepair, hrepair, repair_replaced halike]

theorem routes_replaced : routes { router with trees := trees } = router.routes := by
  unfold routes
  rw [List.flatMap_def, List.flatMap_def]
  apply congrArg List.flatten
  apply MethodTree.map_eq halike
  intro entry entry' hentry
  rw [hentry.method, hentry.tree.patterns]

theorem allowed_replaced (path : Text) (method : Method) :
    allowed { router with trees := trees } path method = router.allowed path method := by
  have hmethods : allowedMethods { router with trees := trees } path method
      = router.allowedMethods path method := by
    unfold allowedMethods
    by_cases hstar : path = ['*']
    · simp only [if_pos hstar]
      apply MethodTree.filter_eq halike
      intro entry entry' hentry
      rw [hentry.method]
    · simp only [if_neg hstar]
      apply MethodTree.filter_eq halike
      intro entry entry' hentry
      rw [hentry.method, hentry.tree.lookup]
  unfold allowed
  rw [hmethods]

theorem dispatch_replaced (request : Request) (context : Context) :
    dispatch { router with trees := trees } request context
      = router.dispatch request context := by
  have hlookup := lookup_replaced halike request.method request.path
  rw [lookup_eq, lookup_eq] at hlookup
  have htarget : redirectsTo? { router with trees := trees } request
      = router.redirectsTo? request := by
    unfold redirectsTo? redirectTarget?
    simp only [hlookup, treeOf_repair_replaced halike]
  have hfallback : fallback { router with trees := trees } request request.path context
      = router.fallback request request.path context := by
    unfold fallback allowAnswer?
    rw [allowed_replaced halike]
  rw [dispatch_eq, dispatch_eq, hlookup, htarget, hfallback]

end Side

/-! ### No trace -/

/-- Whether no question to two routers tells the one from the other, and neither does any later
registration: each is accepted from both or refused from both, and for the same cause. Only what a
later catch-all conflict quotes is left open. -/
structure Indistinguishable (router router' : Router) : Prop where
  methods : router'.trees.map MethodTree.method = router.trees.map MethodTree.method
  lookup : ∀ method path, router'.lookup method path = router.lookup method path
  repair : ∀ method fixSlash path,
    (router'.tree? method).map (·.repair fixSlash path)
      = (router.tree? method).map (·.repair fixSlash path)
  allowed : ∀ path method, router'.allowed path method = router.allowed path method
  routes : router'.routes = router.routes
  serve : ∀ request, router'.serve request = router.serve request
  later : ∀ calls,
    List.map (Except.mapError RouteError.unquoted) <$> router'.outcomes calls
      = List.map (Except.mapError RouteError.unquoted) <$> router.outcomes calls

theorem Holds.indistinguishable {trees : List MethodTree} (h : router.Holds registrations)
    (h' : Holds { router with trees := trees } registrations)
    (halike : List.Forall₂ MethodTree.Alike router.trees trees) :
    Indistinguishable router { router with trees := trees } where
  methods := MethodTree.map_eq halike fun _ _ hentry => hentry.method
  lookup := lookup_replaced halike
  repair := repair_replaced halike
  allowed := allowed_replaced halike
  routes := routes_replaced halike
  serve request := by
    unfold serve
    rw [dispatch_replaced halike]
  later := h.outcomes_eq h'

theorem Holds.indistinguishable_of_refused {method : Method} {endpoint : Endpoint}
    {fault : RouteError} (h : router.Holds registrations)
    (hrefused : router.register method endpoint = (router', .error fault)) :
    Indistinguishable router router' := by
  have hafter := h.of_refused hrefused
  obtain ⟨trees, rfl, halike⟩ := h.alike_of_refused hrefused
  exact h.indistinguishable hafter halike

theorem Indistinguishable.refl (router : Router) : Indistinguishable router router :=
  ⟨rfl, fun _ _ => rfl, fun _ _ _ => rfl, fun _ _ => rfl, rfl, fun _ => rfl, fun _ => rfl⟩

/-- A refused registration changes nothing that can be observed, and does not call back. -/
theorem BuiltBy.perform_refused {history : List (Method × Endpoint)} {call : Call}
    {fault : RouteError} {notes later : List Text} (h : router.BuiltBy history)
    (hrefused : (router.perform call).Yields notes (router', .error fault) later) :
    Indistinguishable router router'
      ∧ ∀ callback, router.perform (call.withCallback callback) = pure (router', .error fault) := by
  cases call with
  | handle method pattern route =>
      have hregister := register_of_handle_yields hrefused
      refine ⟨h.holds.indistinguishable_of_refused hregister, ?_⟩
      exact fun callback => handle_of_refused hregister
  | serveFiles pattern files preHandler =>
      simp only [perform, Router.serveFiles, Call.withCallback] at hrefused ⊢
      split at hrefused
      · next hmount =>
          have hregister := register_of_handle_yields hrefused
          refine ⟨h.holds.indistinguishable_of_refused hregister, ?_⟩
          intro callback
          rw [if_pos hmount, handle_of_refused hregister]
      · next hmount =>
          obtain ⟨rfl, hfault, -⟩ := Run.Yields.pure_pair_iff.mp hrefused
          refine ⟨Indistinguishable.refl router, ?_⟩
          intro callback
          rw [if_neg hmount, hfault]

def shelf : Router :=
  registerAll {} [(Method.get, ⟨"/ab/c".toList, fun _ _ _ => pure (.ok []), none⟩)]

/-- A route whose catch-all begins in the middle of the label that leads to the other one, and whose
callback would leave a note. -/
def wedge : Route where
  handler := fun _ _ _ => pure (.ok [])
  onRegistered := some fun _ pattern => Run.note pattern

/-- The label is cut before the route is refused. -/
theorem shelf_refuses_wedge :
    ∃ router', (shelf.perform (.handle Method.get "/ab/*rest".toList wedge)).Yields []
          (router', .error (.catchAllConflict "/ab/*rest".toList "/ab/c".toList)) []
      ∧ Indistinguishable shelf router'
      ∧ ∀ callback, shelf.perform
            (Call.withCallback callback (.handle Method.get "/ab/*rest".toList wedge))
          = pure (router', .error (.catchAllConflict "/ab/*rest".toList "/ab/c".toList)) := by
  have hbuilt : shelf.BuiltBy
      [(Method.get, ⟨"/ab/c".toList, fun _ _ _ => pure (.ok []), none⟩)] := rfl
  have hresult : (shelf.register Method.get ⟨"/ab/*rest".toList, wedge.handler, none⟩).2
      = .error (.catchAllConflict "/ab/*rest".toList "/ab/c".toList) := by decide +kernel
  have hrefused : (shelf.perform (.handle Method.get "/ab/*rest".toList wedge)).Yields []
      ((shelf.register Method.get ⟨"/ab/*rest".toList, wedge.handler, none⟩).1,
        .error (.catchAllConflict "/ab/*rest".toList "/ab/c".toList)) [] := by
    have hregister : shelf.register Method.get ⟨"/ab/*rest".toList, wedge.handler, none⟩
        = (_, .error (.catchAllConflict "/ab/*rest".toList "/ab/c".toList)) := Prod.ext rfl hresult
    have hhandle : shelf.perform (.handle Method.get "/ab/*rest".toList wedge) = pure _ :=
      handle_of_refused hregister
    rw [hhandle]
    exact Run.Yields.pure_iff.mpr ⟨rfl, rfl⟩
  exact ⟨_, hrefused, hbuilt.perform_refused hrefused⟩

end Router

end RadixRouter
