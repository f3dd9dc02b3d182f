import RadixRouter.Proofs.Run
import RadixRouter.Proofs.Tree.History
import RadixRouter.Router.Files
import RadixRouter.Router.History

/-!
Every router that comes about by registrations holds, for each method, a sound tree of the routes
that were accepted for it.
-/

namespace RadixRouter

namespace Router

/-- The registrations that are not refused. -/
def registered (router : Router) : List (Method × Endpoint) → List (Method × Endpoint)
  | [] => []
  | (method, endpoint) :: later =>
      match router.register method endpoint with
      | (next, .ok ()) => (method, endpoint) :: next.registered later
      | (next, .error _) => next.registered later

def routesFor (registrations : List (Method × Endpoint)) (method : Method) :
    List (Text × Endpoint) :=
  (registrations.filter (·.1 = method)).map fun registration =>
    (registration.2.pattern, registration.2)

/-- The tree of the routes of `method`, which is empty if there are none. -/
def treeOf (router : Router) (method : Method) : Tree Endpoint :=
  (router.tree? method).getD .empty

/-- A router of the given registrations: sound trees, none of them empty, and one for each
method. -/
structure Holds (router : Router) (registrations : List (Method × Endpoint)) : Prop where
  tree : ∀ method, (router.treeOf method).Holds (routesFor registrations method)
  filled : ∀ entry ∈ router.trees, entry.tree ≠ .empty
  distinct : (router.trees.map MethodTree.method).Nodup

/-- What a router lists of a registration. -/
def listed (registration : Method × Endpoint) : Method × Text :=
  (registration.1, registration.2.pattern)

theorem accepted_eq_map (router : Router) (history : List (Method × Endpoint)) :
    router.accepted history = (router.registered history).map listed := by
  induction history generalizing router with
  | nil => rfl
  | cons registration later ih =>
      obtain ⟨method, endpoint⟩ := registration
      rw [accepted, registered]
      rcases router.register method endpoint with ⟨next, _ | _⟩
      · exact ih next
      · rw [List.map_cons, ← ih next, listed]

/-! ### Routes of a method -/

theorem mem_routesFor {registrations : List (Method × Endpoint)} {method : Method}
    {route : Text × Endpoint} :
    route ∈ routesFor registrations method
      ↔ (method, route.2) ∈ registrations ∧ route.2.pattern = route.1 := by
  obtain ⟨pattern, endpoint⟩ := route
  simp only [routesFor, List.mem_map, List.mem_filter, decide_eq_true_eq, Prod.mk.injEq]
  constructor
  · rintro ⟨⟨method', endpoint'⟩, ⟨hmem, rfl⟩, hpattern, rfl⟩
    exact ⟨hmem, hpattern⟩
  · rintro ⟨hmem, hpattern⟩
    exact ⟨(method, endpoint), ⟨hmem, rfl⟩, hpattern, rfl⟩

/-- The patterns that are listed for a method are those of its routes. -/
theorem mem_listed_iff {registrations : List (Method × Endpoint)} {method : Method}
    {pattern : Text} :
    (method, pattern) ∈ registrations.map listed
      ↔ ∃ endpoint, (pattern, endpoint) ∈ routesFor registrations method := by
  constructor
  · intro hlisted
    obtain ⟨⟨method', endpoint⟩, hmem, heq⟩ := List.mem_map.mp hlisted
    obtain ⟨rfl, hpattern⟩ := Prod.mk.inj heq
    exact ⟨endpoint, mem_routesFor.mpr ⟨hmem, hpattern⟩⟩
  · intro hroutes
    obtain ⟨endpoint, hroute⟩ := hroutes
    obtain ⟨hmem, hpattern⟩ := mem_routesFor.mp hroute
    exact List.mem_map.mpr ⟨(method, endpoint), hmem, Prod.ext rfl hpattern⟩

theorem routesFor_concat_self (registrations : List (Method × Endpoint)) (method : Method)
    (endpoint : Endpoint) :
    routesFor (registrations ++ [(method, endpoint)]) method
      = routesFor registrations method ++ [(endpoint.pattern, endpoint)] := by
  simp [routesFor]

theorem routesFor_concat_of_ne {method method' : Method} (hne : method ≠ method')
    (registrations : List (Method × Endpoint)) (endpoint : Endpoint) :
    routesFor (registrations ++ [(method, endpoint)]) method'
      = routesFor registrations method' := by
  simp [routesFor, hne]

/-! ### Putting a tree -/

theorem method_replaced (method : Method) (tree : Tree Endpoint) (entry : MethodTree) :
    (if entry.method = method then (⟨method, tree⟩ : MethodTree) else entry).method
      = entry.method := by
  split
  · next hentry => exact hentry.symm
  · rfl

theorem tree?_putTree_of_ne {method method' : Method} (hne : method ≠ method') (router : Router)
    (tree : Tree Endpoint) : (router.putTree method tree).tree? method' = router.tree? method' := by
  unfold putTree tree?
  split
  · have hfiltered : ∀ entry : MethodTree,
        (entry.method ≠ method ∧ entry.method = method') ↔ entry.method = method' := by
      intro entry
      refine and_iff_right_of_imp ?_
      rintro rfl
      exact Ne.symm hne
    simp only [List.find?_filter, decide_eq_true_eq, hfiltered]
  · split
    · simp only [List.find?_map, Function.comp_def, method_replaced]
      cases hfound : router.trees.find? (·.method = method') with
      | none => rfl
      | some entry =>
          have hentry : entry.method = method' := by simpa using List.find?_some hfound
          simp [hentry, Ne.symm hne]
    · simp [List.find?_append, hne]

theorem treeOf_putTree_self (router : Router) (method : Method) {tree : Tree Endpoint}
    (hempty : tree.isEmpty = true → tree = .empty) :
    (router.putTree method tree).treeOf method = tree := by
  unfold putTree treeOf tree?
  split
  · next hnone =>
      have habsent :
          (router.trees.filter (·.method ≠ method)).find? (·.method = method) = none := by
        simp [List.find?_eq_none]
      simp only [habsent, Option.map_none, Option.getD_none, hempty hnone]
  · split
    · next hany =>
        simp only [List.find?_map, Function.comp_def, method_replaced]
        cases hfound : router.trees.find? (·.method = method) with
        | none =>
            rw [List.find?_eq_none] at hfound
            obtain ⟨entry, hentry, hmethod⟩ := List.any_eq_true.mp hany
            exact (hfound entry hentry hmethod).elim
        | some entry =>
            have hentry : entry.method = method := by simpa using List.find?_some hfound
            simp [hentry]
    · next hany =>
        have habsent : router.trees.find? (·.method = method) = none := by
          simpa [List.find?_eq_none] using hany
        simp [List.find?_append, habsent]

theorem filled_putTree {router : Router} (hfilled : ∀ entry ∈ router.trees, entry.tree ≠ .empty)
    (method : Method) (tree : Tree Endpoint) :
    ∀ entry ∈ (router.putTree method tree).trees, entry.tree ≠ .empty := by
  intro entry hentry
  unfold putTree at hentry
  split at hentry
  · exact hfilled entry (List.mem_filter.mp hentry).1
  · next hsome =>
      have hne : tree ≠ .empty := by
        rintro rfl
        exact hsome rfl
      split at hentry
      · obtain ⟨old, hold, rfl⟩ := List.mem_map.mp hentry
        split
        · exact hne
        · exact hfilled old hold
      · rcases List.mem_append.mp hentry with hold | hnew
        · exact hfilled entry hold
        · rw [List.mem_singleton.mp hnew]
          exact hne

theorem distinct_putTree {router : Router}
    (hdistinct : (router.trees.map MethodTree.method).Nodup) (method : Method)
    (tree : Tree Endpoint) :
    ((router.putTree method tree).trees.map MethodTree.method).Nodup := by
  unfold putTree
  split
  · exact hdistinct.sublist (List.filter_sublist.map _)
  · split
    · simpa [Function.comp_def, method_replaced] using hdistinct
    · next hnew =>
        simp only [List.map_append, List.map_cons, List.map_nil]
        rw [List.nodup_append]
        refine ⟨hdistinct, by simp, ?_⟩
        simpa using hnew

/-! ### Registering -/

/-- A sound tree without routes is the empty one. -/
theorem eq_empty_of_isEmpty {tree : Tree Endpoint} (hsound : tree.Sound)
    (hempty : tree.isEmpty = true) : tree = .empty := by
  cases tree with
  | empty => rfl
  | root label node =>
      have hpos := hsound.2.2.priority_pos
      have hzero : node.priority = 0 := of_decide_eq_true hempty
      omega

theorem isEmpty_eq_false {tree : Tree Endpoint} (hsound : tree.Sound) (hne : tree ≠ .empty) :
    tree.isEmpty = false :=
  Bool.eq_false_iff.mpr fun hempty => hne (eq_empty_of_isEmpty hsound hempty)

theorem holds_empty : Holds {} [] where
  tree _ := Tree.holds_empty
  filled := by simp
  distinct := by simp

theorem register_eq (router : Router) (method : Method) (endpoint : Endpoint) :
    router.register method endpoint
      = (router.putTree method ((router.treeOf method).insert endpoint.pattern endpoint).1,
          ((router.treeOf method).insert endpoint.pattern endpoint).2.mapError
            (·.withMethod method.name)) := rfl

theorem register_eq_ok_iff {router router' : Router} {method : Method} {endpoint : Endpoint} :
    router.register method endpoint = (router', .ok ())
      ↔ ∃ tree, (router.treeOf method).insert endpoint.pattern endpoint = (tree, .ok ())
        ∧ router.putTree method tree = router' := by
  rw [register_eq]
  rcases (router.treeOf method).insert endpoint.pattern endpoint with ⟨tree, fault | _⟩
  · simp [Except.mapError]
  · simp [Except.mapError]

/-- A registration makes a route more of an accepted endpoint, and leaves the routes as they are
otherwise. -/
theorem Holds.register {router : Router} {registrations : List (Method × Endpoint)}
    (h : router.Holds registrations) (method : Method) (endpoint : Endpoint) :
    (router.register method endpoint).1.Holds
      (registrations ++ router.registered [(method, endpoint)]) := by
  have htree := h.tree method
  have hsound := (Tree.insert_sound endpoint.pattern endpoint htree.sound).1
  have hregister := router.register_eq method endpoint
  rcases hinsert : (router.treeOf method).insert endpoint.pattern endpoint with ⟨tree, result⟩
  rw [hinsert] at hsound hregister
  have hself := router.treeOf_putTree_self method (eq_empty_of_isEmpty hsound)
  refine ⟨?_, ?_, ?_⟩
  · intro method'
    rw [registered, hregister]
    by_cases hne : method = method'
    · subst hne
      cases result with
      | error fault =>
          simpa [Except.mapError, registered, hself] using htree.insert_error hinsert
      | ok _ =>
          simpa [Except.mapError, registered, hself, routesFor_concat_self]
            using htree.insert_ok hinsert
    · have hother : (router.putTree method tree).treeOf method' = router.treeOf method' := by
        rw [treeOf, tree?_putTree_of_ne hne, treeOf]
      cases result with
      | error fault => simpa [Except.mapError, registered, hother] using h.tree method'
      | ok _ =>
          simpa [Except.mapError, registered, hother, routesFor_concat_of_ne hne]
            using h.tree method'
  · rw [hregister]
    exact filled_putTree h.filled method tree
  · rw [hregister]
    exact distinct_putTree h.distinct method tree

/-- A refused registration leaves the accepted ones as they were. -/
theorem Holds.of_refused {router router' : Router} {registrations : List (Method × Endpoint)}
    {method : Method} {endpoint : Endpoint} {fault : RouteError} (h : router.Holds registrations)
    (hrefused : router.register method endpoint = (router', .error fault)) :
    router'.Holds registrations := by
  have hafter := h.register method endpoint
  rw [registered, hrefused] at hafter
  simpa [registered] using hafter

theorem Holds.of_accepted {router router' : Router} {registrations : List (Method × Endpoint)}
    {method : Method} {endpoint : Endpoint} (h : router.Holds registrations)
    (haccepted : router.register method endpoint = (router', .ok ())) :
    router'.Holds (registrations ++ [(method, endpoint)]) := by
  have hafter := h.register method endpoint
  rw [registered, haccepted] at hafter
  simpa [registered] using hafter

theorem registered_cons (router : Router) (registration : Method × Endpoint)
    (later : List (Method × Endpoint)) :
    router.registered (registration :: later)
      = router.registered [registration]
          ++ (router.register registration.1 registration.2).1.registered later := by
  obtain ⟨method, endpoint⟩ := registration
  simp only [registered]
  rcases router.register method endpoint with ⟨next, _ | _⟩ <;> simp

/-- What is registered has been asked for. -/
theorem registered_subset (router : Router) (history : List (Method × Endpoint)) :
    router.registered history ⊆ history := by
  induction history generalizing router with
  | nil => simp [registered]
  | cons registration later ih =>
      obtain ⟨method, endpoint⟩ := registration
      rw [registered]
      rcases router.register method endpoint with ⟨next, _ | _⟩
      · exact List.subset_cons_of_subset _ (ih next)
      · exact List.cons_subset_cons _ (ih next)

theorem Holds.registerAll {router : Router} {registrations : List (Method × Endpoint)}
    (h : router.Holds registrations) (history : List (Method × Endpoint)) :
    (router.registerAll history).Holds (registrations ++ router.registered history) := by
  induction history generalizing router registrations with
  | nil => simpa [Router.registerAll, registered] using h
  | cons registration later ih =>
      obtain ⟨method, endpoint⟩ := registration
      rw [Router.registerAll, registered_cons, ← List.append_assoc]
      exact ih (h.register method endpoint)

theorem treeOf_congr {router router' : Router} (h : router.trees = router'.trees)
    (method : Method) : router.treeOf method = router'.treeOf method := by
  rw [treeOf, tree?, h, treeOf, tree?]

/-- A router's policy has nothing to do with its routes. -/
theorem Holds.of_trees {router router' : Router} {registrations : List (Method × Endpoint)}
    (h : router.Holds registrations) (htrees : router'.trees = router.trees) :
    router'.Holds registrations := by
  refine ⟨?_, ?_, ?_⟩
  · intro method
    rw [treeOf_congr htrees]
    exact h.tree method
  · rw [htrees]
    exact h.filled
  · rw [htrees]
    exact h.distinct

/-- A router that comes about by registrations holds the accepted ones. -/
theorem BuiltBy.holds {router : Router} {history : List (Method × Endpoint)}
    (h : router.BuiltBy history) : router.Holds (registered {} history) :=
  Holds.of_trees (holds_empty.registerAll history) h

/-! ### Building -/

theorem registerAll_concat (router : Router) (history : List (Method × Endpoint))
    (method : Method) (endpoint : Endpoint) :
    router.registerAll (history ++ [(method, endpoint)])
      = ((router.registerAll history).register method endpoint).1 := by
  induction history generalizing router with
  | nil => rfl
  | cons registration history ih => exact ih _

theorem trees_putTree_congr {router router' : Router} (h : router.trees = router'.trees)
    (method : Method) (tree : Tree Endpoint) :
    (router.putTree method tree).trees = (router'.putTree method tree).trees := by
  by_cases hempty : tree.isEmpty = true
  · simp [putTree, hempty, h]
  · by_cases hany : router'.trees.any (·.method = method) = true
    · simp only [putTree, if_neg hempty, h, if_pos hany]
    · simp only [putTree, if_neg hempty, h, if_neg hany]

theorem trees_register_congr {router router' : Router} (h : router.trees = router'.trees)
    (method : Method) (endpoint : Endpoint) :
    (router.register method endpoint).1.trees = (router'.register method endpoint).1.trees := by
  rw [register_eq, register_eq, treeOf_congr h]
  exact trees_putTree_congr h method _

theorem BuiltBy.register {router : Router} {history : List (Method × Endpoint)}
    (h : router.BuiltBy history) (method : Method) (endpoint : Endpoint) :
    (router.register method endpoint).1.BuiltBy (history ++ [(method, endpoint)]) := by
  rw [BuiltBy, registerAll_concat]
  exact trees_register_congr h method endpoint

/-- What a route does once it is registered. -/
def announce (route : Route) (method : Method) (pattern : Text) : Run Unit :=
  match route.onRegistered with
  | some callback => callback method pattern
  | none => pure ()

theorem handle_eq (router : Router) (method : Method) (pattern : Text) (route : Route) :
    router.handle method pattern route =
      match router.register method ⟨pattern, route.handler, route.preHandler⟩ with
      | (next, .error fault) => pure (next, .error fault)
      | (next, .ok ()) => announce route method pattern >>= fun _ => pure (next, .ok ()) := by
  unfold handle announce
  rcases router.register method ⟨pattern, route.handler, route.preHandler⟩ with ⟨next, _ | _⟩
  · rfl
  · cases route.onRegistered <;> rfl

/-- A route that is accepted is told so. -/
theorem handle_of_accepted {router router' : Router} {method : Method} {pattern : Text}
    {route : Route}
    (haccepted : router.register method ⟨pattern, route.handler, route.preHandler⟩
      = (router', .ok ())) :
    router.handle method pattern route
      = announce route method pattern >>= fun _ => pure (router', .ok ()) := by
  rw [handle_eq, haccepted]

/-- What a registration of a route ends with is what the registration of its endpoint ends with. -/
theorem register_of_handle_yields {router router' : Router} {method : Method} {pattern : Text}
    {route : Route} {result : Except RouteError Unit} {notes later : List Text}
    (hhandle : (router.handle method pattern route).Yields notes (router', result) later) :
    router.register method ⟨pattern, route.handler, route.preHandler⟩ = (router', result) := by
  rw [handle_eq] at hhandle
  rcases hregister : router.register method ⟨pattern, route.handler, route.preHandler⟩
    with ⟨next, _ | _⟩
  · rw [hregister] at hhandle
    exact (Run.Yields.pure_iff.mp hhandle).1
  · rw [hregister] at hhandle
    obtain ⟨_, _, -, hpure⟩ := Run.Yields.bind_iff.mp hhandle
    exact (Run.Yields.pure_iff.mp hpure).1

/-- A route that is registered belongs to the history, also if it is refused. -/
theorem BuiltBy.handle {router router' : Router} {history : List (Method × Endpoint)}
    {method : Method} {pattern : Text} {route : Route} {result : Except RouteError Unit}
    {notes later : List Text} (h : router.BuiltBy history)
    (hhandle : (router.handle method pattern route).Yields notes (router', result) later) :
    router'.BuiltBy (history ++ [(method, ⟨pattern, route.handler, route.preHandler⟩)]) := by
  have hregister := h.register method ⟨pattern, route.handler, route.preHandler⟩
  rwa [register_of_handle_yields hhandle] at hregister

/-- A mount is a route for GET, or nothing if its pattern is no pattern of a mount. -/
theorem BuiltBy.serveFiles {router router' : Router} {history : List (Method × Endpoint)}
    {pattern : Text} {files : FileSystem} {preHandler : Option PreHandler}
    {result : Except RouteError Unit} {notes later : List Text} (h : router.BuiltBy history)
    (hserve : (router.serveFiles pattern files preHandler).Yields notes (router', result) later) :
    router'.BuiltBy history
      ∨ router'.BuiltBy (history ++ [(Method.get, ⟨pattern, fileHandler files, preHandler⟩)]) := by
  unfold Router.serveFiles at hserve
  split at hserve
  · exact Or.inr (h.handle hserve)
  · obtain ⟨rfl, -⟩ := Run.Yields.pure_pair_iff.mp hserve
    exact Or.inl h

end Router

end RadixRouter
