import Mathlib.Data.List.Nodup
import Mathlib.Data.List.Perm.Basic
import RadixRouter.Proofs.Router.Refusal
import RadixRouter.Proofs.Tree.Order

/-!
The list of routes of a router: every accepted registration stands in it once, and those of a method
stand together, in the order in which the methods first occurred.
-/

namespace RadixRouter

/-! ### Groups -/

section Groups

variable {α β κ : Type} [DecidableEq κ]

/-- The groups of a list put together, when each element belongs to one of them. -/
theorem flatMap_filter_perm {keys : List κ} (hdistinct : keys.Nodup) (key : α → κ) {xs : List α}
    (hkeys : ∀ x ∈ xs, key x ∈ keys) : (keys.flatMap fun k => xs.filter (key · = k)).Perm xs := by
  induction keys generalizing xs with
  | nil =>
      have hnil : xs = [] :=
        List.eq_nil_iff_forall_not_mem.mpr fun x hx => by simpa using hkeys x hx
      simp [hnil]
  | cons k keys ih =>
      obtain ⟨hnew, hdistinct⟩ := List.nodup_cons.mp hdistinct
      have hrest : ∀ x ∈ xs.filter fun x => !decide (key x = k), key x ∈ keys := by
        intro x hx
        obtain ⟨hx, hne⟩ := List.mem_filter.mp hx
        simpa [show key x ≠ k by simpa using hne] using hkeys x hx
      have hgroups : (keys.flatMap fun k' => xs.filter (key · = k'))
          = keys.flatMap fun k' =>
            (xs.filter fun x => !decide (key x = k)).filter (key · = k') := by
        apply List.flatMap_congr
        intro k' hk'
        rw [List.filter_filter]
        apply List.filter_congr
        intro x _
        by_cases hx : key x = k'
        · have hne : k' ≠ k := fun heq => hnew (heq ▸ hk')
          simp [hx, hne]
        · simp [hx]
      rw [List.flatMap_cons, hgroups]
      exact ((ih hdistinct hrest).append_left _).trans (List.filter_append_perm _ xs)

variable {groups : List β} {name : β → κ} {members : β → List α} {key : α → κ}

/-- The elements of a key, when each key has one group. -/
theorem filter_flatMap_of_mem (hdistinct : (groups.map name).Nodup)
    (hmembers : ∀ group ∈ groups, ∀ x ∈ members group, key x = name group) {group : β}
    (hgroup : group ∈ groups) :
    (groups.flatMap members).filter (key · = name group) = members group := by
  induction groups with
  | nil => contradiction
  | cons first groups ih =>
      rw [List.map_cons, List.nodup_cons] at hdistinct
      obtain ⟨hfirst, hrest⟩ := List.forall_mem_cons.mp hmembers
      rw [List.flatMap_cons, List.filter_append]
      rcases List.mem_cons.mp hgroup with rfl | hgroup
      · have hself : (members group).filter (key · = name group) = members group :=
          List.filter_eq_self.mpr fun x hx => by simp [hfirst x hx]
        have hothers : (groups.flatMap members).filter (key · = name group) = [] := by
          apply List.filter_eq_nil_iff.mpr
          intro x hx
          obtain ⟨other, hother, hx⟩ := List.mem_flatMap.mp hx
          have hne : name other ≠ name group :=
            fun heq => hdistinct.1 (heq ▸ List.mem_map_of_mem hother)
          simpa [hrest other hother x hx] using hne
        rw [hself, hothers, List.append_nil]
      · have hne : name first ≠ name group :=
          fun heq => hdistinct.1 (heq ▸ List.mem_map_of_mem hgroup)
        have hothers : (members first).filter (key · = name group) = [] := by
          apply List.filter_eq_nil_iff.mpr
          intro x hx
          simpa [hfirst x hx] using hne
        rw [hothers, List.nil_append, ih hdistinct.2 hrest hgroup]

theorem flatMap_eq_flatMap_filter (hdistinct : (groups.map name).Nodup)
    (hmembers : ∀ group ∈ groups, ∀ x ∈ members group, key x = name group) :
    groups.flatMap members
      = (groups.map name).flatMap fun k => (groups.flatMap members).filter (key · = k) := by
  rw [List.flatMap_map]
  apply List.flatMap_congr
  intro group hgroup
  exact (filter_flatMap_of_mem hdistinct hmembers hgroup).symm

end Groups

namespace Router

variable {router router' : Router} {registrations : List (Method × Endpoint)} {method : Method}
  {endpoint : Endpoint}

/-! ### Trees in order -/

/-- A router of the given registrations, none of which is like another one, with its trees in the
order in which their methods first occurred. -/
structure Records (router : Router) (registrations : List (Method × Endpoint)) : Prop
    extends Holds router registrations where
  once : (registrations.map listed).Nodup
  order : router.trees.map MethodTree.method = (registrations.map Prod.fst).eraseDups

theorem methods_putTree {tree : Tree Endpoint} (hfilled : tree.isEmpty = false) :
    (router.putTree method tree).trees.map MethodTree.method
      = if method ∈ router.trees.map MethodTree.method then router.trees.map MethodTree.method
        else router.trees.map MethodTree.method ++ [method] := by
  have hany : router.trees.any (·.method = method) = true
      ↔ method ∈ router.trees.map MethodTree.method := by simp
  rw [putTree, if_neg (by simp [hfilled])]
  by_cases hmem : method ∈ router.trees.map MethodTree.method
  · rw [if_pos (hany.mpr hmem), if_pos hmem]
    simp [Function.comp_def, method_replaced]
  · rw [if_neg (hany.not.mpr hmem), if_neg hmem]
    simp

theorem eraseDups_concat {κ : Type} [DecidableEq κ] (keys : List κ) (k : κ) :
    (keys ++ [k]).eraseDups
      = if k ∈ keys.eraseDups then keys.eraseDups else keys.eraseDups ++ [k] := by
  rw [List.eraseDups_append]
  by_cases hmem : k ∈ keys
  · simp [List.removeAll, hmem]
  · simp [List.removeAll, hmem, List.eraseDups_cons]

/-- A route that is accepted is a new one. -/
theorem Holds.not_mem_of_accepted (h : router.Holds registrations)
    (haccepted : router.register method endpoint = (router', .ok ())) :
    (method, endpoint.pattern) ∉ registrations.map listed := by
  intro hmem
  obtain ⟨old, hold⟩ := mem_listed_iff.mp hmem
  obtain ⟨tree, hinsert, -⟩ := register_eq_ok_iff.mp haccepted
  have hok := ((h.tree method).insert_ok_iff endpoint.pattern endpoint).mp (by rw [hinsert])
  have htolerates := hok.2 (endpoint.pattern, old) hold
  exact htolerates.ne rfl

theorem Holds.methods_of_accepted (h : router.Holds registrations)
    (haccepted : router.register method endpoint = (router', .ok ())) :
    router'.trees.map MethodTree.method
      = if method ∈ router.trees.map MethodTree.method then router.trees.map MethodTree.method
        else router.trees.map MethodTree.method ++ [method] := by
  obtain ⟨tree, hinsert, rfl⟩ := register_eq_ok_iff.mp haccepted
  have hafter := (h.tree method).insert_ok hinsert
  have hne : tree ≠ .empty := by simp [hafter.eq_empty_iff]
  exact methods_putTree (isEmpty_eq_false hafter.sound hne)

theorem Records.of_accepted (h : router.Records registrations)
    (haccepted : router.register method endpoint = (router', .ok ())) :
    router'.Records (registrations ++ [(method, endpoint)]) := by
  refine ⟨h.toHolds.of_accepted haccepted, ?_, ?_⟩
  · rw [List.map_append, List.map_singleton, ← List.concat_eq_append]
    exact List.Nodup.concat (h.toHolds.not_mem_of_accepted haccepted) h.once
  · rw [h.toHolds.methods_of_accepted haccepted, h.order, List.map_append, List.map_singleton,
      eraseDups_concat]

theorem Records.of_refused {fault : RouteError} (h : router.Records registrations)
    (hrefused : router.register method endpoint = (router', .error fault)) :
    router'.Records registrations :=
  ⟨h.toHolds.of_refused hrefused, h.once,
    (h.toHolds.indistinguishable_of_refused hrefused).methods.trans h.order⟩

theorem Records.register (h : router.Records registrations) (method : Method)
    (endpoint : Endpoint) :
    (router.register method endpoint).1.Records
      (registrations ++ router.registered [(method, endpoint)]) := by
  rw [registered]
  rcases hregister : router.register method endpoint with ⟨next, fault | _⟩
  · simpa [registered] using h.of_refused hregister
  · simpa [registered] using h.of_accepted hregister

theorem Records.registerAll (h : router.Records registrations)
    (history : List (Method × Endpoint)) :
    (router.registerAll history).Records (registrations ++ router.registered history) := by
  induction history generalizing router registrations with
  | nil => simpa [Router.registerAll, registered] using h
  | cons registration later ih =>
      obtain ⟨method, endpoint⟩ := registration
      rw [Router.registerAll, registered_cons, ← List.append_assoc]
      exact ih (h.register method endpoint)

/-- A router without routes has a record of nothing. -/
theorem records_nil {start : Router} (hnew : start.trees = []) : start.Records [] :=
  ⟨holds_empty.of_trees hnew, List.nodup_nil, by rw [hnew]; rfl⟩

theorem BuiltBy.records {history : List (Method × Endpoint)} (h : router.BuiltBy history) :
    router.Records (registered {} history) := by
  have hnew : Records {} [] := records_nil rfl
  have hrecords := hnew.registerAll history
  exact ⟨h.holds, hrecords.once, by rw [h, hrecords.order]; rfl⟩

/-! ### The list -/

/-- Whether a router has the routes `accepted` and no others: it lists each of them once, by method,
from one tree for each method, which is not empty and counts its routes. -/
structure Tabulates (router : Router) (accepted : List (Method × Text)) : Prop where
  routes : router.routes.Perm accepted
  once : router.routes.Nodup
  methods : router.trees.map MethodTree.method = (accepted.map Prod.fst).eraseDups
  distinct : (router.trees.map MethodTree.method).Nodup
  /-- The routes of a method stand together, in the order of the methods. -/
  grouped : router.routes = (accepted.map Prod.fst).eraseDups.flatMap fun method =>
    router.routes.filter (·.1 = method)
  filled : ∀ entry ∈ router.trees, entry.tree.isEmpty = false
  counted : ∀ entry ∈ router.trees, entry.tree.priority = entry.tree.patterns.length

theorem Records.routes_perm (h : router.Records registrations) :
    router.routes.Perm (registrations.map listed) := by
  have hkeys : ∀ registration ∈ registrations,
      registration.1 ∈ router.trees.map MethodTree.method := by
    intro registration hmem
    rw [h.order, List.mem_eraseDups]
    exact List.mem_map_of_mem hmem
  have htrees : ∀ entry ∈ router.trees,
      (entry.tree.patterns.map (entry.method, ·)).Perm
        ((registrations.filter (·.1 = entry.method)).map listed) := by
    intro entry hentry
    have hperm := ((h.tree_holds hentry).patterns_perm.map (entry.method, ·))
    rw [routesFor, List.map_map, List.map_map] at hperm
    refine hperm.trans (List.Perm.of_eq ?_)
    apply List.map_congr_left
    intro registration hmem
    have hmethod : registration.1 = entry.method := by simpa using (List.mem_filter.mp hmem).2
    exact Prod.ext hmethod.symm rfl
  have hgroups := (flatMap_filter_perm h.distinct Prod.fst hkeys).map listed
  rw [List.map_flatMap, List.flatMap_map] at hgroups
  exact (List.Perm.flatMap_left _ htrees).trans hgroups

theorem Records.tabulates (h : router.Records registrations) :
    router.Tabulates (registrations.map listed) := by
  have hmethods : router.trees.map MethodTree.method
      = ((registrations.map listed).map Prod.fst).eraseDups := by
    rw [h.order, List.map_map]
    rfl
  refine ⟨h.routes_perm, h.routes_perm.nodup_iff.mpr h.once, hmethods, h.distinct, ?_, ?_, ?_⟩
  · rw [← hmethods]
    apply flatMap_eq_flatMap_filter h.distinct
    intro entry _ route hroute
    obtain ⟨pattern, -, rfl⟩ := List.mem_map.mp hroute
    rfl
  · exact fun entry hentry => isEmpty_eq_false (h.tree_holds hentry).sound (h.filled entry hentry)
  · exact fun entry hentry => (h.tree_holds hentry).sound.priority_eq

/-! ### Calls -/

/-- A call registers an endpoint for its target, or is refused without a look at the trees. -/
theorem perform_yields {call : Call} {result : Except RouteError Unit} {notes later : List Text}
    (hperform : (router.perform call).Yields notes (router', result) later) :
    (∃ endpoint : Endpoint, endpoint.pattern = call.target.2
        ∧ router.register call.target.1 endpoint = (router', result))
      ∨ router' = router ∧ ∃ fault, result = .error fault := by
  cases call with
  | handle method pattern route =>
      exact Or.inl ⟨⟨pattern, route.handler, route.preHandler⟩, rfl,
        register_of_handle_yields hperform⟩
  | serveFiles pattern files preHandler =>
      simp only [perform, Router.serveFiles] at hperform
      split at hperform
      · exact Or.inl ⟨⟨pattern, fileHandler files, preHandler⟩, rfl,
          register_of_handle_yields hperform⟩
      · obtain ⟨rfl, rfl, -⟩ := Run.Yields.pure_pair_iff.mp hperform
        exact Or.inr ⟨rfl, _, rfl⟩

/-- Calls make the registrations of a history, and accept what is accepted of it. -/
theorem performAll_yields {calls : List Call} {accepted : List (Method × Text)}
    {notes later : List Text}
    (hrun : (router.performAll calls).Yields notes (router', accepted) later) :
    ∃ history, router' = router.registerAll history ∧ accepted = router.accepted history := by
  induction calls generalizing router router' accepted notes later with
  | nil =>
      obtain ⟨rfl, rfl, -⟩ := Run.Yields.pure_pair_iff.mp hrun
      exact ⟨[], rfl, rfl⟩
  | cons call calls ih =>
      obtain ⟨⟨next, result⟩, mid, hperform, hrest⟩ := Run.Yields.bind_iff.mp hrun
      obtain ⟨⟨last, others⟩, mid', hcalls, hlast⟩ := Run.Yields.bind_iff.mp hrest
      obtain ⟨history, rfl, rfl⟩ := ih hcalls
      rcases perform_yields hperform with ⟨endpoint, hpattern, hregister⟩ | ⟨rfl, fault, rfl⟩
      · refine ⟨(call.target.1, endpoint) :: history, ?_⟩
        rw [Router.registerAll, Router.accepted, hregister, hpattern]
        cases result with
        | error fault =>
            obtain ⟨rfl, rfl, -⟩ := Run.Yields.pure_pair_iff.mp hlast
            exact ⟨rfl, rfl⟩
        | ok _ =>
            obtain ⟨rfl, rfl, -⟩ := Run.Yields.pure_pair_iff.mp hlast
            exact ⟨rfl, rfl⟩
      · obtain ⟨rfl, rfl, -⟩ := Run.Yields.pure_pair_iff.mp hlast
        exact ⟨history, rfl, rfl⟩

/-- The call that registers an endpoint without a callback. -/
def silently (registration : Method × Endpoint) : Call :=
  .handle registration.1 registration.2.pattern
    { handler := registration.2.handler, preHandler := registration.2.preHandler }

/-- Without callbacks, calls end with the router and the accepted ones of their history. -/
theorem performAll_map_silently (router : Router) (history : List (Method × Endpoint)) :
    router.performAll (history.map silently)
      = pure (router.registerAll history, router.accepted history) := by
  induction history generalizing router with
  | nil => rfl
  | cons registration later ih =>
      obtain ⟨method, endpoint⟩ := registration
      rw [List.map_cons, Router.performAll, silently, perform, handle_eq, Router.registerAll,
        Router.accepted]
      rcases router.register method endpoint with ⟨next, _ | _⟩
      · simp [ih next]
      · simp [announce, Call.target, ih next]

/-- Whatever calls are made on a router without routes, it lists what was accepted. -/
theorem performAll_tabulates {start : Router} (hnew : start.trees = []) {calls : List Call}
    {accepted : List (Method × Text)} {notes later : List Text}
    (hrun : (start.performAll calls).Yields notes (router, accepted) later) :
    router.Tabulates accepted := by
  obtain ⟨history, rfl, rfl⟩ := performAll_yields hrun
  have hrecords := (records_nil hnew).registerAll history
  rw [accepted_eq_map]
  exact hrecords.tabulates

/-- Two methods in turn; the place that the third route asks for is taken. -/
def turns : List (Method × Endpoint) :=
  [(Method.post, "/user"), (Method.get, "/user/:name"), (Method.get, "/user/:id"),
    (Method.post, "/use")].map fun (method, pattern) =>
      (method, ⟨pattern.toList, fun _ _ _ => pure (.ok []), none⟩)

/-- The routes that are not refused. -/
def taken : List (Method × Text) :=
  [(Method.post, "/user".toList), (Method.get, "/user/:name".toList), (Method.post, "/use".toList)]

theorem turns_tabulates :
    ∃ router, (performAll {} (turns.map silently)).Yields [] (router, taken) []
      ∧ router.Tabulates taken := by
  have haccepted : accepted {} turns = taken := by decide +kernel
  have hrun : (performAll {} (turns.map silently)).Yields [] (registerAll {} turns, taken) [] := by
    rw [performAll_map_silently, haccepted]
    exact Run.Yields.pure_pair_iff.mpr ⟨rfl, rfl, rfl⟩
  exact ⟨_, hrun, performAll_tabulates rfl hrun⟩

end Router

end RadixRouter
