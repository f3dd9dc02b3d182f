import RadixRouter.Proofs.Router.Policy
import RadixRouter.Proofs.Router.Redirect
import RadixRouter.Proofs.Router.Routes

/-!
The list of methods that a router offers for a path: which methods stand in it, in which order, and
what a client gets that uses one of them. A refusal carries the list, too.
-/

namespace RadixRouter

open Pattern

theorem Method.name_injective : Function.Injective Method.name := by
  intro method other hname
  cases method
  cases other
  exact congrArg Method.mk hname

namespace Router

/-- The text that offers `methods`, and OPTIONS behind them. -/
def offer (methods : List Method) : Text :=
  List.intercalate [',', ' '] ((methods ++ [Method.options]).map Method.name)

/-- Whether `methods` are the ones to offer for `path` in the place of `method`, where the accepted
routes are the given ones: the others that have a route for the path, or for the asterisk all that
have a route. They stand in the order in which they were first accepted. -/
structure Offers (accepted : List (Method × Text)) (path : Text) (method : Method)
    (methods : List Method) : Prop where
  mem_iff : ∀ other, other ∈ methods ↔ other ≠ Method.options
    ∧ if path = ['*'] then ∃ pattern, (other, pattern) ∈ accepted
      else other ≠ method ∧ ∃ pattern, (other, pattern) ∈ accepted ∧ Matches pattern path
  once : methods.Nodup
  ordered : methods.Sublist (accepted.map Prod.fst).eraseDups

/-- Whether a request is answered by the most specific route of its method, whose handlers are given
what the path binds. -/
def AnsweredByRoute (router : Router) (registrations : List (Method × Endpoint))
    (request : Request) : Prop :=
  ∃ endpoint params,
    MostSpecific (routesFor registrations request.method) request.path
        (endpoint.pattern, endpoint) params
      ∧ router.AnsweredBy request endpoint params

/-- Whether a request is refused for its method: no route has answered it, nor a redirect, nor the
list of methods alone, and there are methods to offer. -/
structure Refuses (router : Router) (request : Request) : Prop where
  missed : (router.lookup request.method request.path).isHit = false
  stays : router.redirectsTo? request = none
  unasked : ¬ AsksOptions router request
  switch : router.switches.handleMethodNotAllowed = true
  offers : (router.allowed request.path request.method).isSome = true

variable {router : Router} {registrations history : List (Method × Endpoint)} {request : Request}

theorem allowed_eq (router : Router) (path : Text) (method : Method) :
    router.allowed path method
      = if router.allowedMethods path method = [] then none
        else some (offer (router.allowedMethods path method)) := by
  unfold allowed offer
  cases router.allowedMethods path method <;> rfl

/-! ### What is offered -/

theorem routesFor_ne_nil_iff {method : Method} :
    routesFor registrations method ≠ []
      ↔ ∃ pattern, (method, pattern) ∈ registrations.map listed := by
  rw [ne_eq, List.eq_nil_iff_forall_not_mem]
  simp only [not_forall, Classical.not_not, mem_listed_iff, Prod.exists]

theorem matched_routesFor_iff {method : Method} {path : Text} :
    Matched (routesFor registrations method) path
      ↔ ∃ pattern, (method, pattern) ∈ registrations.map listed ∧ Matches pattern path := by
  simp only [Matched, mem_listed_iff, Prod.exists, exists_and_right]

theorem sublist_methods (router : Router) (path : Text) (method : Method) :
    (router.allowedMethods path method).Sublist (router.trees.map MethodTree.method) := by
  unfold allowedMethods
  split
  · exact List.filter_sublist.map _
  · exact List.filter_sublist.map _

theorem Records.offers (h : router.Records registrations) (path : Text) (method : Method) :
    Offers (registrations.map listed) path method (router.allowedMethods path method) where
  mem_iff other := by
    rw [h.mem_allowedMethods_iff, routesFor_ne_nil_iff, matched_routesFor_iff]
  once := h.distinct.sublist (sublist_methods router path method)
  ordered := by
    have hsublist := sublist_methods router path method
    rw [h.order] at hsublist
    rw [List.map_map]
    exact hsublist

theorem BuiltBy.offers (hbuilt : router.BuiltBy history) (path : Text) (method : Method) :
    Offers (accepted {} history) path method (router.allowedMethods path method) := by
  rw [accepted_eq_map]
  exact hbuilt.records.offers path method

/-- A client can read the methods that are offered. -/
theorem Holds.members_offer (h : router.Holds registrations)
    (hnamed : ∀ registration ∈ registrations, registration.1.Named) (path : Text)
    (method : Method) :
    Header.members (offer (router.allowedMethods path method))
      = (router.allowedMethods path method ++ [Method.options]).map Method.name := by
  apply Header.members_intercalate (by simp)
  intro name hname
  obtain ⟨other, hother, rfl⟩ := List.mem_map.mp hname
  exact h.named_of_offered hnamed hother

theorem Holds.answeredByRoute (h : router.Holds registrations)
    (hmatched : Matched (routesFor registrations request.method) request.path) :
    AnsweredByRoute router registrations request := by
  obtain ⟨endpoint, params, hlookup, hanswered⟩ := h.reaches_iff.mpr hmatched
  exact ⟨endpoint, params, (h.lookup_eq_hit_iff _ _ _ _).mp hlookup, hanswered⟩

/-- A router offers exactly the other methods that have a route for a path, and OPTIONS with them,
or nothing if there are none. A request with one of them is answered by its route. -/
theorem BuiltBy.allowed_offers (hbuilt : router.BuiltBy history) (path : Text) (method : Method) :
    ∃ methods, Offers (accepted {} history) path method methods
      ∧ router.allowed path method = (if methods = [] then none else some (offer methods))
      ∧ ((∀ registration ∈ history, registration.1.Named) →
        Header.members (offer methods) = (methods ++ [Method.options]).map Method.name)
      ∧ (path ≠ ['*'] → ∀ request : Request, request.path = path → request.method ∈ methods →
        AnsweredByRoute router (registered {} history) request) := by
  have h := hbuilt.holds
  refine ⟨router.allowedMethods path method, hbuilt.offers path method,
    allowed_eq router path method, ?_, ?_⟩
  · intro hnamed
    exact h.members_offer (fun registration hmem => hnamed _ (registered_subset _ _ hmem)) _ _
  · rintro hpath request rfl hmem
    obtain ⟨-, hoffered⟩ := (h.mem_allowedMethods_iff _ _ _).mp hmem
    rw [if_neg hpath] at hoffered
    exact h.answeredByRoute hoffered.2

/-- A router with three methods for one pattern besides OPTIONS. The first route of PUT is refused,
and so is the second one of GET. -/
def counter : List (Method × Endpoint) :=
  [(Method.put, "items"), (Method.get, "/items/:id"), (Method.options, "/items/:id"),
    (Method.post, "/items"), (Method.put, "/items/:id"), (Method.get, "/items/:name"),
    (Method.post, "/items/:id")].map fun (method, pattern) =>
      (method, ⟨pattern.toList, fun _ _ _ => pure (.ok []), none⟩)

/-- A request that replaces an item. -/
def replacing : Request :=
  ⟨Method.put, ⟨"/items/7".toList, none⟩, [], [], none⟩

theorem counter_offers :
    (registerAll {} counter).allowed "/items/7".toList Method.delete
        = some "GET, POST, PUT, OPTIONS".toList
      ∧ Header.members "GET, POST, PUT, OPTIONS".toList
        = ["GET".toList, "POST".toList, "PUT".toList, "OPTIONS".toList]
      ∧ AnsweredByRoute (registerAll {} counter) (registered {} counter) replacing := by
  have hbuilt : (registerAll {} counter).BuiltBy counter := rfl
  have hallowed : (registerAll {} counter).allowed "/items/7".toList Method.delete
      = some "GET, POST, PUT, OPTIONS".toList := by decide +kernel
  obtain ⟨methods, hoffers, -, -, hanswered⟩ :=
    hbuilt.allowed_offers "/items/7".toList Method.delete
  have hput : Method.put ∈ methods := by
    rw [hoffers.mem_iff, if_neg (by decide)]
    exact ⟨by decide, by decide, "/items/:id".toList, by decide +kernel, by
      rw [Matches]
      decide +kernel⟩
  exact ⟨hallowed, by decide +kernel,
    hanswered (by decide) replacing (by decide +kernel) hput⟩

/-! ### Refusals -/

/-- A refusal is the answer for that, with the methods that are offered. -/
theorem Refuses.serve_eq (hrefuses : Refuses router request) {allow : Text}
    (hallow : router.allowed request.path request.method = some allow) :
    router.serve request = router.guarded request (refusal router request >>= fun response =>
      pure { response with headers := response.headers.insertText Header.allow allow }) := by
  have hmissed := hrefuses.missed
  rw [serve_eq_guarded, dispatch_eq, hrefuses.stays]
  rw [lookup_eq] at hmissed
  cases hlookup : (router.treeOf request.method).lookup request.path with
  | hit endpoint params =>
      rw [hlookup] at hmissed
      contradiction
  | miss slash =>
      exact congrArg _ (fallback_of_allowed hrefuses.unasked hrefuses.switch hallow)

/-- The decoded path of a request is the asterisk only if this is what the request asks for. -/
theorem path_eq_asterisk_iff {text : Text} (htarget : Target.ofText? text = some request.target) :
    request.path = ['*'] ↔ text = ['*'] := by
  unfold Request.path
  rcases Target.path_cases_of_ofText? htarget with ⟨rfl, hpath⟩ | ⟨hne, hempty | ⟨rest, hslash⟩⟩
  · rw [hpath]
    exact iff_of_true rfl rfl
  · rw [hempty]
    exact iff_of_false (by decide) hne
  · obtain ⟨path, hdecode⟩ := Percent.exists_decodePath_slash rest
    rw [hslash, hdecode]
    exact iff_of_false (by simp) hne

/-- A refusal offers the methods that are allowed. The one that is refused is among them if it is
OPTIONS, and also if the request is for the asterisk, where the methods with routes are offered
without a look at the request. -/
theorem BuiltBy.refusal_offers_own_iff {text : Text} (hbuilt : router.BuiltBy history)
    (hnamed : ∀ registration ∈ history, registration.1.Named)
    (htarget : Target.ofText? text = some request.target) (hrefuses : Refuses router request) :
    ∃ allow, router.allowed request.path request.method = some allow
      ∧ router.serve request = router.guarded request (refusal router request >>= fun response =>
        pure { response with headers := response.headers.insertText Header.allow allow })
      ∧ (∀ headers : Headers, (headers.insertText Header.allow allow).get? Header.allow
        = some (Text.utf8 allow))
      ∧ (request.method.name ∈ Header.members allow
        ↔ request.method = Method.options
          ∨ text = ['*'] ∧ ∃ pattern, (request.method, pattern) ∈ accepted {} history) := by
  have h := hbuilt.holds
  have hnames : ∀ registration ∈ registered {} history, registration.1.Named :=
    fun registration hmem => hnamed _ (registered_subset _ _ hmem)
  obtain ⟨allow, hallow⟩ := Option.isSome_iff_exists.mp hrefuses.offers
  refine ⟨allow, hallow, hrefuses.serve_eq hallow, h.get?_allow hnames hallow, ?_⟩
  have hoffer : allow = offer (router.allowedMethods request.path request.method) := by
    rw [allowed_eq] at hallow
    split at hallow
    · contradiction
    · exact (Option.some.inj hallow).symm
  rw [hoffer, h.members_offer hnames, List.mem_map_of_injective Method.name_injective,
    List.mem_append, List.mem_singleton, (hbuilt.offers _ _).mem_iff,
    ← path_eq_asterisk_iff htarget]
  by_cases hoptions : request.method = Method.options
  · simp [hoptions]
  · by_cases hstar : request.path = ['*']
    · simp [hoptions, hstar]
    · simp [hoptions, hstar]

/-- Two methods for one pattern. -/
def pair : List (Method × Endpoint) :=
  [(Method.get, ⟨"/x".toList, fun _ _ _ => pure (.ok []), none⟩),
    (Method.post, ⟨"/x".toList, fun _ _ _ => pure (.ok []), none⟩)]

def paired : Router where
  trees := (registerAll {} pair).trees

/-- A request for the asterisk with a method other than OPTIONS. -/
def starred : Request :=
  ⟨Method.get, ⟨['*'], none⟩, [], [], none⟩

theorem paired_offers_own :
    paired.serve starred
        = pure ⟨405, (Response.notice 405 "Method Not Allowed\n".toList).headers.insertText
            Header.allow "GET, POST, OPTIONS".toList, Text.utf8 "Method Not Allowed\n".toList⟩
      ∧ starred.method.name ∈ Header.members "GET, POST, OPTIONS".toList := by
  have hbuilt : paired.BuiltBy pair := rfl
  have hnamed : ∀ registration ∈ pair, registration.1.Named := by decide +kernel
  have htarget : Target.ofText? ['*'] = some starred.target := by decide +kernel
  have hrefuses : Refuses paired starred :=
    ⟨by decide +kernel, by decide +kernel, fun hasks => absurd hasks.1 (by decide), rfl,
      by decide +kernel⟩
  have hallowed : paired.allowed starred.path starred.method
      = some "GET, POST, OPTIONS".toList := by decide +kernel
  obtain ⟨allow, hallow, hserve, -, hown⟩ :=
    hbuilt.refusal_offers_own_iff hnamed htarget hrefuses
  have hsame : allow = "GET, POST, OPTIONS".toList :=
    Option.some.inj (hallow.symm.trans hallowed)
  subst hsame
  have hget : ∃ pattern, (starred.method, pattern) ∈ accepted {} pair :=
    ⟨"/x".toList, by decide +kernel⟩
  exact ⟨hserve, hown.mpr (Or.inr ⟨rfl, hget⟩)⟩

end Router

end RadixRouter
