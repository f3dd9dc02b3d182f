import RadixRouter.Proofs.Router.Allowed
import RadixRouter.Proofs.Router.Redirect

/-!
The policy of a router as a flat table: which answer a request gets is decided by the registered
patterns, the switches and the method alone.
-/

namespace RadixRouter

open Pattern

/-- A response that offers the methods of `allow`, too. -/
def Response.allowing (allow : Text) (response : Response) : Response :=
  { response with headers := response.headers.insertText Header.allow allow }

namespace Router

section Policy

variable (router : Router) (registrations : List (Method × Endpoint)) (request : Request)

/-- Whether a request asks for the methods, and the router answers that on its own. -/
def AsksOptions : Prop :=
  request.method = Method.options ∧ router.switches.handleOptions = true

/-- The answer that a method is not allowed, but for the methods that are. -/
def refusal : Run Response :=
  match router.methodNotAllowed with
  | some handler => handler request [] (Context.ofRequest request)
  | none => pure (.notice 405 "Method Not Allowed\n".toList)

/-- The answer that nothing is found. -/
def absence : Run Response :=
  match router.notFound with
  | some handler => handler request [] (Context.ofRequest request)
  | none => pure notFoundNotice

/-- Whether a request is answered by `handler?`, which is given no bindings and no pattern, or with
`status` if that is absent. In either case the answer is sent as `final` makes it. -/
structure AnsweredInstead (handler? : Option Handler) (status : Nat)
    (final : Response → Response) : Prop where
  handled : ∀ {handler notes response later}, handler? = some handler →
    (handler request [] (Context.ofRequest request)).Yields notes response later →
    (router.serve request).Yields notes (final response) later
  unhandled : handler? = none →
    ∃ response, response.status = status ∧ router.serve request = pure (final response)

/-- The answers of a router whose registrations are the given ones. Every clause but the first is
about a request that no route matches, and those behind the second one about one that is not
redirected either. The last two are on the methods that are offered. -/
structure FlatPolicy : Prop where
  /-- The most specific route alone answers, and nothing is changed about its answer. -/
  matched : Matched (routesFor registrations request.method) request.path →
    ∃ endpoint params,
      MostSpecific (routesFor registrations request.method) request.path
          (endpoint.pattern, endpoint) params
        ∧ ∀ {notes response later},
          endpoint.Answers request params
            { Context.ofRequest request with route := some endpoint.pattern } notes response later →
          (router.serve request).Yields notes response later
  redirected : ¬ Matched (routesFor registrations request.method) request.path →
    Redirected router registrations request →
    ∃ target response, SentTo router registrations request target
      ∧ router.serve request = pure response
      ∧ response.SendsTo request target
  options : ¬ Matched (routesFor registrations request.method) request.path →
    ¬ Redirected router registrations request → AsksOptions router request →
    Offered registrations request.path request.method →
    ∃ allow, router.allowed request.path request.method = some allow
      ∧ router.serve request = pure (Response.allowing allow ⟨200, [], []⟩)
  notAllowed : ¬ Matched (routesFor registrations request.method) request.path →
    ¬ Redirected router registrations request → ¬ AsksOptions router request →
    router.switches.handleMethodNotAllowed = true →
    Offered registrations request.path request.method →
    ∃ allow, router.allowed request.path request.method = some allow
      ∧ AnsweredInstead router request router.methodNotAllowed 405 (Response.allowing allow)
  notFound : ¬ Matched (routesFor registrations request.method) request.path →
    ¬ Redirected router registrations request →
    ¬ (Offered registrations request.path request.method
      ∧ (AsksOptions router request ∨ router.switches.handleMethodNotAllowed = true)) →
    AnsweredInstead router request router.notFound 404 id
  offered : (router.allowed request.path request.method).isSome = true
    ↔ Offered registrations request.path request.method
  /-- The methods that are offered can be read in the answer. -/
  offer : (∀ registration ∈ registrations, registration.1.Named) →
    ∀ allow, router.allowed request.path request.method = some allow →
    ∀ response, (Response.allowing allow response).headers.get? Header.allow
      = some (Text.utf8 allow)

end Policy

variable {router : Router} {registrations history : List (Method × Endpoint)} {request : Request}

theorem dispatch_of_not_redirected (h : router.Holds registrations)
    (hnone : ¬ Matched (routesFor registrations request.method) request.path)
    (hstay : ¬ Redirected router registrations request) (context : Context) :
    router.dispatch request context = router.fallback request request.path context := by
  have hmiss := (h.redirectsTo?_isSome_iff hnone).not.mpr hstay
  rw [Option.not_isSome_iff_eq_none] at hmiss
  rw [dispatch_eq, hmiss]
  split
  · next endpoint params hhit =>
      have hmatched := (h.tree request.method).isHit_iff request.path
      simp [hhit, Lookup.isHit, Lookup.value?, hnone] at hmatched
  · rfl

theorem asksOptions_iff :
    (request.method = Method.options && router.switches.handleOptions) = true
      ↔ AsksOptions router request := by
  simp [AsksOptions]

/-- Where other methods are allowed, the refusal says so. -/
theorem fallback_of_allowed (hasks : ¬ AsksOptions router request)
    (hswitch : router.switches.handleMethodNotAllowed = true) {allow : Text}
    (hallow : router.allowed request.path request.method = some allow) :
    router.fallback request request.path (Context.ofRequest request)
      = refusal router request >>= fun response =>
          pure { response with headers := response.headers.insertText Header.allow allow } := by
  rw [fallback, allowAnswer?, if_neg (asksOptions_iff.not.mpr hasks), if_pos hswitch, hallow,
    refusal]
  cases router.methodNotAllowed <;> rfl

section Fallback

variable (h : router.Holds registrations)
include h

theorem exists_allowed (hoffered : Offered registrations request.path request.method) :
    ∃ allow, router.allowed request.path request.method = some allow :=
  Option.isSome_iff_exists.mp ((h.allowed_isSome_iff _ _).mpr hoffered)

theorem fallback_of_asksOptions (hasks : AsksOptions router request)
    (hoffered : Offered registrations request.path request.method) (context : Context) :
    ∃ allow, router.allowed request.path request.method = some allow
      ∧ router.fallback request request.path context
        = pure (Response.allowing allow ⟨200, [], []⟩) := by
  obtain ⟨allow, hallow⟩ := exists_allowed h hoffered
  refine ⟨allow, hallow, ?_⟩
  rw [fallback, allowAnswer?, if_pos (asksOptions_iff.mpr hasks), hallow]
  rfl

theorem fallback_of_notAllowed (hasks : ¬ AsksOptions router request)
    (hswitch : router.switches.handleMethodNotAllowed = true)
    (hoffered : Offered registrations request.path request.method) :
    ∃ allow, router.allowed request.path request.method = some allow
      ∧ router.fallback request request.path (Context.ofRequest request)
        = refusal router request >>= fun response => pure (Response.allowing allow response) := by
  obtain ⟨allow, hallow⟩ := exists_allowed h hoffered
  exact ⟨allow, hallow, fallback_of_allowed hasks hswitch hallow⟩

theorem fallback_of_notFound
    (hnot : ¬ (Offered registrations request.path request.method
      ∧ (AsksOptions router request ∨ router.switches.handleMethodNotAllowed = true))) :
    router.fallback request request.path (Context.ofRequest request)
      = absence router request := by
  have hanswer : router.allowAnswer? request request.path (Context.ofRequest request) = none := by
    rw [← h.allowed_isSome_iff] at hnot
    unfold allowAnswer?
    split
    · next hasks =>
        cases hallow : router.allowed request.path request.method with
        | none => rfl
        | some allow => exact (hnot ⟨by simp [hallow], Or.inl (asksOptions_iff.mp hasks)⟩).elim
    · split
      · next hswitch =>
          cases hallow : router.allowed request.path request.method with
          | none => rfl
          | some allow => exact (hnot ⟨by simp [hallow], Or.inr hswitch⟩).elim
      · rfl
  rw [fallback, hanswer]
  rfl

end Fallback

/-- What is dispatched to a handler, or to an answer of its own where that is absent, is sent so. -/
theorem answeredInstead_of_dispatch {handler? : Option Handler} {final : Response → Response}
    (notice : Response)
    (hdispatch : router.dispatch request (Context.ofRequest request)
      = (match handler? with
          | some handler => handler request [] (Context.ofRequest request)
          | none => pure notice) >>= fun response => pure (final response)) :
    AnsweredInstead router request handler? notice.status final := by
  constructor
  case handled =>
    rintro handler notes response later rfl hyields
    apply serve_yields
    rw [hdispatch]
    exact Run.Yields.bind_iff.mpr ⟨response, later, hyields, Run.Yields.pure_iff.mpr ⟨rfl, rfl⟩⟩
  case unhandled =>
    rintro rfl
    refine ⟨notice, rfl, serve_of_dispatch_eq_pure ?_⟩
    rw [hdispatch, pure_bind]

/-- A matched request is answered by the most specific route. -/
theorem serve_of_matched (h : router.Holds registrations)
    (hmatched : Matched (routesFor registrations request.method) request.path) :
    ∃ endpoint params,
      MostSpecific (routesFor registrations request.method) request.path
          (endpoint.pattern, endpoint) params
        ∧ ∀ {notes response later},
          endpoint.Answers request params
            { Context.ofRequest request with route := some endpoint.pattern } notes response later →
          (router.serve request).Yields notes response later := by
  obtain ⟨endpoint, params, hlookup, hanswered⟩ := h.reaches_iff.mpr hmatched
  exact ⟨endpoint, params, (h.lookup_eq_hit_iff _ _ _ _).mp hlookup, hanswered.yields⟩

/-- A router answers as the flat table of its accepted registrations says. -/
theorem serve_flatPolicy (hbuilt : router.BuiltBy history) (request : Request) :
    FlatPolicy router (registered {} history) request := by
  have h := hbuilt.holds
  constructor
  case matched => exact serve_of_matched h
  case redirected =>
    intro hnone hredirected
    have hsome := (h.redirectsTo?_isSome_iff hnone).mpr hredirected
    obtain ⟨target, htarget⟩ := Option.isSome_iff_exists.mp hsome
    exact ⟨target, _, h.sentTo htarget,
      serve_of_dispatch_eq_pure (dispatch_of_redirectsTo? htarget _), redirect_sendsTo _ _⟩
  case options =>
    intro hnone hstay hasks hoffered
    obtain ⟨allow, hallow, hfallback⟩ :=
      fallback_of_asksOptions h hasks hoffered (Context.ofRequest request)
    refine ⟨allow, hallow, serve_of_dispatch_eq_pure ?_⟩
    rw [dispatch_of_not_redirected h hnone hstay, hfallback]
  case notAllowed =>
    intro hnone hstay hasks hswitch hoffered
    obtain ⟨allow, hallow, hfallback⟩ := fallback_of_notAllowed h hasks hswitch hoffered
    have hdispatch := dispatch_of_not_redirected h hnone hstay (Context.ofRequest request)
    refine ⟨allow, hallow, ?_⟩
    apply answeredInstead_of_dispatch (.notice 405 "Method Not Allowed\n".toList)
    rw [hdispatch, hfallback]
    rfl
  case notFound =>
    intro hnone hstay hnot
    apply answeredInstead_of_dispatch notFoundNotice
    rw [dispatch_of_not_redirected h hnone hstay, fallback_of_notFound h hnot]
    exact (bind_pure _).symm
  case offered => exact h.allowed_isSome_iff _ _
  case offer =>
    intro hmethods allow hallow response
    exact h.get?_allow hmethods hallow response.headers

/-- One route, whose pattern has a capital letter and a parameter. -/
def salutation : List (Method × Endpoint) :=
  [(Method.get, ⟨"/Hello/:name".toList, fun _ _ _ => pure (.ok []), none⟩)]

def greeting : Router :=
  registerAll {} salutation

/-- A request that has the wrong case and a slash too many. -/
def shouted : Request :=
  ⟨Method.get, ⟨"/HELLO//you".toList, none⟩, [], [], none⟩

theorem greeting_redirects_shouted :
    ∃ target response,
      SentTo greeting (registered {} salutation) shouted target
        ∧ greeting.serve shouted = pure response
        ∧ response.SendsTo shouted target := by
  have hbuilt : greeting.BuiltBy salutation := rfl
  have hnone := (hbuilt.holds.lookup_isHit_iff Method.get shouted.path).not.mp (by decide +kernel)
  have hsome : (greeting.redirectsTo? shouted).isSome = true := by decide +kernel
  exact (serve_flatPolicy hbuilt shouted).redirected hnone
    ((hbuilt.holds.redirectsTo?_isSome_iff hnone).mp hsome)

end Router

end RadixRouter
