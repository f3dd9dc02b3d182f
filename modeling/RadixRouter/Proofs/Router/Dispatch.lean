import RadixRouter.Proofs.Handler.Call
import RadixRouter.Proofs.Router.History
import RadixRouter.Proofs.Tree.Repair

/-!
Which requests a router redirects, and where to, said without its trees.
-/

namespace RadixRouter

open Pattern

/-- The path that a request asks for. -/
def Request.path (request : Request) : Text :=
  Percent.decodePath request.target.path

namespace Router

def redirectStatus (method : Method) : Nat :=
  if method = Method.get then 301 else 307

/-- Where a request is sent instead, if no route matches it. -/
def redirectsTo? (router : Router) (request : Request) : Option Text :=
  match (router.treeOf request.method).lookup request.path with
  | .hit _ _ => none
  | .miss slash =>
      if request.method ≠ Method.connect && request.path ≠ ['/'] then
        redirectTarget? router.switches (router.treeOf request.method) request.path slash
      else none

variable {router : Router} {registrations : List (Method × Endpoint)} {request : Request}

theorem lookup_eq (router : Router) (method : Method) (path : Text) :
    router.lookup method path = (router.treeOf method).lookup path := by
  unfold lookup treeOf
  cases router.tree? method <;> rfl

/-- The three kinds of answers: a route's own, a redirect, and what is left. -/
theorem dispatch_eq (router : Router) (request : Request) (context : Context) :
    router.dispatch request context =
      match (router.treeOf request.method).lookup request.path with
      | .hit endpoint params =>
          endpoint.call request params { context with route := some endpoint.pattern }
      | .miss _ =>
          match router.redirectsTo? request with
          | some target => pure (redirect request target (redirectStatus request.method))
          | none => router.fallback request request.path context := by
  unfold dispatch redirectsTo? treeOf Request.path
  cases router.tree? request.method with
  | none => simp [Tree.lookup, redirectTarget?, Tree.repair]
  | some tree =>
      simp only [Option.getD_some]
      cases tree.lookup (Percent.decodePath request.target.path) with
      | hit endpoint params => rfl
      | miss slash =>
          simp only
          split <;> rfl

theorem dispatch_of_hit {endpoint : Endpoint} {params : Params}
    (hhit : (router.treeOf request.method).lookup request.path = .hit endpoint params)
    (context : Context) :
    router.dispatch request context
      = endpoint.call request params { context with route := some endpoint.pattern } := by
  rw [dispatch_eq, hhit]

theorem dispatch_of_redirectsTo? {target : Text}
    (hredirect : router.redirectsTo? request = some target) (context : Context) :
    router.dispatch request context
      = pure (redirect request target (redirectStatus request.method)) := by
  rw [dispatch_eq, hredirect]
  unfold redirectsTo? at hredirect
  split at hredirect
  · contradiction
  · rfl

/-- An answer without callbacks is given as it is, whether or not panics are recovered. -/
theorem serve_of_dispatch_eq_pure {response : Response}
    (hdispatch : router.dispatch request (Context.ofRequest request) = pure response) :
    router.serve request = pure response := by
  unfold serve
  rw [hdispatch]
  cases router.panicHandler <;> rfl

/-- An answer whose panic is answered in its place, if the router has a handler for that. -/
def guarded (router : Router) (request : Request) (answer : Run Response) : Run Response :=
  match router.panicHandler with
  | some handler => Run.recovering answer (handler request)
  | none => answer

theorem serve_eq_guarded (router : Router) (request : Request) :
    router.serve request
      = router.guarded request (router.dispatch request (Context.ofRequest request)) := rfl

theorem guarded_congr {answer answer' : Run Response} {notes mid : List Text}
    (h : answer.runFrom notes = answer'.runFrom mid) :
    (router.guarded request answer).runFrom notes
      = (router.guarded request answer').runFrom mid := by
  unfold guarded
  cases router.panicHandler with
  | none => exact h
  | some handler => rw [Run.runFrom_recovering, Run.runFrom_recovering, h]

/-- What becomes of callbacks that end with `outcome`: a panic is answered in their place, if the
router has a handler for that. -/
def recovered (router : Router) (request : Request) :
    Except Panic Response → List Text → Except Panic Response × List Text
  | .ok response, later => (.ok response, later)
  | .error cause, later =>
      match router.panicHandler with
      | some handler => (handler request cause).runFrom later
      | none => (.error cause, later)

theorem guarded_runFrom {answer : Run Response} {notes later : List Text}
    {outcome : Except Panic Response} (h : answer.runFrom notes = (outcome, later)) :
    (router.guarded request answer).runFrom notes = router.recovered request outcome later := by
  unfold guarded recovered
  cases hhandler : router.panicHandler with
  | none => cases outcome <;> exact h
  | some handler =>
      rw [Run.runFrom_recovering, h]
      cases outcome <;> rfl

theorem guarded_yields {answer : Run Response} {notes later : List Text} {response : Response}
    (h : answer.Yields notes response later) :
    (router.guarded request answer).Yields notes response later :=
  guarded_runFrom h

/-- Whether a request is answered by the callbacks of an endpoint, which are given `params` and the
pattern of the endpoint. -/
def AnsweredBy (router : Router) (request : Request) (endpoint : Endpoint) (params : Params) :
    Prop :=
  ∀ {notes outcome later},
    endpoint.Ends request params
      { Context.ofRequest request with route := some endpoint.pattern } notes outcome later →
    (router.serve request).runFrom notes = router.recovered request outcome later

theorem answeredBy_of_hit {endpoint : Endpoint} {params : Params}
    (hhit : (router.treeOf request.method).lookup request.path = .hit endpoint params) :
    router.AnsweredBy request endpoint params := by
  intro notes outcome later hends
  rw [serve_eq_guarded, dispatch_of_hit hhit]
  exact guarded_runFrom (Endpoint.call_runFrom_iff.mpr hends)

/-- An endpoint that does not panic is not interfered with. -/
theorem AnsweredBy.yields {endpoint : Endpoint} {params : Params}
    (h : router.AnsweredBy request endpoint params) {notes later : List Text} {response : Response}
    (hanswers : endpoint.Answers request params
      { Context.ofRequest request with route := some endpoint.pattern } notes response later) :
    (router.serve request).Yields notes response later :=
  h hanswers

/-- An answer whose callbacks do not panic is given as it is. -/
theorem serve_yields {notes later : List Text} {response : Response}
    (hdispatch : (router.dispatch request (Context.ofRequest request)).Yields notes response
      later) :
    (router.serve request).Yields notes response later :=
  guarded_yields hdispatch

/-! ### Flat conditions -/

/-- Whether a slash more or less makes a request match that is to be redirected then. -/
def SlashRedirects (switches : Switches) (routes : List (Text × Endpoint)) (path : Text) : Prop :=
  switches.redirectTrailingSlash = true ∧ SlashMatched routes path

/-- Whether the cleaned path of a request that is to be redirected then matches but for case. -/
def FixRedirects (switches : Switches) (routes : List (Text × Endpoint)) (path : Text) : Prop :=
  switches.redirectFixedPath = true
    ∧ NearMatched switches.redirectTrailingSlash routes (Path.clean path)

/-- Whether a request that no route matches may be redirected at all. -/
def Redirectable (request : Request) : Prop :=
  request.method ≠ Method.connect ∧ request.path ≠ ['/']

/-- Whether a request that no route matches is redirected. -/
def Redirected (router : Router) (registrations : List (Method × Endpoint)) (request : Request) :
    Prop :=
  Redirectable request
    ∧ (SlashRedirects router.switches (routesFor registrations request.method) request.path
      ∨ FixRedirects router.switches (routesFor registrations request.method) request.path)

namespace Holds

variable (h : router.Holds registrations)
include h

theorem lookup_isHit_iff (method : Method) (path : Text) :
    (router.lookup method path).isHit = true ↔ Matched (routesFor registrations method) path := by
  rw [lookup_eq]
  exact (h.tree method).isHit_iff path

/-- A router resolves a path to the most specific of the routes accepted for the method. -/
theorem lookup_eq_hit_iff (method : Method) (path : Text) (endpoint : Endpoint) (params : Params) :
    router.lookup method path = .hit endpoint params
      ↔ MostSpecific (routesFor registrations method) path (endpoint.pattern, endpoint) params := by
  rw [lookup_eq, (h.tree method).lookup_eq_hit_iff]
  constructor
  · rintro ⟨pattern, hmost⟩
    have hpattern : endpoint.pattern = pattern := (mem_routesFor.mp hmost.mem).2
    rwa [hpattern]
  · intro hmost
    exact ⟨endpoint.pattern, hmost⟩

/-- A redirect is due to a slash or to a path that can be repaired, and the latter is matched. -/
theorem redirectsTo?_cases {target : Text} (hredirect : router.redirectsTo? request = some target) :
    ¬ Matched (routesFor registrations request.method) request.path
      ∧ Redirectable request
      ∧ (SlashRedirects router.switches (routesFor registrations request.method) request.path
            ∧ target = Path.toggleSlash request.path
          ∨ ¬ SlashRedirects router.switches (routesFor registrations request.method) request.path
            ∧ FixRedirects router.switches (routesFor registrations request.method) request.path
            ∧ (router.treeOf request.method).repair router.switches.redirectTrailingSlash
                (Path.clean request.path) = some target
            ∧ Matched (routesFor registrations request.method) target) := by
  have htree := h.tree request.method
  unfold redirectsTo? at hredirect
  split at hredirect
  · contradiction
  · next slash hmiss =>
      have hnone := htree.not_matches_of_miss hmiss
      have hslash := htree.slash_iff hmiss
      split at hredirect
      · next hasked =>
          simp only [ne_eq, decide_not, Bool.and_eq_true, Bool.not_eq_true',
            decide_eq_false_iff_not] at hasked
          refine ⟨fun ⟨route, hroute, hmatches⟩ => hnone route hroute hmatches, hasked, ?_⟩
          unfold redirectTarget? at hredirect
          split at hredirect
          · next htoggled =>
              rw [Bool.and_eq_true, hslash] at htoggled
              exact Or.inl ⟨⟨htoggled.2, htoggled.1⟩, (Option.some.inj hredirect).symm⟩
          · next htoggled =>
              rw [Bool.and_eq_true, hslash] at htoggled
              split at hredirect
              · next hfix =>
                  obtain ⟨hnear, hmatched⟩ := htree.repair_sound hredirect
                  exact Or.inr ⟨fun hboth => htoggled hboth.symm, ⟨hfix, target, hnear, hmatched⟩,
                    hredirect, hmatched⟩
              · contradiction
      · contradiction

theorem redirectsTo?_isSome_iff
    (hnone : ¬ Matched (routesFor registrations request.method) request.path) :
    (router.redirectsTo? request).isSome = true ↔ Redirected router registrations request := by
  have htree := h.tree request.method
  unfold redirectsTo?
  split
  · next endpoint params hhit =>
      have hmatched := htree.isHit_iff request.path
      simp [hhit, Lookup.isHit, Lookup.value?, hnone] at hmatched
  · next slash hmiss =>
      have hslash := htree.slash_iff hmiss
      have hrepair := htree.repair_isSome_iff router.switches.redirectTrailingSlash
        (Path.clean request.path)
      have hasked : (request.method ≠ Method.connect && request.path ≠ ['/']) = true
          ↔ Redirectable request := by
        simp [Redirectable]
      rw [Redirected, ← hasked, SlashRedirects, FixRedirects, ← hslash, ← hrepair]
      split
      · next hyes =>
          rw [and_iff_right hyes, redirectTarget?]
          split
          · next htoggled =>
              rw [Bool.and_eq_true] at htoggled
              simp [htoggled]
          · next htoggled =>
              rw [Bool.and_eq_true, and_comm] at htoggled
              split
              · next hfix => simp only [htoggled, hfix, true_and, false_or]
              · next hfix => simp [htoggled, hfix]
      · next hno =>
          constructor
          · intro hsome
            contradiction
          · intro hboth
            exact (hno hboth.1).elim

end Holds

end Router

end RadixRouter
