import RadixRouter.Demo
import RadixRouter.Proofs.Pattern.Fill
import RadixRouter.Proofs.Router.Policy
import RadixRouter.Proofs.Text.Quoted

/-!
A report on a request against the answer to it. The report resolves the path as it was sent, and
the answer is that of the route for the decoded path. So the two agree on a path that is decoded to
itself, and disagree on any other one for which either of them finds a route.
-/

namespace RadixRouter

open Pattern

namespace Pattern

variable {α : Type} {routes : List (Text × α)} {path path' pattern : Text} {params : Params}

/-- Whether a flat list of routes resolves `path` to that of `pattern` with the given bindings. -/
def ResolvesTo (routes : List (Text × α)) (path pattern : Text) (params : Params) : Prop :=
  ∃ value, MostSpecific routes path (pattern, value) params

/-- The pattern and the bindings give the path back, so one path alone resolves to them. -/
theorem ResolvesTo.path_eq (h : ResolvesTo routes path pattern params)
    (h' : ResolvesTo routes path' pattern params) : path = path' := by
  obtain ⟨_, hmost⟩ := h
  obtain ⟨_, hmost'⟩ := h'
  rw [← (Rebuilds.of_bind? hmost.binds).whole, ← (Rebuilds.of_bind? hmost'.binds).whole]

theorem ResolvesTo.matched (h : ResolvesTo routes path pattern params) : Matched routes path := by
  obtain ⟨value, hmost⟩ := h
  exact ⟨(pattern, value), hmost.mem, hmost.matches_path⟩

/-- Two paths resolve to the same if and only if they are the same, or neither is matched. -/
theorem resolvesTo_congr_iff
    (hresolved : ∀ path, Matched routes path → ∃ pattern params,
      ResolvesTo routes path pattern params) (path path' : Text) :
    (∀ pattern params, ResolvesTo routes path pattern params
        ↔ ResolvesTo routes path' pattern params)
      ↔ path' = path ∨ ¬ Matched routes path ∧ ¬ Matched routes path' := by
  constructor
  · intro hsame
    by_cases hmatched : Matched routes path
    · obtain ⟨pattern, params, h⟩ := hresolved path hmatched
      exact Or.inl ((hsame pattern params).mp h |>.path_eq h)
    · refine Or.inr ⟨hmatched, ?_⟩
      intro hmatched'
      obtain ⟨pattern, params, h'⟩ := hresolved path' hmatched'
      exact hmatched ((hsame pattern params).mpr h').matched
  · rintro (rfl | ⟨hnot, hnot'⟩) pattern params
    · exact Iff.rfl
    · exact ⟨fun h => (hnot h.matched).elim, fun h' => (hnot' h'.matched).elim⟩

end Pattern

namespace Router

variable {router : Router} {registrations history : List (Method × Endpoint)} {request : Request}

/-- Whether a request is answered by the route of `pattern`: it is the one for the decoded path, and
the answer is that of its pre-handler or its handler to the bindings. -/
def DispatchesTo (router : Router) (registrations : List (Method × Endpoint)) (request : Request)
    (pattern : Text) (params : Params) : Prop :=
  ∃ endpoint,
    MostSpecific (routesFor registrations request.method) request.path (pattern, endpoint) params
      ∧ router.AnsweredBy request endpoint params

namespace Holds

variable (h : router.Holds registrations)
include h

theorem resolvesTo_iff (method : Method) (path pattern : Text) (params : Params) :
    ResolvesTo (routesFor registrations method) path pattern params
      ↔ ∃ endpoint, endpoint.pattern = pattern
        ∧ router.lookup method path = .hit endpoint params := by
  simp only [h.lookup_eq_hit_iff, ResolvesTo]
  constructor
  · rintro ⟨endpoint, hmost⟩
    have hpattern : endpoint.pattern = pattern := (mem_routesFor.mp hmost.mem).2
    exact ⟨endpoint, hpattern, hpattern ▸ hmost⟩
  · rintro ⟨endpoint, rfl, hmost⟩
    exact ⟨endpoint, hmost⟩

theorem dispatchesTo_iff (pattern : Text) (params : Params) :
    router.DispatchesTo registrations request pattern params
      ↔ ResolvesTo (routesFor registrations request.method) request.path pattern params := by
  constructor
  · rintro ⟨endpoint, hmost, -⟩
    exact ⟨endpoint, hmost⟩
  · rintro ⟨endpoint, hmost⟩
    have hpattern : endpoint.pattern = pattern := (mem_routesFor.mp hmost.mem).2
    subst hpattern
    refine ⟨endpoint, hmost, answeredBy_of_hit ?_⟩
    rw [← lookup_eq, h.lookup_eq_hit_iff]
    exact hmost

theorem exists_resolvesTo (method : Method) (path : Text)
    (hmatched : Matched (routesFor registrations method) path) :
    ∃ pattern params, ResolvesTo (routesFor registrations method) path pattern params := by
  rw [← h.lookup_isHit_iff] at hmatched
  cases hlookup : router.lookup method path with
  | miss slash =>
      rw [hlookup] at hmatched
      contradiction
  | hit endpoint params =>
      exact ⟨endpoint.pattern, params, endpoint, (h.lookup_eq_hit_iff _ _ _ _).mp hlookup⟩

end Holds

end Router

namespace Demo

variable {router : Router} {registrations history : List (Method × Endpoint)} {method : Method}
  {target pattern : Text} {parsed : Target} {params : Params}

/-- The request that a report is on. -/
def asked (method : Method) (parsed : Target) : Request :=
  ⟨method, parsed, [], [], none⟩

def isBindingLine (line : Text) : Bool :=
  "param:  ".toList.isPrefixOf line

/-- Whether the lines of a report name the route of `pattern` with the given bindings: the first
line is that of the route, and those on bindings are, in order, the lines of these. -/
structure Names (lines : List Text) (method : Method) (pattern : Text) (params : Params) :
    Prop where
  route : lines.head? = some (routeLine method pattern)
  bindings : lines.filter isBindingLine = params.map bindingLine

/-- Whether the lines of a report say that there is no route. -/
def NamesNone (lines : List Text) : Prop :=
  lines.head? = some noRouteLine

/-- Whether the lines of a report tell by which route a request is answered, and that there is none
if no route matches. -/
structure Agrees (router : Router) (registrations : List (Method × Endpoint)) (request : Request)
    (lines : List Text) : Prop where
  named : ∀ pattern params, Names lines request.method pattern params
    ↔ router.DispatchesTo registrations request pattern params
  none : NamesNone lines
    ↔ ¬ Matched (Router.routesFor registrations request.method) request.path

/-! ### What the lines of a report determine -/

theorem routeLine_injective {pattern' : Text}
    (h : routeLine method pattern = routeLine method pattern') : pattern = pattern' := by
  unfold routeLine at h
  rw [List.append_cancel_left_eq] at h
  exact (List.cons.inj h).2

theorem routeLine_ne_noRouteLine (method : Method) (pattern : Text) :
    routeLine method pattern ≠ noRouteLine := by
  intro h
  have hrest : method.name ++ ' ' :: pattern = "<none>".toList := by
    unfold routeLine at h
    rw [List.append_assoc] at h
    exact List.append_cancel_left (h.trans (by decide : noRouteLine = "route:  ".toList ++ _))
  have hspace : ' ' ∈ "<none>".toList := by simp [← hrest]
  exact absurd hspace (by decide)

/-- In the line on a binding, nothing that looks like the sign between name and value stands behind
that sign. -/
theorem eq_nil_of_sign_within {gap value value' : Text}
    (h : " = ".toList ++ Quoted.encode value = gap ++ (" = ".toList ++ Quoted.encode value')) :
    gap = [] := by
  -- A shorter gap than the sign itself does not fit its characters.
  rcases gap with _ | ⟨a, _ | ⟨b, _ | ⟨c, _ | ⟨d, gap⟩⟩⟩⟩
  · rfl
  all_goals simp [Quoted.encode] at h
  obtain ⟨-, -, -, -, h⟩ := h
  have hspaced : value.flatMap Quoted.encodeChar ++ ['"']
      = (gap ++ [' ', '=']) ++ ' ' :: '"' :: (value'.flatMap Quoted.encodeChar ++ ['"']) := by
    simpa using h
  have hafter := Quoted.eq_nil_of_spaced_quote hspaced
  simp at hafter

theorem bindingLine_injective : Function.Injective bindingLine := by
  rintro ⟨name, value⟩ ⟨name', value'⟩ h
  unfold bindingLine at h
  simp only [List.append_assoc, List.append_cancel_left_eq] at h
  have hname : name = name' := by
    rcases List.append_eq_append_iff.mp h with ⟨gap, hgap, hrest⟩ | ⟨gap, hgap, hrest⟩
    · rw [hgap, eq_nil_of_sign_within hrest, List.append_nil]
    · rw [hgap, eq_nil_of_sign_within hrest, List.append_nil]
  subst hname
  rw [List.append_cancel_left_eq, List.append_cancel_left_eq] at h
  rw [Quoted.encode_injective h]

theorem isBindingLine_bindingLine (p : Param) : isBindingLine (bindingLine p) = true := by
  unfold isBindingLine bindingLine
  rw [List.append_assoc, List.append_assoc, List.isPrefixOf_iff_prefix]
  exact List.prefix_append _ _

theorem isBindingLine_responseLines (response : Response) :
    ∀ line ∈ responseLines response, isBindingLine line = false := by
  intro line hline
  simp only [responseLines, List.mem_cons, List.mem_filterMap, List.not_mem_nil, or_false,
    Option.map_eq_some_iff] at hline
  rcases hline with rfl | ⟨name, rfl | rfl, value, -, rfl⟩
  all_goals rfl

theorem isBindingLine_routeLine (method : Method) (pattern : Text) :
    isBindingLine (routeLine method pattern) = false := by
  unfold isBindingLine routeLine
  rfl

/-- A report on a path for which there is a route names that route, its bindings and nothing
else. -/
theorem names_iff_of_hit {endpoint : Endpoint} {found : Params}
    (hfound : router.lookup method parsed.path = .hit endpoint found) (response : Response) :
    Names (reportLines router method parsed response) method pattern params
      ↔ endpoint.pattern = pattern ∧ found = params := by
  have hlines : reportLines router method parsed response
      = routeLine method endpoint.pattern
        :: (found.map bindingLine ++ responseLines response) := by
    rw [reportLines, hfound, lookupLines, List.cons_append]
  have hbindings : (reportLines router method parsed response).filter isBindingLine
      = found.map bindingLine := by
    have hkept : (found.map bindingLine).filter isBindingLine = found.map bindingLine := by
      simp [List.filter_eq_self, isBindingLine_bindingLine]
    have hanswer : (responseLines response).filter isBindingLine = [] := by
      simpa [List.filter_eq_nil_iff] using isBindingLine_responseLines response
    rw [hlines, List.filter_cons_of_neg (by simp [isBindingLine_routeLine]), List.filter_append,
      hkept, hanswer, List.append_nil]
  constructor
  · rintro ⟨hroute, hparams⟩
    rw [hlines, List.head?_cons, Option.some.injEq] at hroute
    rw [hbindings] at hparams
    exact ⟨routeLine_injective hroute, List.map_injective_iff.mpr bindingLine_injective hparams⟩
  · rintro ⟨rfl, rfl⟩
    exact ⟨by rw [hlines, List.head?_cons], hbindings⟩

theorem head?_reportLines_of_miss {slash : Bool}
    (hfound : router.lookup method parsed.path = .miss slash) (response : Response) :
    (reportLines router method parsed response).head? = some noRouteLine := by
  rw [reportLines, hfound, lookupLines, List.cons_append, List.head?_cons]

theorem names_reportLines_iff (h : router.Holds registrations) (parsed : Target)
    (response : Response) :
    Names (reportLines router method parsed response) method pattern params
      ↔ ResolvesTo (Router.routesFor registrations method) parsed.path pattern params := by
  cases hfound : router.lookup method parsed.path with
  | hit endpoint found =>
      rw [names_iff_of_hit hfound, h.resolvesTo_iff, hfound]
      constructor
      · rintro ⟨rfl, rfl⟩
        exact ⟨endpoint, rfl, rfl⟩
      · rintro ⟨_, rfl, hsame⟩
        obtain ⟨rfl, rfl⟩ := Lookup.hit.inj hsame
        exact ⟨rfl, rfl⟩
  | miss slash =>
      rw [h.resolvesTo_iff, hfound]
      refine iff_of_false ?_ (by simp)
      rintro ⟨hroute, -⟩
      rw [head?_reportLines_of_miss hfound response, Option.some.injEq] at hroute
      exact routeLine_ne_noRouteLine method pattern hroute.symm

theorem namesNone_reportLines_iff (h : router.Holds registrations) (parsed : Target)
    (response : Response) :
    NamesNone (reportLines router method parsed response)
      ↔ ¬ Matched (Router.routesFor registrations method) parsed.path := by
  rw [← h.lookup_isHit_iff, NamesNone]
  cases hfound : router.lookup method parsed.path with
  | hit endpoint found =>
      rw [reportLines, hfound, lookupLines, List.cons_append, List.head?_cons, Option.some.injEq]
      exact iff_of_false (routeLine_ne_noRouteLine _ _) (by simp [Lookup.isHit, Lookup.value?])
  | miss slash =>
      exact iff_of_true (head?_reportLines_of_miss hfound response)
        (by simp [Lookup.isHit, Lookup.value?])

/-- The report on a request that is answered. -/
theorem report_yields {notes later : List Text} {response : Response}
    (htarget : Target.ofText? target = some parsed)
    (hserve : (router.serve (asked method parsed)).Yields notes response later) :
    (report router method target).Yields notes
      (.ok (Text.joinWith '\n' (reportLines router method parsed response))) later := by
  rw [report, htarget]
  exact Run.Yields.bind_iff.mpr ⟨response, later, hserve, Run.Yields.pure_iff.mpr ⟨rfl, rfl⟩⟩

/-- What a report names is what the path as it was sent resolves to. It is what the request is
answered by, if and only if the path is decoded to itself or neither form of it is matched. -/
theorem report_agrees_iff (hbuilt : router.BuiltBy history)
    (htarget : Target.ofText? target = some parsed) (method : Method) :
    (∀ {notes later response},
        (router.serve (asked method parsed)).Yields notes response later →
        (report router method target).Yields notes
          (.ok (Text.joinWith '\n' (reportLines router method parsed response))) later)
      ∧ ∀ response,
        Agrees router (Router.registered {} history) (asked method parsed)
            (reportLines router method parsed response)
          ↔ Percent.decodePath parsed.path = parsed.path
            ∨ ¬ Matched (Router.routesFor (Router.registered {} history) method) parsed.path
              ∧ ¬ Matched (Router.routesFor (Router.registered {} history) method)
                (Percent.decodePath parsed.path) := by
  have h := hbuilt.holds
  refine ⟨report_yields htarget, ?_⟩
  intro response
  have hcongr := resolvesTo_congr_iff (fun path => h.exists_resolvesTo method path) parsed.path
    (Percent.decodePath parsed.path)
  rw [← hcongr]
  constructor
  · intro hagrees pattern params
    rw [← names_reportLines_iff h parsed response]
    exact (hagrees.named pattern params).trans (h.dispatchesTo_iff pattern params)
  · intro hsame
    refine ⟨?_, ?_⟩
    · intro pattern params
      rw [h.dispatchesTo_iff]
      exact (names_reportLines_iff h parsed response).trans (hsame pattern params)
    · rw [namesNone_reportLines_iff h, Request.path, asked]
      rcases hcongr.mp hsame with heq | ⟨hnot, hnot'⟩
      · rw [heq]
      · exact iff_of_true hnot hnot'

/-! ### The demo routes -/

/-- The demo router comes about by the registration of its routes. -/
theorem router_builtBy (switches : Switches) (files : Option FileSystem) :
    (Demo.router switches files).BuiltBy
      ((routes files).map fun (method, pattern, handler) =>
        (method, ⟨pattern, handler, none⟩)) := by
  have hfold : ∀ (start : Router) (before : List (Method × Endpoint))
      (rest : List (Method × Text × Handler)), start.BuiltBy before →
      (rest.foldl (fun router (method, pattern, handler) =>
          (router.register method ⟨pattern, handler, none⟩).1) start).BuiltBy
        (before ++ rest.map fun (method, pattern, handler) =>
          (method, ⟨pattern, handler, none⟩)) := by
    intro start before rest hstart
    induction rest generalizing start before with
    | nil => simpa using hstart
    | cons route rest ih =>
        obtain ⟨method, pattern, handler⟩ := route
        have hnext := ih _ _ (hstart.register method ⟨pattern, handler, none⟩)
        simpa using hnext
  exact hfold _ [] _ rfl

/-- A target whose path is decoded to one that another route is for. -/
def spelledOut : Target :=
  ⟨"/users/%6Eew".toList, none⟩

def spelledOutLines : List Text :=
  ["route:  GET /users/:id".toList, "param:  id = \"%6Eew\"".toList, "status: 200".toList]

/-- The report names a parameter where the answer is that of a route without any. -/
theorem spelledOut_disagrees :
    ((report (Demo.router {} none) Method.get "/users/%6Eew".toList).outcome.1.toOption.bind
          Except.toOption)
        = some (Text.joinWith '\n' spelledOutLines)
      ∧ Names spelledOutLines Method.get "/users/:id".toList [⟨"id".toList, "%6Eew".toList⟩]
      ∧ ¬ Agrees (Demo.router {} none)
        (Router.registered {} ((routes none).map fun (method, pattern, handler) =>
          (method, ⟨pattern, handler, none⟩)))
        (asked Method.get spelledOut) spelledOutLines := by
  have hbuilt := router_builtBy {} none
  have htarget : Target.ofText? "/users/%6Eew".toList = some spelledOut := by decide +kernel
  obtain ⟨-, hiff⟩ := report_agrees_iff hbuilt htarget Method.get
  have hlines : reportLines (Demo.router {} none) Method.get spelledOut (.plain 200 [])
      = spelledOutLines := by
    decide +kernel
  refine ⟨by decide +kernel, ⟨by decide +kernel, by decide +kernel⟩, ?_⟩
  rw [← hlines, hiff, ← hbuilt.holds.lookup_isHit_iff]
  rintro (hsame | ⟨hnot, -⟩)
  · exact absurd hsame (by decide +kernel)
  · exact hnot (by decide +kernel)

end Demo

end RadixRouter
