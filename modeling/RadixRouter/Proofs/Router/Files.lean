import RadixRouter.Proofs.Pattern.Fill
import RadixRouter.Proofs.Router.Dispatch

/-!
Which file a mount opens. A request that comes to it opens one file, once; the name of that file is
the first value with the name that the catch-all has, so it is what the catch-all takes unless a
parameter in front of it has the same name.
-/

namespace RadixRouter

open Pattern

/-! ### What a catch-all takes -/

/-- The first value of a name, where its last binding is a given one. -/
theorem Params.get?_concat (earlier : Params) (name rest : Text) :
    get? (earlier ++ [⟨name, rest⟩]) name = some ((get? earlier name).getD rest) := by
  simp only [get?, List.find?_append]
  cases earlier.find? (·.name = name) <;> simp

theorem Params.get?_cons (binding : Param) (later : Params) (name : Text) :
    get? (binding :: later) name
      = if binding.name = name then some binding.value else get? later name := by
  by_cases hname : binding.name = name <;> simp [get?, hname]

namespace Pattern

/-- A slash ends the wildcard that stands in front of it. -/
theorem tokens_append_slash (front rest : Text) :
    tokens (front ++ '/' :: rest) = tokens front ++ tokens ('/' :: rest) := by
  fun_induction tokens front with
  | case1 => rfl
  | case2 c front hc ih =>
      rw [List.cons_append, tokens, if_pos hc, Text.upTo_append_slash, Text.fromNext_append_slash,
        ih]
      rfl
  | case3 c front hc ih =>
      rw [List.cons_append, tokens_cons (by simpa using hc), ih]
      rfl

/-- A match of tokens that end with a catch-all: the tokens in front of it take `head` and bind
`earlier`, all of their names and no other ones, and the catch-all takes `rest`. -/
structure SplitsAt (front : List Token) (name path : Text) (params earlier : Params)
    (head rest : Text) : Prop where
  params_eq : params = earlier ++ [⟨name, rest⟩]
  path_eq : path = head ++ rest
  rebuilds : Rebuilds front earlier head
  names : ∀ other, Params.get? earlier other = none ↔ .param other ∉ front

theorem exists_splitsAt {front : List Token} {name path : Text} {params : Params}
    (hbind : bind? (front ++ [.catchAll name]) path = some params) :
    ∃ earlier head rest, SplitsAt front name path params earlier head rest := by
  induction front generalizing path params with
  | nil =>
      rw [List.nil_append, bind?_catchAll] at hbind
      obtain rfl := Option.some.inj hbind
      exact ⟨[], [], path, rfl, rfl, ⟨List.Forall₂.nil, rfl⟩, by simp [Params.get?]⟩
  | cons token front ih =>
      cases token with
      | char c =>
          cases path with
          | nil => contradiction
          | cons d path =>
              rw [List.cons_append, bind?] at hbind
              split at hbind
              · next hsame =>
                  obtain ⟨earlier, head, rest, hsplits⟩ := ih hbind
                  refine ⟨earlier, c :: head, rest, hsplits.params_eq, ?_,
                    hsplits.rebuilds.char c, ?_⟩
                  · rw [hsplits.path_eq, hsame, List.cons_append]
                  · simpa using hsplits.names
              · contradiction
      | param other =>
          rw [List.cons_append, bind?_param] at hbind
          split at hbind
          · contradiction
          · next helement =>
              obtain ⟨later, hlater, rfl⟩ := Option.map_eq_some_iff.mp hbind
              obtain ⟨earlier, head, rest, hsplits⟩ := ih hlater
              refine ⟨⟨other, Text.upTo '/' path⟩ :: earlier, Text.upTo '/' path ++ head, rest,
                ?_, ?_, hsplits.rebuilds.param helement (not_mem_upTo path), ?_⟩
              · rw [hsplits.params_eq, List.cons_append]
              · rw [List.append_assoc, ← hsplits.path_eq, Text.upTo_append_fromNext]
              · intro name'
                rw [Params.get?_cons]
                by_cases hname : other = name'
                · simp [hname]
                · simpa [hname, Ne.symm hname] using hsplits.names name'
      | catchAll other => simp [bind?] at hbind

/-- The tokens of a mount. -/
theorem tokens_mount (mount : Text) :
    tokens (mount ++ mountSuffix) = (tokens mount ++ [.char '/']) ++ [.catchAll mountName] := by
  have hslash : '/' ∉ mountName := by decide
  rw [mountSuffix, tokens_append_slash, tokens_cons (by rfl), tokens_catchAll hslash,
    List.append_assoc, List.singleton_append]

end Pattern

/-! ### What a mount opens -/

/-- Whether a request gets through to the handler, which is begun with `mid`. -/
inductive Endpoint.Passes (endpoint : Endpoint) (request : Request) (params : Params)
    (context : Context) (notes : List Text) : List Text → Prop where
  | free (habsent : endpoint.preHandler = none) : Passes endpoint request params context notes notes
  | through {mid : List Text} {preHandler : PreHandler}
      (hpresent : endpoint.preHandler = some preHandler)
      (hpass : (preHandler request params context).Yields notes none mid) :
      Passes endpoint request params context notes mid

theorem Endpoint.Passes.call_eq {endpoint : Endpoint} {request : Request} {params : Params}
    {context : Context} {notes mid : List Text}
    (h : endpoint.Passes request params context notes mid) :
    (endpoint.call request params context).runFrom notes
      = (endpoint.handler request params context).runFrom mid := by
  unfold call
  cases h with
  | free habsent => rw [habsent]
  | @through mid preHandler hpresent hpass =>
      have hrun : (preHandler request params context).runFrom notes = (.ok none, mid) := hpass
      rw [hpresent]
      simp only [Run.runFrom_bind, hrun]

namespace Router

variable {before mounted router : Router} {pattern : Text} {files : FileSystem}
  {preHandler : Option PreHandler} {request : Request} {params : Params}
  {history : List (Method × Endpoint)}

/-- A mount is accepted if its pattern ends as it has to and the route of it is accepted. -/
theorem serveFiles_yields_ok_iff {notes later : List Text} :
    (before.serveFiles pattern files preHandler).Yields notes (mounted, .ok ()) later
      ↔ mountSuffix <:+ pattern
        ∧ before.register Method.get ⟨pattern, fileHandler files, preHandler⟩ = (mounted, .ok ())
        ∧ notes = later := by
  unfold serveFiles
  split
  · next hends =>
      rw [Text.endsWith, List.isSuffixOf_iff_suffix] at hends
      rw [and_iff_right hends]
      constructor
      · intro hhandle
        have hregister := register_of_handle_yields hhandle
        rw [handle_of_accepted hregister] at hhandle
        obtain ⟨_, _, hannounce, hpure⟩ := Run.Yields.bind_iff.mp hhandle
        obtain ⟨-, rfl⟩ := Run.Yields.pure_iff.mp hannounce
        exact ⟨hregister, (Run.Yields.pure_iff.mp hpure).2⟩
      · rintro ⟨hregister, rfl⟩
        rw [handle_of_accepted hregister]
        exact Run.Yields.bind_iff.mpr ⟨(), notes, rfl, Run.Yields.pure_iff.mpr ⟨rfl, rfl⟩⟩
  · next hends =>
      rw [Text.endsWith, List.isSuffixOf_iff_suffix] at hends
      constructor
      · intro hpure
        obtain ⟨-, hfault, -⟩ := Run.Yields.pure_pair_iff.mp hpure
        contradiction
      · rintro ⟨hsuffix, -⟩
        exact (hends hsuffix).elim

/-- A mount opens the file of the given name for a request, and nothing but that: if it gets through
to the handler, then the answer is the one that shows what the file system says. -/
def Opens (router : Router) (request : Request) (files : FileSystem) (endpoint : Endpoint)
    (params : Params) (opened : Text) : Prop :=
  ∀ notes mid,
    endpoint.Passes request params
      { Context.ofRequest request with route := some endpoint.pattern } notes mid →
    (router.serve request).runFrom notes
      = (router.guarded request (fileResponse <$> files opened)).runFrom mid

theorem Holds.opens {registrations : List (Method × Endpoint)} (h : router.Holds registrations)
    (hmethod : request.method = Method.get)
    (hresolved : MostSpecific (routesFor registrations Method.get) request.path
      (pattern, ⟨pattern, fileHandler files, preHandler⟩) params) :
    router.Opens request files ⟨pattern, fileHandler files, preHandler⟩ params
      ((Params.get? params mountName).getD []) := by
  intro notes mid hpasses
  have hhit := (h.lookup_eq_hit_iff Method.get request.path ⟨pattern, fileHandler files, preHandler⟩
    params).mpr hresolved
  rw [lookup_eq, ← hmethod] at hhit
  rw [serve_eq_guarded, dispatch_of_hit hhit]
  apply guarded_congr
  rw [hpasses.call_eq, map_eq_pure_bind]
  rfl

/-- For a GET request that is resolved to it, a mount opens one file, once. The name of that is what
the catch-all takes, if and only if no parameter in front of it has the same name or that has taken
the same text; otherwise it is what the first such parameter takes. -/
theorem BuiltBy.mount_opens (hbuilt : router.BuiltBy history) {notes later : List Text}
    (hmount : (before.serveFiles pattern files preHandler).Yields notes (mounted, .ok ()) later)
    (hmethod : request.method = Method.get)
    (hresolved : MostSpecific (routesFor (registered {} history) Method.get) request.path
      (pattern, ⟨pattern, fileHandler files, preHandler⟩) params) :
    ∃ mount earlier head rest, pattern = mount ++ mountSuffix
      ∧ SplitsAt (tokens mount ++ [.char '/']) mountName request.path params earlier head rest
      ∧ router.Opens request files ⟨pattern, fileHandler files, preHandler⟩ params
        ((Params.get? earlier mountName).getD rest)
      ∧ ((Params.get? earlier mountName).getD rest = rest
        ↔ .param mountName ∉ tokens mount ∨ Params.get? earlier mountName = some rest) := by
  obtain ⟨⟨mount, rfl⟩, -, -⟩ := serveFiles_yields_ok_iff.mp hmount
  have hbinds := hresolved.binds
  rw [tokens_mount] at hbinds
  obtain ⟨earlier, head, rest, hsplits⟩ := exists_splitsAt hbinds
  have hname : (Params.get? params mountName).getD []
      = (Params.get? earlier mountName).getD rest := by
    rw [hsplits.params_eq, Params.get?_concat, Option.getD_some]
  have hopens := hbuilt.holds.opens hmethod hresolved
  rw [hname] at hopens
  refine ⟨mount, earlier, head, rest, rfl, hsplits, hopens, ?_⟩
  have habsent : Params.get? earlier mountName = none ↔ .param mountName ∉ tokens mount := by
    simpa using hsplits.names mountName
  rw [← habsent]
  cases Params.get? earlier mountName <;> simp

/-- A file system without files, which notes what it is asked for. -/
def bareShelves : FileSystem := fun name => do
  Run.note name
  return .error .notFound

/-- A mount behind a parameter of the same name. -/
def shadowedMount : Endpoint :=
  ⟨"/:filepath/*filepath".toList, fileHandler bareShelves, none⟩

/-- A request for a file in a directory. -/
def fileInDirectory : Request :=
  ⟨Method.get, ⟨"/a/b.txt".toList, none⟩, [], [], none⟩

/-- The mount opens what its parameter takes, and loses what the catch-all takes. -/
theorem shadowedMount_opens :
    ∃ mounted : Router,
      (({} : Router).serveFiles shadowedMount.pattern bareShelves none).Yields []
          (mounted, .ok ()) []
        ∧ MostSpecific (routesFor (registered {} [(Method.get, shadowedMount)]) Method.get)
          fileInDirectory.path (shadowedMount.pattern, shadowedMount)
          [⟨mountName, "a".toList⟩, ⟨mountName, "b.txt".toList⟩]
        ∧ (mounted.serve fileInDirectory).Yields [] notFoundNotice ["a".toList] := by
  obtain ⟨mounted, hregister⟩ : ∃ mounted,
      ({} : Router).register Method.get shadowedMount = (mounted, .ok ()) :=
    ⟨_, Prod.ext rfl (by decide +kernel)⟩
  have hmount : (({} : Router).serveFiles shadowedMount.pattern bareShelves none).Yields []
      (mounted, .ok ()) [] :=
    serveFiles_yields_ok_iff.mpr ⟨by decide, hregister, rfl⟩
  have hbuilt : mounted.BuiltBy [(Method.get, shadowedMount)] := by
    rw [BuiltBy, registerAll, hregister]
    rfl
  have hroutes : routesFor (registered {} [(Method.get, shadowedMount)]) Method.get
      = [(shadowedMount.pattern, shadowedMount)] := by
    rw [registered, hregister]
    rfl
  have hresolved : MostSpecific (routesFor (registered {} [(Method.get, shadowedMount)]) Method.get)
      fileInDirectory.path (shadowedMount.pattern, shadowedMount)
      [⟨mountName, "a".toList⟩, ⟨mountName, "b.txt".toList⟩] := by
    rw [hroutes]
    refine ⟨List.mem_singleton_self _, by decide +kernel, ?_⟩
    intro other hother hne
    exact (hne (List.mem_singleton.mp hother)).elim
  refine ⟨mounted, hmount, hresolved, ?_⟩
  obtain ⟨mount, earlier, head, rest, -, hsplits, hopens, -⟩ :=
    hbuilt.mount_opens hmount rfl hresolved
  have hparams : [⟨mountName, "a".toList⟩] ++ [⟨mountName, "b.txt".toList⟩]
      = earlier ++ [⟨mountName, rest⟩] := hsplits.params_eq
  obtain ⟨hearlier, -⟩ := List.append_inj' hparams rfl
  have hanswer : (fileResponse <$> bareShelves "a".toList).Yields [] notFoundNotice ["a".toList] :=
    rfl
  rw [Run.Yields, hopens [] [] (Endpoint.Passes.free rfl), ← hearlier]
  exact guarded_yields hanswer

end Router

end RadixRouter
