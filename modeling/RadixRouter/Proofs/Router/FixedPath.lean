import RadixRouter.Proofs.Http.Location
import RadixRouter.Proofs.Router.Dispatch
import RadixRouter.Proofs.Tree.Keep

/-!
When a request is sent to its cleaned path itself, where that is matched. What is asked for the
redirect is the repair, not the look-up: a pattern in front that matches the cleaned path but for
case, or but for its final slash, draws the request to itself.
-/

namespace RadixRouter.Router

variable {router : Router} {history : List (Method × Endpoint)} {request : Request}

/-- Whether a request whose path is missed may be sent to its cleaned path: it may be redirected at
all, and not by its final slash alone. -/
structure AsksForCleanPath (router : Router) (request : Request) : Prop where
  redirectable : Redirectable request
  missed : (router.lookup request.method request.path).isHit = false
  unslashed : ((router.lookup request.method request.path).slash
    && router.switches.redirectTrailingSlash) = false
  fixes : router.switches.redirectFixedPath = true

/-- Such a request is sent where the repair of its cleaned path leads. -/
theorem AsksForCleanPath.redirectsTo?_eq (h : router.AsksForCleanPath request) :
    router.redirectsTo? request
      = (router.treeOf request.method).repair router.switches.redirectTrailingSlash
          (Path.clean request.path) := by
  obtain ⟨hasked, hmissed, hslash, hfix⟩ := h
  rw [lookup_eq] at hmissed hslash
  unfold redirectsTo?
  split
  · next endpoint params hhit =>
      rw [hhit] at hmissed
      contradiction
  · next slash hmiss =>
      rw [hmiss, Lookup.slash] at hslash
      rw [if_pos (by simpa [Redirectable] using hasked), redirectTarget?,
        if_neg (by simp [hslash]), if_pos hfix]

/-- A path that is matched is repaired to itself if and only if no pattern in front of its own
matches a path near to it. A request whose cleaned path is matched, and not the path as it came, is
sent somewhere, and on the same condition to its cleaned path. -/
theorem matched_path_kept_iff {α : Type} (routes : List (Text × α))
    (hbuilt : router.BuiltBy history) :
    (∀ fixSlash path, ((Tree.ofHistory routes).lookup path).isHit = true →
        ((Tree.ofHistory routes).repair fixSlash path = some path
          ↔ (Tree.ofHistory routes).Unrivalled fixSlash path))
      ∧ ∀ request, router.AsksForCleanPath request →
        (router.lookup request.method (Path.clean request.path)).isHit = true →
        (router.redirectsTo? request = some (Path.clean request.path)
            ↔ (router.treeOf request.method).Unrivalled router.switches.redirectTrailingSlash
              (Path.clean request.path))
          ∧ ∃ target response, router.redirectsTo? request = some target
            ∧ router.serve request = pure response
            ∧ response.SendsTo request target := by
  refine ⟨?_, ?_⟩
  · intro fixSlash path hhit
    exact (Tree.holds_ofHistory routes).repair_eq_self_iff fixSlash hhit
  · intro request hasks hhit
    have htree := hbuilt.holds.tree request.method
    rw [lookup_eq] at hhit
    rw [hasks.redirectsTo?_eq]
    refine ⟨htree.repair_eq_self_iff _ hhit, ?_⟩
    have hnear := (htree.repair_isSome_iff router.switches.redirectTrailingSlash
      (Path.clean request.path)).mpr
        ⟨_, Or.inl (Text.FoldEq.refl _), (htree.isHit_iff _).mp hhit⟩
    obtain ⟨target, hrepair⟩ := Option.isSome_iff_exists.mp hnear
    refine ⟨target, _, hrepair, serve_of_dispatch_eq_pure (dispatch_of_redirectsTo? ?_ _),
      redirect_sendsTo _ _⟩
    rw [hasks.redirectsTo?_eq, hrepair]

/-- Two routes that differ in a capital. -/
def namesakes : List (Text × Endpoint) :=
  [("/foo/bar".toList, ⟨"/foo/bar".toList, fun _ _ _ => pure (.ok []), none⟩),
    ("/Foo/bar".toList, ⟨"/Foo/bar".toList, fun _ _ _ => pure (.ok []), none⟩)]

def namesakeRouter : Router :=
  registerAll {} (namesakes.map fun route => (Method.get, route.2))

/-- A request for the second one in a roundabout way. -/
def roundabout : Request :=
  ⟨Method.get, ⟨"/..//Foo/./bar".toList, none⟩, [], [], none⟩

/-- The path of the second route is repaired to the one of the first route, and a request for it is
sent there by the answer. -/
theorem namesakes_not_kept :
    (Tree.ofHistory namesakes).repair false "/Foo/bar".toList = some "/foo/bar".toList
      ∧ ¬ (Tree.ofHistory namesakes).Unrivalled false "/Foo/bar".toList
      ∧ Path.clean roundabout.path = "/Foo/bar".toList
      ∧ (∃ response, namesakeRouter.serve roundabout = pure response
        ∧ response.SendsTo roundabout "/foo/bar".toList)
      ∧ ¬ (namesakeRouter.treeOf Method.get).Unrivalled true "/Foo/bar".toList := by
  have hbuilt : namesakeRouter.BuiltBy (namesakes.map fun route => (Method.get, route.2)) := rfl
  obtain ⟨htree, hrouter⟩ := matched_path_kept_iff namesakes hbuilt
  have hrepair : (Tree.ofHistory namesakes).repair false "/Foo/bar".toList
      = some "/foo/bar".toList := by decide +kernel
  have hclean : Path.clean roundabout.path = "/Foo/bar".toList := by decide +kernel
  have hredirect : namesakeRouter.redirectsTo? roundabout = some "/foo/bar".toList := by
    decide +kernel
  have hasks : namesakeRouter.AsksForCleanPath roundabout :=
    ⟨⟨by decide +kernel, by decide +kernel⟩, by decide +kernel, by decide +kernel,
      by decide +kernel⟩
  have hswitch : namesakeRouter.switches.redirectTrailingSlash = true := by decide +kernel
  obtain ⟨hiff, target, response, htarget, hserve, hsends⟩ :=
    hrouter roundabout hasks (by decide +kernel)
  rw [hclean, hredirect, hswitch] at hiff
  rw [hredirect] at htarget
  cases htarget
  refine ⟨hrepair, ?_, hclean, ⟨response, hserve, hsends⟩, ?_⟩
  · rw [← htree false "/Foo/bar".toList (by decide +kernel), hrepair]
    decide
  · exact fun hfree => absurd (hiff.mpr hfree) (by decide)

end RadixRouter.Router
