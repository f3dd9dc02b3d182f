import RadixRouter.Proofs.Router.Redirect

/-!
What a redirect's location says about its path: the path is read back from it, no other path is
written so, and the percent signs in it are those of the path that the request asked for.
-/

namespace RadixRouter

open Pattern

/-- A slash at the end is the one character that is toggled. -/
theorem Path.count_toggleSlash (path : Text) {d : Char} (hslash : d ≠ '/') :
    (toggleSlash path).count d = path.count d := by
  have hnone : List.count d ['/'] = 0 := List.count_eq_zero.mpr (by simpa using hslash)
  rcases toggleSlash_eq path with ⟨front, -, rfl, htoggle⟩ | ⟨-, htoggle⟩
  · rw [htoggle, List.count_append, hnone, Nat.add_zero]
  · rw [htoggle, List.count_append, hnone, Nat.add_zero]

/-- What stands in front of the query of a location is the encoded path. -/
theorem upTo_redirectLocation (request : Request) (path : Text) :
    Text.upTo '?' (redirectLocation request path) = Percent.encodePath path := by
  have hmark : ∀ c ∈ Percent.encodePath path, c ≠ '?' := fun c hc =>
    Target.ne_of_isPathChar (Percent.isPathChar_of_mem_encodePath c hc) (by decide)
  unfold redirectLocation
  cases request.target.query with
  | none => exact Text.upTo_of_forall_ne hmark
  | some query => exact Text.upTo_append_cons hmark query

namespace Router

variable {router : Router} {registrations history : List (Method × Endpoint)} {request : Request}

/-- A redirect adds no percent sign to a path and takes none away: where the slash alone is wrong,
this is the path that was asked for, else the cleaned one. -/
theorem Holds.count_target (h : router.Holds registrations) {target : Text}
    (hredirect : router.redirectsTo? request = some target) :
    target = Path.toggleSlash request.path ∧ target.count '%' = request.path.count '%'
      ∨ Text.Near router.switches.redirectTrailingSlash (Path.clean request.path) target
        ∧ target.count '%' = (Path.clean request.path).count '%' := by
  obtain ⟨-, -, ⟨-, rfl⟩ | ⟨-, -, hrepair, -⟩⟩ := h.redirectsTo?_cases hredirect
  · exact Or.inl ⟨rfl, Path.count_toggleSlash _ (by decide)⟩
  · have hnear := ((h.tree request.method).repair_sound hrepair).1
    exact Or.inr ⟨hnear, hnear.count_eq (by decide) (by decide) (by decide)⟩

/-- A path in a location consists of slashes, unreserved characters and written bytes; it has the
elements of the path, and it is read as the path. So locations of two paths are never the same, and
a client that is redirected asks for the path that it was sent to, also if it has percent signs that
a path had which was matched as it came. -/
theorem location_carries (target : Text) :
    Percent.decodePath (Percent.encodePath target) = target
      ∧ Percent.Encoded (Percent.encodePath target)
      ∧ Text.splitAt '/' (Percent.encodePath target)
        = (Text.splitAt '/' target).map Percent.encode
      ∧ (∀ (request request' : Request) (other : Text),
        redirectLocation request other = redirectLocation request' target → other = target)
      ∧ ∀ {router : Router} {history : List (Method × Endpoint)} {request : Request} {text : Text},
        router.BuiltBy history → Target.ofText? text = some request.target →
        router.redirectsTo? request = some target →
        router.serve request = pure (redirect request target (redirectStatus request.method))
          ∧ ∃ location follow,
            (redirect request target (redirectStatus request.method)).headers.get? Header.location
                = some (Text.utf8 location)
              ∧ Target.ofPathAndQuery? location = some follow
              ∧ follow.path = Percent.encodePath target
              ∧ (target = Path.toggleSlash request.path
                  ∧ (Percent.decodePath follow.path).count '%' = request.path.count '%'
                ∨ Text.Near router.switches.redirectTrailingSlash (Path.clean request.path) target
                  ∧ (Percent.decodePath follow.path).count '%'
                    = (Path.clean request.path).count '%') := by
  have hread := Percent.decodePath_encodePath target
  refine ⟨hread, Percent.Encoded.encodePath target, Percent.splitAt_encodePath target, ?_, ?_⟩
  · intro request request' other hsame
    have hpaths := congrArg (Text.upTo '?') hsame
    rw [upTo_redirectLocation, upTo_redirectLocation] at hpaths
    exact Percent.encodePath_injective hpaths
  · intro router history request text hbuilt htarget hredirect
    refine ⟨serve_of_dispatch_eq_pure (dispatch_of_redirectsTo? hredirect _),
      redirectLocation request target, request.redirected target,
      get?_location_redirect htarget target _, ofPathAndQuery?_redirectLocation htarget target,
      rfl, ?_⟩
    have hpath : Percent.decodePath (request.redirected target).path = target := hread
    rw [hpath]
    exact hbuilt.holds.count_target hredirect

/-- A router with one route, which has a percent sign and two digits for a byte that is no text. -/
def latin : List (Method × Endpoint) :=
  [(Method.get, ⟨"/caf%E9".toList, fun _ _ _ => pure (.ok []), none⟩)]

/-- A request for the route with a slash too many. Its path is no text when it is decoded. -/
def latinSlashed : Request :=
  ⟨Method.get, ⟨"/caf%E9/".toList, none⟩, [], [], none⟩

theorem latinSlashed_carries :
    latinSlashed.path = latinSlashed.target.path
      ∧ ∃ location follow,
        (redirect latinSlashed "/caf%E9".toList 301).headers.get? Header.location
            = some (Text.utf8 location)
          ∧ Target.ofPathAndQuery? location = some follow
          ∧ follow.path = "/caf%25E9".toList
          ∧ (Percent.decodePath follow.path).count '%' = 1 := by
  have hbuilt : (registerAll {} latin).BuiltBy latin := rfl
  have htarget : Target.ofText? "/caf%E9/".toList = some latinSlashed.target := by decide +kernel
  have hredirect : (registerAll {} latin).redirectsTo? latinSlashed = some "/caf%E9".toList := by
    decide +kernel
  have hpath : latinSlashed.path = "/caf%E9/".toList := by decide +kernel
  have hclean : (Path.clean latinSlashed.path).count '%' = 1 := by decide +kernel
  obtain ⟨-, -, -, -, hcarries⟩ := location_carries "/caf%E9".toList
  obtain ⟨-, location, follow, hheader, hread, hfollow, hcount⟩ :=
    hcarries hbuilt htarget hredirect
  refine ⟨hpath, location, follow, hheader, hread, ?_, ?_⟩
  · rw [hfollow]
    decide +kernel
  · rcases hcount with ⟨-, hcount⟩ | ⟨-, hcount⟩
    · rw [hcount, hpath]
      decide
    · rw [hcount, hclean]

end Router

end RadixRouter
