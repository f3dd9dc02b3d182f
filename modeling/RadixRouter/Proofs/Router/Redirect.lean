import RadixRouter.Proofs.Http.Location
import RadixRouter.Proofs.Router.Dispatch

/-!
Where redirects lead. The path in the location decodes to the path of the redirect, and a route
matches that, but for one case: a slash is removed from the end of a path that has one, also where
only the path with another slash is matched.
-/

namespace RadixRouter

open Pattern

namespace Path

/-- A slash at the end is removed, unless it is all that there is, and it is added otherwise. -/
theorem toggleSlash_eq (path : Text) :
    (∃ front, front ≠ [] ∧ path = front ++ ['/'] ∧ toggleSlash path = front)
      ∨ (∀ front, front ≠ [] → path ≠ front ++ ['/']) ∧ toggleSlash path = path ++ ['/'] := by
  by_cases hends : ∃ front, front ≠ [] ∧ path = front ++ ['/']
  · obtain ⟨front, hfront, rfl⟩ := hends
    have hlength := List.length_pos_iff.mpr hfront
    refine Or.inl ⟨front, hfront, rfl, ?_⟩
    rw [toggleSlash, if_pos (by simp; omega), List.dropLast_concat]
  · have hnot : ∀ front, front ≠ [] → path ≠ front ++ ['/'] :=
      fun front hfront heq => hends ⟨front, hfront, heq⟩
    refine Or.inr ⟨hnot, if_neg ?_⟩
    intro hslash
    simp only [Bool.and_eq_true, decide_eq_true_eq] at hslash
    obtain ⟨front, rfl⟩ := List.getLast?_eq_some_iff.mp hslash.1
    have hfront : front ≠ [] := by
      intro hnil
      simp [hnil] at hslash
    exact hnot front hfront rfl

/-- Whether `target` is `path` without the slash at its end, or with another one if there is none to
spare. -/
def SlashToggled (path target : Text) : Prop :=
  target ≠ [] ∧ path = target ++ ['/']
    ∨ (∀ front, front ≠ [] → path ≠ front ++ ['/']) ∧ target = path ++ ['/']

theorem slashToggled_toggleSlash (path : Text) : SlashToggled path (toggleSlash path) := by
  rcases toggleSlash_eq path with ⟨front, hfront, hpath, htoggle⟩ | ⟨hnot, htoggle⟩
  · rw [htoggle]
    exact Or.inl ⟨hfront, hpath⟩
  · exact Or.inr ⟨hnot, htoggle⟩

end Path

namespace Router

/-- Whether `target` is where a redirected request goes: to its path with the slash toggled, if a
slash is what it takes, and otherwise to a matched path that is near to the cleaned one. -/
structure SentTo (router : Router) (registrations : List (Method × Endpoint)) (request : Request)
    (target : Text) : Prop where
  slash : SlashRedirects router.switches (routesFor registrations request.method) request.path →
    Path.SlashToggled request.path target
  fixed : ¬ SlashRedirects router.switches (routesFor registrations request.method) request.path →
    Matched (routesFor registrations request.method) target
      ∧ Text.Near router.switches.redirectTrailingSlash (Path.clean request.path) target

/-- Whether a slash is removed from `path` although only another one would make it match. -/
def StripsAmiss (switches : Switches) (routes : List (Text × Endpoint)) (path : Text) : Prop :=
  switches.redirectTrailingSlash = true
    ∧ ∃ front, front ≠ [] ∧ path = front ++ ['/'] ∧ ¬ Matched routes front
      ∧ Matched routes (path ++ ['/'])

/-- Whether a request reaches a route's handlers. -/
def Reaches (router : Router) (request : Request) : Prop :=
  ∃ endpoint params, router.lookup request.method request.path = .hit endpoint params
    ∧ router.AnsweredBy request endpoint params

variable {router : Router} {registrations history : List (Method × Endpoint)} {request : Request}

theorem Holds.reaches_iff (h : router.Holds registrations) :
    router.Reaches request ↔ Matched (routesFor registrations request.method) request.path := by
  rw [← h.lookup_isHit_iff]
  constructor
  · rintro ⟨endpoint, params, hhit, -⟩
    rw [hhit]
    rfl
  · intro hhit
    cases hlookup : router.lookup request.method request.path with
    | hit endpoint params =>
        rw [lookup_eq] at hlookup
        exact ⟨endpoint, params, by rw [lookup_eq, hlookup], answeredBy_of_hit hlookup⟩
    | miss slash =>
        rw [hlookup] at hhit
        contradiction

theorem Holds.sentTo (h : router.Holds registrations) {target : Text}
    (hredirect : router.redirectsTo? request = some target) :
    SentTo router registrations request target := by
  obtain ⟨-, -, ⟨hslash, rfl⟩ | ⟨hnot, -, hrepair, hmatched⟩⟩ := h.redirectsTo?_cases hredirect
  · exact ⟨fun _ => Path.slashToggled_toggleSlash _, fun hnot => (hnot hslash).elim⟩
  · have hnear := ((h.tree request.method).repair_sound hrepair).1
    exact ⟨fun hslash => (hnot hslash).elim, fun _ => ⟨hmatched, hnear⟩⟩

/-- A slash is removed where one can be spared, whichever of the two paths is matched, and added
where that one is matched. -/
theorem toggleSlash_cases {routes : List (Text × Endpoint)} {path : Text} (hne : path ≠ ['/'])
    (hmatched : SlashMatched routes path) :
    (∃ front, front ≠ [] ∧ path = front ++ ['/'] ∧ Path.toggleSlash path = front
        ∧ (Matched routes (path ++ ['/']) ∨ Matched routes front))
      ∨ (∀ front, front ≠ [] → path ≠ front ++ ['/'])
        ∧ Path.toggleSlash path = path ++ ['/'] ∧ Matched routes (path ++ ['/']) := by
  rcases Path.toggleSlash_eq path with ⟨front, hfront, rfl, htoggle⟩ | ⟨hnot, htoggle⟩
  · refine Or.inl ⟨front, hfront, rfl, htoggle, hmatched.imp_right ?_⟩
    rintro ⟨front', heq, hremoved⟩
    rwa [List.append_cancel_right heq]
  · refine Or.inr ⟨hnot, htoggle, ?_⟩
    rcases hmatched with hadded | ⟨front, heq, -⟩
    · exact hadded
    · by_cases hfront : front = []
      · subst hfront
        exact (hne heq).elim
      · exact (hnot front hfront heq).elim

/-- The path with its slash toggled is matched unless the slash is removed amiss. -/
theorem matched_toggleSlash_iff {switches : Switches} {routes : List (Text × Endpoint)}
    {path : Text} (hne : path ≠ ['/']) (hslash : SlashRedirects switches routes path) :
    Matched routes (Path.toggleSlash path) ↔ ¬ StripsAmiss switches routes path := by
  obtain ⟨hswitch, hmatched⟩ := hslash
  rcases toggleSlash_cases hne hmatched with ⟨front, hfront, rfl, htoggle, hmatched⟩
    | ⟨hnot, htoggle, hadded⟩
  · rw [htoggle]
    constructor
    · rintro hstripped ⟨-, front', -, heq, hnone, -⟩
      rw [List.append_cancel_right heq] at hstripped
      exact hnone hstripped
    · intro hright
      rcases hmatched with hadded | hremoved
      · apply Classical.byContradiction
        intro hnone
        exact hright ⟨hswitch, front, hfront, rfl, hnone, hadded⟩
      · exact hremoved
  · rw [htoggle]
    refine iff_of_true hadded ?_
    rintro ⟨-, front, hfront, heq, -⟩
    exact hnot front hfront heq

/-- The target of a redirect is matched unless a slash is removed amiss. -/
theorem Holds.matched_target_iff (h : router.Holds registrations) {target : Text}
    (hredirect : router.redirectsTo? request = some target) :
    Matched (routesFor registrations request.method) target
      ↔ ¬ StripsAmiss router.switches (routesFor registrations request.method) request.path := by
  obtain ⟨-, hasked, ⟨hslash, rfl⟩ | ⟨hslash, -, -, hmatched⟩⟩ := h.redirectsTo?_cases hredirect
  · exact matched_toggleSlash_iff hasked.2 hslash
  · refine iff_of_true hmatched ?_
    rintro ⟨hswitch, front, -, -, -, hadded⟩
    exact hslash ⟨hswitch, Or.inl hadded⟩

/-- A client that follows a redirect reaches a handler, unless a slash was removed amiss. -/
theorem redirect_reaches_iff {text target : Text} (hbuilt : router.BuiltBy history)
    (htarget : Target.ofText? text = some request.target)
    (hredirect : router.redirectsTo? request = some target) :
    router.serve request = pure (redirect request target (redirectStatus request.method))
      ∧ ∃ location follow,
        (redirect request target (redirectStatus request.method)).headers.get? Header.location
            = some (Text.utf8 location)
          ∧ Target.ofPathAndQuery? location = some follow
          ∧ Percent.decodePath follow.path = target
          ∧ (router.Reaches { request with target := follow }
            ↔ ¬ StripsAmiss router.switches
                (routesFor (registered {} history) request.method) request.path) := by
  have hdecoded := Percent.decodePath_encodePath target
  refine ⟨serve_of_dispatch_eq_pure (dispatch_of_redirectsTo? hredirect _),
    redirectLocation request target, request.redirected target,
    get?_location_redirect htarget target _, ofPathAndQuery?_redirectLocation htarget target,
    hdecoded, ?_⟩
  have hpath : ({ request with target := request.redirected target } : Request).path = target :=
    hdecoded
  rw [hbuilt.holds.reaches_iff, hpath]
  exact hbuilt.holds.matched_target_iff hredirect

/-- A router whose one route ends in two slashes. -/
def doubled : Router :=
  registerAll {} [(Method.get, ⟨"/a//".toList, fun _ _ _ => pure (.ok []), none⟩)]

/-- A request that has one of the two slashes. -/
def halved : Request :=
  ⟨Method.get, ⟨"/a/".toList, none⟩, [], [], none⟩

/-- The router sends the request to a path without a slash, where no route is. -/
theorem doubled_redirects_amiss :
    ∃ location follow,
      (redirect halved "/a".toList 301).headers.get? Header.location
          = some (Text.utf8 location)
        ∧ Target.ofPathAndQuery? location = some follow
        ∧ Percent.decodePath follow.path = "/a".toList
        ∧ ¬ doubled.Reaches { halved with target := follow } := by
  have hbuilt : doubled.BuiltBy [(Method.get, ⟨"/a//".toList, fun _ _ _ => pure (.ok []), none⟩)] :=
    rfl
  have htarget : Target.ofText? "/a/".toList = some halved.target := by decide +kernel
  have hredirect : doubled.redirectsTo? halved = some "/a".toList := by decide +kernel
  obtain ⟨-, location, follow, hheader, hread, hdecoded, hreaches⟩ :=
    redirect_reaches_iff hbuilt htarget hredirect
  refine ⟨location, follow, hheader, hread, hdecoded, ?_⟩
  rw [hreaches, Classical.not_not]
  refine ⟨by decide +kernel, "/a".toList, by decide, by decide +kernel, ?_, ?_⟩
  · rw [← hbuilt.holds.lookup_isHit_iff]
    decide +kernel
  · rw [← hbuilt.holds.lookup_isHit_iff]
    decide +kernel

end Router

end RadixRouter
