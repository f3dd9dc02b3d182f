import RadixRouter.Proofs.Path.Canonical
import RadixRouter.Proofs.Router.Redirect
import RadixRouter.Proofs.Tree.Patterns

/-!
Redirects stay on the host. Unless a registered pattern begins with two slashes itself, the path in
the location begins with one slash only, whatever the path of the request was.
-/

namespace RadixRouter

open Pattern

variable {α : Type}

namespace Path.IsLocal

variable {s t : Text}

/-- Letters of another case are no slashes. -/
theorem of_foldEq (ht : IsLocal t) (h : Text.FoldEq s t) : IsLocal s := by
  obtain ⟨rest, rfl, hrest⟩ := ht
  cases h with
  | @cons a _ s _ hsame hfold =>
      rw [foldsTo_slash_iff.mp hsame]
      refine ⟨s, rfl, fun hslash => hrest ?_⟩
      obtain ⟨s, rfl⟩ := List.head?_eq_some_iff.mp hslash
      cases hfold with
      | cons hsame _ => rw [List.head?_cons, foldsTo_slash_iff.mp (foldsTo_symm hsame)]

theorem concat_slash (h : IsLocal s) (hne : s ≠ ['/']) : IsLocal (s ++ ['/']) := by
  obtain ⟨rest, rfl, hrest⟩ := h
  refine ⟨rest ++ ['/'], rfl, ?_⟩
  cases rest with
  | nil => contradiction
  | cons c rest => simpa using hrest

theorem of_concat_slash (h : IsLocal (s ++ ['/'])) (hne : s ≠ []) : IsLocal s := by
  obtain ⟨c, s, rfl⟩ := List.exists_cons_of_ne_nil hne
  obtain ⟨rest, hwhole, hrest⟩ := h
  cases hwhole
  refine ⟨s, rfl, fun hslash => hrest ?_⟩
  obtain ⟨s, rfl⟩ := List.head?_eq_some_iff.mp hslash
  rfl

end Path.IsLocal

/-! ### Patterns behind the first slash -/

/-- Patterns that begin with a slash, and not with two of them. -/
def Pattern.SingleSlashed (routes : List (Text × α)) : Prop :=
  ∀ route ∈ routes, route.1.head? = some '/' ∧ ¬ ['/', '/'] <+: route.1

/-- The routes of a tree begin with a slash. -/
theorem Tree.Holds.head_eq_slash {tree : Tree α} {routes : List (Text × α)}
    (h : tree.Holds routes) : ∀ route ∈ routes, route.1.head? = some '/' := by
  intro route hroute
  have hentry := h.mem_entries_iff.mpr ⟨route, hroute, rfl⟩
  have hsound := h.sound
  cases tree with
  | empty => simp [Tree.entries] at hentry
  | root label node =>
      obtain ⟨hlabel, hhead, -⟩ := hsound
      obtain ⟨inner, -, hinner⟩ := List.mem_map.mp hentry
      have htokens : label.map .char ++ inner.tokens = tokens route.1 :=
        congrArg Entry.tokens hinner
      rw [← flatMap_write_tokens route.1, ← htokens, List.flatMap_append, flatMap_write_char,
        List.head?_append, hhead]
      rfl

namespace Pattern

/-- Two slashes in front are matched by a pattern that begins with one only if all the rest is up
to a catch-all. -/
theorem tokens_of_matches_doubled {pattern path : Text} (hhead : pattern.head? = some '/')
    (hsingle : ¬ ['/', '/'] <+: pattern) (hmatches : Matches pattern ('/' :: '/' :: path)) :
    ∃ name, tokens pattern = [.char '/', .catchAll name] := by
  obtain ⟨rest, rfl⟩ := List.head?_eq_some_iff.mp hhead
  rw [tokens_cons (by rfl)]
  have hrest : MatchesTokens (tokens rest) ('/' :: path) := by
    rw [Matches, tokens_cons (by rfl)] at hmatches
    exact hmatches
  cases rest with
  | nil => simp at hrest
  | cons c rest =>
      rw [tokens] at hrest ⊢
      split at hrest
      · next hmark =>
          rw [if_pos hmark]
          unfold Token.wildcard at hrest ⊢
          split at hrest
          · next hstar =>
              have hlast : tokens (Text.fromNext '/' rest) = [] := by
                by_contra hmore
                simp [MatchesTokens, bind?, hmore] at hrest
              rw [if_pos hstar, hlast]
              exact ⟨_, rfl⟩
          · simp [matchesTokens_param, Text.upTo] at hrest
      · obtain ⟨_, hsame, -⟩ := matchesTokens_char.mp hrest
        cases hsame
        exact (hsingle ⟨rest, rfl⟩).elim

namespace SingleSlashed

variable {routes : List (Text × α)} {path other : Text}

theorem exists_eq_cons (h : SingleSlashed routes) (hmatched : Matched routes path) :
    ∃ rest, path = '/' :: rest := by
  obtain ⟨route, hroute, hmatches⟩ := hmatched
  obtain ⟨pattern, hpattern⟩ := List.head?_eq_some_iff.mp (h route hroute).1
  rw [Matches, hpattern, tokens_cons (by rfl)] at hmatches
  obtain ⟨rest, rfl, -⟩ := matchesTokens_char.mp hmatches
  exact ⟨rest, rfl⟩

/-- Where two slashes in front are matched, a catch-all behind the first one matches everything. -/
theorem matched_of_matched_doubled (h : SingleSlashed routes)
    (hmatched : Matched routes ('/' :: '/' :: path)) (other : Text) :
    Matched routes ('/' :: other) := by
  obtain ⟨route, hroute, hmatches⟩ := hmatched
  obtain ⟨name, htokens⟩ := tokens_of_matches_doubled (h route hroute).1 (h route hroute).2 hmatches
  refine ⟨route, hroute, ?_⟩
  rw [Matches, htokens]
  exact matchesTokens_char.mpr ⟨other, rfl, matchesTokens_catchAll⟩

end SingleSlashed

end Pattern

/-- A path that is all that is in front of a catch-all is not repaired to another one. -/
theorem Tree.repair_slash {tree : Tree α} {entry : Entry α} {name : Text} (hsound : tree.Sound)
    (hentry : entry ∈ tree.entries) (htokens : entry.tokens = [.char '/', .catchAll name])
    (fixSlash : Bool) : tree.repair fixSlash ['/'] = some ['/'] := by
  cases tree with
  | empty => simp [Tree.entries] at hentry
  | root label node =>
      obtain ⟨hlabel, -, hnode⟩ := hsound
      obtain ⟨inner, hinner, rfl⟩ := List.mem_map.mp hentry
      obtain ⟨c, label, rfl⟩ := List.exists_cons_of_ne_nil hlabel.ne_nil
      rw [Entry.under_tokens, List.map_cons, List.cons_append] at htokens
      obtain ⟨hc, hrest⟩ := List.cons.inj htokens
      cases hc
      cases label with
      | cons d label => simp at hrest
      | nil =>
          have hrest : inner.tokens = [.catchAll name] := hrest
          have hends : node.terminates = true := by
            rw [Node.terminates_iff hnode]
            exact ⟨inner, hinner, by rw [hrest]; exact matchesTokens_catchAll⟩
          simp [Tree.repair, Node.repairAlong, Text.afterFold?, foldsTo, Node.repair_nil, hends]

namespace Router

variable {router : Router} {registrations history : List (Method × Endpoint)} {request : Request}

section Target

variable {routes : List (Text × Endpoint)} (hsingle : SingleSlashed routes)
include hsingle

/-- Where a path is missed, a matched one does not begin with two slashes. -/
theorem isLocal_of_matched {path rest : Text} (hmiss : ¬ Matched routes ('/' :: rest))
    (hmatched : Matched routes path) : Path.IsLocal path := by
  obtain ⟨rest', rfl⟩ := hsingle.exists_eq_cons hmatched
  refine ⟨rest', rfl, fun hslash => ?_⟩
  obtain ⟨more, rfl⟩ := List.head?_eq_some_iff.mp hslash
  exact hmiss (hsingle.matched_of_matched_doubled hmatched rest)

theorem exists_eq_cons_of_slashMatched {path : Text} (hne : path ≠ [])
    (hmatched : SlashMatched routes path) : ∃ rest, path = '/' :: rest := by
  rcases hmatched with hadded | ⟨front, rfl, hremoved⟩
  · obtain ⟨c, path, rfl⟩ := List.exists_cons_of_ne_nil hne
    obtain ⟨rest, hrest⟩ := hsingle.exists_eq_cons hadded
    cases hrest
    exact ⟨path, rfl⟩
  · obtain ⟨rest, rfl⟩ := hsingle.exists_eq_cons hremoved
    exact ⟨rest ++ ['/'], rfl⟩

/-- A slash removed or added leaves one slash in front. -/
theorem isLocal_toggleSlash {path : Text} (hmiss : ¬ Matched routes path) (hne : path ≠ ['/'])
    (hmatched : SlashMatched routes path) : Path.IsLocal (Path.toggleSlash path) := by
  by_cases hnil : path = []
  · subst hnil
    exact ⟨[], rfl, by simp⟩
  obtain ⟨rest, hpath⟩ := exists_eq_cons_of_slashMatched hsingle hnil hmatched
  have hlocal : ∀ other, Matched routes other → Path.IsLocal other :=
    fun other => isLocal_of_matched hsingle (hpath ▸ hmiss)
  rcases toggleSlash_cases hne hmatched with ⟨front, hfront, rfl, htoggle, hadded | hremoved⟩
    | ⟨-, htoggle, hadded⟩
  · rw [htoggle]
    exact ((hlocal _ hadded).of_concat_slash (by simp)).of_concat_slash hfront
  · rw [htoggle]
    exact hlocal _ hremoved
  · rw [htoggle]
    exact hlocal _ hadded

end Target

/-- A repair leaves one slash in front. The one that is added behind the first would be a second
one, but what is matched then is everything, also the path as it is. -/
theorem isLocal_repair {tree : Tree Endpoint} {routes : List (Text × Endpoint)}
    (h : tree.Holds routes) (hsingle : SingleSlashed routes) {fixSlash : Bool}
    {path target : Text} (hpath : Path.IsLocal path)
    (hrepair : tree.repair fixSlash path = some target) : Path.IsLocal target := by
  obtain ⟨hnear, hmatched⟩ := h.repair_sound hrepair
  rcases hnear with hsame | ⟨-, hadded | hremoved⟩
  · exact hpath.of_foldEq hsame
  · by_cases hroot : path = ['/']
    · subst hroot
      obtain ⟨route, hroute, hmatches⟩ := hmatched
      obtain ⟨hhead, hone⟩ := hsingle route hroute
      have hdouble : target = ['/', '/'] := by
        cases hadded with
        | cons hslash hrest => rw [foldsTo_slash_iff.mp hslash, hrest.eq_slash]
      rw [hdouble] at hmatches
      obtain ⟨name, htokens⟩ := tokens_of_matches_doubled hhead hone hmatches
      have hsame := Tree.repair_slash h.sound (h.mem_entries_iff.mpr ⟨route, hroute, rfl⟩) htokens
        fixSlash
      rw [hsame] at hrepair
      cases hrepair
      exact hpath
    · exact (hpath.concat_slash hroot).of_foldEq hadded
  · obtain ⟨rest, rfl⟩ := hsingle.exists_eq_cons hmatched
    exact (hpath.of_foldEq hremoved).of_concat_slash (by simp)

theorem Holds.singleSlashed (h : router.Holds registrations) {method : Method}
    (hpatterns : ∀ pattern, (method, pattern) ∈ registrations.map listed →
      ¬ ['/', '/'] <+: pattern) :
    SingleSlashed (routesFor registrations method) := by
  intro route hroute
  have hlisted := mem_listed_iff.mpr ⟨route.2, hroute⟩
  exact ⟨(h.tree method).head_eq_slash route hroute, hpatterns route.1 hlisted⟩

/-- The path of a redirect begins with one slash. -/
theorem Holds.isLocal_target (h : router.Holds registrations)
    (hsingle : SingleSlashed (routesFor registrations request.method)) {target : Text}
    (hredirect : router.redirectsTo? request = some target) : Path.IsLocal target := by
  obtain ⟨hmiss, hasked, ⟨hslash, rfl⟩ | ⟨-, -, hrepair, -⟩⟩ := h.redirectsTo?_cases hredirect
  · exact isLocal_toggleSlash hsingle hmiss hasked.2 hslash.2
  · exact isLocal_repair (h.tree request.method) hsingle (Path.isLocal_clean _) hrepair

/-- A redirect stays on the host: the path in its location begins with one slash, and it holds
nothing but slashes, unreserved characters and encoded bytes; the query is the one of the request,
if that has one. -/
theorem redirect_stays {text target : Text} (hbuilt : router.BuiltBy history)
    (hpatterns : ∀ pattern, (request.method, pattern) ∈ accepted {} history →
      ¬ ['/', '/'] <+: pattern)
    (htarget : Target.ofText? text = some request.target)
    (hredirect : router.redirectsTo? request = some target) :
    router.serve request = pure (redirect request target (redirectStatus request.method))
      ∧ ∃ path,
        (redirect request target (redirectStatus request.method)).headers.get? Header.location
            = some (Text.utf8 (Target.write ⟨path, request.target.query⟩))
          ∧ Path.IsLocal path
          ∧ Percent.Encoded path := by
  have hsingle := hbuilt.holds.singleSlashed (accepted_eq_map {} history ▸ hpatterns)
  obtain ⟨rest, rfl, hrest⟩ := hbuilt.holds.isLocal_target hsingle hredirect
  refine ⟨serve_of_dispatch_eq_pure (dispatch_of_redirectsTo? hredirect _), _,
    get?_location_redirect htarget _ _, ?_, Percent.Encoded.encodePath _⟩
  refine ⟨Percent.encodePath rest, Percent.encodePath_cons '/' rest, ?_⟩
  rwa [Ne, Percent.head?_encodePath_eq_slash_iff]

def archive : Router :=
  registerAll {} [(Method.get, ⟨"/Files/*path".toList, fun _ _ _ => pure (.ok []), none⟩)]

/-- A request whose target looks like the address of another host. -/
def disguised : Request :=
  ⟨Method.get, ⟨"//evil.example/..//%2e%2E/FILES//a%5Cb".toList, some "next=//evil".toList⟩, [], [],
    none⟩

/-- The router sends the request to a file of its own. -/
theorem archive_redirect_stays :
    archive.serve disguised = pure (redirect disguised "/Files/a\\b".toList 301)
      ∧ ∃ path,
        (redirect disguised "/Files/a\\b".toList 301).headers.get? Header.location
            = some (Text.utf8 (Target.write ⟨path, some "next=//evil".toList⟩))
          ∧ Path.IsLocal path
          ∧ Percent.Encoded path := by
  have hbuilt : archive.BuiltBy
      [(Method.get, ⟨"/Files/*path".toList, fun _ _ _ => pure (.ok []), none⟩)] := rfl
  have hpatterns : accepted {}
      [(Method.get, ⟨"/Files/*path".toList, fun _ _ _ => pure (.ok []), none⟩)]
        = [(Method.get, "/Files/*path".toList)] := by decide +kernel
  have htarget : Target.ofText? "//evil.example/..//%2e%2E/FILES//a%5Cb?next=//evil".toList
      = some disguised.target := by decide +kernel
  have hredirect : archive.redirectsTo? disguised = some "/Files/a\\b".toList := by decide +kernel
  refine redirect_stays hbuilt ?_ htarget hredirect
  rw [hpatterns]
  simp

end Router

end RadixRouter
