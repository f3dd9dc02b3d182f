import RadixRouter.Proofs.Pattern.Grammar
import RadixRouter.Proofs.Tree.First
import RadixRouter.Proofs.Tree.History
import RadixRouter.Proofs.Tree.Verdict

/-!
When a registration is refused, said without the tree: the pattern is among the accepted ones, or it
parts from one of them where two wildcards or a catch-all and something else meet.
-/

namespace RadixRouter

open Pattern

variable {α : Type}

namespace Node

variable {above rest : Text} {node : Node α} {w : Token} {back : List Token}

/-- A token that none of the ways begins with parts from all routes at once. -/
theorem Sound.partAtOnce (hsound : node.Sound above) (hw : ¬ node.ways.BeginsWith w)
    (back : List Token) : ∀ entry ∈ node.entries, PartAtOnce entry.tokens (w :: back) := by
  intro entry hentry
  have hbegins := hsound.beginsWith entry hentry
  cases htokens : entry.tokens with
  | nil => exact partAtOnce_nil_left _
  | cons token later =>
      apply partAtOnce_of_ne
      rintro rfl
      exact hw (hbegins token (by simp [htokens]))

theorem mem_entries_of_catchAll? {name pattern : Text} {value : α}
    (hcatch : node.ways.catchAll? = some (name, value, pattern)) :
    ⟨[.catchAll name], value⟩ ∈ node.entries :=
  mem_entries_of_mem_ways (Ways.mem_entries_of_catchAll? hcatch)

/-! ### At a place -/

theorem claim_judges (value : α) (hsound : node.Sound above) :
    Judges above above [] node.entries (claim above value node).2 := by
  have hnil : ∀ entry ∈ node.entries, PartAtOnce entry.tokens [] :=
    fun entry _ => partAtOnce_nil_right entry.tokens
  have hne := hsound.ne_nil_of_mem
  have hbegins := hsound.beginsWith
  cases node with
  | mk held pattern priority ways =>
      cases held with
      | some old =>
          simp only [claim, Option.isSome_some, ↓reduceIte]
          have hmem : ⟨[], old⟩ ∈ (Node.mk (some old) pattern priority ways).entries := by simp
          exact Judges.refused ⟨rfl, rfl⟩ hmem rfl fun entry hentry => trivial
      | none =>
          simp only [claim, Option.isSome_none, Bool.false_eq_true, ↓reduceIte]
          cases hcatch : ways.catchAll? with
          | some existing =>
              obtain ⟨name, value', existing⟩ := existing
              have hmem : _ ∈ (Node.mk none pattern priority ways).entries :=
                mem_entries_of_catchAll? hcatch
              refine Judges.refused rfl hmem ?_ ?_
              · exact (hnil _ hmem).catchAllClashTokens_iff.mpr (Or.inl ⟨_, rfl, rfl⟩)
              · intro entry hentry
                refine ⟨hne rfl entry hentry, ?_⟩
                rw [(hnil entry hentry).wildcardsClashTokens_iff]
                simp
          | none =>
              apply Judges.accepted
              intro entry hentry
              apply (hnil entry hentry).compatible (Or.inl (hne rfl entry hentry)) (by simp)
              · exact fun v hv => (hbegins entry hentry v hv).isCatchAll_eq_false hcatch
              · simp

/-- A pattern that goes on with a character which begins none of the labels. -/
theorem sprout_char_judges (value : α) {c : Char} (hsound : node.Sound above)
    (hhead : rest.head? = some c) (hplain : isMark c = false)
    (htokens : tokens rest = .char c :: back) (hapart : c ∉ node.ways.indices) :
    Judges above (above ++ rest) (tokens rest) node.entries (sprout above value rest node).2 := by
  rw [htokens]
  have hparted := hsound.partAtOnce (Ways.BeginsWith.char_iff.not.mpr hapart) back
  have hbegins := hsound.beginsWith
  cases node with
  | mk held pattern priority ways =>
      simp only [sprout, hhead, Option.any_some, hplain, Bool.false_eq_true, ↓reduceIte]
      cases hcatch : ways.catchAll? with
      | some existing =>
          obtain ⟨name, value', existing⟩ := existing
          have hmem : _ ∈ (Node.mk held pattern priority ways).entries :=
            mem_entries_of_catchAll? hcatch
          refine Judges.refused rfl hmem ?_ ?_
          · exact (hparted _ hmem).catchAllClashTokens_iff.mpr (Or.inl ⟨_, rfl, rfl⟩)
          · intro entry hentry
            refine ⟨(hparted entry hentry).ne (Or.inr (by simp)), ?_⟩
            rw [(hparted entry hentry).wildcardsClashTokens_iff]
            simp [Token.isWild]
      | none =>
          apply Judges.accepted
          intro entry hentry
          apply (hparted entry hentry).compatible (Or.inr (by simp))
          · simp [Token.isWild]
          · exact fun v hv => (hbegins entry hentry v hv).isCatchAll_eq_false hcatch
          · simp [Token.isCatchAll]

/-- A pattern that ends with the catch-all that is there already. -/
theorem mounted_judges {existing : Text} (hsound : node.Sound above)
    (hsome : node.ways.wildcard? = some (existing, true)) (hgoes : GoesOnWild rest w back)
    (hsame : w.write = existing) :
    Judges above (above ++ rest) (tokens rest) node.entries
      (.error (.duplicate [] (above ++ rest))) := by
  obtain ⟨⟨name, value, pattern⟩, hcatch⟩ :=
    Option.isSome_iff_exists.mp (Ways.isSome_catchAll?_of_wildcard? hsome)
  have hmem := mem_entries_of_catchAll? hcatch
  have hwrite := (hsound.beginsWith _ hmem (.catchAll name) rfl).eq_wildcard rfl hsome
  have hcatchAll : Token.catchAll name = w := by
    apply Token.eq_of_write_eq rfl hgoes.isWild
    rw [hsame]
    exact congrArg Prod.fst hwrite
  refine Judges.refused ⟨rfl, rfl⟩ hmem ?_ fun other hother => trivial
  rw [RouteError.CausedBy, hgoes.tokens_eq, hgoes.last (hcatchAll ▸ rfl), hcatchAll]

/-- A pattern that goes on with another wildcard than the one that is there already. -/
theorem otherWildcard_judges {existing : Text} {catchAll : Bool} (hsound : node.Sound above)
    (hsome : node.ways.wildcard? = some (existing, catchAll)) (hgoes : GoesOnWild rest w back)
    (hother : (w.write, w.isCatchAll) ≠ (existing, catchAll)) :
    Judges above (above ++ rest) (tokens rest) node.entries
      (.error (.wildcardConflict (if catchAll then rest else w.write) (above ++ rest) existing
        (above ++ existing))) := by
  have hrest : (w :: back).flatMap Token.write = rest := by
    rw [← hgoes.tokens_eq, flatMap_write_tokens]
  have hapart : ¬ node.ways.BeginsWith w :=
    fun hbegins => hother (hbegins.eq_wildcard hgoes.isWild hsome)
  have hparted := hsound.partAtOnce hapart back
  rw [hgoes.tokens_eq]
  obtain ⟨entry, hentry, v, later, hfirst, hv⟩ := hsound.ways.exists_of_wildcard? hsome
  have hentry := mem_entries_of_mem_ways hentry
  refine Judges.refused rfl hentry ?_ ?_
  · exact (hparted entry hentry).wildcardsClashTokens_iff.mpr
      ⟨v, by simp [hfirst], w, rfl, hv, hgoes.isWild⟩
  · intro other hother
    have hpart := hparted other hother
    refine ⟨hpart.ne (Or.inr (by simp)), ?_⟩
    intro v' later' w' back' heq hv' hw'
    rw [hpart] at heq
    simp only [Prod.mk.injEq, List.cons.injEq] at heq
    obtain ⟨hhead, rfl, rfl⟩ := heq
    cases (hsound.beginsWith other hother v' (by simp [hhead])).eq_wildcard hv' hsome
    rw [hpart.shared_eq, hrest]
    simp

/-- A pattern that goes on with a wildcard where there is none. -/
theorem firstWildcard_judges (hsound : node.Sound above) (hnone : node.ways.wildcard? = none)
    (hgoes : GoesOnWild rest w back) :
    Judges above (above ++ rest) (tokens rest) node.entries
      (match mountFault? above rest node with
        | some fault => .error fault
        | none => .ok ()) := by
  have hplain : ∀ entry ∈ node.entries, ∀ v ∈ entry.tokens.head?, v.isWild = false :=
    fun entry hentry v hv => (hsound.beginsWith entry hentry v hv).isWild_eq_false hnone
  have hapart : ¬ node.ways.BeginsWith w := by
    intro hbegins
    simpa [hgoes.isWild] using hbegins.isWild_eq_false hnone
  have hparted := hsound.partAtOnce hapart back
  rw [hgoes.tokens_eq]
  by_cases hcatchAll : w.isCatchAll = true
  · obtain ⟨existing, hfault⟩ := mountFault?_eq hsound (hgoes.star.mp hcatchAll)
    obtain ⟨entry, hentry⟩ := List.exists_mem_of_ne_nil _ hsound.entries_ne_nil
    rw [hfault]
    refine Judges.refused rfl hentry ?_ ?_
    · exact (hparted entry hentry).catchAllClashTokens_iff.mpr (Or.inr ⟨w, rfl, hcatchAll⟩)
    · intro other hother
      refine ⟨(hparted other hother).ne (Or.inr (by simp)), ?_⟩
      rw [(hparted other hother).wildcardsClashTokens_iff]
      rintro ⟨v, hv, -, -, hvWild, -⟩
      simp [hplain other hother v hv] at hvWild
  · have hfree : mountFault? above rest node = none := by
      cases node with
      | mk held pattern priority ways => simp [mountFault?, ← hgoes.star, hcatchAll]
    rw [hfree]
    apply Judges.accepted
    intro entry hentry
    apply (hparted entry hentry).compatible (Or.inr (by simp))
    · intro v hv w' hw' hvWild
      simp [hplain entry hentry v hv] at hvWild
    · intro v hv
      exact (hsound.beginsWith entry hentry v hv).isCatchAll_eq_false
        (Ways.catchAll?_of_wildcard? hnone)
    · simpa using hcatchAll

/-- The outcome for a pattern that goes on with a wildcard. -/
theorem sprout_of_isMark (value : α) (node : Node α) (hmark : rest.head?.any isMark = true) :
    (sprout above value rest node).2 = match node.ways.wildcard? with
      | some (existing, catchAll) => .error (wildcardFault above rest existing catchAll)
      | none => match mountFault? above rest node with
        | some fault => .error fault
        | none => .ok () := by
  cases node with
  | mk held pattern priority ways =>
      simp only [sprout, hmark, ↓reduceIte, Node.ways]
      cases ways.wildcard? with
      | some existing => rfl
      | none => cases mountFault? above rest (.mk held pattern priority ways) <;> rfl

/-- A pattern that none of the ways goes along with. -/
theorem sprout_judges (value : α) (hsound : node.Sound above) (hfollows : Follows above rest)
    (hne : rest ≠ []) (hapart : ∀ c ∈ rest.head?, c ∉ node.ways.indices)
    (hother : ∀ existing, node.ways.wildcard? = some (existing, false) →
      Text.upTo '/' rest ≠ existing) :
    Judges above (above ++ rest) (tokens rest) node.entries (sprout above value rest node).2 := by
  rcases hfollows.first hne with ⟨c, back, hhead, hplain, htokens⟩ | ⟨w, back, hgoes⟩
  · exact sprout_char_judges value hsound hhead hplain htokens (hapart c hhead)
  · rw [sprout_of_isMark value node hgoes.mark]
    cases hwild : node.ways.wildcard? with
    | none => exact firstWildcard_judges hsound hwild hgoes
    | some existing =>
        obtain ⟨existing, catchAll⟩ := existing
        simp only [wildcardFault, ← hgoes.written]
        split
        · next hsame =>
            simp only [Bool.and_eq_true, decide_eq_true_eq] at hsame
            obtain ⟨rfl, hsame⟩ := hsame
            exact mounted_judges hsound hwild hgoes hsame
        · next hdiffers =>
            apply otherWildcard_judges hsound hwild hgoes
            intro heq
            cases heq
            cases hcatchAll : w.isCatchAll with
            | true => simp [hcatchAll] at hdiffers
            | false =>
                rw [hcatchAll] at hwild
                exact hother _ hwild hgoes.written.symm

theorem place_judges (value : α) (hsound : node.Sound above) (hfollows : Follows above rest)
    (hapart : ∀ c ∈ rest.head?, c ∉ node.ways.indices)
    (hother : rest ≠ [] → ∀ existing, node.ways.wildcard? = some (existing, false) →
      Text.upTo '/' rest ≠ existing) :
    Judges above (above ++ rest) (tokens rest) node.entries (place above value rest node).2 := by
  by_cases hrest : rest = []
  · subst hrest
    simpa [place] using claim_judges value hsound
  · rw [place, if_neg hrest]
    exact sprout_judges value hsound hfollows hrest hapart (hother hrest)

/-! ### Along a label -/

theorem along_judges {label : Text} (value : α) {descend : Text → Node α × Except RouteError Unit}
    (hlabel : Label label) (hsound : node.Sound (above ++ label)) (hfollows : Follows above rest)
    (hhead : label.head? = rest.head?)
    (hdescend : ∀ deeper, Follows (above ++ label) deeper →
      Judges (above ++ label) (above ++ label ++ deeper) (tokens deeper) node.entries
        (descend deeper).2) :
    Judges above (above ++ rest) (tokens rest)
      (node.entries.map (Entry.under (label.map .char)))
      (along above value rest label node descend).2.2 := by
  rcases along_cases above value node descend hhead with ⟨deeper, rfl, halong⟩
    | ⟨front, tail, deeper, rfl, rfl, -, htail, hparted, halong⟩
  · rw [follows_append_iff hlabel.plain] at hfollows
    rw [halong, tokens_append hlabel.plain, ← List.append_assoc]
    exact (hdescend deeper hfollows).under (flatMap_write_char label)
  · have hfront : Plain front := hlabel.plain.left
    have htailLabel : Label tail := ⟨htail, hlabel.plain.right⟩
    rw [follows_append_iff hfront] at hfollows
    have hplaced := place_judges value (split_sound (above ++ front) htailLabel hsound)
      hfollows (apart_split _ node hparted) (by simp [split, Node.ways, Ways.wildcard?])
    have hunder := hplaced.under (flatMap_write_char front)
    rw [halong, tokens_append hfront, ← List.append_assoc]
    rwa [entries_split, List.map_map, Entry.under_comp_under, ← List.map_append] at hunder

end Node

/-! ### Down the tree -/

namespace Ways

variable {above rest : Text}

/-- A parameter that no way goes along with is another one than the parameter among the ways. -/
theorem wildcard?_of_follow_eq_none {value : α} {ways : Ways α} {existing : Text}
    (hnone : ways.follow above value rest = Option.none)
    (hwild : ways.wildcard? = some (existing, false)) : Text.upTo '/' rest ≠ existing := by
  cases ways with
  | none => simp [wildcard?] at hwild
  | literal label next others =>
      rw [follow] at hnone
      split at hnone
      · contradiction
      · rw [Option.map_eq_none_iff] at hnone
        exact wildcard?_of_follow_eq_none hnone hwild
  | param name next =>
      cases hwild
      intro hsame
      simp [follow, hsame] at hnone
  | catchAll name value' pattern => simp [wildcard?] at hwild

/-- The routes behind the first label, when another label goes along with the pattern. -/
theorem compatible_of_head_ne {label : Text} {w : Token} {back : List Token} (hlabel : Label label)
    (hw : w.isCatchAll = false) (hhead : ∀ c ∈ label.head?, w ≠ .char c) (inner : Entry α) :
    Compatible (inner.under (label.map .char)).tokens (w :: back) := by
  obtain ⟨c, label, rfl⟩ := List.exists_cons_of_ne_nil hlabel.ne_nil
  exact compatible_of_ne _ _ (hhead c rfl).symm (by simp [Token.isWild]) rfl hw

/-- The routes behind the other ways, when the first label goes along with the pattern. -/
theorem Fork.compatible {label : Text} {next : Node α} {others : Ways α} {c : Char}
    (hfork : Fork label next others) (hothers : others.Sound above) (hc : c ∈ label.head?)
    (back : List Token) : ∀ entry ∈ others.entries, Compatible entry.tokens (.char c :: back) := by
  intro entry hentry
  obtain ⟨token, later, hfirst, hbegins⟩ := hothers.first_of_mem entry hentry
  have hcatchAll := hbegins.isCatchAll_eq_false hfork.alone
  rw [hfirst]
  apply compatible_of_ne _ _ _ (by simp [Token.isWild]) hcatchAll rfl
  rintro rfl
  exact hfork.apart c hc (BeginsWith.char_iff.mp hbegins)

end Ways

-- Induction on the tree, as for what a registration makes of it: the ways that do not go along with
-- the pattern part from it at once, and tolerate it.
mutual

theorem Node.insert_judges {node : Node α} :
    ∀ {above rest : Text} (value : α), node.Sound above → Follows above rest →
      Judges above (above ++ rest) (tokens rest) node.entries
        (node.insert above value rest).2 := by
  intro above rest value hsound hfollows
  cases node with
  | mk held pattern priority ways =>
      rcases Node.insert_cases above value rest held pattern priority ways with
        ⟨hnone, hapart, hinsert⟩ | ⟨ways', result, hrest, hfollow, hinsert⟩
      · rw [hinsert]
        exact Node.place_judges value hsound hfollows hapart
          fun hrest existing => Ways.wildcard?_of_follow_eq_none (hnone hrest)
      · rw [hinsert]
        obtain ⟨hjudges, w, back, htokens, hw⟩ :=
          Ways.follow_judges value hsound.ways hfollows hrest hfollow
        apply hjudges.widen
        · exact fun entry hentry => Node.mem_entries_of_mem_ways hentry
        · intro entry hentry
          rw [Node.entries_mk, List.mem_append] at hentry
          rcases hentry with hheld | hentry
          · obtain ⟨value', -, rfl⟩ := List.mem_map.mp hheld
            exact Or.inr (htokens ▸ compatible_nil_left hw)
          · exact Or.inl hentry

theorem Ways.follow_judges {ways : Ways α} :
    ∀ {above rest : Text} (value : α) {ways' : Ways α} {result : Except RouteError Unit},
      ways.Sound above → Follows above rest → rest ≠ [] →
      ways.follow above value rest = some (ways', result) →
      Judges above (above ++ rest) (tokens rest) ways.entries result
        ∧ ∃ w back, tokens rest = w :: back ∧ w.isCatchAll = false := by
  intro above rest value ways' result hways hfollows hne hfollow
  cases ways with
  | none => simp [Ways.follow] at hfollow
  | literal label next others =>
      obtain ⟨hlabel, hnext, hothers, hfork⟩ := Ways.sound_literal.mp hways
      rcases Ways.follow_literal_eq_some hfollow with
        ⟨hhead, -, rfl⟩ | ⟨hhead, others', hothersFollow, -⟩
      · have halong := Node.along_judges value hlabel hnext hfollows hhead
          fun deeper hdeeper => Node.insert_judges value hnext hdeeper
        obtain ⟨c, label, rfl⟩ := List.exists_cons_of_ne_nil hlabel.ne_nil
        obtain ⟨rest, rfl⟩ := List.head?_eq_some_iff.mp hhead.symm
        have htokens := tokens_cons (hlabel.plain c List.mem_cons_self) rest
        refine ⟨halong.widen ?_ ?_, _, _, htokens, rfl⟩
        · simp +contextual
        · intro entry hentry
          rw [Ways.entries_literal, List.mem_append] at hentry
          refine hentry.imp_right fun hentry => ?_
          rw [htokens]
          exact hfork.compatible hothers rfl _ entry hentry
      · obtain ⟨hjudges, w, back, htokens, hw⟩ :=
          Ways.follow_judges value hothers hfollows hne hothersFollow
        refine ⟨hjudges.widen ?_ ?_, w, back, htokens, hw⟩
        · simp +contextual
        · intro entry hentry
          rw [Ways.entries_literal, List.mem_append] at hentry
          refine hentry.symm.imp_right fun hentry => ?_
          obtain ⟨inner, -, rfl⟩ := List.mem_map.mp hentry
          rw [htokens]
          apply Ways.compatible_of_head_ne hlabel hw
          rintro c hc rfl
          have hwrite := flatMap_write_tokens rest
          rw [htokens] at hwrite
          exact hhead (hc.trans (congrArg List.head? hwrite))
  | param name next =>
      obtain ⟨hname, hnext, -⟩ := Ways.sound_param.mp hways
      obtain ⟨deeper, rfl, hends, hdeeper, -, rfl⟩ :=
        Ways.follow_param_eq_some hname hfollows hfollow
      have htokens := tokens_param hname.no_slash hends
      have hwritten : [Token.param name].flatMap Token.write = ':' :: name := List.append_nil _
      have hjudges := (Node.insert_judges value hnext hdeeper).under hwritten
      rw [List.append_assoc, List.cons_append, List.singleton_append, ← htokens] at hjudges
      rw [Ways.entries_param]
      exact ⟨hjudges, _, _, htokens, rfl⟩
  | catchAll name value' pattern => simp [Ways.follow] at hfollow

end

/-! ### Trees -/

namespace Tree

theorem insert_judges {tree : Tree α} {pattern : Text} (value : α) (hsound : tree.Sound)
    (hcheck : Pattern.check pattern = .ok ()) :
    Judges [] pattern (tokens pattern) tree.entries (tree.insert pattern value).2 := by
  obtain ⟨hslash, hfollows⟩ := follows_of_check hcheck
  simp only [insert, hcheck]
  cases tree with
  | empty => exact Judges.accepted (by simp [entries])
  | root label node =>
      obtain ⟨hlabel, hhead, hnode⟩ := hsound
      have hnode : node.Sound ([] ++ label) := hnode
      exact Node.along_judges value hlabel hnode hfollows (hhead.trans hslash.symm)
        fun deeper hdeeper => Node.insert_judges value hnode hdeeper

namespace Holds

variable {tree tree' : Tree α} {routes routes' : List (Text × α)}

theorem tokens_perm (h : tree.Holds routes) :
    (tree.entries.map Entry.tokens).Perm ((routes.map Prod.fst).map tokens) := by
  have hperm := h.entries.map Entry.tokens
  rwa [List.map_map] at hperm ⊢

theorem insert_settles (h : tree.Holds routes) {q : Text} (hcheck : Pattern.check q = .ok ())
    (value : α) : Settles (routes.map Prod.fst) q (tree.insert q value).2 :=
  (insert_judges value h.sound hcheck).settles h.tokens_perm

/-- Trees of the same patterns take and refuse the same patterns, for the same causes. -/
theorem insert_mapError_eq (h : tree.Holds routes) (h' : tree'.Holds routes')
    (hsame : ∀ p, p ∈ routes.map Prod.fst ↔ p ∈ routes'.map Prod.fst) (q : Text)
    (value value' : α) :
    (tree.insert q value).2.mapError RouteError.unquoted
      = (tree'.insert q value').2.mapError RouteError.unquoted := by
  cases hcheck : Pattern.check q with
  | error fault => simp [insert, hcheck]
  | ok _ =>
      exact (h.insert_settles hcheck value).mapError_eq (h'.insert_settles hcheck value') hsame

end Holds

/-- A registration conflicts if and only if the pattern is accepted already or parts from an
accepted one at two wildcards or at a catch-all. Nothing but the accepted patterns matters. -/
theorem ofHistory_insert_settles (history : List (Text × α)) {q : Text} (hform : WellFormed q)
    (value : α) :
    Settles ((routesOf history).map Prod.fst) q ((ofHistory history).insert q value).2
      ∧ ∀ history' : List (Text × α),
        (∀ p, p ∈ (routesOf history).map Prod.fst ↔ p ∈ (routesOf history').map Prod.fst) →
        ((ofHistory history).insert q value).2.mapError RouteError.unquoted
          = ((ofHistory history').insert q value).2.mapError RouteError.unquoted := by
  have hholds := holds_ofHistory history
  refine ⟨hholds.insert_settles hform.check value, ?_⟩
  intro history' hsame
  exact hholds.insert_mapError_eq (holds_ofHistory history') hsame q value value

/-- Two routes, and between them one that is refused after it has cut the label of the first. -/
def cutShort : List (Text × Nat) :=
  [("/ab/c".toList, 1), ("/ab/*rest".toList, 2), ("/users/:id".toList, 3)]

/-- Another name for the parameter of a route is refused. -/
theorem cutShort_insert_settles :
    ((ofHistory cutShort).insert "/users/:name/posts".toList 4).2
        = .error (.wildcardConflict ":name".toList "/users/:name/posts".toList ":id".toList
            "/users/:id".toList)
      ∧ Settles ["/ab/c".toList, "/users/:id".toList] "/users/:name/posts".toList
          ((ofHistory cutShort).insert "/users/:name/posts".toList 4).2
      ∧ ∀ history' : List (Text × Nat),
        (∀ p, p ∈ ["/ab/c".toList, "/users/:id".toList]
          ↔ p ∈ (routesOf history').map Prod.fst) →
        ((ofHistory cutShort).insert "/users/:name/posts".toList 4).2.mapError
            RouteError.unquoted
          = ((ofHistory history').insert "/users/:name/posts".toList 4).2.mapError
              RouteError.unquoted := by
  have hroutes : (routesOf cutShort).map Prod.fst = ["/ab/c".toList, "/users/:id".toList] := by
    decide +kernel
  have hform : WellFormed "/users/:name/posts".toList := by decide
  have hsettles := ofHistory_insert_settles cutShort hform 4
  rw [hroutes] at hsettles
  exact ⟨by decide +kernel, hsettles⟩

-- What a catch-all conflict quotes is another matter: the refused route has cut the label here.
example :
    ((ofHistory [("/a/b/c".toList, 1)]).insert "/a/*x".toList 3).2
        = .error (.catchAllConflict "/a/*x".toList "/a/b/c".toList)
      ∧ ((ofHistory [("/a/b/c".toList, 1), ("/a/b/*x".toList, 2)]).insert "/a/*x".toList 3).2
        = .error (.catchAllConflict "/a/*x".toList "/a/b/".toList) := by
  decide +kernel

end Tree

end RadixRouter
