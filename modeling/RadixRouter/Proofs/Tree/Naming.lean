import RadixRouter.Proofs.Tree.Conflict
import RadixRouter.Proofs.Tree.Noted

/-!
Which route a catch-all conflict names. What it quotes is noted where the two patterns part; that
need not be the pattern of a route, but some route that stands in the way begins with it.
-/

namespace RadixRouter

open Pattern

variable {α : Type}

mutual

/-- Whether `front` leads on from a place that `above` leads to, to a place where no route ends. -/
def Node.Bare (above front : Text) : Node α → Prop
  | .mk held _ _ ways => held = none ∧ front = above ∨ ways.Bare above front

/-- Whether one of the ways leads on along `front` to a place where no route ends. -/
def Ways.Bare (above front : Text) : Ways α → Prop
  | .none => False
  | .literal label next others => next.Bare (above ++ label) front ∨ others.Bare above front
  | .param name next => next.Bare (above ++ ':' :: name) front
  | .catchAll _ _ _ => False

end

/-- Whether `front` leads to a place of the tree where no route ends. -/
def Tree.Bare (front : Text) : Tree α → Prop
  | .empty => False
  | .root label node => node.Bare label front

section Unfold

variable {above front label name : Text} {node next : Node α} {others : Ways α}

@[simp] theorem Node.bare_iff :
    node.Bare above front ↔ node.value = none ∧ front = above ∨ node.ways.Bare above front := by
  cases node
  rw [Node.Bare]
  rfl

@[simp] theorem Ways.bare_none : ¬ (Ways.none : Ways α).Bare above front := by
  simp [Ways.Bare]

@[simp] theorem Ways.bare_literal :
    (Ways.literal label next others).Bare above front
      ↔ next.Bare (above ++ label) front ∨ others.Bare above front := by
  rw [Ways.Bare]

@[simp] theorem Ways.bare_param :
    (Ways.param name next).Bare above front ↔ next.Bare (above ++ ':' :: name) front := by
  rw [Ways.Bare]

@[simp] theorem Ways.bare_catchAll {value : α} {pattern : Text} :
    ¬ (Ways.catchAll name value pattern).Bare above front := by
  simp [Ways.Bare]

end Unfold

/-! ### No route ends at a bare front -/

-- Induction on the tree: a front that leads on from a place begins with what leads to the place.
mutual

theorem Node.Bare.exists_append {node : Node α} : ∀ {above front : Text}, node.Sound above →
    node.Bare above front → ∃ back, front = above ++ back := by
  intro above front hsound hbare
  cases node with
  | mk held pattern priority ways =>
      rcases Node.bare_iff.mp hbare with ⟨-, rfl⟩ | hbare
      · exact ⟨[], (List.append_nil _).symm⟩
      · obtain ⟨c, back, rfl, -⟩ := Ways.Bare.exists_append hsound.ways hbare
        exact ⟨c :: back, rfl⟩

theorem Ways.Bare.exists_append {ways : Ways α} : ∀ {above front : Text}, ways.Sound above →
    ways.Bare above front →
    ∃ c back, front = above ++ c :: back ∧ (c ∈ ways.indices ∨ isMark c = true) := by
  intro above front hways hbare
  cases ways with
  | none => exact (Ways.bare_none hbare).elim
  | literal label next others =>
      obtain ⟨hlabel, hnext, hothers, -⟩ := Ways.sound_literal.mp hways
      rcases Ways.bare_literal.mp hbare with hbare | hbare
      · obtain ⟨back, rfl⟩ := Node.Bare.exists_append hnext hbare
        obtain ⟨c, label, rfl⟩ := List.exists_cons_of_ne_nil hlabel.ne_nil
        exact ⟨c, label ++ back, by simp, Or.inl (by simp [Ways.indices])⟩
      · obtain ⟨c, back, hfront, hc⟩ := Ways.Bare.exists_append hothers hbare
        exact ⟨c, back, hfront, hc.imp_left fun hc => by simp [Ways.indices, hc]⟩
  | param name next =>
      have hnext := (Ways.sound_param.mp hways).2.1
      obtain ⟨back, rfl⟩ := Node.Bare.exists_append hnext (Ways.bare_param.mp hbare)
      exact ⟨':', name ++ back, by simp, Or.inr rfl⟩
  | catchAll name value pattern => exact (Ways.bare_catchAll hbare).elim

end

mutual

theorem Node.Bare.written_ne {node : Node α} : ∀ {above front : Text}, node.Sound above →
    node.Bare above front → ∀ entry ∈ node.entries, entry.written above ≠ front := by
  intro above front hsound hbare entry hentry
  rcases Node.bare_iff.mp hbare with ⟨hnone, rfl⟩ | hbare
  · exact Entry.written_eq_iff.not.mpr (hsound.ne_nil_of_mem hnone entry hentry)
  · cases node with
    | mk held pattern priority ways =>
        have hways := hsound.ways
        rw [Node.entries_mk, List.mem_append] at hentry
        rcases hentry with hheld | hentry
        · obtain ⟨value, -, rfl⟩ := List.mem_map.mp hheld
          obtain ⟨c, back, rfl, -⟩ := Ways.Bare.exists_append hways hbare
          rw [Entry.written_eq_iff.mpr rfl]
          simp
        · exact Ways.Bare.written_ne hways hbare entry hentry

theorem Ways.Bare.written_ne {ways : Ways α} : ∀ {above front : Text}, ways.Sound above →
    ways.Bare above front → ∀ entry ∈ ways.entries, entry.written above ≠ front := by
  intro above front hways hbare entry hentry
  cases ways with
  | none => exact (Ways.bare_none hbare).elim
  | literal label next others =>
      obtain ⟨hlabel, hnext, hothers, hfork⟩ := Ways.sound_literal.mp hways
      rw [Ways.entries_literal, List.mem_append, List.mem_map] at hentry
      rcases hentry with ⟨inner, hinner, rfl⟩ | hentry
      · rw [Entry.written_under_label]
        rcases Ways.bare_literal.mp hbare with hbare | hbare
        · exact Node.Bare.written_ne hnext hbare inner hinner
        · obtain ⟨c, back, rfl, hc⟩ := Ways.Bare.exists_append hothers hbare
          exact hfork.append_ne hlabel hc
      · rcases Ways.bare_literal.mp hbare with hbare | hbare
        · obtain ⟨back, rfl⟩ := Node.Bare.exists_append hnext hbare
          obtain ⟨c, back', hwritten, hc⟩ := hothers.written_of_mem entry hentry
          rw [hwritten]
          exact (hfork.append_ne hlabel hc).symm
        · exact Ways.Bare.written_ne hothers hbare entry hentry
  | param name next =>
      have hnext := (Ways.sound_param.mp hways).2.1
      rw [Ways.entries_param, List.mem_map] at hentry
      obtain ⟨inner, hinner, rfl⟩ := hentry
      rw [Entry.written_under_param]
      exact Node.Bare.written_ne hnext (Ways.bare_param.mp hbare) inner hinner
  | catchAll name value pattern => exact (Ways.bare_catchAll hbare).elim

end

/-! ### What is quoted -/

/-- Whether some of the routes clashes with `q` and begins with the text `existing`, which is all of
it, or nothing, or else `bare` holds. -/
def Names (above : Text) (entries : List (Entry α)) (bare : Prop) (q : List Token)
    (existing : Text) : Prop :=
  ∃ entry ∈ entries, CatchAllClashTokens entry.tokens q ∧ existing <+: entry.written above
    ∧ (existing = entry.written above ∨ existing = [] ∨ bare)

namespace Names

variable {above written existing : Text} {entries entries' : List (Entry α)} {bare bare' : Prop}
  {front q : List Token}

theorem under (hwritten : front.flatMap Token.write = written)
    (h : Names (above ++ written) entries bare q existing) :
    Names above (entries.map (Entry.under front)) bare (front ++ q) existing := by
  obtain ⟨entry, hentry, hclash, hbegins, horigin⟩ := h
  have hsame : (entry.under front).written above = entry.written (above ++ written) := by
    simp [Entry.written, hwritten]
  rw [← hsame] at hbegins horigin
  exact ⟨entry.under front, List.mem_map_of_mem hentry,
    (catchAllClashTokens_append_iff front).mpr hclash, hbegins, horigin⟩

theorem mono (h : Names above entries bare q existing) (hsub : entries ⊆ entries')
    (hbare : bare → bare') : Names above entries' bare' q existing := by
  obtain ⟨entry, hentry, hclash, hbegins, horigin⟩ := h
  exact ⟨entry, hsub hentry, hclash, hbegins, horigin.imp_right (Or.imp_right hbare)⟩

end Names

namespace Node

variable {above rest path existing : Text} {value : α} {node : Node α}

/-- What a place notes is the pattern of a route there, or nothing, or the front that leads to the
place, where no route ends. -/
theorem Noted.names (hnoted : node.Noted above) (hsound : node.Sound above) :
    ∃ entry ∈ node.entries, node.pattern <+: entry.written above
      ∧ (node.pattern = entry.written above ∨ node.pattern = [] ∨ node.Bare above node.pattern) := by
  obtain ⟨some, hsome⟩ := List.exists_mem_of_ne_nil _ hsound.entries_ne_nil
  cases node with
  | mk held pattern priority ways =>
      rcases (noted_mk.mp hnoted).1 with rfl | rfl | hlisted
      · exact ⟨some, hsome, List.nil_prefix, Or.inr (Or.inl rfl)⟩
      · cases held with
        | none =>
            exact ⟨some, hsome, List.prefix_append _ _,
              Or.inr (Or.inr (bare_iff.mpr (Or.inl ⟨rfl, rfl⟩)))⟩
        | some value =>
            have hself : Entry.written pattern ⟨[], value⟩ = pattern := Entry.written_eq_iff.mpr rfl
            refine ⟨⟨[], value⟩, by simp, ?_, Or.inl hself.symm⟩
            rw [hself]
            exact List.prefix_refl _
      · rw [hsound.patterns_eq, List.mem_map] at hlisted
        obtain ⟨entry, hentry, hwritten⟩ := hlisted
        refine ⟨entry, hentry, ?_, Or.inl hwritten.symm⟩
        rw [hwritten]
        exact List.prefix_refl _

/-- A catch-all that is there already is quoted as it was registered. -/
theorem names_of_catchAll? {name : Text} {held : α} {q : List Token} (hsound : node.Sound above)
    (hcatch : node.ways.catchAll? = some (name, held, existing))
    (hparted : PartAtOnce [.catchAll name] q) (bare : Prop) :
    Names above node.entries bare q existing := by
  have hpattern : ∀ {ways : Ways α}, ways.Sound above →
      ways.catchAll? = some (name, held, existing) → existing = above ++ '*' :: name := by
    intro ways hways hcatch
    induction ways using Ways.catchAll?.induct with
    | case1 label next others ih => exact ih (Ways.sound_literal.mp hways).2.2.1 hcatch
    | case2 name' value' pattern =>
        cases hcatch
        exact (Ways.sound_catchAll.mp hways).2
    | case3 ways hliteral hcatchAll =>
        cases ways with
        | literal label next others => exact (hliteral label next others rfl).elim
        | catchAll name value pattern => exact (hcatchAll name value pattern rfl).elim
        | _ => contradiction
  have hwritten : Entry.written above (⟨[.catchAll name], held⟩ : Entry α) = existing := by
    rw [hpattern hsound.ways hcatch]
    simp [Entry.written, Token.write]
  refine ⟨⟨[.catchAll name], held⟩, mem_entries_of_catchAll? hcatch, ?_, ?_, Or.inl hwritten.symm⟩
  · exact hparted.catchAllClashTokens_iff.mpr (Or.inl ⟨_, rfl, rfl⟩)
  · simp [hwritten]

theorem claim_names (hsound : node.Sound above)
    (hfault : (claim above value node).2 = .error (.catchAllConflict path existing)) (bare : Prop) :
    Names above node.entries bare [] existing := by
  cases node with
  | mk held pattern priority ways =>
      cases held with
      | some old => simp [claim] at hfault
      | none =>
          cases hcatch : ways.catchAll? with
          | none => simp [claim, hcatch] at hfault
          | some mount =>
              obtain ⟨name, old, existing'⟩ := mount
              simp only [claim, Option.isSome_none, Bool.false_eq_true, ↓reduceIte, hcatch] at hfault
              cases hfault
              exact names_of_catchAll? hsound hcatch (partAtOnce_nil_right _) bare

/-- A catch-all that meets another way, or a route that ends where it begins. -/
theorem mount_names {w : Token} {back : List Token} (hsound : node.Sound above)
    (hnoted : node.Noted above) (hnone : node.ways.wildcard? = none)
    (hgoes : GoesOnWild rest w back)
    (hfault : mountFault? above rest node = some (.catchAllConflict path existing)) :
    Names above node.entries (node.ways.Bare above existing) (tokens rest) existing := by
  cases node with
  | mk held pattern priority ways =>
      rw [mountFault?] at hfault
      split at hfault
      · next hstar =>
          have hcatch := hgoes.star.mpr hstar
          rw [hgoes.tokens_eq]
          cases ways with
          | none =>
              cases held with
              | none => simp [Ways.firstPattern?] at hfault
              | some old =>
                  have hpattern : pattern = above := (sound_mk.mp hsound).1.named rfl
                  simp only [Ways.firstPattern?, Option.isSome_some, ↓reduceIte, hpattern] at hfault
                  cases hfault
                  have hself : Entry.written above ⟨[], old⟩ = above := Entry.written_eq_iff.mpr rfl
                  refine ⟨⟨[], old⟩, by simp, ?_, ?_, Or.inl hself.symm⟩
                  · exact (partAtOnce_nil_left _).catchAllClashTokens_iff.mpr
                      (Or.inr ⟨w, rfl, hcatch⟩)
                  · simp [hself]
          | literal label next others =>
              cases hfault
              obtain ⟨hlabel, hnext, -, -⟩ := Ways.sound_literal.mp hsound.ways
              have hnextNoted := (Ways.noted_literal.mp hnoted.ways).1
              obtain ⟨entry, hentry, hbegins, horigin⟩ := hnextNoted.names hnext
              rw [← Entry.written_under_label] at hbegins horigin
              refine ⟨entry.under (label.map .char), ?_, ?_, hbegins, ?_⟩
              · rw [entries_mk, Ways.entries_literal]
                exact List.mem_append_right _ (List.mem_append_left _ (List.mem_map_of_mem hentry))
              · obtain ⟨c, label, rfl⟩ := List.exists_cons_of_ne_nil hlabel.ne_nil
                have hne : Token.char c ≠ w := by
                  rintro rfl
                  contradiction
                exact (partAtOnce_of_ne hne _ back).catchAllClashTokens_iff.mpr
                  (Or.inr ⟨w, rfl, hcatch⟩)
              · exact horigin.imp_right (Or.imp_right fun h => Ways.bare_literal.mpr (Or.inl h))
          | param name next => simp [Node.ways, Ways.wildcard?] at hnone
          | catchAll name value' pattern' => simp [Node.ways, Ways.wildcard?] at hnone
      · contradiction

theorem sprout_names (hsound : node.Sound above) (hnoted : node.Noted above)
    (hfollows : Follows above rest) (hne : rest ≠ [])
    (hfault : (sprout above value rest node).2 = .error (.catchAllConflict path existing)) :
    Names above node.entries (node.ways.Bare above existing) (tokens rest) existing := by
  rcases hfollows.first hne with ⟨c, back, hhead, hplain, htokens⟩ | ⟨w, back, hgoes⟩
  · cases node with
    | mk held pattern priority ways =>
        simp only [sprout, hhead, Option.any_some, hplain, Bool.false_eq_true, ↓reduceIte] at hfault
        cases hcatch : ways.catchAll? with
        | none => simp [hcatch] at hfault
        | some mount =>
            obtain ⟨name, old, existing'⟩ := mount
            rw [hcatch] at hfault
            cases hfault
            rw [htokens]
            exact names_of_catchAll? hsound hcatch (partAtOnce_of_ne (by simp) _ _) _
  · rw [sprout_of_isMark value node hgoes.mark] at hfault
    cases hwild : node.ways.wildcard? with
    | some wild =>
        rw [hwild] at hfault
        simp only [wildcardFault] at hfault
        split at hfault <;> cases hfault
    | none =>
        rw [hwild] at hfault
        cases hmount : mountFault? above rest node with
        | none => simp [hmount] at hfault
        | some fault =>
            simp only [hmount, Except.error.injEq] at hfault
            exact mount_names hsound hnoted hwild hgoes (hmount.trans (congrArg some hfault))

theorem place_names (hsound : node.Sound above) (hnoted : node.Noted above)
    (hfollows : Follows above rest)
    (hfault : (place above value rest node).2 = .error (.catchAllConflict path existing)) :
    Names above node.entries (node.ways.Bare above existing) (tokens rest) existing := by
  rw [place] at hfault
  split at hfault
  · next hrest =>
      rw [hrest, tokens_nil]
      exact claim_names hsound hfault _
  · next hrest => exact sprout_names hsound hnoted hfollows hrest hfault

theorem along_names {label : Text} {descend : Text → Node α × Except RouteError Unit}
    (hlabel : Label label) (hsound : node.Sound (above ++ label))
    (hnoted : node.Noted (above ++ label)) (hfollows : Follows above rest)
    (hhead : label.head? = rest.head?)
    (hdescend : ∀ deeper, Follows (above ++ label) deeper →
      (descend deeper).2 = .error (.catchAllConflict path existing) →
      Names (above ++ label) node.entries (node.ways.Bare (above ++ label) existing)
        (tokens deeper) existing)
    (hfault : (along above value rest label node descend).2.2
      = .error (.catchAllConflict path existing)) :
    Names above (node.entries.map (Entry.under (label.map .char)))
      (node.Bare (above ++ label) existing) (tokens rest) existing := by
  rcases along_cases above value node descend hhead with ⟨deeper, rfl, halong⟩
    | ⟨front, tail, deeper, rfl, rfl, -, htail, hparted, halong⟩
  · rw [follows_append_iff hlabel.plain] at hfollows
    rw [halong] at hfault
    rw [tokens_append hlabel.plain]
    apply Names.under (flatMap_write_char label)
    exact (hdescend deeper hfollows hfault).mono (List.Subset.refl _)
      fun h => bare_iff.mpr (Or.inr h)
  · have hfront : Plain front := hlabel.plain.left
    rw [follows_append_iff hfront] at hfollows
    rw [halong] at hfault
    have hnames := place_names (split_sound _ ⟨htail, hlabel.plain.right⟩ hsound)
      (split_noted hnoted) hfollows hfault
    have hunder := hnames.under (flatMap_write_char front)
    rw [entries_split, List.map_map, Entry.under_comp_under, ← List.map_append,
      ← tokens_append hfront] at hunder
    apply hunder.mono (List.Subset.refl _)
    intro hbare
    rw [split, Node.ways, Ways.bare_literal, List.append_assoc] at hbare
    exact hbare.resolve_right Ways.bare_none

end Node

-- Induction on the tree, along the way of the pattern to the place of the conflict.
mutual

theorem Node.insert_names {node : Node α} :
    ∀ {above rest path existing : Text} {value : α}, node.Sound above → node.Noted above →
      Follows above rest →
      (node.insert above value rest).2 = .error (.catchAllConflict path existing) →
      Names above node.entries (node.ways.Bare above existing) (tokens rest) existing := by
  intro above rest path existing value hsound hnoted hfollows hfault
  cases node with
  | mk held pattern priority ways =>
      rcases Node.insert_cases above value rest held pattern priority ways with
        ⟨-, -, hinsert⟩ | ⟨ways', result, -, hfollow, hinsert⟩
      · rw [hinsert] at hfault
        exact Node.place_names hsound hnoted hfollows hfault
      · rw [hinsert] at hfault
        cases hfault
        have hnames := Ways.follow_names hsound.ways hnoted.ways hfollows hfollow
        exact hnames.mono (fun entry hentry => Node.mem_entries_of_mem_ways hentry) id

theorem Ways.follow_names {ways : Ways α} :
    ∀ {above rest path existing : Text} {value : α} {ways' : Ways α}, ways.Sound above →
      ways.Noted above → Follows above rest →
      ways.follow above value rest = some (ways', .error (.catchAllConflict path existing)) →
      Names above ways.entries (ways.Bare above existing) (tokens rest) existing := by
  intro above rest path existing value ways' hways hnoted hfollows hfollow
  cases ways with
  | none => simp [Ways.follow] at hfollow
  | literal label next others =>
      obtain ⟨hlabel, hnext, hothers, -⟩ := Ways.sound_literal.mp hways
      obtain ⟨hnextNoted, hothersNoted⟩ := Ways.noted_literal.mp hnoted
      rw [Ways.entries_literal]
      rcases Ways.follow_literal_eq_some hfollow with
        ⟨hhead, -, hfault⟩ | ⟨-, others', hothersFollow, -⟩
      · have hnames := Node.along_names hlabel hnext hnextNoted hfollows hhead
          (fun deeper hdeeper => Node.insert_names hnext hnextNoted hdeeper) hfault.symm
        exact hnames.mono (List.subset_append_left _ _)
          fun h => Ways.bare_literal.mpr (Or.inl h)
      · have hnames := Ways.follow_names hothers hothersNoted hfollows hothersFollow
        exact hnames.mono (List.subset_append_right _ _)
          fun h => Ways.bare_literal.mpr (Or.inr h)
  | param name next =>
      obtain ⟨hname, hnext, -⟩ := Ways.sound_param.mp hways
      obtain ⟨deeper, rfl, hends, hdeeper, -, hfault⟩ :=
        Ways.follow_param_eq_some hname hfollows hfollow
      have hwritten : [Token.param name].flatMap Token.write = ':' :: name := List.append_nil _
      have hnames := (Node.insert_names hnext (Ways.noted_param.mp hnoted) hdeeper
        hfault.symm).under hwritten
      rw [List.singleton_append, ← tokens_param hname.no_slash hends] at hnames
      rw [Ways.entries_param]
      exact hnames.mono (List.Subset.refl _)
        fun h => Ways.bare_param.mpr (Node.bare_iff.mpr (Or.inr h))
  | catchAll name value' pattern => simp [Ways.follow] at hfollow

end

namespace Tree

theorem Sound.ne_nil_of_mem_patterns {tree : Tree α} (hsound : tree.Sound) :
    ∀ pattern ∈ tree.patterns, pattern ≠ [] := by
  intro pattern hpattern
  cases tree with
  | empty => contradiction
  | root label node =>
      obtain ⟨hlabel, -, hnode⟩ := hsound
      rw [patterns, hnode.patterns_eq, List.mem_map] at hpattern
      obtain ⟨entry, -, rfl⟩ := hpattern
      simp [Entry.written, hlabel.ne_nil]

/-- A front that leads to a place where no route ends is not the pattern of a route. -/
theorem Bare.not_mem_patterns {tree : Tree α} {front : Text} (hbare : tree.Bare front)
    (hsound : tree.Sound) : front ∉ tree.patterns := by
  cases tree with
  | empty => exact fun _ => hbare
  | root label node =>
      have hnode := hsound.2.2
      rw [patterns, hnode.patterns_eq, List.mem_map]
      rintro ⟨entry, hentry, hwritten⟩
      exact Node.Bare.written_ne hnode hbare entry hentry hwritten

theorem insert_names {tree : Tree α} {q path existing : Text} {value : α} (hsound : tree.Sound)
    (hnoted : tree.Noted)
    (hfault : (tree.insert q value).2 = .error (.catchAllConflict path existing)) :
    path = q ∧ Names [] tree.entries (tree.Bare existing) (tokens q) existing := by
  cases hcheck : Pattern.check q with
  | error fault =>
      simp only [insert, hcheck] at hfault
      cases hfault
      cases Pattern.check_eq_error_iff.mp hcheck with
      | element rooted elements sound found =>
          rw [Pattern.elementFault?] at found
          split at found
          · contradiction
          · split_ifs at found <;> cases found
  | ok _ =>
      refine ⟨(insert_judges value hsound hcheck).concerns _ hfault, ?_⟩
      obtain ⟨hslash, hfollows⟩ := follows_of_check hcheck
      simp only [insert, hcheck] at hfault
      cases tree with
      | empty => contradiction
      | root label node =>
          obtain ⟨hlabel, hhead, hnode⟩ := hsound
          have hnode : node.Sound ([] ++ label) := hnode
          have hnodeNoted : node.Noted ([] ++ label) := hnoted
          exact Node.along_names hlabel hnode hnodeNoted hfollows (hhead.trans hslash.symm)
            (fun deeper hdeeper => Node.insert_names hnode hnodeNoted hdeeper) hfault

/-- A catch-all conflict quotes what some route that stands in the way begins with. It names a
route that stands in the way unless it quotes nothing, or the front of a place where no route
ends. -/
theorem ofHistory_catchAllConflict_names_iff (history : List (Text × α)) {q path existing : Text}
    {value : α}
    (hrefused : ((ofHistory history).insert q value).2 = .error (.catchAllConflict path existing)) :
    path = q
      ∧ (∃ p ∈ (ofHistory history).patterns, existing <+: p ∧ CatchAllClash p q)
      ∧ (existing ∈ (ofHistory history).patterns ∧ CatchAllClash existing q
        ↔ existing ≠ [] ∧ ¬ (ofHistory history).Bare existing) := by
  have hholds := holds_ofHistory history
  obtain ⟨hpath, entry, hentry, hclash, hbegins, horigin⟩ :=
    insert_names hholds.sound (ofHistory_noted history) hrefused
  obtain ⟨route, -, rfl⟩ := hholds.mem_entries_iff.mp hentry
  have hwritten : (Entry.ofRoute route).written [] = route.1 := by
    simp [Entry.written, Entry.ofRoute, flatMap_write_tokens]
  have hlisted : route.1 ∈ (ofHistory history).patterns := by
    rw [hholds.sound.patterns_eq, ← hwritten]
    exact List.mem_map_of_mem hentry
  rw [hwritten] at hbegins horigin
  refine ⟨hpath, ⟨route.1, hlisted, hbegins, hclash⟩, ?_, ?_⟩
  · rintro ⟨hmem, -⟩
    exact ⟨hholds.sound.ne_nil_of_mem_patterns existing hmem,
      fun hbare => hbare.not_mem_patterns hholds.sound hmem⟩
  · rintro ⟨hsome, hended⟩
    rcases horigin with rfl | hnil | hbare
    · exact ⟨hlisted, hclash⟩
    · exact (hsome hnil).elim
    · exact (hended hbare).elim

/-- A single route that goes on from the first label with a parameter. -/
def lodging : List (Text × Nat) :=
  [("/abc/:id".toList, 1)]

/-- A catch-all in front of the parameter is told to conflict with a route without a pattern: the
first place of the tree, which the label leads to, notes none. -/
theorem lodging_catchAllConflict_unnamed :
    ((ofHistory lodging).insert "/*w".toList 2).2 = .error (.catchAllConflict "/*w".toList [])
      ∧ (∃ p ∈ (ofHistory lodging).patterns, [] <+: p ∧ CatchAllClash p "/*w".toList)
      ∧ ¬ ([] ∈ (ofHistory lodging).patterns ∧ CatchAllClash [] "/*w".toList) := by
  have hrefused : ((ofHistory lodging).insert "/*w".toList 2).2
      = .error (.catchAllConflict "/*w".toList []) := by
    decide +kernel
  obtain ⟨-, hstands, hnames⟩ := ofHistory_catchAllConflict_names_iff lodging hrefused
  exact ⟨hrefused, hstands, fun h => (hnames.mp h).1 rfl⟩

-- A label that two routes share is cut where they part, and the place there notes the shared front.
example :
    ((ofHistory [("/ab".toList, 1), ("/ac".toList, 2)]).insert "/*w".toList 3).2
      = .error (.catchAllConflict "/*w".toList "/a".toList) := by
  decide +kernel

end Tree

end RadixRouter
