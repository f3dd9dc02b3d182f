import RadixRouter.Proofs.Tree.Resolution

/-!
The hint of a look-up that misses: it is given if and only if some route matches the path with one
slash added or removed at its end.
-/

namespace RadixRouter

open Pattern

variable {α : Type}

namespace Pattern

/-- Whether `path` matches the tokens once a slash is added or removed at its end. -/
def MatchesSlashed (tokens : List Token) (path : Text) : Prop :=
  MatchesTokens tokens (path ++ ['/']) ∨ ∃ front, path = front ++ ['/'] ∧ MatchesTokens tokens front

variable {tokens : List Token} {label path rest name : Text}

theorem matchesSlashed_nil_path : MatchesSlashed tokens [] ↔ MatchesTokens tokens ['/'] := by
  simp [MatchesSlashed]

theorem matchesSlashed_nil : MatchesSlashed [] path ↔ path = ['/'] := by
  simp [MatchesSlashed]

theorem matchesSlashed_chars :
    MatchesSlashed (label.map .char ++ tokens) (label ++ rest) ↔ MatchesSlashed tokens rest := by
  simp only [MatchesSlashed, matchesTokens_chars, List.append_assoc, List.append_cancel_left_eq,
    exists_eq_left']
  constructor
  · rintro (hadded | ⟨front, heq, inner, rfl, hmatches⟩)
    · exact Or.inl hadded
    · rw [List.append_assoc, List.append_cancel_left_eq] at heq
      exact Or.inr ⟨inner, heq, hmatches⟩
  · rintro (hadded | ⟨inner, rfl, hmatches⟩)
    · exact Or.inl hadded
    · exact Or.inr ⟨label ++ inner, (List.append_assoc ..).symm, inner, rfl, hmatches⟩

/-- A path that does not begin with the label can lack no more than the label's last slash. -/
theorem matchesSlashed_chars_of_not_after (hafter : ∀ rest, path ≠ label ++ rest) :
    MatchesSlashed (label.map .char ++ tokens) path
      ↔ label = path ++ ['/'] ∧ MatchesTokens tokens [] := by
  simp only [MatchesSlashed, matchesTokens_chars]
  constructor
  · rintro (⟨inner, heq, hmatches⟩ | ⟨front, rfl, inner, rfl, -⟩)
    · rcases List.eq_nil_or_concat inner with rfl | ⟨inner, c, rfl⟩
      · exact ⟨by simpa using heq.symm, hmatches⟩
      · rw [List.concat_eq_append, ← List.append_assoc] at heq
        exact (hafter inner (List.append_inj_left' heq rfl)).elim
    · exact (hafter (inner ++ ['/']) (List.append_assoc ..)).elim
  · rintro ⟨rfl, hmatches⟩
    exact Or.inl ⟨[], by simp, hmatches⟩

theorem matchesSlashed_param :
    MatchesSlashed (.param name :: tokens) path
      ↔ Text.upTo '/' path ≠ [] ∧ MatchesSlashed tokens (Text.fromNext '/' path) := by
  simp only [MatchesSlashed, matchesTokens_param, Text.upTo_concat, Text.fromNext_concat]
  constructor
  · rintro (⟨hsegment, hadded⟩ | ⟨front, rfl, hsegment, hmatches⟩)
    · exact ⟨hsegment, Or.inl hadded⟩
    · rw [Text.upTo_concat, Text.fromNext_concat]
      exact ⟨hsegment, Or.inr ⟨_, rfl, hmatches⟩⟩
  · rintro ⟨hsegment, hadded | ⟨inner, heq, hmatches⟩⟩
    · exact Or.inl ⟨hsegment, hadded⟩
    · have hpath : path = (Text.upTo '/' path ++ inner) ++ ['/'] := by
        rw [List.append_assoc, ← heq, Text.upTo_append_fromNext]
      have hinner : inner = Text.fromNext '/' (Text.upTo '/' path ++ inner) := by
        have hrest := congrArg (Text.fromNext '/') hpath
        rw [Text.fromNext_concat, heq] at hrest
        exact List.append_cancel_right hrest
      have hfront : Text.upTo '/' path = Text.upTo '/' (Text.upTo '/' path ++ inner) := by
        have hfront := congrArg (Text.upTo '/') hpath
        rwa [Text.upTo_concat] at hfront
      exact Or.inr ⟨_, hpath, hfront ▸ hsegment, hinner ▸ hmatches⟩

end Pattern

/-- A place terminates a path if and only if one of its routes matches the empty rest. -/
theorem Node.terminates_iff {above : Text} {node : Node α} (hsound : node.Sound above) :
    node.terminates = true ↔ ∃ entry ∈ node.entries, MatchesTokens entry.tokens [] := by
  have hanswers := Node.lookup_nil_answers hsound
  cases node with
  | mk held pattern priority ways =>
      cases held with
      | some value => simp [terminates, Node.value]
      | none =>
          rw [Node.lookup] at hanswers
          cases hcatch : ways.catchAll? with
          | some existing =>
              obtain ⟨name, value, pattern'⟩ := existing
              have hentry := Ways.mem_entries_of_catchAll? hcatch
              simp only [terminates, Node.ways, hcatch, Option.isSome_some, Bool.or_true, true_iff]
              exact ⟨_, by simpa using hentry, matchesTokens_catchAll⟩
          | none =>
              simp only [hcatch, Lookup.Answers] at hanswers
              simpa [terminates, Node.value, Node.ways, hcatch] using hanswers

/-- A slash alone matches a route along a label if and only if the label is a slash and the place it
leads to terminates a path. -/
theorem Node.matches_slash_along_iff {above label : Text} {next : Node α}
    (hnext : next.Sound above) (hlabel : label ≠ []) :
    (∃ entry ∈ next.entries, MatchesTokens (label.map .char ++ entry.tokens) ['/'])
      ↔ label = ['/'] ∧ next.terminates = true := by
  simp only [matchesTokens_chars, Node.terminates_iff hnext]
  constructor
  · rintro ⟨entry, hentry, rest, heq, hmatches⟩
    rcases List.append_eq_singleton_iff.mp heq.symm with ⟨hnil, -⟩ | ⟨hslash, rfl⟩
    · exact (hlabel hnil).elim
    · exact ⟨hslash, entry, hentry, hmatches⟩
  · rintro ⟨rfl, entry, hentry, hmatches⟩
    exact ⟨entry, hentry, [], rfl, hmatches⟩

/-- Beside no catch-all a slash leaf is the only thing that a slash alone matches. -/
theorem Ways.hasSlashLeaf_iff {ways : Ways α} : ∀ {above : Text}, ways.Sound above →
    ways.catchAll? = Option.none →
    (ways.hasSlashLeaf = true ↔ ∃ entry ∈ ways.entries, MatchesTokens entry.tokens ['/']) := by
  intro above hways hcatch
  cases ways with
  | none => simp [hasSlashLeaf]
  | literal label next others =>
      obtain ⟨hlabel, hnext, hothers, -⟩ := sound_literal.mp hways
      rw [hasSlashLeaf, entries_literal, Bool.or_eq_true, Bool.and_eq_true, decide_eq_true_eq,
        ← Node.matches_slash_along_iff hnext hlabel.ne_nil, hasSlashLeaf_iff hothers hcatch]
      simp only [List.mem_append, List.mem_map, or_and_right, exists_or, exists_exists_and_eq_and,
        Entry.under_tokens]
  | param name next => simp [hasSlashLeaf, matchesTokens_param, Text.upTo]
  | catchAll name value pattern => simp [catchAll?] at hcatch

/-- Where no path is terminated, a slash leaf is the only thing that a slash alone matches. -/
theorem Node.hasSlashLeaf_iff {above : Text} {node : Node α} (hsound : node.Sound above)
    (hopen : ¬ node.terminates = true) :
    node.ways.hasSlashLeaf = true ↔ ∃ entry ∈ node.entries, MatchesTokens entry.tokens ['/'] := by
  cases node with
  | mk held pattern priority ways =>
      obtain ⟨rfl, hcatch⟩ : held = none ∧ ways.catchAll? = none := by
        simpa [terminates, Node.value, Node.ways] using hopen
      rw [Node.entries_mk, Option.toList_none, List.map_nil, List.nil_append]
      exact Ways.hasSlashLeaf_iff hsound.ways hcatch

/-- What the hint of a look-up of `path` says about the routes it was made among. -/
def Lookup.Hints (entries : List (Entry α)) (path : Text) : Lookup α → Prop
  | .hit _ _ => True
  | .miss slash => slash = true ↔ ∃ entry ∈ entries, MatchesSlashed entry.tokens path

namespace Lookup.Hints

variable {entries others : List (Entry α)} {path : Text} {lookup : Lookup α}

theorem swap (h : Hints (entries ++ others) path lookup) :
    Hints (others ++ entries) path lookup := by
  cases lookup with
  | hit value params => trivial
  | miss slash =>
      have hiff : slash = true ↔ ∃ entry ∈ entries ++ others, MatchesSlashed entry.tokens path := h
      simpa only [Hints, List.mem_append, or_comm] using hiff

/-- A miss on both ways keeps either hint. -/
theorem orElse {next : Unit → Lookup α} (hfirst : Hints entries path lookup)
    (hsecond : Hints others path (next ())) :
    Hints (entries ++ others) path (lookup.orElse next) := by
  cases lookup with
  | hit value params => trivial
  | miss slash =>
      rw [Lookup.orElse]
      cases hnext : next () with
      | hit value params => trivial
      | miss slash' =>
          rw [hnext] at hsecond
          simp only [Hints, Bool.or_eq_true, List.mem_append, or_and_right, exists_or] at *
          rw [hfirst, hsecond]

end Lookup.Hints

theorem Lookup.along_hints {above label path : Text} {node : Node α} {deeper : Text → Lookup α}
    (hsound : node.Sound above) (hdeeper : ∀ rest, Hints node.entries rest (deeper rest)) :
    Hints (node.entries.map (Entry.under (label.map .char))) path
      (along label node path deeper) := by
  unfold along
  split
  · next rest hafter =>
      have hhint := hdeeper rest
      rw [Text.after?_eq_some_iff.mp hafter]
      cases hfound : deeper rest with
      | hit value params => trivial
      | miss slash =>
          rw [hfound] at hhint
          simpa [Hints, matchesSlashed_chars] using hhint
  · next hafter =>
      have hnot : ∀ rest, path ≠ label ++ rest := by
        intro rest hpath
        simp [Text.after?_eq_some_iff.mpr hpath] at hafter
      simp [Hints, matchesSlashed_chars_of_not_after hnot, Node.terminates_iff hsound,
        and_left_comm]

/-- The empty rest of a path at a sound place. -/
theorem Node.lookup_nil_hints {above : Text} {node : Node α} (hsound : node.Sound above) :
    Lookup.Hints node.entries [] (node.lookup []) := by
  cases node with
  | mk held pattern priority ways =>
      have hways := (Node.sound_mk.mp hsound).2
      cases held with
      | some value => trivial
      | none =>
          rw [Node.lookup]
          cases hcatch : ways.catchAll? with
          | some existing => trivial
          | none => simp [Lookup.Hints, matchesSlashed_nil_path, Ways.hasSlashLeaf_iff hways hcatch]

-- Induction on the tree: the hint of a place is put together from those along its ways.
mutual

theorem Node.lookup_hints {node : Node α} :
    ∀ {above : Text} (path : Text), node.Sound above →
      Lookup.Hints node.entries path (node.lookup path) := by
  intro above path hsound
  cases path with
  | nil => exact Node.lookup_nil_hints hsound
  | cons c rest =>
      cases node with
      | mk held pattern priority ways =>
          have hways := (Node.sound_mk.mp hsound).2
          have hheld : Lookup.Hints (held.toList.map (⟨[], ·⟩)) (c :: rest)
              (.miss (c :: rest = ['/'] && held.isSome)) := by
            cases held <;> simp [Lookup.Hints, matchesSlashed_nil]
          rw [Node.entries_mk, Node.lookup]
          exact ((Ways.lookup_hints (c :: rest) hways (by simp)).orElse hheld).swap

theorem Ways.lookup_hints {ways : Ways α} :
    ∀ {above : Text} (path : Text), ways.Sound above → path ≠ [] →
      Lookup.Hints ways.entries path (ways.lookup path) := by
  intro above path hways hne
  cases ways with
  | none => simp [Ways.lookup, Lookup.Hints]
  | literal label next others =>
      obtain ⟨-, hnext, hothers, -⟩ := Ways.sound_literal.mp hways
      rw [Ways.entries_literal, Ways.lookup]
      apply Lookup.Hints.orElse
      · exact Lookup.along_hints hnext fun rest => Node.lookup_hints rest hnext
      · exact Ways.lookup_hints path hothers hne
  | param name next =>
      have hnext := (Ways.sound_param.mp hways).2.1
      rw [Ways.entries_param, Ways.lookup]
      by_cases hsegment : Text.upTo '/' path = []
      · simp [hsegment, Lookup.Hints, matchesSlashed_param]
      · have hhint := Node.lookup_hints (Text.fromNext '/' path) hnext
        rw [if_neg hsegment]
        cases hfound : next.lookup (Text.fromNext '/' path) with
        | hit value params => trivial
        | miss slash =>
            rw [hfound] at hhint
            simpa [Lookup.bind, Lookup.Hints, matchesSlashed_param, hsegment] using hhint
  | catchAll name value pattern => trivial

end

theorem Tree.lookup_hints {tree : Tree α} (path : Text) (hsound : tree.Sound) :
    Lookup.Hints tree.entries path (tree.lookup path) := by
  cases tree with
  | empty => simp [Tree.lookup, Tree.entries, Lookup.Hints]
  | root label node =>
      have hnode := hsound.2.2
      exact Lookup.along_hints hnode fun rest => Node.lookup_hints rest hnode

/-- Whether one of the routes matches `path` with a slash added or removed at its end. -/
def Pattern.SlashMatched (routes : List (Text × α)) (path : Text) : Prop :=
  Matched routes (path ++ ['/']) ∨ ∃ front, path = front ++ ['/'] ∧ Matched routes front

/-- A miss hints at a slash if and only if a slash more or less would make a match. -/
theorem Tree.Holds.slash_iff {tree : Tree α} {routes : List (Text × α)} (h : tree.Holds routes)
    {path : Text} {slash : Bool} (hlookup : tree.lookup path = .miss slash) :
    slash = true ↔ SlashMatched routes path := by
  have hhints := Tree.lookup_hints path h.sound
  rw [hlookup] at hhints
  have hiff : slash = true ↔ ∃ entry ∈ tree.entries, MatchesSlashed entry.tokens path := hhints
  rw [hiff]
  constructor
  · rintro ⟨entry, hentry, hslashed⟩
    obtain ⟨route, hroute, rfl⟩ := h.mem_entries_iff.mp hentry
    rcases hslashed with hadded | ⟨front, heq, hmatches⟩
    · exact Or.inl ⟨route, hroute, hadded⟩
    · exact Or.inr ⟨front, heq, route, hroute, hmatches⟩
  · rintro (⟨route, hroute, hadded⟩ | ⟨front, heq, route, hroute, hmatches⟩)
    · exact ⟨_, h.mem_entries_iff.mpr ⟨route, hroute, rfl⟩, Or.inl hadded⟩
    · exact ⟨_, h.mem_entries_iff.mpr ⟨route, hroute, rfl⟩, Or.inr ⟨front, heq, hmatches⟩⟩

theorem Tree.Holds.lookup_slash_iff {tree : Tree α} {routes : List (Text × α)}
    (h : tree.Holds routes) (path : Text) :
    (tree.lookup path).slash = true ↔ ¬ Matched routes path ∧ SlashMatched routes path := by
  rw [← h.isHit_iff]
  cases hlookup : tree.lookup path with
  | hit value params => simp [Lookup.slash, Lookup.isHit, Lookup.value?]
  | miss slash => simpa [Lookup.slash, Lookup.isHit, Lookup.value?] using h.slash_iff hlookup

/-- Trees of the same routes resolve every path alike. -/
theorem Tree.Holds.lookup_eq {tree tree' : Tree α} {routes : List (Text × α)}
    (h : tree.Holds routes) (h' : tree'.Holds routes) (path : Text) :
    tree'.lookup path = tree.lookup path := by
  cases hlookup : tree.lookup path with
  | hit value params =>
      exact (h'.lookup_eq_hit_iff path value params).mpr (h.exists_mostSpecific hlookup)
  | miss slash =>
      cases hlookup' : tree'.lookup path with
      | hit value params =>
          obtain ⟨pattern, hmost⟩ := h'.exists_mostSpecific hlookup'
          exact (h.not_matches_of_miss hlookup _ hmost.mem hmost.matches_path).elim
      | miss slash' =>
          have hsame : slash' = true ↔ slash = true :=
            (h'.slash_iff hlookup').trans (h.slash_iff hlookup).symm
          rw [Bool.eq_iff_iff.mpr hsame]

/-- A look-up gives the hint if and only if it misses and would hit with one slash more or less at
the end of the path. -/
theorem Tree.ofHistory_slash_iff (history : List (Text × α)) (path : Text) :
    ((ofHistory history).lookup path).slash = true
      ↔ ((ofHistory history).lookup path).isHit = false
        ∧ (((ofHistory history).lookup (path ++ ['/'])).isHit = true
          ∨ ∃ front, path = front ++ ['/'] ∧ ((ofHistory history).lookup front).isHit = true) := by
  have hholds := holds_ofHistory history
  rw [hholds.lookup_slash_iff, ← hholds.isHit_iff, Bool.not_eq_true]
  simp only [SlashMatched, hholds.isHit_iff]

/-- The hint, said by the accepted routes: none of them matches the path, and one of them matches it
with one slash more or less at the end. -/
theorem Tree.ofHistory_slash_iff_matched (history : List (Text × α)) (path : Text) :
    ((ofHistory history).lookup path).slash = true
      ↔ ¬ Matched (routesOf history) path ∧ SlashMatched (routesOf history) path :=
  (holds_ofHistory history).lookup_slash_iff path

-- A slash to add, one to remove, one that would leave an element empty, and one behind a parameter.
example :
    let tree := Tree.ofHistory [("/a/".toList, 1), ("/b".toList, 2), ("/c/:id".toList, 3)]
    (tree.lookup "/a".toList).slash = true ∧ (tree.lookup "/b/".toList).slash = true
      ∧ (tree.lookup "/c".toList).slash = false ∧ (tree.lookup "/c/x/".toList).slash = true := by
  decide +kernel

end RadixRouter
