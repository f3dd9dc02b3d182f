import RadixRouter.Proofs.Pattern.Match
import RadixRouter.Proofs.Tree.First
import RadixRouter.Proofs.Tree.History
import RadixRouter.Tree.Lookup

/-!
What a look-up finds in a sound tree: a route that matches, and that is more specific than every
other one that does; a miss means that no route matches.
-/

namespace RadixRouter

open Pattern

variable {α : Type}

/-- What the answer of a look-up of `path` says about the routes it was made among. -/
def Lookup.Answers (entries : List (Entry α)) (path : Text) : Lookup α → Prop
  | .hit value params =>
      ∃ entry ∈ entries, entry.value = value ∧ bind? entry.tokens path = some params
        ∧ ∀ other ∈ entries, other ≠ entry → MatchesTokens other.tokens path →
          MoreSpecificTokens entry.tokens other.tokens
  | .miss _ => ∀ entry ∈ entries, ¬ MatchesTokens entry.tokens path

namespace Lookup.Answers

variable {entries others : List (Entry α)} {path : Text} {lookup : Lookup α}

/-- Behind a label the same routes are found. -/
theorem under_label (label : Text) {rest : Text} (h : Answers entries rest lookup) :
    Answers (entries.map (Entry.under (label.map .char))) (label ++ rest) lookup := by
  have hmatch : ∀ tokens : List Token,
      bind? (label.map .char ++ tokens) (label ++ rest) = bind? tokens rest := by
    intro tokens
    rw [bind?_chars, Text.after?_eq_some_iff.mpr rfl]
    rfl
  cases lookup with
  | hit value params =>
      obtain ⟨entry, hentry, hvalue, hbind, hbest⟩ := h
      refine ⟨entry.under _, List.mem_map_of_mem hentry, hvalue, (hmatch _).trans hbind, ?_⟩
      intro other hother hne hmatches
      obtain ⟨inner, hinner, rfl⟩ := List.mem_map.mp hother
      rw [Entry.under_tokens, MatchesTokens, hmatch] at hmatches
      exact (hbest inner hinner (fun heq => hne (heq ▸ rfl)) hmatches).append _
  | miss slash =>
      intro other hother hmatches
      obtain ⟨inner, hinner, rfl⟩ := List.mem_map.mp hother
      rw [Entry.under_tokens, MatchesTokens, hmatch] at hmatches
      exact h inner hinner hmatches

/-- Behind a parameter the same routes are found, with one binding more. -/
theorem under_param (name : Text) (hsegment : Text.upTo '/' path ≠ [])
    (h : Answers entries (Text.fromNext '/' path) lookup) :
    Answers (entries.map (Entry.under [.param name])) path
      (lookup.bind name (Text.upTo '/' path)) := by
  cases lookup with
  | hit value params =>
      obtain ⟨entry, hentry, hvalue, hbind, hbest⟩ := h
      refine ⟨entry.under _, List.mem_map_of_mem hentry, hvalue, ?_, ?_⟩
      · simp [bind?_param, hsegment, hbind]
      · intro other hother hne hmatches
        obtain ⟨inner, hinner, rfl⟩ := List.mem_map.mp hother
        have hinnerMatches := (matchesTokens_param.mp hmatches).2
        exact (hbest inner hinner (fun heq => hne (heq ▸ rfl)) hinnerMatches).append _
  | miss slash =>
      intro other hother hmatches
      obtain ⟨inner, hinner, rfl⟩ := List.mem_map.mp hother
      exact h inner hinner (matchesTokens_param.mp hmatches).2

/-- The second look-up counts when the first one misses. -/
theorem orElse {next : Unit → Lookup α} (hfirst : Answers entries path lookup)
    (hsecond : Answers others path (next ()))
    (hbetter : ∀ entry ∈ entries, ∀ other ∈ others, MatchesTokens entry.tokens path →
      MatchesTokens other.tokens path → MoreSpecificTokens entry.tokens other.tokens) :
    Answers (entries ++ others) path (lookup.orElse next) := by
  cases lookup with
  | hit value params =>
      obtain ⟨entry, hentry, hvalue, hbind, hbest⟩ := hfirst
      refine ⟨entry, List.mem_append_left _ hentry, hvalue, hbind, ?_⟩
      intro other hother hne hmatches
      rcases List.mem_append.mp hother with hother | hother
      · exact hbest other hother hne hmatches
      · exact hbetter entry hentry other hother (by simp [MatchesTokens, hbind]) hmatches
  | miss slash =>
      rw [Lookup.orElse]
      cases hnext : next () with
      | hit value params =>
          rw [hnext] at hsecond
          obtain ⟨entry, hentry, hvalue, hbind, hbest⟩ := hsecond
          refine ⟨entry, List.mem_append_right _ hentry, hvalue, hbind, ?_⟩
          intro other hother hne hmatches
          rcases List.mem_append.mp hother with hother | hother
          · exact (hfirst other hother hmatches).elim
          · exact hbest other hother hne hmatches
      | miss slash' =>
          rw [hnext] at hsecond
          intro other hother
          rcases List.mem_append.mp hother with hother | hother
          · exact hfirst other hother
          · exact hsecond other hother

/-- Routes that do not match make no difference. -/
theorem prepend {front : List (Entry α)} (h : Answers entries path lookup)
    (hfront : ∀ entry ∈ front, ¬ MatchesTokens entry.tokens path) :
    Answers (front ++ entries) path lookup := by
  cases lookup with
  | hit value params =>
      obtain ⟨entry, hentry, hvalue, hbind, hbest⟩ := h
      refine ⟨entry, List.mem_append_right _ hentry, hvalue, hbind, ?_⟩
      intro other hother hne hmatches
      rcases List.mem_append.mp hother with hother | hother
      · exact (hfront other hother hmatches).elim
      · exact hbest other hother hne hmatches
  | miss slash =>
      intro other hother
      rcases List.mem_append.mp hother with hother | hother
      · exact hfront other hother
      · exact h other hother

end Lookup.Answers

/-! ### Along the tree -/

theorem Lookup.along_answers {label path : Text} {node : Node α} {deeper : Text → Lookup α}
    (hdeeper : ∀ rest, Answers node.entries rest (deeper rest)) :
    Answers (node.entries.map (Entry.under (label.map .char))) path
      (along label node path deeper) := by
  unfold along
  split
  · next rest hafter =>
      rw [Text.after?_eq_some_iff.mp hafter]
      exact (hdeeper rest).under_label label
  · next hafter =>
      intro other hother hmatches
      obtain ⟨inner, hinner, rfl⟩ := List.mem_map.mp hother
      obtain ⟨rest, hpath, -⟩ := matchesTokens_chars.mp hmatches
      simp [Text.after?_eq_some_iff.mpr hpath] at hafter

/-- A route along a label is more specific than any along the other ways. -/
theorem Ways.Fork.moreSpecific {above label path : Text} {next : Node α} {others : Ways α}
    (hlabel : Label label) (hothers : others.Sound above) (hfork : Fork label next others)
    {tokens : List Token} {other : Entry α} (hother : other ∈ others.entries)
    (hmatches : MatchesTokens (label.map .char ++ tokens) path)
    (hotherMatches : MatchesTokens other.tokens path) :
    MoreSpecificTokens (label.map .char ++ tokens) other.tokens := by
  obtain ⟨rest, rfl, -⟩ := matchesTokens_chars.mp hmatches
  cases label with
  | nil => exact (hlabel.ne_nil rfl).elim
  | cons c label =>
      obtain ⟨token, back, heq, hbegins⟩ := hothers.first_of_mem other hother
      rcases hbegins with ⟨d, hd, rfl⟩ | ⟨hwild, -⟩
      · -- The path begins with one character only, and that is not shared.
        rw [heq] at hotherMatches
        have hother : MatchesTokens ([d].map .char ++ back) (c :: label ++ rest) := hotherMatches
        obtain ⟨rest', hpath, -⟩ := matchesTokens_chars.mp hother
        have hcd : c = d := by
          simpa using congrArg List.head? hpath
        exact (hfork.apart c rfl (hcd ▸ hd)).elim
      · rw [heq]
        exact moreSpecificTokens_char c hwild _ _

/-- The empty rest of a path matches along sound ways nothing but a catch-all. -/
theorem Ways.Sound.of_matches_nil {ways : Ways α} :
    ∀ {above : Text}, ways.Sound above → ∀ entry ∈ ways.entries, MatchesTokens entry.tokens [] →
      ∃ name pattern, ways.catchAll? = some (name, entry.value, pattern)
        ∧ entry.tokens = [.catchAll name] := by
  intro above hways entry hentry hmatches
  cases ways with
  | none => simp at hentry
  | literal label next others =>
      obtain ⟨hlabel, -, hothers, -⟩ := Ways.sound_literal.mp hways
      rw [Ways.entries_literal] at hentry
      rcases List.mem_append.mp hentry with hentry | hentry
      · obtain ⟨inner, -, rfl⟩ := List.mem_map.mp hentry
        obtain ⟨rest, hpath, -⟩ := matchesTokens_chars.mp hmatches
        exact (hlabel.ne_nil (List.append_eq_nil_iff.mp hpath.symm).1).elim
      · exact Ways.Sound.of_matches_nil hothers entry hentry hmatches
  | param name next =>
      rw [Ways.entries_param] at hentry
      obtain ⟨inner, -, rfl⟩ := List.mem_map.mp hentry
      exact ((matchesTokens_param.mp hmatches).1 rfl).elim
  | catchAll name value pattern =>
      rw [Ways.entries_catchAll, List.mem_singleton] at hentry
      exact ⟨name, pattern, by simp [Ways.catchAll?, hentry], by rw [hentry]⟩

/-- The empty rest of a path at a sound place. -/
theorem Node.lookup_nil_answers {above : Text} {node : Node α} (hsound : node.Sound above) :
    Lookup.Answers node.entries [] (node.lookup []) := by
  cases node with
  | mk held pattern priority ways =>
      obtain ⟨hfields, hways⟩ := Node.sound_mk.mp hsound
      cases held with
      | some value =>
          refine ⟨⟨[], value⟩, by simp, rfl, rfl, ?_⟩
          intro other hother hne hmatches
          rw [Node.entries_mk] at hother
          rcases List.mem_append.mp hother with hother | hother
          · simp only [Option.toList_some, List.map_cons, List.map_nil,
              List.mem_singleton] at hother
            exact (hne hother).elim
          · obtain ⟨name, existing, hcatch, -⟩ := hways.of_matches_nil other hother hmatches
            simpa using (hfields.mount (by simp [hcatch])).1
      | none =>
          simp only [Node.entries_mk, Option.toList_none, List.map_nil, List.nil_append]
          rw [Node.lookup]
          cases hcatch : ways.catchAll? with
          | some existing =>
              obtain ⟨name, value, pattern'⟩ := existing
              refine ⟨_, Ways.mem_entries_of_catchAll? hcatch, rfl, bind?_catchAll name [], ?_⟩
              intro other hother hne hmatches
              obtain ⟨name', _, hcatch', htokens⟩ := hways.of_matches_nil other hother hmatches
              rw [hcatch] at hcatch'
              cases other
              simp_all
          | none =>
              intro other hother hmatches
              obtain ⟨name, existing, hsome, -⟩ := hways.of_matches_nil other hother hmatches
              simp [hcatch] at hsome

-- Induction on the tree: the answer of a place is put together from those along its ways.
mutual

theorem Node.lookup_answers {node : Node α} :
    ∀ {above : Text} (path : Text), node.Sound above →
      Lookup.Answers node.entries path (node.lookup path) := by
  intro above path hsound
  cases path with
  | nil => exact Node.lookup_nil_answers hsound
  | cons c rest =>
      cases node with
      | mk held pattern priority ways =>
          have hways := (Node.sound_mk.mp hsound).2
          have hanswers : Lookup.Answers (ways.entries ++ []) (c :: rest)
              ((ways.lookup (c :: rest)).orElse fun _ =>
                .miss (c :: rest = ['/'] && held.isSome)) :=
            (Ways.lookup_answers (c :: rest) hways (by simp)).orElse
              (by simp [Lookup.Answers]) (by simp)
          rw [List.append_nil] at hanswers
          rw [Node.entries_mk, Node.lookup]
          exact hanswers.prepend (by simp)

theorem Ways.lookup_answers {ways : Ways α} :
    ∀ {above : Text} (path : Text), ways.Sound above → path ≠ [] →
      Lookup.Answers ways.entries path (ways.lookup path) := by
  intro above path hways hne
  cases ways with
  | none => simp [Ways.lookup, Lookup.Answers]
  | literal label next others =>
      obtain ⟨hlabel, hnext, hothers, hfork⟩ := Ways.sound_literal.mp hways
      rw [Ways.entries_literal, Ways.lookup]
      apply Lookup.Answers.orElse
      · exact Lookup.along_answers fun rest => Node.lookup_answers rest hnext
      · exact Ways.lookup_answers path hothers hne
      · intro entry hentry other hother hmatches hotherMatches
        obtain ⟨inner, -, rfl⟩ := List.mem_map.mp hentry
        exact hfork.moreSpecific hlabel hothers hother hmatches hotherMatches
  | param name next =>
      obtain ⟨hname, hnext, hafter⟩ := Ways.sound_param.mp hways
      rw [Ways.entries_param, Ways.lookup]
      by_cases hsegment : Text.upTo '/' path = []
      · rw [if_pos hsegment]
        intro other hother hmatches
        obtain ⟨inner, -, rfl⟩ := List.mem_map.mp hother
        exact (matchesTokens_param.mp hmatches).1 hsegment
      · rw [if_neg hsegment]
        exact (Node.lookup_answers _ hnext).under_param name hsegment
  | catchAll name value pattern =>
      rw [Ways.entries_catchAll, Ways.lookup]
      refine ⟨_, List.mem_singleton_self _, rfl, bind?_catchAll name path, ?_⟩
      intro other hother hne
      exact (hne (List.mem_singleton.mp hother)).elim

end

theorem Tree.lookup_answers {tree : Tree α} (path : Text) (hsound : tree.Sound) :
    Lookup.Answers tree.entries path (tree.lookup path) := by
  cases tree with
  | empty => simp [Tree.lookup, Tree.entries, Lookup.Answers]
  | root label node =>
      exact Lookup.along_answers fun rest => Node.lookup_answers rest hsound.2.2

end RadixRouter
