import RadixRouter.Proofs.Tree.Sound
import RadixRouter.Tree.Insert

/-!
The ways that a registration adds or moves: the chain that leads along what is left of a pattern,
its place behind the other labels, and the label that moves to the front of less crowded ones.
-/

namespace RadixRouter

open Pattern

variable {α : Type}

namespace Pattern

theorem cut?_of_plain {label : Text} (hplain : Plain label) : cut? label = none := by
  have hback : label.dropWhile (!isMark ·) = [] := by
    apply List.dropWhile_eq_nil_iff.mpr
    intro c hc
    simp [hplain c hc]
  rw [cut?, hback]

theorem cut?_append {label : Text} {mark : Char} (after : Text) (hplain : Plain label)
    (hmark : isMark mark = true) :
    cut? (label ++ mark :: after)
      = some ⟨label, mark, Text.upTo '/' after, Text.fromNext '/' after⟩ := by
  have hlabel : ∀ c ∈ label, (!isMark c) = true := by
    intro c hc
    simp [hplain c hc]
  have hback : (label ++ mark :: after).dropWhile (!isMark ·) = mark :: after := by
    rw [List.dropWhile_append_of_pos hlabel]
    simp [hmark]
  have hfront : (label ++ mark :: after).takeWhile (!isMark ·) = label := by
    rw [List.takeWhile_append_of_pos hlabel]
    simp [hmark]
  rw [cut?, hback, hfront]

end Pattern

namespace Ways

/-! ### Chains -/

theorem chain_of_plain {label : Text} (pattern : Text) (value : α) (hplain : Plain label) :
    chain pattern value label = literal label (.leaf pattern value) none := by
  rw [chain]
  split
  · rfl
  · next c hcut => simp [cut?_of_plain hplain] at hcut

/-- The wildcard of a cut and what follows it, as ways. -/
def wildOf (pattern : Text) (value : α) (c : Cut) : Ways α :=
  if c.mark = '*' then catchAll c.name value pattern
  else if c.rest = [] then param c.name (.leaf pattern value)
  else param c.name (.mk Option.none pattern 1 (chain pattern value c.rest))

theorem chain_of_cut? {rest : Text} {c : Cut} (pattern : Text) (value : α)
    (hcut : cut? rest = some c) :
    chain pattern value rest
      = if c.literal = [] then wildOf pattern value c
        else literal c.literal (.mk Option.none pattern 1 (wildOf pattern value c)) none := by
  rw [chain]
  split
  · next hnone => simp [hcut] at hnone
  · next c' hcut' =>
      cases hcut.symm.trans hcut'
      rfl

theorem chain_append {label after : Text} {mark : Char} (pattern : Text) (value : α)
    (hplain : Plain label) (hne : label ≠ []) (hmark : isMark mark = true) :
    chain pattern value (label ++ mark :: after)
      = literal label (.mk Option.none pattern 1 (chain pattern value (mark :: after))) none := by
  have hnone : Plain [] := by simp [Plain]
  have hwild := cut?_append after hnone hmark
  rw [List.nil_append] at hwild
  rw [chain_of_cut? pattern value (cut?_append after hplain hmark),
    chain_of_cut? pattern value hwild, if_neg hne, if_pos rfl]
  rfl

theorem chain_param {name rest : Text} (pattern : Text) (value : α) (hslash : '/' ∉ name)
    (hends : ElementEnds rest) :
    chain pattern value (':' :: (name ++ rest))
      = param name (if rest = [] then .leaf pattern value
          else .mk Option.none pattern 1 (chain pattern value rest)) := by
  have hnone : Plain [] := by simp [Plain]
  have hwild := cut?_append (name ++ rest) hnone (rfl : isMark ':' = true)
  rw [List.nil_append, upTo_append hslash hends, fromNext_append hslash hends] at hwild
  rw [chain_of_cut? pattern value hwild, if_pos rfl, wildOf]
  by_cases hrest : rest = []
  · simp [hrest]
  · simp [hrest]

theorem chain_catchAll {name : Text} (pattern : Text) (value : α) (hslash : '/' ∉ name) :
    chain pattern value ('*' :: name) = catchAll name value pattern := by
  have hnone : Plain [] := by simp [Plain]
  have hwild := cut?_append (name ++ []) hnone (rfl : isMark '*' = true)
  rw [List.nil_append, upTo_append hslash (by simp [ElementEnds]), List.append_nil] at hwild
  rw [chain_of_cut? pattern value hwild]
  rfl

/-- Ways that lead to the one route `pattern` and nowhere else. All places on the way note it. -/
inductive Lone (pattern : Text) (value : α) : Ways α → Prop where
  | last (label : Text) : Lone pattern value (literal label (.leaf pattern value) none)
  | label (label : Text) {ways : Ways α} (next : Lone pattern value ways) :
      Lone pattern value (literal label (.mk Option.none pattern 1 ways) none)
  | lastParam (name : Text) : Lone pattern value (param name (.leaf pattern value))
  | param (name : Text) {ways : Ways α} (next : Lone pattern value ways) :
      Lone pattern value (param name (.mk Option.none pattern 1 ways))
  | catchAll (name : Text) : Lone pattern value (catchAll name value pattern)

theorem chain_lone (pattern : Text) (value : α) (rest : Text) :
    Lone pattern value (chain pattern value rest) := by
  induction hlength : rest.length using Nat.strong_induction_on generalizing rest with
  | h n ih =>
      cases hcut : cut? rest with
      | none =>
          rw [chain_of_plain pattern value (plain_of_cut?_eq_none hcut)]
          exact Lone.last rest
      | some c =>
          have hdeeper := ih c.rest.length (hlength ▸ length_rest_lt hcut) c.rest rfl
          have hwild : Lone pattern value (wildOf pattern value c) := by
            unfold wildOf
            split_ifs
            · exact Lone.catchAll c.name
            · exact Lone.lastParam c.name
            · exact Lone.param c.name hdeeper
          rw [chain_of_cut? pattern value hcut]
          split_ifs
          · exact hwild
          · exact Lone.label c.literal hwild

/-- Whether the ways are a single one that begins as `rest` does. -/
def BeginAs (rest : Text) : Ways α → Prop
  | literal label _ none => label.head? = rest.head?
  | param _ _ => rest.head? = some ':'
  | catchAll _ _ _ => rest.head? = some '*'
  | _ => False

theorem AfterElement.cases {ways : Ways α} (h : ways.AfterElement) :
    ways = none ∨ ∃ label next, ways = literal label next none ∧ label.head? = some '/' := by
  cases ways with
  | none => exact Or.inl rfl
  | literal label next others =>
      cases others with
      | none => exact Or.inr ⟨label, next, rfl, h⟩
      | literal _ _ _ => exact h.elim
      | param _ _ => exact h.elim
      | catchAll _ _ _ => exact h.elim
  | param name next => exact h.elim
  | catchAll name value pattern => exact h.elim

theorem BeginAs.cases {rest : Text} {ways : Ways α} (h : ways.BeginAs rest) :
    (∃ label next, ways = literal label next none ∧ label.head? = rest.head?)
      ∨ (∃ name next, ways = param name next ∧ rest.head? = some ':')
      ∨ ∃ name value pattern, ways = catchAll name value pattern ∧ rest.head? = some '*' := by
  cases ways with
  | none => exact h.elim
  | literal label next others =>
      cases others with
      | none => exact Or.inl ⟨label, next, rfl, h⟩
      | literal _ _ _ => exact h.elim
      | param _ _ => exact h.elim
      | catchAll _ _ _ => exact h.elim
  | param name next => exact Or.inr (Or.inl ⟨name, next, rfl, h⟩)
  | catchAll name value pattern => exact Or.inr (Or.inr ⟨name, value, pattern, rfl, h⟩)

/-- Ways that lead along `rest` to one route and nowhere else. -/
structure Chained (above rest : Text) (value : α) (ways : Ways α) : Prop where
  sound : ways.Sound above
  entries : ways.entries = [⟨tokens rest, value⟩]
  begins : ways.BeginAs rest
  mount : ways.catchAll?.isSome → above.getLast? = some '/'

theorem Chained.ne_none {above rest : Text} {value : α} {ways : Ways α}
    (h : Chained above rest value ways) : ways ≠ none := by
  rintro rfl
  exact h.begins

theorem Chained.afterElement {above rest : Text} {value : α} {ways : Ways α}
    (h : Chained above rest value ways) (hhead : rest.head? = some '/') : ways.AfterElement := by
  rcases h.begins.cases with ⟨label, next, rfl, hlabel⟩ | ⟨name, next, rfl, hcolon⟩
    | ⟨name, value, pattern, rfl, hstar⟩
  · exact hlabel.trans hhead
  · simp [hhead] at hcolon
  · simp [hhead] at hstar

/-- The place where a chain begins. -/
theorem Chained.node_sound {above rest : Text} {value : α} {ways : Ways α} (pattern : Text)
    (h : Chained above rest value ways) : (Node.mk Option.none pattern 1 ways).Sound above := by
  refine Node.sound_mk.mpr ⟨⟨by simp, by simp [h.entries], ?_, ?_⟩, h.sound⟩
  · exact fun hnone => (h.ne_none hnone).elim
  · exact fun hsome => ⟨rfl, h.mount hsome⟩

theorem leaf_sound (pattern : Text) (value : α) : (Node.leaf pattern value).Sound pattern :=
  Node.sound_mk.mpr ⟨⟨by simp, by simp, by simp, by simp [catchAll?]⟩, sound_none⟩

theorem leaf_entries (pattern : Text) (value : α) :
    (Node.leaf pattern value).entries = [⟨tokens [], value⟩] := by
  simp [Node.leaf]

/-- A single label has no other to compare with. -/
theorem fork_none (label : Text) (next : Node α) : Fork label next none :=
  ⟨by simp [indices], by simp [counts], rfl⟩

theorem chained_literal {above label rest : Text} {value : α} {next : Node α}
    (hlabel : Label label) (hnext : next.Sound (above ++ label))
    (hentries : next.entries = [⟨tokens rest, value⟩]) :
    Chained above (label ++ rest) value (literal label next none) := by
  refine ⟨?_, ?_, ?_, by simp [catchAll?]⟩
  · exact sound_literal.mpr ⟨hlabel, hnext, sound_none, fork_none label next⟩
  · simp [hentries, Entry.under, tokens_append hlabel.plain]
  · have hne := hlabel.ne_nil
    cases label with
    | nil => contradiction
    | cons c label => rfl

theorem chained_param {above name rest : Text} {value : α} {next : Node α}
    (hname : Name name) (hends : ElementEnds rest) (hnext : next.Sound (above ++ ':' :: name))
    (hafter : next.ways.AfterElement) (hentries : next.entries = [⟨tokens rest, value⟩]) :
    Chained above (':' :: (name ++ rest)) value (param name next) := by
  refine ⟨sound_param.mpr ⟨hname, hnext, hafter⟩, ?_, rfl, by simp [catchAll?]⟩
  simp [hentries, Entry.under, tokens_param hname.no_slash hends]

theorem chained_catchAll {above name : Text} (value : α) (hname : Name name)
    (hslash : above.getLast? = some '/') :
    Chained above ('*' :: name) value (catchAll name value (above ++ '*' :: name)) :=
  ⟨sound_catchAll.mpr ⟨hname, rfl⟩, by simp [tokens_catchAll hname.no_slash], rfl,
    fun _ => hslash⟩

/-- A wildcard leads to what its own remainder leads to. -/
theorem wild_chained {pattern above after : Text} {mark : Char} {value : α}
    (hmark : isMark mark = true) (hfollows : Follows above (mark :: after))
    (hpattern : pattern = above ++ mark :: after)
    (ih : ∀ {above' rest : Text}, rest.length < (mark :: after).length → Follows above' rest →
      rest ≠ [] → pattern = above' ++ rest → Chained above' rest value (chain pattern value rest)) :
    Chained above (mark :: after) value (chain pattern value (mark :: after)) := by
  cases hfollows with
  | char plain next => simp [hmark] at plain
  | @param _ name rest text named ends next whole =>
      subst whole
      rw [chain_param _ _ named.no_slash ends]
      by_cases hrest : rest = []
      · subst hrest
        have hleaf : (Node.leaf pattern value).Sound (above ++ ':' :: name) := by
          simpa [hpattern] using leaf_sound pattern value
        rw [if_pos rfl]
        exact chained_param named ends hleaf (by simp [Node.leaf, Node.ways, AfterElement])
          (leaf_entries pattern value)
      · have hshorter : rest.length < (':' :: (name ++ rest)).length := by
          simp only [List.length_append, List.length_cons]
          omega
        have hnext := ih hshorter next hrest (by simp [hpattern])
        have hslash : rest.head? = some '/' := by
          cases rest with
          | nil => contradiction
          | cons c rest => simp [ends c rfl]
        rw [if_neg hrest]
        exact chained_param named ends (hnext.node_sound pattern) (hnext.afterElement hslash)
          (by simp [hnext.entries])
  | catchAll named behind =>
      rw [chain_catchAll _ _ named.no_slash, hpattern]
      exact chained_catchAll value named behind

/-- The chain of a remainder leads along it to its one route. -/
theorem chain_chained {pattern above rest : Text} (value : α) (hfollows : Follows above rest)
    (hne : rest ≠ []) (hpattern : pattern = above ++ rest) :
    Chained above rest value (chain pattern value rest) := by
  induction hlength : rest.length using Nat.strong_induction_on generalizing above rest with
  | h n ih =>
      cases hcut : cut? rest with
      | none =>
          have hplain := plain_of_cut?_eq_none hcut
          have hleaf : (Node.leaf pattern value).Sound (above ++ rest) :=
            hpattern ▸ leaf_sound pattern value
          rw [chain_of_plain _ _ hplain]
          simpa using chained_literal ⟨hne, hplain⟩ hleaf (leaf_entries pattern value)
      | some c =>
          have hsound := sound_of_cut? hcut
          have hwhole := append_of_cut? hcut
          rw [List.append_assoc, Cut.wildcard, List.cons_append] at hwhole
          have hmark : isMark c.mark = true := by
            rcases hsound.mark with hmark | hmark <;> simp [hmark, isMark]
          have hwild : Chained (above ++ c.literal) (c.mark :: (c.name ++ c.rest)) value
              (chain pattern value (c.mark :: (c.name ++ c.rest))) := by
            rw [hwhole, follows_append_iff hsound.literal] at hfollows
            apply wild_chained hmark hfollows (by rw [hpattern, hwhole, List.append_assoc])
            intro above' rest' hshorter hfollows' hne' hpattern'
            apply ih rest'.length _ hfollows' hne' hpattern' rfl
            rw [← hlength, hwhole, List.length_append]
            omega
          by_cases hfront : c.literal = []
          · rw [hfront, List.nil_append] at hwhole
            rw [hfront, List.append_nil, ← hwhole] at hwild
            exact hwild
          · rw [hwhole, chain_append _ _ hsound.literal hfront hmark]
            exact chained_literal ⟨hfront, hsound.literal⟩ (hwild.node_sound pattern)
              (by simp [hwild.entries])

/-! ### The place of a chain among the ways -/

theorem catchAll?_of_wildcard? {ways : Ways α} (h : ways.wildcard? = Option.none) :
    ways.catchAll? = Option.none := by
  cases ways with
  | none => rfl
  | literal label next others =>
      exact @catchAll?_of_wildcard? others h
  | param name next => rfl
  | catchAll name value pattern => simp [wildcard?] at h

/-- Whether there is room among the ways for a chain along `rest`. -/
structure Room (rest : Text) (ways : Ways α) : Prop where
  apart : ∀ c ∈ rest.head?, c ∉ ways.indices
  alone : ways.catchAll? = Option.none
  single : rest.head? = some ':' → ways.wildcard? = Option.none

/-- What a chain along `rest` makes of the ways that it is put among. -/
structure Grafted (above rest : Text) (value : α) (ways grown : Ways α) : Prop where
  sound : grown.Sound above
  entries : grown.entries.Perm (⟨tokens rest, value⟩ :: ways.entries)
  counts : ∀ count ∈ grown.counts, count ∈ ways.counts ∨ count = 1
  indices : ∀ c ∈ grown.indices, c ∈ ways.indices ∨ c ∈ rest.head?
  alone : grown.catchAll? = Option.none

/-- A label in front of a parameter. -/
theorem literal_param_sound {above label name : Text} {next next' : Node α}
    (hlabel : (literal label next none).Sound above) (hparam : (param name next').Sound above) :
    (literal label next (param name next')).Sound above := by
  obtain ⟨hlabel, hnext, -, -⟩ := sound_literal.mp hlabel
  refine sound_literal.mpr ⟨hlabel, hnext, hparam, ?_⟩
  exact ⟨by simp [Ways.indices], by simp [Ways.counts], rfl⟩

theorem Chained.count_eq_one {above rest : Text} {value : α} {ways : Ways α}
    (h : Chained above rest value ways) : ∀ count ∈ ways.counts, count = 1 := by
  rcases h.begins.cases with ⟨label, next, rfl, -⟩ | ⟨name, next, rfl, -⟩
    | ⟨name, value, pattern, rfl, -⟩
  · have hnext := (sound_literal.mp h.sound).2.1
    have hlength : next.entries.length = 1 := by
      simpa using congrArg List.length h.entries
    simp [counts, hnext.priority_eq, hlength]
  · simp [counts]
  · simp [counts]

theorem Chained.mem_indices {above rest : Text} {value : α} {ways : Ways α}
    (h : Chained above rest value ways) : ∀ c ∈ ways.indices, c ∈ rest.head? := by
  rcases h.begins.cases with ⟨label, next, rfl, hlabel⟩ | ⟨name, next, rfl, -⟩
    | ⟨name, value, pattern, rfl, -⟩
  · simp [Ways.indices, hlabel]
  · simp [Ways.indices]
  · simp [Ways.indices]

theorem Chained.alone {above rest : Text} {value : α} {ways : Ways α}
    (h : Chained above rest value ways) (hstar : rest.head? ≠ some '*') :
    ways.catchAll? = Option.none := by
  rcases h.begins.cases with ⟨label, next, rfl, -⟩ | ⟨name, next, rfl, -⟩
    | ⟨name, value, pattern, rfl, hhead⟩
  · rfl
  · rfl
  · exact (hstar hhead).elim

theorem graft_grafted {above rest : Text} {value : α} {more : Ways α}
    (hmore : Chained above rest value more) (hstar : rest.head? ≠ some '*') :
    ∀ {ways : Ways α}, ways.Sound above → Room rest ways →
      Grafted above rest value ways (ways.graft more) := by
  intro ways hways hroom
  cases ways with
  | none =>
      refine ⟨hmore.sound, by simp [graft, hmore.entries], ?_, ?_, hmore.alone hstar⟩
      · exact fun count hcount => Or.inr (hmore.count_eq_one count hcount)
      · exact fun c hc => Or.inr (hmore.mem_indices c hc)
  | literal label next others =>
      obtain ⟨hlabel, hnext, hothers, hfork⟩ := sound_literal.mp hways
      have hroom' : Room rest others := by
        refine ⟨?_, hroom.alone, hroom.single⟩
        intro c hc hmem
        exact hroom.apart c hc (by simp [Ways.indices, hmem])
      obtain ⟨hsound, hentries, hcounts, hindices, halone⟩ :=
        graft_grafted hmore hstar hothers hroom'
      refine ⟨sound_literal.mpr ⟨hlabel, hnext, hsound, ?_, ?_, halone⟩, ?_, ?_, ?_, halone⟩
      · intro c hc hmem
        rcases hindices c hmem with hold | hhead
        · exact hfork.apart c hc hold
        · exact hroom.apart c hhead (by simpa [Ways.indices] using Or.inl hc)
      · intro count hcount
        rcases hcounts count hcount with hold | hone
        · exact hfork.ranked count hold
        · rw [hone]
          exact hnext.priority_pos
      · rw [graft, entries_literal, entries_literal]
        exact (hentries.append_left _).trans List.perm_middle
      · intro count hcount
        simp only [graft, counts, List.mem_cons] at hcount ⊢
        rcases hcount with hself | hcount
        · exact Or.inl (Or.inl hself)
        · exact (hcounts count hcount).imp_left Or.inr
      · intro c hc
        simp only [graft, indices, List.mem_append] at hc ⊢
        rcases hc with hself | hc
        · exact Or.inl (Or.inl hself)
        · exact (hindices c hc).imp_left Or.inr
  | param name next =>
      rcases hmore.begins.cases with ⟨label, next', rfl, -⟩ | ⟨name', next', rfl, hcolon⟩
        | ⟨name', value', pattern, rfl, hhead⟩
      · have hsound := literal_param_sound hmore.sound hways
        have hentries := hmore.entries
        simp only [entries_literal, entries_none, List.append_nil] at hentries
        refine ⟨hsound, by simp [graft, hentries], ?_, ?_, rfl⟩
        · intro count hcount
          exact Or.inr (hmore.count_eq_one count (by simpa [graft, counts] using hcount))
        · intro c hc
          exact Or.inr (hmore.mem_indices c (by simpa [graft, Ways.indices] using hc))
      · simpa [wildcard?] using hroom.single hcolon
      · exact (hstar hhead).elim
  | catchAll name value' pattern => simpa [catchAll?] using hroom.alone

/-! ### The label that leads to one route more -/

theorem entries_rank (label : Text) (next : Node α) (others : Ways α) :
    (rank label next others).entries.Perm (literal label next others).entries := by
  cases others with
  | literal label' next' others =>
      rw [rank]
      split
      · simp only [entries_literal, ← List.append_assoc]
        exact (List.perm_append_comm).append_right _
      · exact List.Perm.refl _
  | none => exact List.Perm.refl _
  | param name next' => exact List.Perm.refl _
  | catchAll name value pattern => exact List.Perm.refl _

theorem mem_indices_rank (label : Text) (next : Node α) (others : Ways α) (c : Char) :
    c ∈ (rank label next others).indices ↔ c ∈ (literal label next others).indices := by
  cases others with
  | literal label' next' others =>
      rw [rank]
      split
      · simp only [Ways.indices, List.mem_append]
        exact or_left_comm
      · exact Iff.rfl
  | none => exact Iff.rfl
  | param name next' => exact Iff.rfl
  | catchAll name value pattern => exact Iff.rfl

theorem catchAll?_rank (label : Text) (next : Node α) (others : Ways α) :
    (rank label next others).catchAll? = others.catchAll? := by
  cases others with
  | literal label' next' others =>
      rw [rank]
      split <;> rfl
  | none => rfl
  | param name next' => rfl
  | catchAll name value pattern => rfl

/-- Only the first of the others may lead to more routes than the label. -/
theorem rank_sound {above label : Text} {next : Node α} {others : Ways α} (hlabel : Label label)
    (hnext : next.Sound (above ++ label)) (hothers : others.Sound above)
    (hapart : ∀ c ∈ label.head?, c ∉ others.indices) (halone : others.catchAll? = Option.none)
    (hranked : ∀ count ∈ others.counts.tail, count ≤ next.priority) :
    (rank label next others).Sound above := by
  cases others with
  | literal label' next' others =>
      obtain ⟨hlabel', hnext', hothers', hfork⟩ := sound_literal.mp hothers
      simp only [Ways.indices, List.mem_append, not_or] at hapart
      rw [rank]
      split
      · next hless =>
          refine sound_literal.mpr ⟨hlabel', hnext', sound_literal.mpr
            ⟨hlabel, hnext, hothers', fun c hc => (hapart c hc).2, hranked, halone⟩, ?_, ?_, halone⟩
          · intro c hc hmem
            simp only [Ways.indices, List.mem_append] at hmem
            rcases hmem with hmem | hmem
            · exact (hapart c (by simpa using hmem)).1 (by simpa using hc)
            · exact hfork.apart c hc hmem
          · intro count hcount
            simp only [counts, List.mem_cons] at hcount
            rcases hcount with hself | hcount
            · omega
            · exact hfork.ranked count hcount
      · next hmore =>
          refine sound_literal.mpr ⟨hlabel, hnext, hothers, ?_, ?_, halone⟩
          · intro c hc hmem
            simp only [Ways.indices, List.mem_append] at hmem
            exact hmem.elim (hapart c hc).1 (hapart c hc).2
          · intro count hcount
            simp only [counts, List.mem_cons] at hcount
            rcases hcount with hself | hcount
            · omega
            · exact hranked count hcount
  | none => exact sound_literal.mpr ⟨hlabel, hnext, hothers, hapart, by simp [counts], halone⟩
  | param name next' =>
      exact sound_literal.mpr ⟨hlabel, hnext, hothers, hapart, by simp [counts], halone⟩
  | catchAll name value pattern => simp [catchAll?] at halone

theorem counts_rank_tail {label : Text} {next : Node α} {others : Ways α} {bound : Nat}
    (hnext : next.priority ≤ bound) (hothers : ∀ count ∈ others.counts.tail, count ≤ bound) :
    ∀ count ∈ (rank label next others).counts.tail, count ≤ bound := by
  cases others with
  | literal label' next' others =>
      rw [rank]
      intro count hcount
      split at hcount
      · next hless =>
          simp only [counts, List.tail_cons, List.mem_cons] at hcount
          rcases hcount with hself | hcount
          · omega
          · exact hothers count hcount
      · next hmore =>
          simp only [counts, List.tail_cons, List.mem_cons] at hcount
          rcases hcount with hself | hcount
          · omega
          · exact hothers count hcount
  | none => simp [rank, counts]
  | param name next' => simp [rank, counts]
  | catchAll name value pattern => simp [rank, counts]

/-- A label that leads to as many routes as any other stays in front. -/
theorem rank_eq_literal {label : Text} {next : Node α} {others : Ways α}
    (hranked : ∀ count ∈ others.counts, count ≤ next.priority) :
    rank label next others = literal label next others := by
  cases others with
  | literal label' next' others =>
      have := hranked next'.priority (by simp [counts])
      rw [rank, if_neg (Nat.not_lt_of_le this)]
  | none => rfl
  | param name next' => rfl
  | catchAll name value pattern => rfl

end Ways

end RadixRouter
