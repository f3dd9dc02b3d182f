import RadixRouter.Proofs.Text.Fold
import RadixRouter.Proofs.Tree.Hint
import RadixRouter.Tree.Repair

/-!
What a repair finds in a sound tree: a path that some route matches and that differs from the given
one by case alone, and on request by a slash at its end; nothing means that no such path matches.
-/

namespace RadixRouter

open Pattern

variable {α : Type}

namespace Text

theorem FoldEq.elementEnds {s t : Text} (h : FoldEq s t) (hends : ElementEnds t) :
    ElementEnds s := by
  intro c hc
  cases h with
  | nil => simp at hc
  | cons hsame hrest =>
      cases hc
      rw [hends _ rfl] at hsame
      exact foldsTo_slash_iff.mp hsame

/-- Whether `repaired` is `path` but for case, and on request but for one slash at the end. -/
def Near (fixSlash : Bool) (path repaired : Text) : Prop :=
  FoldEq repaired path
    ∨ fixSlash = true ∧ (FoldEq repaired (path ++ ['/']) ∨ FoldEq (repaired ++ ['/']) path)

namespace Near

variable {fixSlash : Bool} {path repaired front front' : Text}

theorem prepend (hfront : FoldEq front' front) (h : Near fixSlash path repaired) :
    Near fixSlash (front ++ path) (front' ++ repaired) := by
  rcases h with hsame | ⟨hfix, hadded | hremoved⟩
  · exact Or.inl (hfront.append hsame)
  · refine Or.inr ⟨hfix, Or.inl ?_⟩
    rw [List.append_assoc]
    exact hfront.append hadded
  · refine Or.inr ⟨hfix, Or.inr ?_⟩
    rw [List.append_assoc]
    exact hfront.append hremoved

theorem cancel (hlength : front'.length = front.length)
    (h : Near fixSlash (front ++ path) (front' ++ repaired)) : Near fixSlash path repaired := by
  rcases h with hsame | ⟨hfix, hadded | hremoved⟩
  · exact Or.inl (hsame.cancel hlength)
  · rw [List.append_assoc] at hadded
    exact Or.inr ⟨hfix, Or.inl (hadded.cancel hlength)⟩
  · rw [List.append_assoc] at hremoved
    exact Or.inr ⟨hfix, Or.inr (hremoved.cancel hlength)⟩

/-- A path that does not begin with the label can lack no more than the label's last slash. -/
theorem eq_nil_of_not_after {label rest : Text}
    (hafter : ∀ head tail, path = head ++ tail → ¬ FoldEq head label)
    (h : Near fixSlash path (label ++ rest)) :
    rest = [] ∧ fixSlash = true ∧ FoldEq label (path ++ ['/']) := by
  rcases h with hsame | ⟨hfix, hadded | hremoved⟩
  · obtain ⟨head, tail, hpath, hlabel, -⟩ := hsame.of_append
    exact (hafter head tail hpath hlabel.symm).elim
  · obtain ⟨head, tail, hpath, hlabel, hrest⟩ := hadded.of_append
    rcases List.eq_nil_or_concat tail with rfl | ⟨tail, c, rfl⟩
    · rw [List.append_nil] at hpath
      exact ⟨hrest.eq_nil, hfix, hpath ▸ hlabel⟩
    · rw [List.concat_eq_append, ← List.append_assoc] at hpath
      exact (hafter head tail (List.append_inj_left' hpath rfl) hlabel.symm).elim
  · rw [List.append_assoc] at hremoved
    obtain ⟨head, tail, hpath, hlabel, -⟩ := hremoved.of_append
    exact (hafter head tail hpath hlabel.symm).elim

/-- Paths that are near to each other part into a first element and a rest alike. -/
theorem upTo_fromNext (h : Near fixSlash path repaired) :
    FoldEq (upTo '/' repaired) (upTo '/' path)
      ∧ Near fixSlash (fromNext '/' path) (fromNext '/' repaired) := by
  rcases h with hsame | ⟨hfix, hadded | hremoved⟩
  · exact ⟨hsame.upTo_fromNext.1, Or.inl hsame.upTo_fromNext.2⟩
  · have hparts := hadded.upTo_fromNext
    rw [upTo_concat, fromNext_concat] at hparts
    exact ⟨hparts.1, Or.inr ⟨hfix, Or.inl hparts.2⟩⟩
  · have hparts := hremoved.upTo_fromNext
    rw [upTo_concat, fromNext_concat] at hparts
    exact ⟨hparts.1, Or.inr ⟨hfix, Or.inr hparts.2⟩⟩

/-- What is near to the part of a path from a slash on is empty or begins with a slash, too. -/
theorem elementEnds (hends : ElementEnds path) (h : Near fixSlash path repaired) :
    ElementEnds repaired := by
  rcases h with hsame | ⟨-, hadded | hremoved⟩
  · exact hsame.elementEnds hends
  · apply hadded.elementEnds
    cases path with
    | nil => simp [ElementEnds]
    | cons c path => exact hends
  · cases repaired with
    | nil => simp [ElementEnds]
    | cons c repaired => exact hremoved.elementEnds hends

theorem nil_iff :
    Near fixSlash [] repaired ↔ repaired = [] ∨ fixSlash = true ∧ repaired = ['/'] := by
  constructor
  · rintro (hsame | ⟨hfix, hadded | hremoved⟩)
    · exact Or.inl hsame.eq_nil
    · exact Or.inr ⟨hfix, hadded.eq_slash⟩
    · simpa using hremoved.eq_nil
  · rintro (rfl | ⟨hfix, rfl⟩)
    · exact Or.inl FoldEq.nil
    · exact Or.inr ⟨hfix, Or.inl (FoldEq.refl _)⟩

/-- Characters that have no case, but for the slash, occur equally often in paths that are near to
each other. -/
theorem count_eq (h : Near fixSlash path repaired) {d : Char} (hnull : d ≠ Char.ofNat 0)
    (hd : d.toNat < 65) (hslash : d ≠ '/') : repaired.count d = path.count d := by
  have hnone : List.count d ['/'] = 0 := List.count_eq_zero.mpr (by simpa using hslash)
  rcases h with hsame | ⟨-, hadded | hremoved⟩
  · exact hsame.count_eq hnull hd
  · have hcount := hadded.count_eq hnull hd
    rwa [List.count_append, hnone] at hcount
  · have hcount := hremoved.count_eq hnull hd
    rwa [List.count_append, hnone] at hcount

end Near

end Text

/-- What is near to the rest of a path behind its first element is near to the path with that element
in front, and matches as the rest does behind a parameter. -/
theorem Pattern.near_under_param {fixSlash : Bool} {tokens : List Token} {name path deep : Text}
    (hsegment : Text.upTo '/' path ≠ []) (hnear : Text.Near fixSlash (Text.fromNext '/' path) deep)
    (hmatches : MatchesTokens tokens deep) :
    Text.Near fixSlash path (Text.upTo '/' path ++ deep)
      ∧ MatchesTokens (.param name :: tokens) (Text.upTo '/' path ++ deep) := by
  have hslash := not_mem_upTo path
  have hends := hnear.elementEnds (elementEnds_fromNext path)
  have hwhole := hnear.prepend (Text.FoldEq.refl (Text.upTo '/' path))
  rw [Text.upTo_append_fromNext] at hwhole
  refine ⟨hwhole, ?_⟩
  rw [matchesTokens_param, upTo_append hslash hends, fromNext_append hslash hends]
  exact ⟨hsegment, hmatches⟩

/-- What a repair of `path` says about the routes it was made among. -/
def Repairs (entries : List (Entry α)) (fixSlash : Bool) (path : Text) : Option Text → Prop
  | some repaired =>
      Text.Near fixSlash path repaired ∧ ∃ entry ∈ entries, MatchesTokens entry.tokens repaired
  | none => ∀ repaired, Text.Near fixSlash path repaired →
      ∀ entry ∈ entries, ¬ MatchesTokens entry.tokens repaired

namespace Repairs

variable {entries others : List (Entry α)} {fixSlash : Bool} {path : Text}
  {first second : Option Text}

/-- The second repair counts when there is no first one. -/
theorem or (hfirst : Repairs entries fixSlash path first)
    (hsecond : Repairs others fixSlash path second) :
    Repairs (entries ++ others) fixSlash path (first.or second) := by
  cases first with
  | some repaired =>
      obtain ⟨hnear, entry, hentry, hmatches⟩ := hfirst
      exact ⟨hnear, entry, List.mem_append_left _ hentry, hmatches⟩
  | none =>
      cases second with
      | some repaired =>
          obtain ⟨hnear, entry, hentry, hmatches⟩ := hsecond
          exact ⟨hnear, entry, List.mem_append_right _ hentry, hmatches⟩
      | none =>
          intro repaired hnear entry hentry
          rcases List.mem_append.mp hentry with hentry | hentry
          · exact hfirst repaired hnear entry hentry
          · exact hsecond repaired hnear entry hentry

theorem swap (h : Repairs (entries ++ others) fixSlash path first) :
    Repairs (others ++ entries) fixSlash path first := by
  have hmem : ∀ entry, entry ∈ entries ++ others ↔ entry ∈ others ++ entries := by
    intro entry
    simp only [List.mem_append, or_comm]
  cases first <;> simpa only [Repairs, hmem] using h

/-- Behind a parameter the same routes are found. -/
theorem under_param (name : Text) (hsegment : Text.upTo '/' path ≠ [])
    (h : Repairs entries fixSlash (Text.fromNext '/' path) first) :
    Repairs (entries.map (Entry.under [.param name])) fixSlash path
      (first.map (Text.upTo '/' path ++ ·)) := by
  cases first with
  | some inner =>
      obtain ⟨hnear, entry, hentry, hmatches⟩ := h
      obtain ⟨hwhole, hfound⟩ := near_under_param hsegment hnear hmatches
      exact ⟨hwhole, entry.under _, List.mem_map_of_mem hentry, hfound⟩
  | none =>
      intro repaired hnear entry hentry hmatches
      obtain ⟨inner, hinner, rfl⟩ := List.mem_map.mp hentry
      exact h _ hnear.upTo_fromNext.2 inner hinner (matchesTokens_param.mp hmatches).2

end Repairs

theorem Node.repairAlong_repairs {above label path : Text} {node : Node α} {fixSlash : Bool}
    {deeper : Text → Option Text} (hsound : node.Sound above)
    (hdeeper : ∀ rest, Repairs node.entries fixSlash rest (deeper rest)) :
    Repairs (node.entries.map (Entry.under (label.map .char))) fixSlash path
      (repairAlong fixSlash label node path deeper) := by
  unfold repairAlong
  split
  · next rest hafter =>
      obtain ⟨head, rfl, hfold⟩ := Text.afterFold?_eq_some_iff.mp hafter
      have hrest := hdeeper rest
      cases hfound : deeper rest with
      | some inner =>
          rw [hfound] at hrest
          obtain ⟨hnear, entry, hentry, hmatches⟩ := hrest
          exact ⟨hnear.prepend hfold.symm, entry.under _, List.mem_map_of_mem hentry,
            matchesTokens_chars.mpr ⟨inner, rfl, hmatches⟩⟩
      | none =>
          rw [hfound] at hrest
          intro repaired hnear entry hentry hmatches
          obtain ⟨inner, hinner, rfl⟩ := List.mem_map.mp hentry
          obtain ⟨deep, rfl, hdeep⟩ := matchesTokens_chars.mp hmatches
          exact hrest deep (hnear.cancel hfold.length_eq.symm) inner hinner hdeep
  · next hafter =>
      have hnot : ∀ head tail, path = head ++ tail → ¬ Text.FoldEq head label := by
        intro head tail hpath hfold
        simp [Text.afterFold?_eq_some_iff.mpr ⟨head, hpath, hfold⟩] at hafter
      split
      · next hslash =>
          simp only [Bool.and_eq_true, decide_eq_true_eq] at hslash
          obtain ⟨⟨hfix, hlabel⟩, hterminates⟩ := hslash
          obtain ⟨head, rfl, hfold⟩ := Text.afterFold?_eq_some_iff.mp hlabel
          obtain ⟨entry, hentry, hmatches⟩ := (Node.terminates_iff hsound).mp hterminates
          refine ⟨Or.inr ⟨hfix, Or.inl (hfold.append (Text.FoldEq.refl _))⟩, entry.under _,
            List.mem_map_of_mem hentry, matchesTokens_chars.mpr ⟨[], by simp, hmatches⟩⟩
      · next hslash =>
          intro repaired hnear entry hentry hmatches
          obtain ⟨inner, hinner, rfl⟩ := List.mem_map.mp hentry
          obtain ⟨deep, rfl, hdeep⟩ := matchesTokens_chars.mp hmatches
          obtain ⟨rfl, hfix, hfold⟩ := hnear.eq_nil_of_not_after hnot
          obtain ⟨head, tail, hlabel, hhead, htail⟩ := hfold.symm.of_append
          apply hslash
          rw [htail.symm.eq_slash] at hlabel
          simp only [Bool.and_eq_true, decide_eq_true_eq, Node.terminates_iff hsound,
            Text.afterFold?_eq_some_iff]
          exact ⟨⟨hfix, head, hlabel, hhead.symm⟩, inner, hinner, hdeep⟩

theorem Node.repair_nil (fixSlash : Bool) (node : Node α) :
    node.repair fixSlash []
      = if node.terminates then some []
        else if fixSlash && node.ways.hasSlashLeaf then some ['/'] else none := by
  cases node with
  | mk held pattern priority ways => rw [Node.repair, Node.ways]

/-- The empty rest of a path at a sound place. -/
theorem Node.repair_nil_repairs {above : Text} {node : Node α} (fixSlash : Bool)
    (hsound : node.Sound above) :
    Repairs node.entries fixSlash [] (node.repair fixSlash []) := by
  have hends := Node.terminates_iff hsound
  rw [Node.repair_nil]
  split
  · next hterminates => exact ⟨Text.Near.nil_iff.mpr (Or.inl rfl), hends.mp hterminates⟩
  · next hopen =>
      have hleaf := Node.hasSlashLeaf_iff hsound hopen
      split
      · next hslash =>
          rw [Bool.and_eq_true, hleaf] at hslash
          exact ⟨Text.Near.nil_iff.mpr (Or.inr ⟨hslash.1, rfl⟩), hslash.2⟩
      · next hslash =>
          rw [Bool.and_eq_true, hleaf] at hslash
          intro repaired hnear entry hentry hmatches
          rcases Text.Near.nil_iff.mp hnear with rfl | ⟨hfix, rfl⟩
          · exact hopen (hends.mpr ⟨entry, hentry, hmatches⟩)
          · exact hslash ⟨hfix, entry, hentry, hmatches⟩

theorem Node.repair_cons {held : Option α} {pattern : Text} {priority : Nat} {ways : Ways α}
    (fixSlash : Bool) (c : Char) (rest : Text) :
    (Node.mk held pattern priority ways).repair fixSlash (c :: rest)
      = (ways.repair fixSlash (c :: rest)).or
          (if fixSlash && c :: rest = ['/'] && held.isSome then some [] else none) := by
  rw [Node.repair]
  cases ways.repair fixSlash (c :: rest) <;> rfl

theorem Ways.repair_literal {label : Text} {next : Node α} {others : Ways α} (fixSlash : Bool)
    (rest : Text) :
    (literal label next others).repair fixSlash rest
      = (Node.repairAlong fixSlash label next rest (next.repair fixSlash)).or
          (others.repair fixSlash rest) := by
  rw [Ways.repair]
  cases Node.repairAlong fixSlash label next rest (next.repair fixSlash) <;> rfl

/-- The route that ends at a place matches the path with its final slash removed. -/
theorem Repairs.held (held : Option α) (fixSlash : Bool) (c : Char) (rest : Text) :
    Repairs (held.toList.map (⟨[], ·⟩)) fixSlash (c :: rest)
      (if fixSlash && c :: rest = ['/'] && held.isSome then some [] else none) := by
  cases held with
  | none => simp [Repairs]
  | some value =>
      split
      · next hslash =>
          simp only [Bool.and_eq_true, decide_eq_true_eq] at hslash
          obtain ⟨⟨hfix, hpath⟩, -⟩ := hslash
          refine ⟨?_, by simp⟩
          rw [hpath]
          exact Or.inr ⟨hfix, Or.inr (Text.FoldEq.refl _)⟩
      · next hslash =>
          intro repaired hnear entry hentry hmatches
          simp only [Option.toList_some, List.map_cons, List.map_nil, List.mem_singleton] at hentry
          rw [hentry, matchesTokens_nil] at hmatches
          subst hmatches
          apply hslash
          rcases hnear with hsame | ⟨hfix, hadded | hremoved⟩
          · cases hsame
          · cases hadded
          · simp [hfix, hremoved.symm.eq_slash]

-- Induction on the tree: the repair of a place is put together from those along its ways.
mutual

theorem Node.repair_repairs {node : Node α} :
    ∀ {above : Text} (fixSlash : Bool) (path : Text), node.Sound above →
      Repairs node.entries fixSlash path (node.repair fixSlash path) := by
  intro above fixSlash path hsound
  cases path with
  | nil => exact Node.repair_nil_repairs fixSlash hsound
  | cons c rest =>
      cases node with
      | mk held pattern priority ways =>
          have hways := (Node.sound_mk.mp hsound).2
          rw [Node.entries_mk, Node.repair_cons]
          exact ((Ways.repair_repairs fixSlash (c :: rest) hways (by simp)).or
            (Repairs.held held fixSlash c rest)).swap

theorem Ways.repair_repairs {ways : Ways α} :
    ∀ {above : Text} (fixSlash : Bool) (path : Text), ways.Sound above → path ≠ [] →
      Repairs ways.entries fixSlash path (ways.repair fixSlash path) := by
  intro above fixSlash path hways hne
  cases ways with
  | none => simp [Ways.repair, Repairs]
  | literal label next others =>
      obtain ⟨-, hnext, hothers, -⟩ := Ways.sound_literal.mp hways
      rw [Ways.entries_literal, Ways.repair_literal]
      apply Repairs.or
      · exact Node.repairAlong_repairs hnext fun rest => Node.repair_repairs fixSlash rest hnext
      · exact Ways.repair_repairs fixSlash path hothers hne
  | param name next =>
      have hnext := (Ways.sound_param.mp hways).2.1
      rw [Ways.entries_param, Ways.repair]
      split
      · next hsegment =>
          intro repaired hnear entry hentry hmatches
          obtain ⟨inner, -, rfl⟩ := List.mem_map.mp hentry
          have hfront := hnear.upTo_fromNext.1
          rw [hsegment] at hfront
          exact (matchesTokens_param.mp hmatches).1 hfront.eq_nil
      · next hsegment =>
          exact (Node.repair_repairs fixSlash _ hnext).under_param name hsegment
  | catchAll name value pattern =>
      rw [Ways.entries_catchAll, Ways.repair]
      exact ⟨Or.inl (Text.FoldEq.refl _), _, List.mem_singleton_self _, matchesTokens_catchAll⟩

end

theorem Tree.repair_repairs {tree : Tree α} (fixSlash : Bool) (path : Text) (hsound : tree.Sound) :
    Repairs tree.entries fixSlash path (tree.repair fixSlash path) := by
  cases tree with
  | empty => simp [Tree.repair, Tree.entries, Repairs]
  | root label node =>
      have hnode := hsound.2.2
      exact Node.repairAlong_repairs hnode fun rest => Node.repair_repairs fixSlash rest hnode

/-- Whether one of the routes matches a path that is near to `path`. -/
def Pattern.NearMatched (fixSlash : Bool) (routes : List (Text × α)) (path : Text) : Prop :=
  ∃ repaired, Text.Near fixSlash path repaired ∧ Matched routes repaired

namespace Tree.Holds

variable {tree : Tree α} {routes : List (Text × α)} {fixSlash : Bool} {path repaired : Text}

/-- A repaired path is near to the given one, and some route matches it. -/
theorem repair_sound (h : tree.Holds routes)
    (hrepair : tree.repair fixSlash path = some repaired) :
    Text.Near fixSlash path repaired ∧ Matched routes repaired := by
  have hrepairs := Tree.repair_repairs fixSlash path h.sound
  rw [hrepair] at hrepairs
  obtain ⟨hnear, entry, hentry, hmatches⟩ := hrepairs
  obtain ⟨route, hroute, rfl⟩ := h.mem_entries_iff.mp hentry
  exact ⟨hnear, route, hroute, hmatches⟩

/-- A path is repaired if and only if some route matches a path that is near to it. -/
theorem repair_isSome_iff (h : tree.Holds routes) (fixSlash : Bool) (path : Text) :
    (tree.repair fixSlash path).isSome = true ↔ NearMatched fixSlash routes path := by
  constructor
  · intro hsome
    obtain ⟨repaired, hrepair⟩ := Option.isSome_iff_exists.mp hsome
    exact ⟨repaired, h.repair_sound hrepair⟩
  · rintro ⟨repaired, hnear, route, hroute, hmatches⟩
    have hrepairs := Tree.repair_repairs fixSlash path h.sound
    cases hrepair : tree.repair fixSlash path with
    | some other => rfl
    | none =>
        rw [hrepair] at hrepairs
        exact (hrepairs repaired hnear _ (h.mem_entries_iff.mpr ⟨route, hroute, rfl⟩) hmatches).elim

end Tree.Holds

end RadixRouter
