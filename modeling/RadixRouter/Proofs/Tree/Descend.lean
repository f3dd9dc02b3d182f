import RadixRouter.Proofs.Tree.Children
import RadixRouter.Proofs.Tree.Insert

/-!
Registration at a child that is taken by its position. What becomes of the children is what
following the ways along the pattern comes to.
-/

namespace RadixRouter

open Pattern

variable {α : Type}

namespace Ways

/-! ### Along a label -/

theorem hasWildcard_rank (label : Text) (next : Node α) (others : Ways α) :
    (rank label next others).hasWildcard = others.hasWildcard := by
  cases others with
  | literal label' next' others =>
      rw [rank]
      split <;> rfl
  | none => rfl
  | param name next' => rfl
  | catchAll name value pattern => rfl

theorem putFront_eq {above label : Text} {index : Char} {others : Ways α} (next : Node α)
    (hothers : others.Sound above) (hhead : label.head? = some index) :
    Record.putFront (next.layout label .literal Option.none) index others.layouts others.indices
      = ((rank label next others).layouts, (rank label next others).indices) := by
  cases others with
  | literal label' next' others =>
      obtain ⟨hlabel', -, -, -⟩ := sound_literal.mp hothers
      obtain ⟨c, label', rfl⟩ := List.exists_cons_of_ne_nil hlabel'.ne_nil
      rw [rank]
      split
      · next hless => simp [Record.putFront, layouts, indices, hless, hhead]
      · next hless => simp [Record.putFront, layouts, indices, hless, hhead]
  | none => simp [Record.putFront, rank, layouts, indices, hhead]
  | param name next' => simp [Record.putFront, rank, layouts, indices, hhead]
  | catchAll name value pattern => simp [Record.putFront, rank, layouts, indices, hhead]

/-- What a registration along the label at `position` makes of the ways: `grown` is what it makes of
the label and the place behind it, and `ways'` are the ways afterwards. -/
structure Exchanged (above rest : Text) (value : α) (ways : Ways α) (position : Nat) (label : Text)
    (next : Node α) (grown : Text × Node α × Except RouteError Unit) (ways' : Ways α) : Prop where
  isLabel : Label label
  sound : next.Sound (above ++ label)
  head : label.head? = rest.head?
  index : position < ways.indices.length
  child : ways.layouts[position]? = some (next.layout label .literal Option.none)
  follow : ways.follow above value rest = some (ways', grown.2.2)
  wild : ways'.hasWildcard = ways.hasWildcard
  refused : ∀ fault, grown.2.2 = .error fault →
    ways'.indices = ways.indices
      ∧ ways'.layouts
        = ways.layouts.set position (grown.2.1.layout grown.1 .literal Option.none)
  accepted : ∀ place : Record α,
    Record.promote? grown.2.1.priority position { place with
        indices := ways.indices
        children := ways.layouts.set position (grown.2.1.layout grown.1 .literal Option.none) }
      = some { place with indices := ways'.indices, children := ways'.layouts }

/-- The first label goes along with the pattern. -/
theorem exchanged_head {above label rest : Text} {value : α} {next : Node α} {others : Ways α}
    (hways : (literal label next others).Sound above) (hfollows : Follows above rest)
    (hhead : label.head? = rest.head?) :
    Exchanged above rest value (literal label next others) 0 label next
      (Node.along above value rest label next (next.insert (above ++ label) value))
      (literal (Node.along above value rest label next (next.insert (above ++ label) value)).1
        (Node.along above value rest label next (next.insert (above ++ label) value)).2.1
        others) := by
  obtain ⟨hlabel, hnext, -, -⟩ := sound_literal.mp hways
  have hgrown := Node.along_grown value hlabel hnext hfollows hhead
    fun deeper hdeeper => Node.insert_grown value hnext hdeeper
  have hindices : (literal
      (Node.along above value rest label next (next.insert (above ++ label) value)).1
      (Node.along above value rest label next (next.insert (above ++ label) value)).2.1
      others).indices = (literal label next others).indices := by
    rw [indices, indices, hgrown.head]
  refine ⟨hlabel, hnext, hhead, ?_, by simp [layouts], ?_, rfl, ?_, ?_⟩
  · obtain ⟨c, label, rfl⟩ := List.exists_cons_of_ne_nil hlabel.ne_nil
    simp [indices]
  · rw [follow, if_pos hhead]
  · exact fun fault _ => ⟨hindices, by simp [layouts]⟩
  · intro place
    rw [hindices]
    simp [Record.promote?, layouts]

/-- A label behind the first one goes along with the pattern. -/
theorem Exchanged.behind {above label label' rest : Text} {value : α} {position : Nat}
    {next next' : Node α} {others ways' : Ways α} {grown : Text × Node α × Except RouteError Unit}
    (h : Exchanged above rest value others position label next grown ways')
    (hways : (literal label' next' others).Sound above) (hfollows : Follows above rest)
    (hne : rest ≠ []) (hhead : label'.head? ≠ rest.head?) :
    Exchanged above rest value (literal label' next' others) (position + 1) label next grown
      (rank label' next' ways') := by
  obtain ⟨hlabel', hnext', hothers, hfork⟩ := sound_literal.mp hways
  obtain ⟨index, label', rfl⟩ := List.exists_cons_of_ne_nil hlabel'.ne_nil
  have hgrown := follow_grown value hothers hfollows hne h.follow
  refine ⟨h.isLabel, h.sound, h.head, ?_, by simpa [layouts] using h.child, ?_, ?_, ?_, ?_⟩
  · simpa [indices] using Nat.succ_lt_succ h.index
  · have hothersFollow := h.follow
    simp only [Ways.follow, if_neg hhead, hothersFollow, Option.map_some]
  · rw [hasWildcard_rank, h.wild]
    rfl
  · intro fault hfault
    obtain ⟨hindices, hlayouts⟩ := h.refused fault hfault
    -- What is refused counts nowhere, so the first label stays where it is.
    rw [rank_eq_literal (by rw [hgrown.unchanged fault hfault]; exact hfork.ranked)]
    simp [indices, layouts, hindices, hlayouts]
  · intro place
    have hthere : position < others.layouts.length := (List.getElem?_eq_some_iff.mp h.child).1
    have hranked : ∀ earlier < position, ∀ before,
        (others.layouts.set position (grown.2.1.layout grown.1 .literal Option.none))[earlier]?
          = some before →
        before.record.priority
          ≤ (next'.layout (index :: label') .literal Option.none).record.priority := by
      intro earlier hearlier before hbefore
      rw [List.getElem?_set_ne (Nat.ne_of_gt hearlier), layouts_eq, List.getElem?_append_left
        (by rw [length_labelLayouts hothers]; exact Nat.lt_trans hearlier h.index)] at hbefore
      have hcount := hfork.ranked _ (priority_mem_counts before (List.mem_of_getElem? hbefore))
      cases before
      rwa [Node.priority_record]
    have hcons := Record.promote?_cons (next'.layout (index :: label') .literal Option.none) index
      (List.getElem?_set_self hthere) (Node.priority_record _ _ _ _) h.index hranked
      (h.accepted place)
    rw [putFront_eq next' hgrown.sound rfl] at hcons
    simpa [layouts, indices] using hcons

/-- A registration goes along the label whose index character begins the rest of the pattern. -/
theorem exists_exchanged {ways : Ways α} : ∀ {above rest : Text} (value : α) {c : Char}
    {position : Nat}, ways.Sound above → Follows above rest → rest.head? = some c →
    ways.indices.idxOf? c = some position →
    ∃ label next ways', Exchanged above rest value ways position label next
      (Node.along above value rest label next (next.insert (above ++ label) value)) ways' := by
  intro above rest value c position hways hfollows hrest hposition
  cases ways with
  | none => simp [indices] at hposition
  | literal label next others =>
      obtain ⟨hlabel, -, hothers, -⟩ := sound_literal.mp hways
      obtain ⟨d, label, rfl⟩ := List.exists_cons_of_ne_nil hlabel.ne_nil
      simp only [indices, List.head?_cons, Option.toList_some, List.singleton_append,
        List.idxOf?_cons] at hposition
      by_cases hsame : d = c
      · subst hsame
        simp only [beq_self_eq_true, ↓reduceIte, Option.some.injEq] at hposition
        subst hposition
        exact ⟨_, _, _, exchanged_head hways hfollows hrest.symm⟩
      · rw [if_neg (by simpa using hsame)] at hposition
        obtain ⟨behind, hbehind, rfl⟩ := Option.map_eq_some_iff.mp hposition
        obtain ⟨label', next', ways', hexchanged⟩ :=
          exists_exchanged value hothers hfollows hrest hbehind
        refine ⟨label', next', rank _ next ways', hexchanged.behind hways hfollows ?_ ?_⟩
        · rintro rfl
          contradiction
        · rw [hrest]
          simpa using hsame
  | param name next => simp [indices] at hposition
  | catchAll name value' pattern => simp [indices] at hposition

/-! ### Along the parameter -/

/-- A wildcard that is no catch-all is a parameter, and a registration along it leaves the labels as
they are. -/
theorem exists_param {ways : Ways α} : ∀ {above : Text}, ways.Sound above →
    ways.hasWildcard = true → ways.catchAll? = Option.none →
    ∃ (name : Text) (next : Node α), Name name ∧ next.Sound (above ++ ':' :: name)
      ∧ ways.wildLayout? = some (next.layout (':' :: name) .param (some name))
      ∧ ∀ (value : α) (rest : Text), Text.upTo '/' rest = ':' :: name → ∃ ways',
        ways.follow above value rest
            = some (ways', (next.insert (above ++ ':' :: name) value (Text.fromNext '/' rest)).2)
          ∧ ways'.indices = ways.indices ∧ ways'.counts = ways.counts
          ∧ ways'.hasWildcard = true
          ∧ ways'.layouts = ways.layouts.set (ways.layouts.length - 1)
            ((next.insert (above ++ ':' :: name) value (Text.fromNext '/' rest)).1.layout
              (':' :: name) .param (some name)) := by
  intro above hways hwild hcatch
  cases ways with
  | none => simp [hasWildcard] at hwild
  | literal label next others =>
      obtain ⟨hlabel, -, hothers, hfork⟩ := sound_literal.mp hways
      obtain ⟨name, next', hname, hnext', hlayout, hfollow⟩ := exists_param hothers hwild hcatch
      refine ⟨name, next', hname, hnext', hlayout, ?_⟩
      intro value rest hsame
      obtain ⟨ways', hothersFollow, hindices, hcounts, hwild', hlayouts⟩ := hfollow value rest hsame
      have hhead : label.head? ≠ rest.head? := by
        obtain ⟨c, label, rfl⟩ := List.exists_cons_of_ne_nil hlabel.ne_nil
        rw [eq_param_of_upTo hsame]
        intro heq
        cases heq
        simpa [isMark] using hlabel.plain ':' List.mem_cons_self
      have hstays : rank label next ways' = literal label next ways' :=
        rank_eq_literal (by rw [hcounts]; exact hfork.ranked)
      refine ⟨literal label next ways', ?_, ?_, ?_, hwild', ?_⟩
      · simp only [follow, if_neg hhead, hothersFollow, Option.map_some, hstays]
      · rw [indices, indices, hindices]
      · rw [counts, counts, hcounts]
      · have hne : others.layouts ≠ [] := by
          intro hnil
          rw [eq_none_of_layouts hnil] at hlayout
          simp [wildLayout?] at hlayout
        obtain ⟨count, hcount⟩ := Nat.exists_eq_succ_of_ne_zero
          (fun hzero => hne (List.length_eq_zero_iff.mp hzero))
        simp [layouts, hlayouts, hcount]
  | param name next =>
      obtain ⟨hname, hnext, -⟩ := sound_param.mp hways
      refine ⟨name, next, hname, hnext, rfl, ?_⟩
      intro value rest hsame
      refine ⟨param name (next.insert (above ++ ':' :: name) value (Text.fromNext '/' rest)).1, ?_,
        rfl, rfl, rfl, by simp [layouts]⟩
      rw [follow, if_pos hsame]
  | catchAll name value pattern => simp [catchAll?] at hcatch

/-- A pattern that goes on with no index character and not with the parameter follows no way. -/
theorem follow_eq_none {ways : Ways α} : ∀ {above rest : Text} {c : Char} (value : α),
    ways.Sound above → rest.head? = some c → c ∉ ways.indices →
    (∀ child ∈ ways.wildLayout?, child.record.kind = .param →
      Text.upTo '/' rest ≠ child.record.segment) →
    ways.follow above value rest = Option.none := by
  intro above rest c value hways hrest hapart hwild
  cases ways with
  | none => rfl
  | literal label next others =>
      obtain ⟨hlabel, -, hothers, -⟩ := sound_literal.mp hways
      simp only [indices, List.mem_append, Option.mem_toList, not_or] at hapart
      obtain ⟨hlabelApart, hothersApart⟩ := hapart
      have hhead : label.head? ≠ rest.head? := by rwa [hrest]
      rw [follow, if_neg hhead, follow_eq_none value hothers hrest hothersApart hwild]
      rfl
  | param name next =>
      have hother : Text.upTo '/' rest ≠ ':' :: name := by
        cases next
        exact hwild _ rfl (by simp)
      rw [follow, if_neg hother]
  | catchAll name value' pattern => rfl

end Ways

end RadixRouter
