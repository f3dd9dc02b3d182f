import RadixRouter.Proofs.Tree.Record

/-!
The children of a place by their positions: which one is the wildcard, where a new label is put, and
where a child goes that leads to one route more.
-/

namespace RadixRouter

open Pattern

variable {α : Type}

namespace Ways

/-! ### The wildcard and the first child -/

theorem getLast?_layouts {ways : Ways α} (h : ways.hasWildcard = true) :
    ways.layouts.getLast? = ways.wildLayout? := by
  rw [hasWildcard_eq] at h
  obtain ⟨wild, hwild⟩ := Option.isSome_iff_exists.mp h
  rw [layouts_eq, hwild, Option.toList_some, List.getLast?_concat]

theorem wildLayout?_filter (ways : Ways α) :
    (ways.wildLayout?.filter (·.record.kind = .catchAll)).map (·.record.pattern)
      = ways.catchAll?.map (·.2.2) := by
  cases ways with
  | none => rfl
  | literal label next others => exact wildLayout?_filter others
  | param name next =>
      cases next
      simp [wildLayout?, layouts, catchAll?]
  | catchAll name value pattern => simp [wildLayout?, layouts, catchAll?, Option.filter]

/-- The wildcard as it is read off the last child. -/
theorem wildcard?_eq (ways : Ways α) :
    ways.wildcard?
      = ways.wildLayout?.map fun child =>
          (child.record.segment, decide (child.record.kind = .catchAll)) := by
  cases ways with
  | none => rfl
  | literal label next others => exact wildcard?_eq others
  | param name next =>
      cases next
      simp [wildcard?, wildLayout?, layouts]
  | catchAll name value pattern => simp [wildcard?, wildLayout?, layouts]

theorem firstPattern?_eq (ways : Ways α) :
    ways.firstPattern? = ways.layouts.head?.map (·.record.pattern) := by
  cases ways with
  | none => rfl
  | literal label next others =>
      cases next
      simp [firstPattern?, layouts, Node.pattern]
  | param name next =>
      cases next
      simp [firstPattern?, layouts, Node.pattern]
  | catchAll name value pattern => simp [firstPattern?, layouts]

/-- A catch-all among sound ways is the only one. -/
theorem eq_catchAll_of_catchAll? {ways : Ways α} {above : Text} {existing : Text × α × Text}
    (hways : ways.Sound above) (hcatch : ways.catchAll? = some existing) :
    ∃ name value pattern, ways = catchAll name value pattern := by
  cases ways with
  | none => simp [catchAll?] at hcatch
  | literal label next others =>
      have halone := (sound_literal.mp hways).2.2.2.alone
      rw [catchAll?, halone] at hcatch
      contradiction
  | param name next => simp [catchAll?] at hcatch
  | catchAll name value pattern => exact ⟨name, value, pattern, rfl⟩

/-- The segment of a parameter begins with its mark. -/
theorem head?_of_mem_wildLayout? {ways : Ways α} :
    ∀ child ∈ ways.wildLayout?, child.record.kind = .param →
      child.record.segment.head? = some ':' := by
  intro child hchild hkind
  cases ways with
  | none => simp [wildLayout?] at hchild
  | literal label next others => exact @head?_of_mem_wildLayout? others child hchild hkind
  | param name next =>
      cases next
      cases hchild
      simp
  | catchAll name value pattern =>
      cases hchild
      simp at hkind

/-- No index character begins a wildcard. -/
theorem not_mem_indices_of_isMark {ways : Ways α} : ∀ {above : Text} {c : Char},
    ways.Sound above → isMark c = true → c ∉ ways.indices := by
  intro above c hways hc hmem
  cases ways with
  | none => simp [indices] at hmem
  | literal label next others =>
      obtain ⟨hlabel, -, hothers, -⟩ := sound_literal.mp hways
      simp only [indices, List.mem_append, Option.mem_toList] at hmem
      rcases hmem with hhead | hmem
      · have hplain := hlabel.plain c (List.mem_of_mem_head? hhead)
        rw [hc] at hplain
        contradiction
      · exact not_mem_indices_of_isMark hothers hc hmem
  | param name next => simp [indices] at hmem
  | catchAll name value pattern => simp [indices] at hmem

/-! ### New ways -/

theorem one_le_of_mem_counts {ways : Ways α} : ∀ {above : Text}, ways.Sound above →
    ∀ count ∈ ways.counts, 1 ≤ count := by
  intro above hways count hcount
  cases ways with
  | none => simp [counts] at hcount
  | literal label next others =>
      obtain ⟨-, hnext, hothers, -⟩ := sound_literal.mp hways
      simp only [counts, List.mem_cons] at hcount
      rcases hcount with rfl | hcount
      · exact hnext.priority_pos
      · exact one_le_of_mem_counts hothers count hcount
  | param name next => simp [counts] at hcount
  | catchAll name value pattern => simp [counts] at hcount

theorem length_labelLayouts {ways : Ways α} {above : Text} (hways : ways.Sound above) :
    ways.labelLayouts.length = ways.indices.length := by
  simpa using congrArg List.length (indices_eq hways)

/-- A new label is put behind the other labels. -/
theorem graft_literal {ways : Ways α} (label : Text) (next : Node α) :
    ∀ {above : Text}, ways.Sound above →
      (ways.graft (literal label next none)).indices = ways.indices ++ label.head?.toList
        ∧ (ways.graft (literal label next none)).hasWildcard = ways.hasWildcard
        ∧ (ways.graft (literal label next none)).layouts
          = ways.layouts.insertIdx ways.indices.length
            (next.layout label .literal Option.none) := by
  intro above hways
  cases ways with
  | none => simp [graft, indices, hasWildcard, layouts]
  | literal label' next' others =>
      obtain ⟨hlabel, -, hothers, -⟩ := sound_literal.mp hways
      obtain ⟨hindices, hwild, hlayouts⟩ := graft_literal label next hothers
      obtain ⟨c, label', rfl⟩ := List.exists_cons_of_ne_nil hlabel.ne_nil
      simp [graft, indices, hasWildcard, layouts, hindices, hwild, hlayouts]
  | param name next' => simp [graft, indices, hasWildcard, layouts]
  | catchAll name value pattern => simp [graft, indices, hasWildcard, layouts]

/-- A wildcard is put behind the labels. -/
theorem graft_wildcard {ways more : Ways α} (hnone : ways.hasWildcard = false)
    (hindices : more.indices = []) (hmore : more.hasWildcard = true) :
    (ways.graft more).indices = ways.indices ∧ (ways.graft more).hasWildcard = true
      ∧ (ways.graft more).layouts = ways.layouts ++ more.layouts := by
  cases ways with
  | none => simp [graft, layouts, hindices, hmore, Ways.indices]
  | literal label next others =>
      obtain ⟨hothers, hwild, hlayouts⟩ := @graft_wildcard others more hnone hindices hmore
      simp [graft, Ways.indices, hasWildcard, layouts, hothers, hwild, hlayouts]
  | param name next => simp [hasWildcard] at hnone
  | catchAll name value pattern => simp [hasWildcard] at hnone

end Ways

namespace Record

/-! ### Reading off a place -/

theorem catchAllChild?_eq (segment : Text) (kind : NodeKind) (name : Option Text) (node : Node α) :
    (node.layout segment kind name).record.catchAllChild?.map (·.record.pattern)
      = node.ways.catchAll?.map (·.2.2) := by
  cases node with
  | mk held pattern priority ways =>
      rw [Node.record_layout, catchAllChild?, Node.ways, ← Ways.wildLayout?_filter]
      cases hwild : ways.hasWildcard with
      | true => simp only [↓reduceIte, Ways.getLast?_layouts hwild]
      | false =>
          rw [Ways.hasWildcard_eq, Option.isSome_eq_false_iff, Option.isNone_iff_eq_none] at hwild
          simp [hwild]

/-- The end of a route claims the place that is laid out. -/
theorem claim_eq (above : Text) (value : α) (segment : Text) (kind : NodeKind) (name : Option Text)
    (node : Node α) :
    (node.layout segment kind name).record.claim above value
      = (((node.claim above value).1.layout segment kind name).record,
          (node.claim above value).2) := by
  have hchild := catchAllChild?_eq segment kind name node
  cases node with
  | mk held pattern priority ways =>
      cases held with
      | some old => simp [claim, Node.claim]
      | none =>
          cases hcatch : ways.catchAll? with
          | none =>
              simp only [Node.ways, hcatch, Option.map_none, Option.map_eq_none_iff] at hchild
              simp only [claim, hchild, Node.claim, hcatch]
              simp [counted]
          | some existing =>
              obtain ⟨name', value', noted⟩ := existing
              simp only [Node.ways, hcatch, Option.map_some, Option.map_eq_some_iff] at hchild
              obtain ⟨child, hchild, hnoted⟩ := hchild
              simp only [claim, hchild, hnoted, Node.claim, hcatch]
              simp

theorem mountFault?_eq (above rest segment : Text) (kind : NodeKind) (name : Option Text)
    (node : Node α) :
    (if rest.head? = some '*' then
        (node.layout segment kind name).record.mountFault? (above ++ rest) else none)
      = node.mountFault? above rest := by
  cases node with
  | mk held pattern priority ways =>
      rw [Node.record_layout, Node.mountFault?, mountFault?, Ways.firstPattern?_eq]
      cases ways.layouts.head? <;> rfl

/-! ### The order of the children -/

/-- A child that leads to no more routes than the one in front of it stays. -/
theorem promote?_eq_self {priority position : Nat} {place : Record α}
    (hbefore : ∀ before, position ≠ 0 → place.children[position - 1]? = some before →
      priority ≤ before.record.priority)
    (hthere : position ≤ place.children.length) :
    promote? priority position place = some place := by
  cases position with
  | zero => rfl
  | succ position =>
      have hread := List.getElem?_eq_getElem (Nat.lt_of_succ_le hthere)
      have hle := hbefore _ (Nat.succ_ne_zero position) hread
      simp only [promote?, hread, Option.bind_eq_bind, Option.bind_some,
        if_neg (Nat.not_lt_of_le hle)]

/-- A new child behind the labels leads to no more routes than they do, and stays there. -/
theorem reorder?_insertIdx {ways : Ways α} {above : Text} (hways : ways.Sound above)
    {child : Layout α} (hone : child.record.priority = 1) (place : Record α)
    (hchildren : place.children = ways.layouts.insertIdx ways.indices.length child) :
    reorder? ways.indices.length place = some place := by
  have hlength : ways.indices.length ≤ ways.layouts.length := by
    rw [Ways.layouts_eq, List.length_append, Ways.length_labelLayouts hways]
    exact Nat.le_add_right _ _
  have hread : place.children[ways.indices.length]? = some child := by
    rw [hchildren, List.getElem?_insertIdx_self, if_pos hlength]
  simp only [reorder?, hread, Option.bind_eq_bind, Option.bind_some]
  apply promote?_eq_self
  · intro before hne hbefore
    have hlast : ways.indices.length - 1 < ways.indices.length :=
      Nat.sub_one_lt hne
    rw [hchildren, List.getElem?_insertIdx_of_lt hlast, Ways.layouts_eq, List.getElem?_append_left
      (by rwa [Ways.length_labelLayouts hways])] at hbefore
    have hcount := Ways.one_le_of_mem_counts hways _
      (Ways.priority_mem_counts before (List.mem_of_getElem? hbefore))
    rw [hone]
    cases before
    exact hcount
  · rw [hchildren, List.length_insertIdx_of_le_length hlength]
    exact Nat.le_succ_of_le hlength

/-- Puts a child with its index character in front of others, or behind the first of them if that
one leads to more routes. -/
def putFront (child : Layout α) (index : Char) : List (Layout α) → Text → List (Layout α) × Text
  | first :: children, firstIndex :: indices =>
      if child.record.priority < first.record.priority then
        (first :: child :: children, firstIndex :: index :: indices)
      else (child :: first :: children, index :: firstIndex :: indices)
  | children, indices => (child :: children, index :: indices)

/-- One more child in front: the moved child passes it only after it has passed all others. -/
theorem promote?_cons {priority position : Nat} (child : Layout α) (index : Char)
    {moved : Layout α} {children children' : List (Layout α)} {indices indices' : Text}
    {place : Record α}
    (hmoved : children[position]? = some moved) (hpriority : moved.record.priority = priority)
    (hindices : position < indices.length)
    (hranked : ∀ earlier < position, ∀ before, children[earlier]? = some before →
      before.record.priority ≤ child.record.priority)
    (hpromote : promote? priority position { place with indices := indices, children := children }
      = some { place with indices := indices', children := children' }) :
    promote? priority (position + 1)
        { place with indices := index :: indices, children := child :: children }
      = some { place with
          indices := (putFront child index children' indices').2
          children := (putFront child index children' indices').1 } := by
  -- Every exchange moves the child one place on, so the induction is on how far it has come, over
  -- whatever the exchanges before made of the others.
  induction position generalizing children indices with
  | zero =>
      cases hpromote
      obtain ⟨firstIndex, indices, rfl⟩ := List.exists_cons_of_length_pos hindices
      cases children' with
      | nil => simp at hmoved
      | cons first children' =>
          cases hmoved
          by_cases hless : child.record.priority < priority
          · simp [promote?, putFront, hless, hpriority]
          · simp [promote?, putFront, hless, hpriority]
  | succ position ih =>
      have hthere : position < children.length :=
        Nat.lt_of_succ_lt (List.getElem?_eq_some_iff.mp hmoved).1
      obtain ⟨before, hread⟩ : ∃ before, children[position]? = some before :=
        ⟨_, List.getElem?_eq_getElem hthere⟩
      obtain ⟨beforeIndex, hreadIndex⟩ : ∃ i, indices[position]? = some i :=
        ⟨_, List.getElem?_eq_getElem (Nat.lt_of_succ_lt hindices)⟩
      obtain ⟨movedIndex, hmovedIndex⟩ : ∃ i, indices[position + 1]? = some i :=
        ⟨_, List.getElem?_eq_getElem hindices⟩
      by_cases hless : before.record.priority < priority
      · simp only [promote?, hread, hmoved, hreadIndex, hmovedIndex, Option.bind_eq_bind,
          Option.bind_some, if_pos hless] at hpromote
        have hthereNow : ((children.set position moved).set (position + 1) before)[position]?
            = some moved := by simp [hthere]
        have hindicesNow : position
            < ((indices.set position movedIndex).set (position + 1) beforeIndex).length := by
          simpa using Nat.lt_of_succ_lt hindices
        have hrankedNow : ∀ earlier < position, ∀ other,
            ((children.set position moved).set (position + 1) before)[earlier]? = some other →
              other.record.priority ≤ child.record.priority := by
          intro earlier hearlier other hother
          rw [List.getElem?_set_ne (by omega), List.getElem?_set_ne (by omega)] at hother
          exact hranked earlier (Nat.lt_succ_of_lt hearlier) other hother
        rw [promote?]
        simp only [List.getElem?_cons_succ, hread, hmoved, hreadIndex, hmovedIndex,
          Option.bind_eq_bind, Option.bind_some, if_pos hless, List.set_cons_succ]
        exact ih hthereNow hindicesNow hrankedNow hpromote
      · simp only [promote?, hread, Option.bind_eq_bind, Option.bind_some, if_neg hless,
          Option.some.injEq] at hpromote
        cases hpromote
        obtain ⟨firstIndex, indices', rfl⟩ :=
          List.exists_cons_of_length_pos (Nat.zero_lt_of_lt hindices)
        obtain ⟨first, children', rfl⟩ :=
          List.exists_cons_of_length_pos (Nat.zero_lt_of_lt hthere)
        have hfirst := hranked 0 (Nat.succ_pos position) first rfl
        rw [promote?, putFront, if_neg (Nat.not_lt_of_le hfirst)]
        simp only [List.getElem?_cons_succ, hread, Option.bind_eq_bind, Option.bind_some,
          if_neg hless]

end Record

end RadixRouter
