import RadixRouter.Proofs.Tree.Descend

/-!
Where the pattern has been followed to a place: registering what is left of it, field by field,
comes to what registering it at the place comes to.
-/

namespace RadixRouter

open Pattern

variable {α : Type}

namespace Record

/-- Whether the rest of a pattern goes on with a wildcard is seen from its first element. -/
theorem goesOnWith?_eq {wildcard : Text} (hslash : '/' ∉ wildcard) (rest : Text) :
    goesOnWith? wildcard rest = some (decide (Text.upTo '/' rest = wildcard)) := by
  by_cases hbegins : wildcard <+: rest
  · obtain ⟨behind, rfl⟩ := hbegins
    have hends : behind.head?.all (· = '/')
        = decide (Text.upTo '/' (wildcard ++ behind) = wildcard) := by
      cases behind with
      | nil =>
          have hwhole := upTo_append hslash (by simp [ElementEnds] : ElementEnds [])
          rw [List.append_nil] at hwhole
          simp [hwhole]
      | cons c behind =>
          by_cases hc : c = '/'
          · simp [hc, upTo_append hslash (by simp [ElementEnds] : ElementEnds ('/' :: behind))]
          · have hnot : Text.upTo '/' (wildcard ++ c :: behind) ≠ wildcard := by
              intro heq
              have hwhole := Text.upTo_append_fromNext '/' (wildcard ++ c :: behind)
              rw [heq] at hwhole
              have hends := elementEnds_fromNext (wildcard ++ c :: behind)
              rw [List.append_cancel_left hwhole] at hends
              exact hc (hends c rfl)
            simp [hc, hnot]
    simp only [goesOnWith?, List.isPrefixOf_iff_prefix.mpr (List.prefix_append wildcard behind),
      ↓reduceIte, Text.fromByte?_append, Option.bind_eq_bind, Option.bind_some, hends]
  · have hnot : Text.upTo '/' rest ≠ wildcard := by
      rintro rfl
      exact hbegins (List.takeWhile_prefix _)
    have hprefix : ¬ wildcard.isPrefixOf rest = true := by
      rwa [List.isPrefixOf_iff_prefix]
    rw [goesOnWith?, if_neg hprefix, decide_eq_false hnot]

theorem head?_upTo {rest : Text} {c : Char} (hhead : rest.head? = some c) :
    (Text.upTo '/' rest).head? = if c = '/' then none else some c := by
  obtain ⟨rest, rfl⟩ := List.head?_eq_some_iff.mp hhead
  by_cases hc : c = '/' <;> simp [Text.upTo, hc]

/-- Whether `register` does at the children of a place what registering `rest` there comes to. -/
structure Agrees (above rest : Text) (value : α)
    (register : Layout α → Option (Layout α × Except RouteError Unit)) : Prop where
  label : ∀ (label : Text) (next : Node α), Label label → next.Sound (above ++ label) →
    label.head? = rest.head? →
    register (next.layout label .literal none)
      = some
        ((Node.along above value rest label next (next.insert (above ++ label) value)).2.1.layout
          (Node.along above value rest label next (next.insert (above ++ label) value)).1 .literal
          none,
          (Node.along above value rest label next (next.insert (above ++ label) value)).2.2)
  param : ∀ (name : Text) (next : Node α), Name name → next.Sound (above ++ ':' :: name) →
    Text.upTo '/' rest = ':' :: name →
    register (next.layout (':' :: name) .param (some name))
      = some
        ((next.insert (above ++ ':' :: name) value (Text.fromNext '/' rest)).1.layout (':' :: name)
          .param (some name),
          (next.insert (above ++ ':' :: name) value (Text.fromNext '/' rest)).2)

section Place

variable (segment : Text) (kind : NodeKind) (name : Option Text) {above rest pattern : Text}
  {value : α} {held : Option α} {priority : Nat} {ways : Ways α}
  {register : Layout α → Option (Layout α × Except RouteError Unit)}

/-- A child that was there is registered at. -/
theorem addLiteral?_of_index {c : Char} {position : Nat}
    (hsound : (Node.mk held pattern priority ways).Sound above) (hfollows : Follows above rest)
    (hagrees : Agrees above rest value register) (hhead : rest.head? = some c)
    (hposition : ways.indices.idxOf? c = some position) :
    ((Node.mk held pattern priority ways).layout segment kind name).record.addLiteral? register
        (above ++ rest) value c rest
      = some ((((Node.mk held pattern priority ways).insert above value rest).1.layout segment kind
          name).record, ((Node.mk held pattern priority ways).insert above value rest).2) := by
  have hne : rest ≠ [] := by
    rintro rfl
    contradiction
  obtain ⟨label, next, ways', hexchanged⟩ :=
    Ways.exists_exchanged value (Node.sound_mk.mp hsound).2 hfollows hhead hposition
  have hregister := hagrees.label label next hexchanged.isLabel hexchanged.sound hexchanged.head
  have hfollow := hexchanged.follow
  generalize Node.along above value rest label next (next.insert (above ++ label) value) = grown
    at hexchanged hregister hfollow
  obtain ⟨label', next', result⟩ := grown
  have hthere := (List.getElem?_eq_some_iff.mp hexchanged.child).1
  rw [Node.insert, if_neg hne, hfollow]
  cases result with
  | ok _ =>
      have hpromote := hexchanged.accepted
        ⟨segment, kind, name, ways.hasWildcard, [], [], priority + 1, held, pattern⟩
      simp only [addLiteral?, descend?, reorder?, Node.record_layout, hposition, hexchanged.child,
        hregister, Option.bind_eq_bind, Option.bind_some, counted, List.getElem?_set_self hthere,
        Node.priority_record, hpromote, hexchanged.wild]
  | error fault =>
      obtain ⟨hindices, hlayouts⟩ := hexchanged.refused fault rfl
      simp only [addLiteral?, descend?, Node.record_layout, hposition, hexchanged.child, hregister,
        Option.bind_eq_bind, Option.bind_some, hindices, hlayouts, hexchanged.wild]

/-- A new child is put behind the other labels, and stays there. -/
theorem addLiteral?_of_apart {c : Char} (hsound : (Node.mk held pattern priority ways).Sound above)
    (hhead : rest.head? = some c) (hc : isMark c = false)
    (hposition : ways.indices.idxOf? c = none) :
    ((Node.mk held pattern priority ways).layout segment kind name).record.addLiteral? register
        (above ++ rest) value c rest
      = some ((((Node.mk held pattern priority ways).insert above value rest).1.layout segment kind
          name).record, ((Node.mk held pattern priority ways).insert above value rest).2) := by
  have hne : rest ≠ [] := by
    rintro rfl
    contradiction
  have hways := (Node.sound_mk.mp hsound).2
  have hfollow : ways.follow above value rest = none := by
    apply Ways.follow_eq_none value hways hhead (List.idxOf?_eq_none_iff.mp hposition)
    intro child hchild hkind hsame
    have hcolon := Ways.head?_of_mem_wildLayout? child hchild hkind
    rw [← hsame, head?_upTo hhead] at hcolon
    split at hcolon
    · contradiction
    · cases hcolon
      contradiction
  have hunmarked : rest.head?.any isMark = false := by simp [hhead, hc]
  have hchild := catchAllChild?_eq segment kind name (.mk held pattern priority ways)
  rw [Node.insert, if_neg hne, hfollow]
  simp only [Node.sprout, hunmarked, Bool.false_eq_true, ↓reduceIte]
  cases hcatch : ways.catchAll? with
  | some existing =>
      obtain ⟨name', value', noted⟩ := existing
      simp only [Node.ways, hcatch, Option.map_some, Option.map_eq_some_iff] at hchild
      obtain ⟨child, hchild, hnoted⟩ := hchild
      rw [Node.record_layout] at hchild ⊢
      simp only [addLiteral?, hposition, hchild, hnoted]
  | none =>
      simp only [Node.ways, hcatch, Option.map_none, Option.map_eq_none_iff] at hchild
      obtain ⟨label, next, hchain, hlabel, hone, hled⟩ := led_blank (above ++ rest) value hhead hc
      have hgrow : (blank .literal (above ++ rest)).grow? (above ++ rest) value rest
          = some (next.layout label .literal none).record := by
        rw [grow?_eq, hled]
      obtain ⟨hindices, hwild, hlayouts⟩ := Ways.graft_literal label next hways
      have hpriority : (next.layout label .literal none).record.priority = 1 := by
        rw [Node.priority_record, hone]
      have hreorder := reorder?_insertIdx hways hpriority
        ⟨segment, kind, name, ways.hasWildcard, ways.indices ++ [c],
          ways.layouts.insertIdx ways.indices.length (next.layout label .literal none),
          priority + 1, held, pattern⟩ rfl
      rw [Node.record_layout] at hchild ⊢
      simp only [addLiteral?, hposition, hchild, hgrow, Layout.layout_record, counted,
        Option.bind_eq_bind, Option.bind_some, hreorder, hchain, Node.record_layout, hindices,
        hwild, hlayouts, hlabel, Option.toList_some]

/-- A wildcard that was there is registered at, or quoted. -/
theorem addWildcard?_of_hasWildcard {d : Char}
    (hsound : (Node.mk held pattern priority ways).Sound above)
    (hagrees : Agrees above rest value register) (hhead : rest.head? = some d)
    (hd : isMark d = true) (hwild : ways.hasWildcard = true) :
    ((Node.mk held pattern priority ways).layout segment kind name).record.addWildcard? register
        (above ++ rest) value (Text.byteLength above) rest
      = some ((((Node.mk held pattern priority ways).insert above value rest).1.layout segment kind
          name).record, ((Node.mk held pattern priority ways).insert above value rest).2) := by
  have hne : rest ≠ [] := by
    rintro rfl
    contradiction
  have hways := (Node.sound_mk.mp hsound).2
  have hmarked : rest.head?.any isMark = true := by simp [hhead, hd]
  have hwildcard := Ways.wildcard?_eq ways
  rw [Node.insert, if_neg hne, Node.record_layout]
  simp only [addWildcard?, hwild, ↓reduceIte, Ways.getLast?_layouts hwild]
  cases hcatch : ways.catchAll? with
  | some existing =>
      obtain ⟨name', value', noted, rfl⟩ := Ways.eq_catchAll_of_catchAll? hways hcatch
      obtain ⟨hname, -⟩ := Ways.sound_catchAll.mp hways
      have hslash : '/' ∉ '*' :: name' := by simp [hname.no_slash]
      by_cases hsame : Text.upTo '/' rest = '*' :: name'
      · simp [Ways.wildLayout?, Ways.layouts, goesOnWith?_eq hslash, hsame, Ways.follow,
          Node.sprout, hmarked, Ways.wildcard?, Node.wildcardFault, hwild]
      · simp [Ways.wildLayout?, Ways.layouts, goesOnWith?_eq hslash, hsame, Ways.follow,
          Node.sprout, hmarked, Ways.wildcard?, Node.wildcardFault, hwild, Text.upToByte?_append]
  | none =>
      obtain ⟨name', next, hname, hnext, hlayout, hfollow⟩ := Ways.exists_param hways hwild hcatch
      have hslash : '/' ∉ ':' :: name' := by simp [hname.no_slash]
      by_cases hsame : Text.upTo '/' rest = ':' :: name'
      · obtain ⟨ways', hfollow, hindices, -, hwild', hlayouts⟩ := hfollow value rest hsame
        have hlast : ways.layouts[ways.layouts.length - 1]?
            = some (next.layout (':' :: name') .param (some name')) := by
          rw [← List.getLast?_eq_getElem?, Ways.getLast?_layouts hwild, hlayout]
        simp only [hlayout, Node.segment_record, Node.kind_record, goesOnWith?_eq hslash, hsame,
          descend?, hlast, hagrees.param name' next hname hnext hsame, Option.bind_eq_bind,
          Option.bind_some, decide_true, reduceCtorEq, decide_false, Bool.and_false,
          Bool.false_eq_true, ↓reduceIte, hfollow]
        cases (next.insert (above ++ ':' :: name') value (Text.fromNext '/' rest)).2 with
        | ok _ => simp [counted, hindices, hwild', hlayouts]
        | error fault => simp [hindices, hwild', hlayouts]
      · have hnone : ways.follow above value rest = none := by
          apply Ways.follow_eq_none value hways hhead (Ways.not_mem_indices_of_isMark hways hd)
          intro child hchild _
          rw [hlayout] at hchild
          cases hchild
          rwa [Node.segment_record]
        rw [hlayout, Option.map_some, Node.segment_record, Node.kind_record] at hwildcard
        simp [hlayout, goesOnWith?_eq hslash, hsame, Text.upToByte?_append, hnone,
          Node.sprout, hmarked, hwildcard, Node.wildcardFault, hwild]

/-- A new wildcard is put behind the labels, unless it is a catch-all that does not tolerate what is
there. -/
theorem addWildcard?_of_no_wildcard {d : Char}
    (hsound : (Node.mk held pattern priority ways).Sound above) (hhead : rest.head? = some d)
    (hd : isMark d = true) (hwild : ways.hasWildcard = false) :
    ((Node.mk held pattern priority ways).layout segment kind name).record.addWildcard? register
        (above ++ rest) value (Text.byteLength above) rest
      = some ((((Node.mk held pattern priority ways).insert above value rest).1.layout segment kind
          name).record, ((Node.mk held pattern priority ways).insert above value rest).2) := by
  have hne : rest ≠ [] := by
    rintro rfl
    contradiction
  have hways := (Node.sound_mk.mp hsound).2
  have hmarked : rest.head?.any isMark = true := by simp [hhead, hd]
  have hlayout : ways.wildLayout? = none := by
    rwa [Ways.hasWildcard_eq, Option.isSome_eq_false_iff, Option.isNone_iff_eq_none] at hwild
  have hwildcard : ways.wildcard? = none := by rw [Ways.wildcard?_eq, hlayout, Option.map_none]
  have hfollow : ways.follow above value rest = none := by
    apply Ways.follow_eq_none value hways hhead (Ways.not_mem_indices_of_isMark hways hd)
    simp [hlayout]
  have hfault := mountFault?_eq above rest segment kind name (.mk held pattern priority ways)
  obtain ⟨hchainWild, hchainIndices⟩ := chain_fields_of_isMark (above ++ rest) value hhead hd
  obtain ⟨hindices, hgraftWild, hlayouts⟩ :=
    Ways.graft_wildcard hwild hchainIndices hchainWild
  rw [Node.insert, if_neg hne, hfollow]
  rw [Node.record_layout, hwild] at hfault ⊢
  simp only [addWildcard?, Bool.false_eq_true, ↓reduceIte, hfault, Node.sprout, hmarked, hwildcard]
  cases Node.mountFault? above rest (.mk held pattern priority ways) with
  | some fault => simp only [Node.record_layout, hwild]
  | none =>
      simp only [grow?_eq, led_of_isMark (above ++ rest) value hhead hd, counted,
        Option.bind_eq_bind, Option.bind_some, Node.record_layout, hindices, hgraftWild, hlayouts]

/-- What registering at a place comes to, field by field. -/
theorem addRest?_eq (hsound : (Node.mk held pattern priority ways).Sound above)
    (hfollows : Follows above rest) (hne : rest ≠ [])
    (hagrees : Agrees above rest value register) :
    ((Node.mk held pattern priority ways).layout segment kind name).record.addRest? register
        (above ++ rest) value (Text.byteLength above) rest
      = some ((((Node.mk held pattern priority ways).insert above value rest).1.layout segment kind
          name).record, ((Node.mk held pattern priority ways).insert above value rest).2) := by
  obtain ⟨c, hhead⟩ : ∃ c, rest.head? = some c :=
    ⟨_, List.head?_eq_some_head hne⟩
  simp only [addRest?, hhead]
  cases hc : isMark c with
  | false =>
      simp only [Bool.false_eq_true, ↓reduceIte]
      cases hposition : ways.indices.idxOf? c with
      | some position => exact addLiteral?_of_index _ _ _ hsound hfollows hagrees hhead hposition
      | none => exact addLiteral?_of_apart _ _ _ hsound hhead hc hposition
  | true =>
      simp only [↓reduceIte]
      cases hwild : ways.hasWildcard with
      | true => exact addWildcard?_of_hasWildcard _ _ _ hsound hagrees hhead hc hwild
      | false => exact addWildcard?_of_no_wildcard _ _ _ hsound hhead hc hwild

end Place

end Record

end RadixRouter
