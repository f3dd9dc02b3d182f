import RadixRouter.Proofs.Tree.Repair

/-!
What a refused registration may leave behind: a label that was cut in two on the way to the
conflict. Neither a repair nor the list of patterns can tell such a tree from the one before.
-/

namespace RadixRouter

variable {α : Type}

/-- Whether the second ways are the first ones but for a label that has been cut in two. -/
inductive Ways.Recut : Ways α → Ways α → Prop where
  | refl (ways : Ways α) : Recut ways ways
  | cut {front tail : Text} (pattern : Text) (next : Node α) (others : Ways α) (front_ne : front ≠ [])
      (tail_ne : tail ≠ []) :
      Recut (.literal (front ++ tail) next others)
        (.literal front (next.split pattern tail) others)
  | next {ways ways' : Ways α} (label : Text) (held : Option α) (pattern : Text) (priority : Nat)
      (others : Ways α) (deeper : Recut ways ways') :
      Recut (.literal label (.mk held pattern priority ways) others)
        (.literal label (.mk held pattern priority ways') others)
  | others {others others' : Ways α} (label : Text) (next : Node α) (deeper : Recut others others') :
      Recut (.literal label next others) (.literal label next others')
  | param {ways ways' : Ways α} (name : Text) (held : Option α) (pattern : Text) (priority : Nat)
      (deeper : Recut ways ways') :
      Recut (.param name (.mk held pattern priority ways))
        (.param name (.mk held pattern priority ways'))

/-- Whether the second place is the first one but for a label behind it. -/
inductive Node.Recut : Node α → Node α → Prop where
  | mk {ways ways' : Ways α} (held : Option α) (pattern : Text) (priority : Nat)
      (deeper : ways.Recut ways') :
      Recut (.mk held pattern priority ways) (.mk held pattern priority ways')

theorem Node.Recut.refl (node : Node α) : node.Recut node := by
  cases node with
  | mk held pattern priority ways => exact Recut.mk held pattern priority (Ways.Recut.refl ways)

theorem Ways.Recut.of_next {next next' : Node α} (label : Text) (others : Ways α)
    (h : next.Recut next') : Recut (.literal label next others) (.literal label next' others) := by
  cases h with
  | mk held pattern priority deeper => exact Recut.next label held pattern priority others deeper

theorem Ways.Recut.of_param {next next' : Node α} (name : Text) (h : next.Recut next') :
    Recut (.param name next) (.param name next') := by
  cases h with
  | mk held pattern priority deeper => exact Recut.param name held pattern priority deeper

/-! ### What a cut does not change -/

namespace Node

/-- A path along a label may be repaired one character at a time. -/
theorem repairAlong_cons {fixSlash : Bool} {label path : Text} {node : Node α} (c d : Char)
    (deeper : Text → Option Text) :
    repairAlong fixSlash (c :: label) node (d :: path) deeper
      = if foldsTo d c then (repairAlong fixSlash label node path deeper).map (c :: ·) else none := by
  by_cases hsame : foldsTo d c = true
  · have hsymm := foldsTo_symm hsame
    simp only [repairAlong, Text.afterFold?, hsame, hsymm, ↓reduceIte]
    cases Text.afterFold? label path with
    | some rest => simp [Function.comp_def]
    | none =>
        simp only
        split <;> rfl
  · have hsymm : ¬ foldsTo c d = true := fun h => hsame (foldsTo_symm h)
    simp [repairAlong, Text.afterFold?, hsame, hsymm]

theorem repairAlong_nil {fixSlash : Bool} {label : Text} (hlabel : label ≠ []) (node : Node α)
    (deeper : Text → Option Text) :
    repairAlong fixSlash label node [] deeper
      = if fixSlash && label = ['/'] && node.terminates then some label else none := by
  obtain ⟨c, label, rfl⟩ := List.exists_cons_of_ne_nil hlabel
  simp [repairAlong, Text.afterFold?]

theorem terminates_split (pattern tail : Text) (node : Node α) :
    (node.split pattern tail).terminates = false := rfl

/-- The place in the middle of a label is repaired at as along the rest of the label. -/
theorem repair_split {tail : Text} (htail : tail ≠ []) (fixSlash : Bool) (pattern : Text)
    (node : Node α) (path : Text) :
    (node.split pattern tail).repair fixSlash path
      = repairAlong fixSlash tail node path (node.repair fixSlash) := by
  cases path with
  | nil =>
      have hleaf : (node.split pattern tail).ways.hasSlashLeaf
          = (decide (tail = ['/']) && node.terminates) := Bool.or_false _
      rw [repair_nil, repairAlong_nil htail, terminates_split, hleaf]
      by_cases hslash : tail = ['/'] <;> simp [hslash]
  | cons c path =>
      rw [split, repair_cons, Ways.repair_literal]
      simp [Ways.repair]

/-- A path is repaired along the two parts of a label as along the whole label. -/
theorem repairAlong_split {tail : Text} (htail : tail ≠ []) (fixSlash : Bool) (front pattern : Text)
    (node : Node α) (path : Text) (deeper : Text → Option Text) :
    repairAlong fixSlash front (node.split pattern tail) path
        (fun rest => repairAlong fixSlash tail node rest deeper)
      = repairAlong fixSlash (front ++ tail) node path deeper := by
  induction front generalizing path with
  | nil => simp [repairAlong, Text.afterFold?]
  | cons c front ih =>
      cases path with
      | nil =>
          have hlong : c :: (front ++ tail) ≠ ['/'] := by simp [htail]
          rw [repairAlong_nil (by simp), List.cons_append, repairAlong_nil (by simp),
            terminates_split]
          simp [hlong]
      | cons d path => rw [List.cons_append, repairAlong_cons, repairAlong_cons, ih]

end Node

namespace Ways.Recut

variable {ways ways' : Ways α}

theorem catchAll?_eq (h : ways.Recut ways') : ways'.catchAll? = ways.catchAll? := by
  induction h with
  | others label next deeper ih => exact ih
  | _ => rfl

/-- A label that has been cut leads to as many routes as before. -/
theorem counts_eq (h : ways.Recut ways') : ways'.counts = ways.counts := by
  induction h with
  | others label next deeper ih => exact congrArg (next.priority :: ·) ih
  | _ => rfl

theorem patterns_eq (h : ways.Recut ways') : ways'.patterns = ways.patterns := by
  induction h with
  | refl ways => rfl
  | cut pattern next others => simp [Ways.patterns, Node.split, Node.patterns]
  | next label held pattern priority others deeper ih => simp [Ways.patterns, Node.patterns, ih]
  | others label next deeper ih => simp [Ways.patterns, ih]
  | param name held pattern priority deeper ih => simp [Ways.patterns, Node.patterns, ih]

theorem terminates_eq (h : ways.Recut ways') (held : Option α) (pattern : Text) (priority : Nat) :
    (Node.mk held pattern priority ways').terminates
      = (Node.mk held pattern priority ways).terminates := by
  simp only [Node.terminates, Node.value, Node.ways, h.catchAll?_eq]

theorem hasSlashLeaf_eq (h : ways.Recut ways') : ways'.hasSlashLeaf = ways.hasSlashLeaf := by
  induction h with
  | refl ways => rfl
  | @cut front tail pattern next others front_ne tail_ne =>
      have hlong : front ++ tail ≠ ['/'] := by
        intro heq
        have hlength := congrArg List.length heq
        have hfront := List.length_pos_iff.mpr front_ne
        have htail := List.length_pos_iff.mpr tail_ne
        rw [List.length_append, List.length_singleton] at hlength
        omega
      simp [hasSlashLeaf, hlong, Node.terminates_split]
  | next label held pattern priority others deeper ih =>
      simp only [hasSlashLeaf, deeper.terminates_eq]
  | others label next deeper ih => simp only [hasSlashLeaf, ih]
  | param name held pattern priority deeper ih => rfl

/-- A place whose ways are repaired along alike is repaired at alike. -/
theorem node_repair_eq (h : ways.Recut ways') (held : Option α) (pattern : Text) (priority : Nat)
    {fixSlash : Bool} (hways : ∀ path, ways'.repair fixSlash path = ways.repair fixSlash path) :
    (Node.mk held pattern priority ways').repair fixSlash
      = (Node.mk held pattern priority ways).repair fixSlash := by
  funext path
  cases path with
  | nil =>
      rw [Node.repair_nil, Node.repair_nil, h.terminates_eq, Node.ways, h.hasSlashLeaf_eq, Node.ways]
  | cons c path => rw [Node.repair_cons, Node.repair_cons, hways]

theorem repair_eq (h : ways.Recut ways') (fixSlash : Bool) (path : Text) :
    ways'.repair fixSlash path = ways.repair fixSlash path := by
  induction h generalizing path with
  | refl ways => rfl
  | @cut front tail pattern next others front_ne tail_ne =>
      have hsplit : (next.split pattern tail).repair fixSlash
          = fun rest => Node.repairAlong fixSlash tail next rest (next.repair fixSlash) :=
        funext (Node.repair_split tail_ne fixSlash pattern next)
      rw [repair_literal, repair_literal, hsplit, Node.repairAlong_split tail_ne]
  | next label held pattern priority others deeper ih =>
      simp only [repair_literal, Node.repairAlong, deeper.terminates_eq,
        deeper.node_repair_eq held pattern priority ih]
  | others label next deeper ih => simp only [repair_literal, ih]
  | param name held pattern priority deeper ih =>
      simp only [Ways.repair, deeper.node_repair_eq held pattern priority ih]

end Ways.Recut

/-! ### What a refusal does -/

namespace Node

variable {above rest : Text} {value : α} {node node' : Node α} {fault : RouteError}

theorem eq_of_claim_error (h : claim above value node = (node', .error fault)) : node' = node := by
  cases node with
  | mk held pattern priority ways =>
      cases held with
      | some old =>
          simp only [claim, Option.isSome_some, ↓reduceIte, Prod.mk.injEq] at h
          exact h.1.symm
      | none =>
          cases hcatch : ways.catchAll? with
          | some existing =>
              simp only [claim, Option.isSome_none, Bool.false_eq_true, ↓reduceIte, hcatch,
                Prod.mk.injEq] at h
              exact h.1.symm
          | none => simp [claim, hcatch] at h

theorem eq_of_sprout_error (h : sprout above value rest node = (node', .error fault)) :
    node' = node := by
  cases node with
  | mk held pattern priority ways =>
      by_cases hmark : rest.head?.any Pattern.isMark = true
      · cases hwild : ways.wildcard? with
        | some existing =>
            simp only [sprout, hmark, ↓reduceIte, hwild, Prod.mk.injEq] at h
            exact h.1.symm
        | none =>
            cases hfault : mountFault? above rest (.mk held pattern priority ways) with
            | some fault =>
                simp only [sprout, hmark, ↓reduceIte, hwild, hfault, Prod.mk.injEq] at h
                exact h.1.symm
            | none => simp [sprout, hmark, hwild, hfault] at h
      · cases hcatch : ways.catchAll? with
        | some existing =>
            simp only [sprout, hmark, Bool.false_eq_true, ↓reduceIte, hcatch,
              Prod.mk.injEq] at h
            exact h.1.symm
        | none => simp [sprout, hmark, hcatch] at h

theorem eq_of_place_error (h : place above value rest node = (node', .error fault)) :
    node' = node := by
  unfold place at h
  split at h
  · exact eq_of_claim_error h
  · exact eq_of_sprout_error h

/-- A refusal behind a label has cut the label, or comes from the place that it leads to. -/
theorem along_recut {label label' : Text} {descend : Text → Node α × Except RouteError Unit}
    (others : Ways α) (hhead : label.head? = rest.head?)
    (hdescend : ∀ deeper next, descend deeper = (next, .error fault) → node.Recut next)
    (h : along above value rest label node descend = (label', node', .error fault)) :
    (Ways.literal label node others).Recut (.literal label' node' others) := by
  rcases along_cases above value node descend hhead with ⟨deeper, -, halong⟩
    | ⟨front, tail, deeper, rfl, -, hfront, htail, -, halong⟩
  · obtain ⟨rfl, hdeeper⟩ := Prod.mk.inj (halong.symm.trans h)
    exact Ways.Recut.of_next label others (hdescend deeper node' hdeeper)
  · obtain ⟨rfl, hplace⟩ := Prod.mk.inj (halong.symm.trans h)
    rw [eq_of_place_error hplace]
    exact Ways.Recut.cut _ node others hfront htail

end Node

-- Induction on the tree. Only the labels that are passed over need the tree to be sound: they stay in
-- front because the refused route does not count.
mutual

theorem Node.insert_recut {node node' : Node α} :
    ∀ {above rest : Text} (value : α) {fault : RouteError}, node.Sound above →
      node.insert above value rest = (node', .error fault) → node.Recut node' := by
  intro above rest value fault hsound hinsert
  cases node with
  | mk held pattern priority ways =>
      rcases Node.insert_cases above value rest held pattern priority ways with
        ⟨-, -, hplace⟩ | ⟨ways', result, -, hfollow, hfollowed⟩
      · rw [hplace] at hinsert
        rw [Node.eq_of_place_error hinsert]
        exact Node.Recut.refl _
      · rw [hfollowed] at hinsert
        cases hinsert
        exact Node.Recut.mk held pattern priority (Ways.follow_recut value hsound.ways hfollow)

theorem Ways.follow_recut {ways ways' : Ways α} :
    ∀ {above rest : Text} (value : α) {fault : RouteError}, ways.Sound above →
      ways.follow above value rest = some (ways', .error fault) → ways.Recut ways' := by
  intro above rest value fault hways hfollow
  cases ways with
  | none => simp [Ways.follow] at hfollow
  | literal label next others =>
      obtain ⟨-, hnext, hothers, hfork⟩ := Ways.sound_literal.mp hways
      rcases Ways.follow_literal_eq_some hfollow with
        ⟨hhead, rfl, hresult⟩ | ⟨-, others', hothersFollow, rfl⟩
      · exact Node.along_recut others hhead (fun deeper next' => Node.insert_recut value hnext)
          (Prod.ext rfl (Prod.ext rfl hresult.symm))
      · have hrecut := Ways.follow_recut value hothers hothersFollow
        rw [Ways.rank_eq_literal (hrecut.counts_eq ▸ hfork.ranked)]
        exact Ways.Recut.others label next hrecut
  | param name next =>
      rw [Ways.follow] at hfollow
      split at hfollow
      · obtain ⟨rfl, hresult⟩ := Prod.mk.inj (Option.some.inj hfollow)
        have hnext := (Ways.sound_param.mp hways).2.1
        exact Ways.Recut.of_param name (Node.insert_recut value hnext (Prod.ext rfl hresult))
      · contradiction
  | catchAll name value' pattern => simp [Ways.follow] at hfollow

end

/-! ### Trees -/

namespace Tree

/-- The one way into a tree. -/
def way : Tree α → Ways α
  | empty => .none
  | root label node => .literal label node .none

theorem repair_eq_way (tree : Tree α) (fixSlash : Bool) (path : Text) :
    tree.repair fixSlash path = tree.way.repair fixSlash path := by
  cases tree with
  | empty => simp [Tree.repair, way, Ways.repair]
  | root label node =>
      rw [way, Ways.repair_literal, Tree.repair]
      simp [Ways.repair]

theorem patterns_eq_way (tree : Tree α) : tree.patterns = tree.way.patterns := by
  cases tree <;> simp [Tree.patterns, way, Ways.patterns]

/-- A refused registration cuts a label at most. -/
theorem insert_recut {tree tree' : Tree α} {pattern : Text} {value : α} {fault : RouteError}
    (hsound : tree.Sound) (hinsert : tree.insert pattern value = (tree', .error fault)) :
    tree.way.Recut tree'.way := by
  unfold insert at hinsert
  cases hcheck : Pattern.check pattern with
  | error fault' =>
      simp only [hcheck, Prod.mk.injEq] at hinsert
      rw [hinsert.1]
      exact Ways.Recut.refl _
  | ok _ =>
      have hslash := (Pattern.follows_of_check hcheck).1
      cases tree with
      | empty => simp [hcheck] at hinsert
      | root label node =>
          obtain ⟨-, hhead, hnode⟩ := hsound
          simp only [hcheck, Prod.mk.injEq] at hinsert
          obtain ⟨rfl, hresult⟩ := hinsert
          exact Node.along_recut .none (hhead.trans hslash.symm)
            (fun deeper next => Node.insert_recut value hnode)
            (Prod.ext rfl (Prod.ext rfl hresult))

/-- Whether no question to two trees tells the one from the other. -/
structure Alike (tree tree' : Tree α) : Prop where
  lookup : ∀ path, tree'.lookup path = tree.lookup path
  repair : ∀ fixSlash path, tree'.repair fixSlash path = tree.repair fixSlash path
  patterns : tree'.patterns = tree.patterns

theorem Alike.refl (tree : Tree α) : tree.Alike tree :=
  ⟨fun _ => rfl, fun _ _ => rfl, rfl⟩

/-- No question tells whether a refused registration was tried. -/
theorem Holds.alike_of_insert_error {tree tree' : Tree α} {routes : List (Text × α)}
    {pattern : Text} {value : α} {fault : RouteError} (h : tree.Holds routes)
    (hinsert : tree.insert pattern value = (tree', .error fault)) : tree.Alike tree' := by
  have hrecut := insert_recut h.sound hinsert
  refine ⟨h.lookup_eq (h.insert_error hinsert), ?_, ?_⟩
  · intro fixSlash path
    rw [repair_eq_way, repair_eq_way, hrecut.repair_eq]
  · rw [patterns_eq_way, patterns_eq_way, hrecut.patterns_eq]

end Tree

end RadixRouter
