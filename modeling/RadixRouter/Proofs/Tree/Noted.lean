import RadixRouter.Proofs.Tree.Patterns

/-!
What is noted at the places of a tree. A place that a chain made notes the pattern of that chain, a
place in the middle of a label that was cut notes the front that leads to it, and the first place
of a tree may note nothing; a place at which a route ends notes this route.
-/

namespace RadixRouter

open Pattern

variable {α : Type}

mutual

/-- Whether a place that `above` leads to, and all places behind it, note nothing, the front that
leads to them, or the pattern of a route behind them. -/
def Node.Noted (above : Text) : Node α → Prop
  | .mk held pattern priority ways =>
      (pattern = [] ∨ pattern = above ∨ pattern ∈ (Node.mk held pattern priority ways).patterns)
        ∧ ways.Noted above

/-- The same of all places that the ways lead to. -/
def Ways.Noted (above : Text) : Ways α → Prop
  | .none => True
  | .literal label next others => next.Noted (above ++ label) ∧ others.Noted above
  | .param name next => next.Noted (above ++ ':' :: name)
  | .catchAll _ _ _ => True

end

/-- The same of all places of a tree. -/
def Tree.Noted : Tree α → Prop
  | .empty => True
  | .root label node => node.Noted label

section Unfold

variable {above label name pattern : Text} {held : Option α} {priority : Nat} {node next : Node α}
  {ways others : Ways α}

@[simp] theorem Node.noted_mk :
    (Node.mk held pattern priority ways).Noted above
      ↔ (pattern = [] ∨ pattern = above ∨ pattern ∈ (Node.mk held pattern priority ways).patterns)
        ∧ ways.Noted above := by
  rw [Node.Noted]

@[simp] theorem Ways.noted_none : (Ways.none : Ways α).Noted above := by
  simp [Ways.Noted]

@[simp] theorem Ways.noted_literal :
    (Ways.literal label next others).Noted above
      ↔ next.Noted (above ++ label) ∧ others.Noted above := by
  rw [Ways.Noted]

@[simp] theorem Ways.noted_param :
    (Ways.param name next).Noted above ↔ next.Noted (above ++ ':' :: name) := by
  rw [Ways.Noted]

@[simp] theorem Ways.noted_catchAll {value : α} : (Ways.catchAll name value pattern).Noted above := by
  simp [Ways.Noted]

end Unfold

theorem Node.Noted.ways {above : Text} {node : Node α} (h : node.Noted above) :
    node.ways.Noted above := by
  cases node with
  | mk held pattern priority ways => exact (Node.noted_mk.mp h).2

/-! ### Chains -/

namespace Ways

theorem Lone.patterns_eq {pattern : Text} {value : α} {ways : Ways α}
    (h : ways.Lone pattern value) : ways.patterns = [pattern] := by
  induction h with
  | label label next ih => simp [patterns, Node.patterns, ih]
  | param name next ih => simp [patterns, Node.patterns, ih]
  | _ => simp [patterns, Node.patterns, Node.leaf]

theorem Lone.noted {pattern : Text} {value : α} {ways : Ways α} (h : ways.Lone pattern value)
    (above : Text) : ways.Noted above := by
  induction h generalizing above with
  | label label next ih => simp [Node.patterns, next.patterns_eq, ih]
  | param name next ih => simp [Node.patterns, next.patterns_eq, ih]
  | _ => simp [Node.patterns, Node.leaf]

theorem Noted.graft {above : Text} {ways more : Ways α} (h : ways.Noted above)
    (hmore : more.Noted above) : (ways.graft more).Noted above := by
  cases ways with
  | none => exact hmore
  | literal label next others =>
      obtain ⟨hnext, hothers⟩ := noted_literal.mp h
      exact noted_literal.mpr ⟨hnext, hothers.graft hmore⟩
  | param name next =>
      cases more with
      | literal label' next' others => exact noted_literal.mpr ⟨(noted_literal.mp hmore).1, h⟩
      | _ => exact h
  | catchAll name value pattern =>
      cases more with
      | literal label' next' others => exact noted_literal.mpr ⟨(noted_literal.mp hmore).1, h⟩
      | _ => exact h

theorem Noted.rank {above label : Text} {next : Node α} {others : Ways α}
    (hnext : next.Noted (above ++ label)) (hothers : others.Noted above) :
    (rank label next others).Noted above := by
  have hfront : (literal label next others).Noted above := noted_literal.mpr ⟨hnext, hothers⟩
  cases others with
  | literal label' next' others =>
      obtain ⟨hnext', hothers'⟩ := noted_literal.mp hothers
      rw [Ways.rank]
      split
      · exact noted_literal.mpr ⟨hnext', noted_literal.mpr ⟨hnext, hothers'⟩⟩
      · exact hfront
  | _ => exact hfront

end Ways

/-! ### Registrations -/

theorem Registers.mem {entry other : Entry α} {before after : List (Entry α)}
    {result : Except RouteError Unit} (h : Registers entry before after result)
    (hmem : other ∈ before) : other ∈ after := by
  cases result with
  | ok _ => exact (List.Perm.mem_iff h).mpr (List.mem_cons_of_mem entry hmem)
  | error fault => exact h ▸ hmem

namespace Node

variable {above rest : Text} {value : α} {node node' : Node α} {result : Except RouteError Unit}

/-- No pattern is lost by a registration, so what a place notes stays the pattern of a route. -/
theorem Grown.noted (hgrown : Grown above rest value node node' result) (hsound : node.Sound above)
    (hnoted : node.Noted above) (hsame : node'.pattern = node.pattern)
    (hways : node'.ways.Noted above) : node'.Noted above := by
  have hkept : node.pattern ∈ node.patterns → node.pattern ∈ node'.patterns := by
    rw [hsound.patterns_eq, hgrown.sound.patterns_eq, List.mem_map, List.mem_map]
    rintro ⟨entry, hentry, hwritten⟩
    exact ⟨entry, hgrown.registers.mem hentry, hwritten⟩
  cases node with
  | mk held pattern priority ways =>
      cases node' with
      | mk held' pattern' priority' ways' =>
          cases (hsame : pattern' = pattern)
          exact noted_mk.mpr ⟨(noted_mk.mp hnoted).1.imp_right (Or.imp_right hkept), hways⟩

theorem claim_noted (value : α) (hnoted : node.Noted above) :
    (claim above value node).1.Noted above := by
  cases node with
  | mk held pattern priority ways =>
      cases held with
      | some old => exact hnoted
      | none =>
          cases hcatch : ways.catchAll? with
          | some existing => simpa [claim, hcatch] using hnoted
          | none =>
              simp only [claim, Option.isSome_none, Bool.false_eq_true, ↓reduceIte, hcatch]
              exact noted_mk.mpr ⟨Or.inr (Or.inl rfl), (noted_mk.mp hnoted).2⟩

/-- A place is refused a way more and stays as it is, or gets it. A wildcard is added only where there
is none. -/
theorem sprout_cases (above rest : Text) (value : α) (node : Node α) :
    ((sprout above value rest node).1 = node
        ∧ ∃ fault, (sprout above value rest node).2 = .error fault)
      ∨ (sprout above value rest node).1 = .mk node.value node.pattern (node.priority + 1)
            (node.ways.graft (.chain (above ++ rest) value rest))
        ∧ (sprout above value rest node).2 = .ok ()
        ∧ (rest.head?.any isMark = true → node.ways.wildcard? = none) := by
  cases node with
  | mk held pattern priority ways =>
      by_cases hmark : rest.head?.any isMark = true
      · cases hwild : ways.wildcard? with
        | some existing => exact Or.inl (by simp [sprout, hmark, hwild])
        | none =>
            cases hfault : mountFault? above rest (.mk held pattern priority ways) with
            | some fault => exact Or.inl (by simp [sprout, hmark, hwild, hfault])
            | none => exact Or.inr (by simp [sprout, hmark, hwild, hfault, Node.value,
                Node.pattern, Node.priority, Node.ways])
      · cases hcatch : ways.catchAll? with
        | some existing => exact Or.inl (by simp [sprout, hmark, hcatch])
        | none => exact Or.inr (by simp [sprout, hmark, hcatch, Node.value, Node.pattern,
            Node.priority, Node.ways])

theorem sprout_noted (value : α) (hsound : node.Sound above) (hnoted : node.Noted above)
    (hfollows : Follows above rest) (hne : rest ≠ [])
    (hapart : ∀ c ∈ rest.head?, c ∉ node.ways.indices) :
    (sprout above value rest node).1.Noted above := by
  have hgrown := sprout_grown value hsound hfollows hne hapart
  rcases sprout_cases above rest value node with ⟨hsame, -⟩ | ⟨hmore, -⟩
  · rw [hsame]
    exact hnoted
  · rw [hmore] at hgrown ⊢
    exact hgrown.noted hsound hnoted rfl (hnoted.ways.graft ((Ways.chain_lone _ _ _).noted above))

theorem place_noted (value : α) (hsound : node.Sound above) (hnoted : node.Noted above)
    (hfollows : Follows above rest) (hapart : ∀ c ∈ rest.head?, c ∉ node.ways.indices) :
    (place above value rest node).1.Noted above := by
  rw [place]
  split
  · exact claim_noted value hnoted
  · next hrest => exact sprout_noted value hsound hnoted hfollows hrest hapart

theorem split_noted {front tail : Text} (hnoted : node.Noted (above ++ (front ++ tail))) :
    (split (above ++ front) tail node).Noted (above ++ front) := by
  rw [← List.append_assoc] at hnoted
  exact noted_mk.mpr ⟨Or.inr (Or.inl rfl), Ways.noted_literal.mpr ⟨hnoted, Ways.noted_none⟩⟩

theorem along_noted {label : Text} (value : α) {descend : Text → Node α × Except RouteError Unit}
    (hlabel : Label label) (hsound : node.Sound (above ++ label))
    (hnoted : node.Noted (above ++ label)) (hfollows : Follows above rest)
    (hhead : label.head? = rest.head?)
    (hdescend : ∀ deeper, Follows (above ++ label) deeper →
      (descend deeper).1.Noted (above ++ label)) :
    (along above value rest label node descend).2.1.Noted
      (above ++ (along above value rest label node descend).1) := by
  rcases along_cases above value node descend hhead with ⟨deeper, rfl, halong⟩
    | ⟨front, tail, deeper, rfl, rfl, -, htail, hparted, halong⟩
  · rw [follows_append_iff hlabel.plain] at hfollows
    rw [halong]
    exact hdescend deeper hfollows
  · rw [follows_append_iff hlabel.plain.left] at hfollows
    rw [halong]
    exact place_noted value (split_sound _ ⟨htail, hlabel.plain.right⟩ hsound)
      (split_noted hnoted) hfollows (apart_split _ node hparted)

end Node

-- Induction on the tree: places off the way of the pattern are as before, and those on it list one
-- pattern more at most.
mutual

theorem Node.insert_noted {node : Node α} :
    ∀ {above rest : Text} (value : α), node.Sound above → node.Noted above →
      Follows above rest → (node.insert above value rest).1.Noted above := by
  intro above rest value hsound hnoted hfollows
  have hgrown := Node.insert_grown value hsound hfollows
  cases node with
  | mk held pattern priority ways =>
      rcases Node.insert_cases above value rest held pattern priority ways with
        ⟨-, hapart, hinsert⟩ | ⟨ways', result, -, hfollow, hinsert⟩
      · rw [hinsert]
        exact Node.place_noted value hsound hnoted hfollows hapart
      · rw [hinsert] at hgrown ⊢
        have hways := Ways.follow_noted value hsound.ways hnoted.ways hfollows hfollow
        exact hgrown.noted hsound hnoted rfl hways

theorem Ways.follow_noted {ways : Ways α} :
    ∀ {above rest : Text} (value : α) {ways' : Ways α} {result : Except RouteError Unit},
      ways.Sound above → ways.Noted above → Follows above rest →
      ways.follow above value rest = some (ways', result) → ways'.Noted above := by
  intro above rest value ways' result hways hnoted hfollows hfollow
  cases ways with
  | none => simp [Ways.follow] at hfollow
  | literal label next others =>
      obtain ⟨hlabel, hnext, hothers, -⟩ := Ways.sound_literal.mp hways
      obtain ⟨hnextNoted, hothersNoted⟩ := Ways.noted_literal.mp hnoted
      rcases Ways.follow_literal_eq_some hfollow with
        ⟨hhead, rfl, -⟩ | ⟨-, others', hothersFollow, rfl⟩
      · have halong := Node.along_noted value hlabel hnext hnextNoted hfollows hhead
          fun deeper hdeeper => Node.insert_noted value hnext hnextNoted hdeeper
        exact Ways.noted_literal.mpr ⟨halong, hothersNoted⟩
      · exact Ways.Noted.rank hnextNoted
          (Ways.follow_noted value hothers hothersNoted hfollows hothersFollow)
  | param name next =>
      obtain ⟨hname, hnext, -⟩ := Ways.sound_param.mp hways
      obtain ⟨deeper, rfl, -, hdeeper, rfl, -⟩ := Ways.follow_param_eq_some hname hfollows hfollow
      exact Ways.noted_param.mpr
        (Node.insert_noted value hnext (Ways.noted_param.mp hnoted) hdeeper)
  | catchAll name value' pattern => simp [Ways.follow] at hfollow

end

namespace Tree

theorem plant_noted (pattern : Text) (value : α) : (plant pattern value).Noted := by
  have hchain := (Ways.chain_lone pattern value pattern).noted []
  unfold plant
  split
  · next label pattern' priority ways others heq =>
      rw [heq, Ways.noted_literal, List.nil_append, Node.noted_mk] at hchain
      exact Node.noted_mk.mpr ⟨Or.inl rfl, hchain.1.2⟩
  · next label node others heq =>
      rw [heq, Ways.noted_literal] at hchain
      exact hchain.1
  · trivial

theorem insert_noted {tree : Tree α} (pattern : Text) (value : α) (hsound : tree.Sound)
    (hnoted : tree.Noted) : (tree.insert pattern value).1.Noted := by
  unfold insert
  cases hcheck : Pattern.check pattern with
  | error fault => exact hnoted
  | ok _ =>
      obtain ⟨hslash, hfollows⟩ := follows_of_check hcheck
      cases tree with
      | empty => exact plant_noted pattern value
      | root label node =>
          obtain ⟨hlabel, hhead, hnode⟩ := hsound
          have hnode : node.Sound ([] ++ label) := hnode
          have hnodeNoted : node.Noted ([] ++ label) := hnoted
          exact Node.along_noted value hlabel hnode hnodeNoted hfollows (hhead.trans hslash.symm)
            fun deeper hdeeper => Node.insert_noted value hnode hnodeNoted hdeeper

theorem insertAll_noted {tree : Tree α} (history : List (Text × α)) (hsound : tree.Sound)
    (hnoted : tree.Noted) : (tree.insertAll history).Noted := by
  induction history generalizing tree with
  | nil => exact hnoted
  | cons route later ih =>
      exact ih (insert_sound route.1 route.2 hsound).1 (insert_noted route.1 route.2 hsound hnoted)

/-- Nothing else is noted in a tree, whatever was registered before and whatever was refused. -/
theorem ofHistory_noted (history : List (Text × α)) : (ofHistory history).Noted :=
  insertAll_noted history trivial trivial

end Tree

end RadixRouter
