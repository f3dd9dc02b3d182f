import RadixRouter.Proofs.Tree.Noted
import RadixRouter.Proofs.Tree.Recut

/-!
Which of two labels that lead to equally many routes comes first. A label that leads to one route
more moves in front of those that lead to fewer and stays behind those that lead to as many, so the
label whose last route was accepted earlier comes first. The order of the first routes is
forgotten.
-/

namespace RadixRouter

open Pattern

variable {α : Type}

/-- Whether some route that begins with `g` was accepted after all those that begin with `f`. -/
def Sooner (routes : List Text) (f g : Text) : Prop :=
  ∃ earlier route later, routes = earlier ++ route :: later ∧ g <+: route
    ∧ ∀ other ∈ route :: later, ¬ f <+: other

namespace Sooner

variable {routes : List Text} {f g q : Text}

theorem extend (h : Sooner routes f g) (hoff : ¬ f <+: q) : Sooner (routes ++ [q]) f g := by
  obtain ⟨earlier, route, later, rfl, hbehind, hnone⟩ := h
  refine ⟨earlier, route, later ++ [q], by simp, hbehind, ?_⟩
  rw [← List.cons_append, List.forall_mem_append]
  exact ⟨hnone, by simpa using hoff⟩

theorem of_new (routes : List Text) (hon : g <+: q) (hoff : ¬ f <+: q) :
    Sooner (routes ++ [q]) f g :=
  ⟨routes, q, [], rfl, hon, by simpa using hoff⟩

end Sooner

namespace Ways

/-- How many routes each label leads to, and how the label begins. -/
def sides : Ways α → List (Nat × Text)
  | literal label next others => (next.priority, label.take 1) :: others.sides
  | _ => []

theorem mem_counts_of_mem_sides {ways : Ways α} : ∀ side ∈ ways.sides, side.1 ∈ ways.counts := by
  intro side hside
  cases ways with
  | literal label next others =>
      rcases List.mem_cons.mp hside with rfl | hside
      · exact List.mem_cons_self
      · exact List.mem_cons_of_mem _ (mem_counts_of_mem_sides side hside)
  | _ => simp [sides] at hside

end Ways

/-- Whether `first` stands in front of the labels `sides` because it waited for its last route less
long than those that lead to as many routes. -/
def Waits (routes : List Text) (above : Text) (first : Nat × Text) (sides : List (Nat × Text)) :
    Prop :=
  ∀ side ∈ sides, first.1 = side.1 → Sooner routes (above ++ first.2) (above ++ side.2)

mutual

/-- Whether the labels at a place that `above` leads to, and at all places behind it, are in the order
in which they came to lead to as many routes as they do. -/
def Node.InOrder (routes : List Text) (above : Text) : Node α → Prop
  | .mk _ _ _ ways => ways.InOrder routes above

/-- Whether the labels among the ways, and those at all places behind them, are in this order. -/
def Ways.InOrder (routes : List Text) (above : Text) : Ways α → Prop
  | .none => True
  | .literal label next others =>
      Waits routes above (next.priority, label.take 1) others.sides
        ∧ next.InOrder routes (above ++ label) ∧ others.InOrder routes above
  | .param name next => next.InOrder routes (above ++ ':' :: name)
  | .catchAll _ _ _ => True

end

section Unfold

variable {routes : List Text} {above label name : Text} {node next : Node α} {others : Ways α}

@[simp] theorem Node.inOrder_iff : node.InOrder routes above ↔ node.ways.InOrder routes above := by
  cases node
  rw [Node.InOrder]
  rfl

@[simp] theorem Ways.inOrder_none : (Ways.none : Ways α).InOrder routes above := by
  simp [Ways.InOrder]

@[simp] theorem Ways.inOrder_literal :
    (Ways.literal label next others).InOrder routes above
      ↔ Waits routes above (next.priority, label.take 1) others.sides
        ∧ next.InOrder routes (above ++ label) ∧ others.InOrder routes above := by
  rw [Ways.InOrder]

@[simp] theorem Ways.inOrder_param :
    (Ways.param name next).InOrder routes above ↔ next.InOrder routes (above ++ ':' :: name) := by
  rw [Ways.InOrder]

@[simp] theorem Ways.inOrder_catchAll {value : α} {pattern : Text} :
    (Ways.catchAll name value pattern).InOrder routes above := by
  simp [Ways.InOrder]

/-- A single label has no other to wait for. -/
theorem Ways.inOrder_single :
    (Ways.literal label next .none).InOrder routes above ↔ next.InOrder routes (above ++ label) := by
  simp [Waits, Ways.sides]

end Unfold

/-! ### Off the way of a route -/

/-- Whether `q` goes along none of the ways from a place that `above` leads to. -/
def Ways.Off (above q : Text) : Ways α → Prop
  | .none => True
  | .literal label _ others => ¬ above ++ label.take 1 <+: q ∧ others.Off above q
  | .param name _ => ¬ above ++ ':' :: name <+: q
  | .catchAll _ _ _ => True

namespace Ways

theorem off_of_not_prefix {above q : Text} (hoff : ¬ above <+: q) (ways : Ways α) :
    ways.Off above q := by
  have hlonger : ∀ back, ¬ above ++ back <+: q :=
    fun back h => hoff ((List.prefix_append above back).trans h)
  cases ways with
  | none => trivial
  | literal label next others => exact ⟨hlonger _, off_of_not_prefix hoff others⟩
  | param name next => exact hlonger _
  | catchAll name value pattern => trivial

theorem off_of_apart {above rest : Text} {ways : Ways α} (hways : ways.Sound above)
    (hapart : ∀ c ∈ rest.head?, c ∉ ways.indices)
    (hwild : rest.head? = some ':' → ways.wildcard? = Option.none) :
    ways.Off above (above ++ rest) := by
  cases ways with
  | none => trivial
  | literal label next others =>
      obtain ⟨hlabel, -, hothers, -⟩ := sound_literal.mp hways
      obtain ⟨c, label, rfl⟩ := List.exists_cons_of_ne_nil hlabel.ne_nil
      refine ⟨?_, off_of_apart hothers (fun d hd hmem => hapart d hd (by simp [indices, hmem])) hwild⟩
      rw [List.prefix_append_right_inj]
      rintro ⟨back, rfl⟩
      exact hapart c rfl (by simp [indices])
  | param name next =>
      rw [Ways.Off, List.prefix_append_right_inj]
      rintro ⟨back, rfl⟩
      simpa [wildcard?] using hwild rfl
  | catchAll name value pattern => trivial

/-- What begins as the first label does goes along none of the others. -/
theorem Fork.off {above label rest : Text} {next : Node α} {others : Ways α}
    (hfork : Fork label next others) (hlabel : Label label) (hothers : others.Sound above)
    (hhead : label.head? = rest.head?) : others.Off above (above ++ rest) := by
  apply off_of_apart hothers
  · intro c hc
    exact hfork.apart c (hhead.trans hc)
  · intro hcolon
    have := hlabel.plain ':' (List.mem_of_head? (hhead.trans hcolon))
    simp [isMark] at this

end Ways

theorem Waits.extend {routes : List Text} {above q : Text} {first : Nat × Text}
    {sides sides' : List (Nat × Text)} (h : Waits routes above first sides)
    (hoff : ¬ above ++ first.2 <+: q)
    (hmoved : ∀ side ∈ sides', side ∈ sides ∨ above ++ side.2 <+: q) :
    Waits (routes ++ [q]) above first sides' := by
  intro side hside hsame
  rcases hmoved side hside with hold | hon
  · exact (h side hold hsame).extend hoff
  · exact Sooner.of_new routes hon hoff

-- Induction on the tree: a route off the way of a label makes no difference behind the label.
mutual

theorem Node.InOrder.extend {node : Node α} : ∀ {routes : List Text} {above q : Text},
    node.InOrder routes above → ¬ above <+: q → node.InOrder (routes ++ [q]) above := by
  intro routes above q h hoff
  cases node with
  | mk held pattern priority ways =>
      rw [Node.inOrder_iff] at h ⊢
      exact Ways.InOrder.extend h (Ways.off_of_not_prefix hoff ways)

theorem Ways.InOrder.extend {ways : Ways α} : ∀ {routes : List Text} {above q : Text},
    ways.InOrder routes above → ways.Off above q → ways.InOrder (routes ++ [q]) above := by
  intro routes above q h hoff
  cases ways with
  | none => exact Ways.inOrder_none
  | literal label next others =>
      obtain ⟨hwaits, hnext, hothers⟩ := Ways.inOrder_literal.mp h
      have hlabel : ¬ above ++ label <+: q := by
        intro hon
        apply hoff.1
        exact ((List.prefix_append_right_inj above).mpr (List.take_prefix 1 label)).trans hon
      exact Ways.inOrder_literal.mpr ⟨hwaits.extend hoff.1 fun side => Or.inl,
        Node.InOrder.extend hnext hlabel, Ways.InOrder.extend hothers hoff.2⟩
  | param name next => exact Ways.inOrder_param.mpr (Node.InOrder.extend (Ways.inOrder_param.mp h) hoff)
  | catchAll name value pattern => exact Ways.inOrder_catchAll

end

/-! ### Chains and ranks -/

namespace Ways

variable {routes : List Text} {above : Text}

/-- A chain has no labels to put in order. -/
theorem Lone.inOrder {pattern : Text} {value : α} {ways : Ways α} (h : ways.Lone pattern value)
    (routes : List Text) (above : Text) : ways.InOrder routes above := by
  induction h generalizing above with
  | label label next ih => exact inOrder_single.mpr (Node.inOrder_iff.mpr (ih _))
  | param name next ih => exact inOrder_param.mpr (Node.inOrder_iff.mpr (ih _))
  | last label => exact inOrder_single.mpr (Node.inOrder_iff.mpr inOrder_none)
  | lastParam name => exact inOrder_param.mpr (Node.inOrder_iff.mpr inOrder_none)
  | catchAll name => exact inOrder_catchAll

theorem mem_sides_graft {ways more : Ways α} :
    ∀ side ∈ (ways.graft more).sides, side ∈ ways.sides ∨ side ∈ more.sides := by
  intro side hside
  cases ways with
  | none => exact Or.inr hside
  | literal label next others =>
      simp only [graft, sides, List.mem_cons] at hside ⊢
      rcases hside with hself | hside
      · exact Or.inl (Or.inl hself)
      · exact (mem_sides_graft side hside).imp_left Or.inr
  | param name next =>
      cases more with
      | literal label' next' others =>
          simp only [graft, sides, List.mem_singleton] at hside
          simp [sides, hside]
      | _ => exact Or.inl hside
  | catchAll name value pattern =>
      cases more with
      | literal label' next' others =>
          simp only [graft, sides, List.mem_singleton] at hside
          simp [sides, hside]
      | _ => exact Or.inl hside

/-- A new label stands behind the others, and its one route is the last one. -/
theorem InOrder.graft {q : Text} {ways more : Ways α} (h : ways.InOrder routes above)
    (hoff : ways.Off above q) (hmore : more.InOrder (routes ++ [q]) above)
    (hon : ∀ side ∈ more.sides, above ++ side.2 <+: q) :
    (ways.graft more).InOrder (routes ++ [q]) above := by
  have hkept := h.extend hoff
  cases ways with
  | none => exact hmore
  | literal label next others =>
      obtain ⟨hwaits, -, hothers⟩ := inOrder_literal.mp h
      refine inOrder_literal.mpr ⟨?_, (inOrder_literal.mp hkept).2.1, hothers.graft hoff.2 hmore hon⟩
      apply hwaits.extend hoff.1
      exact fun side hside => (mem_sides_graft side hside).imp_right (hon side)
  | param name next =>
      cases more with
      | literal label' next' others =>
          exact inOrder_literal.mpr ⟨by simp [Waits, sides], (inOrder_literal.mp hmore).2.1, hkept⟩
      | _ => exact hkept
  | catchAll name value pattern =>
      cases more with
      | literal label' next' others =>
          exact inOrder_literal.mpr ⟨by simp [Waits, sides], (inOrder_literal.mp hmore).2.1, hkept⟩
      | _ => exact hkept

theorem mem_sides_rank (label : Text) (next : Node α) (others : Ways α) (side : Nat × Text) :
    side ∈ (rank label next others).sides ↔ side ∈ (literal label next others).sides := by
  cases others with
  | literal label' next' others =>
      rw [rank]
      split
      · simp only [sides, List.mem_cons]
        exact or_left_comm
      · exact Iff.rfl
  | _ => exact Iff.rfl

theorem InOrder.rank {label : Text} {next : Node α} {others : Ways α}
    (hwaits : Waits routes above (next.priority, label.take 1) others.sides)
    (hnext : next.InOrder routes (above ++ label)) (hothers : others.InOrder routes above) :
    (rank label next others).InOrder routes above := by
  have hfront := inOrder_literal.mpr ⟨hwaits, hnext, hothers⟩
  cases others with
  | literal label' next' others =>
      rw [Ways.rank]
      split
      · next hless =>
          obtain ⟨hwaits', hnext', hothers'⟩ := inOrder_literal.mp hothers
          have hbehind := inOrder_literal.mpr
            ⟨fun side hside => hwaits side (List.mem_cons_of_mem _ hside), hnext, hothers'⟩
          refine inOrder_literal.mpr ⟨?_, hnext', hbehind⟩
          intro side hside hsame
          rcases List.mem_cons.mp hside with rfl | hside
          · exact absurd hsame (Nat.ne_of_gt hless)
          · exact hwaits' side hside hsame
      · exact hfront
  | _ => exact hfront

end Ways

/-! ### Registrations -/

namespace Node

variable {routes : List Text} {above rest : Text} {value : α} {node : Node α}

theorem claim_ways (above : Text) (value : α) (node : Node α) :
    (claim above value node).1.ways = node.ways := by
  cases node with
  | mk held pattern priority ways =>
      cases held with
      | some old => rfl
      | none => cases hcatch : ways.catchAll? <;> simp [claim, hcatch, Node.ways]

/-- A place that is claimed, or that gets a way more. -/
theorem place_inOrder (h : node.InOrder routes above) (hsound : node.Sound above)
    (hfollows : Follows above rest) (hapart : ∀ c ∈ rest.head?, c ∉ node.ways.indices)
    (hok : (place above value rest node).2 = .ok ()) :
    (place above value rest node).1.InOrder (routes ++ [above ++ rest]) above := by
  have hways := Node.inOrder_iff.mp h
  rw [place] at hok ⊢
  split_ifs at hok ⊢ with hrest
  · have hoff : node.ways.Off above (above ++ rest) :=
      Ways.off_of_apart hsound.ways hapart (by simp [hrest])
    rw [Node.inOrder_iff, claim_ways]
    exact hways.extend hoff
  · rcases sprout_cases above rest value node with ⟨-, fault, hfault⟩ | ⟨hmore, -, hfree⟩
    · rw [hfault] at hok
      contradiction
    · have hchained := Ways.chain_chained value hfollows hrest rfl
      have hoff : node.ways.Off above (above ++ rest) :=
        Ways.off_of_apart hsound.ways hapart fun hcolon => hfree (by rw [hcolon]; rfl)
      rw [hmore, Node.inOrder_iff]
      apply hways.graft hoff ((Ways.chain_lone _ _ _).inOrder _ _)
      rcases hchained.begins.cases with ⟨label, next, heq, hhead⟩ | ⟨name, next, heq, -⟩
        | ⟨name, value', pattern, heq, -⟩
      · obtain ⟨c, back, rfl⟩ := List.exists_cons_of_ne_nil hrest
        obtain ⟨label, rfl⟩ := List.head?_eq_some_iff.mp hhead
        rw [heq]
        simp [Ways.sides]
      · simp [heq, Ways.sides]
      · simp [heq, Ways.sides]

theorem along_inOrder {label : Text} {descend : Text → Node α × Except RouteError Unit}
    (h : node.InOrder routes (above ++ label)) (hlabel : Label label)
    (hsound : node.Sound (above ++ label)) (hfollows : Follows above rest)
    (hhead : label.head? = rest.head?)
    (hdescend : ∀ deeper, Follows (above ++ label) deeper → (descend deeper).2 = .ok () →
      (descend deeper).1.InOrder (routes ++ [above ++ label ++ deeper]) (above ++ label))
    (hok : (along above value rest label node descend).2.2 = .ok ()) :
    (along above value rest label node descend).2.1.InOrder (routes ++ [above ++ rest])
      (above ++ (along above value rest label node descend).1) := by
  rcases along_cases above value node descend hhead with ⟨deeper, rfl, halong⟩
    | ⟨front, tail, deeper, rfl, rfl, -, htail, hparted, halong⟩
  · rw [follows_append_iff hlabel.plain] at hfollows
    rw [halong] at hok ⊢
    rw [← List.append_assoc]
    exact hdescend deeper hfollows hok
  · rw [follows_append_iff hlabel.plain.left] at hfollows
    rw [halong] at hok ⊢
    rw [← List.append_assoc] at h ⊢
    have hsplit : (split (above ++ front) tail node).InOrder routes (above ++ front) :=
      Node.inOrder_iff.mpr (Ways.inOrder_single.mpr h)
    exact place_inOrder hsplit (split_sound _ ⟨htail, hlabel.plain.right⟩ hsound) hfollows
      (apart_split _ node hparted) hok

/-- An accepted route behind a label is one more. -/
theorem GrownAlong.priority_eq {label : Text} {grown : Text × Node α × Except RouteError Unit}
    (h : GrownAlong above rest value label node grown) (hsound : node.Sound (above ++ label))
    (hok : grown.2.2 = .ok ()) : grown.2.1.priority = node.priority + 1 := by
  have hregisters := h.registers
  rw [hok] at hregisters
  have hlength := List.Perm.length_eq hregisters
  rwa [List.length_cons, List.length_map, List.length_map, ← h.sound.priority_eq,
    ← hsound.priority_eq] at hlength

end Node

/-- What an accepted route `q` makes of the ways from a place that `above` leads to. -/
structure Ways.Reordered (routes : List Text) (above q : Text) (ways ways' : Ways α) : Prop where
  inOrder : ways'.InOrder (routes ++ [q]) above
  moved : ∀ side ∈ ways'.sides, side ∈ ways.sides ∨ above ++ side.2 <+: q

namespace Ways

variable {routes : List Text} {above rest label : Text} {value : α} {next : Node α}
  {others others' : Ways α}

/-- The first label leads to more routes than any other now, so it ties with none. -/
theorem reordered_of_along {grown : Text × Node α × Except RouteError Unit}
    (h : (literal label next others).InOrder routes above)
    (hways : (literal label next others).Sound above) (hhead : label.head? = rest.head?)
    (hgrown : Node.GrownAlong above rest value label next grown) (hok : grown.2.2 = .ok ())
    (halong : grown.2.1.InOrder (routes ++ [above ++ rest]) (above ++ grown.1)) :
    Reordered routes above (above ++ rest) (literal label next others)
      (literal grown.1 grown.2.1 others) := by
  obtain ⟨hlabel, hnext, hothers, hfork⟩ := sound_literal.mp hways
  have hkept := (inOrder_literal.mp h).2.2.extend (hfork.off hlabel hothers hhead)
  have hmore := hgrown.priority_eq hnext hok
  refine ⟨inOrder_literal.mpr ⟨?_, halong, hkept⟩, ?_⟩
  · intro side hside hsame
    have hfewer := hfork.ranked side.1 (mem_counts_of_mem_sides side hside)
    have hsame : grown.2.1.priority = side.1 := hsame
    omega
  · intro side hside
    rcases List.mem_cons.mp hside with rfl | hside
    · obtain ⟨c, back, hlabel'⟩ := List.exists_cons_of_ne_nil hgrown.isLabel.ne_nil
      have hrest : rest.head? = some c := by
        rw [← hhead, ← hgrown.head, hlabel']
        rfl
      obtain ⟨rest, rfl⟩ := List.head?_eq_some_iff.mp hrest
      right
      simp [hlabel']
    · exact Or.inl (List.mem_cons_of_mem _ hside)

/-- A label that the route does not go along stays in front of those that it does not tie with. -/
theorem reordered_of_others (h : (literal label next others).InOrder routes above)
    (hlabel : Label label) (hhead : label.head? ≠ rest.head?)
    (hreordered : Reordered routes above (above ++ rest) others others') :
    Reordered routes above (above ++ rest) (literal label next others)
      (rank label next others') := by
  obtain ⟨hwaits, hnext, -⟩ := inOrder_literal.mp h
  obtain ⟨c, label, rfl⟩ := List.exists_cons_of_ne_nil hlabel.ne_nil
  have hoff : ∀ back, ¬ above ++ c :: back <+: above ++ rest := by
    intro back
    rw [List.prefix_append_right_inj]
    rintro ⟨rest, rfl⟩
    exact hhead rfl
  refine ⟨InOrder.rank ?_ (hnext.extend (hoff label)) hreordered.inOrder, ?_⟩
  · exact hwaits.extend (hoff []) hreordered.moved
  · intro side hside
    rw [mem_sides_rank, sides, List.mem_cons] at hside
    rw [sides, List.mem_cons]
    rcases hside with hself | hside
    · exact Or.inl (Or.inl hself)
    · exact (hreordered.moved side hside).imp_left Or.inr

end Ways

-- Induction on the tree: the label that the route goes along leads to more routes than before, so
-- that it ties with none behind it and, for those in front of it, its last route is the newest.
mutual

theorem Node.insert_inOrder {node : Node α} :
    ∀ {routes : List Text} {above rest : Text} {value : α}, node.InOrder routes above →
      node.Sound above → Follows above rest → (node.insert above value rest).2 = .ok () →
      (node.insert above value rest).1.InOrder (routes ++ [above ++ rest]) above := by
  intro routes above rest value h hsound hfollows hok
  cases node with
  | mk held pattern priority ways =>
      rcases Node.insert_cases above value rest held pattern priority ways with
        ⟨-, hapart, hinsert⟩ | ⟨ways', result, -, hfollow, hinsert⟩
      · rw [hinsert] at hok ⊢
        exact Node.place_inOrder h hsound hfollows hapart hok
      · rw [hinsert] at hok ⊢
        cases hok
        exact Node.inOrder_iff.mpr
          (Ways.follow_reordered (Node.inOrder_iff.mp h) hsound.ways hfollows hfollow).inOrder

theorem Ways.follow_reordered {ways : Ways α} :
    ∀ {routes : List Text} {above rest : Text} {value : α} {ways' : Ways α},
      ways.InOrder routes above → ways.Sound above → Follows above rest →
      ways.follow above value rest = some (ways', .ok ()) →
      Ways.Reordered routes above (above ++ rest) ways ways' := by
  intro routes above rest value ways' h hways hfollows hfollow
  cases ways with
  | none => simp [Ways.follow] at hfollow
  | literal label next others =>
      obtain ⟨hlabel, hnext, hothers, -⟩ := Ways.sound_literal.mp hways
      obtain ⟨-, hnextOrder, hothersOrder⟩ := Ways.inOrder_literal.mp h
      rcases Ways.follow_literal_eq_some hfollow with
        ⟨hhead, rfl, hok⟩ | ⟨hhead, others', hothersFollow, rfl⟩
      · have hgrown := Node.along_grown value hlabel hnext hfollows hhead
          fun deeper hdeeper => Node.insert_grown value hnext hdeeper
        exact Ways.reordered_of_along h hways hhead hgrown hok.symm
          (Node.along_inOrder hnextOrder hlabel hnext hfollows hhead
            (fun deeper hdeeper => Node.insert_inOrder hnextOrder hnext hdeeper) hok.symm)
      · exact Ways.reordered_of_others h hlabel hhead
          (Ways.follow_reordered hothersOrder hothers hfollows hothersFollow)
  | param name next =>
      obtain ⟨hname, hnext, -⟩ := Ways.sound_param.mp hways
      obtain ⟨deeper, rfl, -, hdeeper, rfl, hok⟩ :=
        Ways.follow_param_eq_some hname hfollows hfollow
      have hinner := Node.insert_inOrder (Ways.inOrder_param.mp h) hnext hdeeper hok.symm
      rw [List.append_assoc, List.cons_append] at hinner
      exact ⟨Ways.inOrder_param.mpr hinner, by simp [Ways.sides]⟩
  | catchAll name value' pattern => simp [Ways.follow] at hfollow

end

/-! ### Refusals -/

namespace Ways.Recut

variable {ways ways' : Ways α}

theorem sides_eq (h : ways.Recut ways') : ways'.sides = ways.sides := by
  induction h with
  | refl ways => rfl
  | @cut front tail pattern next others front_ne tail_ne =>
      obtain ⟨c, front, rfl⟩ := List.exists_cons_of_ne_nil front_ne
      simp [sides, Node.split, Node.priority]
  | next label held pattern priority others deeper ih => rfl
  | others label next deeper ih => simp [sides, ih]
  | param name held pattern priority deeper ih => rfl

/-- A label that is cut stays where it is. -/
theorem inOrder (h : ways.Recut ways') {routes : List Text} {above : Text}
    (horder : ways.InOrder routes above) : ways'.InOrder routes above := by
  induction h generalizing above with
  | refl ways => exact horder
  | @cut front tail pattern next others front_ne tail_ne =>
      obtain ⟨hwaits, hnext, hothers⟩ := inOrder_literal.mp horder
      obtain ⟨c, front, rfl⟩ := List.exists_cons_of_ne_nil front_ne
      rw [← List.append_assoc] at hnext
      exact inOrder_literal.mpr
        ⟨hwaits, Node.inOrder_iff.mpr (inOrder_single.mpr hnext), hothers⟩
  | next label held pattern priority others deeper ih =>
      obtain ⟨hwaits, hnext, hothers⟩ := inOrder_literal.mp horder
      exact inOrder_literal.mpr
        ⟨hwaits, Node.inOrder_iff.mpr (ih (Node.inOrder_iff.mp hnext)), hothers⟩
  | others label next deeper ih =>
      obtain ⟨hwaits, hnext, hothers⟩ := inOrder_literal.mp horder
      exact inOrder_literal.mpr ⟨deeper.sides_eq ▸ hwaits, hnext, ih hothers⟩
  | param name held pattern priority deeper ih =>
      have hnext := Node.inOrder_iff.mp (inOrder_param.mp horder)
      exact inOrder_param.mpr (Node.inOrder_iff.mpr (ih hnext))

end Ways.Recut

namespace Tree

/-- Whether the labels at all places of a tree are in order. -/
def InOrder (tree : Tree α) (routes : List Text) : Prop :=
  tree.way.InOrder routes []

theorem plant_inOrder (pattern : Text) (value : α) (routes : List Text) :
    (plant pattern value).InOrder routes := by
  have hchain := (Ways.chain_lone pattern value pattern).inOrder routes []
  unfold plant
  split
  · next label pattern' priority ways others heq =>
      rw [heq, Ways.inOrder_literal] at hchain
      exact Ways.inOrder_single.mpr (Node.inOrder_iff.mpr (Node.inOrder_iff.mp hchain.2.1))
  · next label node others heq =>
      rw [heq, Ways.inOrder_literal] at hchain
      exact Ways.inOrder_single.mpr hchain.2.1
  · exact Ways.inOrder_none

theorem insert_inOrder {tree tree' : Tree α} {routes : List Text} {pattern : Text} {value : α}
    (h : tree.InOrder routes) (hsound : tree.Sound)
    (hinsert : tree.insert pattern value = (tree', .ok ())) :
    tree'.InOrder (routes ++ [pattern]) := by
  unfold insert at hinsert
  cases hcheck : Pattern.check pattern with
  | error fault => simp [hcheck] at hinsert
  | ok _ =>
      obtain ⟨hslash, hfollows⟩ := follows_of_check hcheck
      cases tree with
      | empty =>
          simp only [hcheck, Prod.mk.injEq] at hinsert
          rw [← hinsert.1]
          exact plant_inOrder pattern value _
      | root label node =>
          obtain ⟨hlabel, hhead, hnode⟩ := hsound
          have hnode : node.Sound ([] ++ label) := hnode
          have horder : node.InOrder routes ([] ++ label) := Ways.inOrder_single.mp h
          simp only [hcheck, Prod.mk.injEq] at hinsert
          obtain ⟨rfl, hok⟩ := hinsert
          have halong := Node.along_inOrder horder hlabel hnode hfollows (hhead.trans hslash.symm)
            (fun deeper hdeeper => Node.insert_inOrder horder hnode hdeeper) hok
          exact Ways.inOrder_single.mpr halong

theorem Holds.insertAll_inOrder {tree : Tree α} {routes : List (Text × α)} (h : tree.Holds routes)
    (horder : tree.InOrder (routes.map Prod.fst)) (history : List (Text × α)) :
    (tree.insertAll history).InOrder ((routes ++ tree.accepted history).map Prod.fst) := by
  induction history generalizing tree routes with
  | nil => simpa [Tree.insertAll, accepted] using horder
  | cons route later ih =>
      obtain ⟨pattern, value⟩ := route
      rw [Tree.insertAll, accepted]
      rcases hinsert : tree.insert pattern value with ⟨tree', _ | _⟩
      · exact ih (h.insert_error hinsert) ((insert_recut h.sound hinsert).inOrder horder)
      · have hmore := insert_inOrder horder h.sound hinsert
        simpa using ih (h.insert_ok hinsert) (by simpa using hmore)

/-- The labels of a tree are in order, whatever was registered before and whatever was refused. -/
theorem ofHistory_inOrder (history : List (Text × α)) :
    (ofHistory history).InOrder ((routesOf history).map Prod.fst) := by
  have h := holds_empty.insertAll_inOrder (α := α) Ways.inOrder_none history
  rwa [List.nil_append] at h

end Tree

end RadixRouter
