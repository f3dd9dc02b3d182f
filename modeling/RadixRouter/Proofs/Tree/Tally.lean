import RadixRouter.Proofs.Tree.Layout
import RadixRouter.Proofs.Tree.Tie

/-!
The order among the labels of a tree, said with the accepted routes: the labels at a place are in
the order of how many routes begin with what leads along them, and of when the last of these was
accepted.
-/

namespace RadixRouter

open Pattern

variable {α : Type}

/-- How many of the routes begin with `front`. -/
def tally (routes : List Text) (front : Text) : Nat :=
  routes.countP (front <+: ·)

section Congr

variable {routes : List Text} {f f' g g' : Text}

theorem tally_congr (hf : ∀ route ∈ routes, f <+: route ↔ f' <+: route) :
    tally routes f = tally routes f' :=
  List.countP_congr (by simpa using hf)

theorem Sooner.congr (hf : ∀ route ∈ routes, f <+: route ↔ f' <+: route)
    (hg : ∀ route ∈ routes, g <+: route ↔ g' <+: route) (h : Sooner routes f g) :
    Sooner routes f' g' := by
  obtain ⟨earlier, route, later, rfl, hbegins, hnone⟩ := h
  have hmem : ∀ other ∈ route :: later, other ∈ earlier ++ route :: later :=
    fun other => List.mem_append_right earlier
  refine ⟨earlier, route, later, rfl, (hg route (hmem route List.mem_cons_self)).mp hbegins, ?_⟩
  exact fun other hother hon => hnone other hother ((hf other (hmem other hother)).mpr hon)

end Congr

/-! ### The routes behind a place -/

/-- Whether the routes that begin with `above` are those at a place and behind it. -/
def Node.Gathers (routes : List Text) (above : Text) (node : Node α) : Prop :=
  (routes.filter (above <+: ·)).Perm node.patterns

/-- Whether the routes that go on from `above` as one of the ways does are those along the ways. -/
def Ways.Gathers (routes : List Text) (above : Text) (ways : Ways α) : Prop :=
  ∀ c back, c ∈ ways.indices ∨ isMark c = true →
    (routes.filter (above ++ c :: back <+: ·)).Perm
      (ways.patterns.filter (above ++ c :: back <+: ·))

theorem Node.Sound.prefix_of_mem {above pattern : Text} {node : Node α} (hsound : node.Sound above)
    (hmem : pattern ∈ node.patterns) : above <+: pattern := by
  rw [hsound.patterns_eq, List.mem_map] at hmem
  obtain ⟨entry, -, rfl⟩ := hmem
  exact List.prefix_append above _

theorem Ways.Sound.exists_of_mem {above pattern : Text} {ways : Ways α} (hways : ways.Sound above)
    (hmem : pattern ∈ ways.patterns) :
    ∃ c back, pattern = above ++ c :: back ∧ (c ∈ ways.indices ∨ isMark c = true) := by
  rw [hways.patterns_eq, List.mem_map] at hmem
  obtain ⟨entry, hentry, rfl⟩ := hmem
  exact hways.written_of_mem entry hentry

theorem Node.Gathers.ways {routes : List Text} {above : Text} {node : Node α}
    (h : node.Gathers routes above) (hsound : node.Sound above) :
    node.ways.Gathers routes above := by
  intro c back _
  have hnarrow : routes.filter (above ++ c :: back <+: ·)
      = (routes.filter (above <+: ·)).filter (above ++ c :: back <+: ·) := by
    rw [List.filter_filter]
    apply List.filter_congr
    intro route _
    have hfront : above ++ c :: back <+: route → above <+: route :=
      (List.prefix_append above _).trans
    rw [← Bool.decide_and, decide_eq_decide]
    exact ⟨fun hlong => ⟨hlong, hfront hlong⟩, And.left⟩
  have hfiltered := h.filter (above ++ c :: back <+: ·)
  rw [← hnarrow] at hfiltered
  cases node with
  | mk held pattern priority ways =>
      have hheld : (if held.isSome then [pattern] else []).filter (above ++ c :: back <+: ·)
          = [] := by
        split
        · next hsome =>
            rw [(Node.sound_mk.mp hsound).1.named hsome]
            have hlonger : ¬ above ++ c :: back <+: above := by
              intro hprefix
              have := hprefix.length_le
              rw [List.length_append, List.length_cons] at this
              omega
            simp [hlonger]
        · rfl
      rwa [Node.patterns, List.filter_append, hheld, List.nil_append] at hfiltered

namespace Ways

variable {routes : List Text} {above label name : Text} {next : Node α} {others : Ways α}

/-- The routes along the first label are none of those that go on with another character. -/
theorem filter_next_eq_nil {c d : Char} {back : Text} (hnext : next.Sound (above ++ c :: label))
    (hne : c ≠ d) : next.patterns.filter (above ++ d :: back <+: ·) = [] := by
  rw [List.filter_eq_nil_iff]
  intro pattern hmem
  obtain ⟨rest, rfl⟩ := hnext.prefix_of_mem hmem
  simpa [List.prefix_append_right_inj] using fun heq : d = c => (hne heq.symm).elim

theorem filter_others_eq_nil {c : Char} {back : Text} (hothers : others.Sound above)
    (hfork : Fork (c :: label) next others) (hlabel : Label (c :: label)) :
    others.patterns.filter (above ++ c :: back <+: ·) = [] := by
  rw [List.filter_eq_nil_iff]
  intro pattern hmem
  obtain ⟨d, rest, rfl, hd⟩ := hothers.exists_of_mem hmem
  have hne := hfork.head_ne hlabel hd
  simp [List.prefix_append_right_inj, hne]

theorem filter_next_eq_self {front : Text} (hnext : next.Sound (above ++ label))
    (hfront : front <+: above ++ label) : next.patterns.filter (front <+: ·) = next.patterns := by
  rw [List.filter_eq_self]
  exact fun pattern hmem => decide_eq_true (hfront.trans (hnext.prefix_of_mem hmem))

namespace Gathers

theorem ofNext (h : (literal label next others).Gathers routes above)
    (hways : (literal label next others).Sound above) : next.Gathers routes (above ++ label) := by
  obtain ⟨hlabel, hnext, hothers, hfork⟩ := sound_literal.mp hways
  obtain ⟨c, label, rfl⟩ := List.exists_cons_of_ne_nil hlabel.ne_nil
  have hperm := h c label (Or.inl (by simp [Ways.indices]))
  rwa [Ways.patterns, List.filter_append, filter_next_eq_self hnext (List.prefix_refl _),
    filter_others_eq_nil hothers hfork hlabel, List.append_nil] at hperm

theorem ofOthers (h : (literal label next others).Gathers routes above)
    (hways : (literal label next others).Sound above) : others.Gathers routes above := by
  obtain ⟨hlabel, hnext, hothers, hfork⟩ := sound_literal.mp hways
  obtain ⟨c, label, rfl⟩ := List.exists_cons_of_ne_nil hlabel.ne_nil
  intro d back hd
  have hperm := h d back (hd.imp_left fun hd => by simp [Ways.indices, hd])
  rwa [Ways.patterns, List.filter_append, filter_next_eq_nil hnext (hfork.head_ne hlabel hd),
    List.nil_append] at hperm

theorem ofParam (h : (param name next).Gathers routes above)
    (hways : (param name next).Sound above) : next.Gathers routes (above ++ ':' :: name) := by
  have hnext := (sound_param.mp hways).2.1
  have hperm := h ':' name (Or.inr rfl)
  rwa [Ways.patterns, filter_next_eq_self hnext (List.prefix_refl _)] at hperm

/-- A route that begins as the first label does goes along it. -/
theorem begins_iff (h : (literal label next others).Gathers routes above)
    (hways : (literal label next others).Sound above) :
    ∀ route ∈ routes, above ++ label.take 1 <+: route ↔ above ++ label <+: route := by
  obtain ⟨hlabel, hnext, hothers, hfork⟩ := sound_literal.mp hways
  obtain ⟨c, label, rfl⟩ := List.exists_cons_of_ne_nil hlabel.ne_nil
  intro route hroute
  constructor
  · intro hbegins
    have hperm := h c [] (Or.inl (by simp [Ways.indices]))
    have hmem : route ∈ routes.filter (above ++ [c] <+: ·) :=
      List.mem_filter.mpr ⟨hroute, decide_eq_true hbegins⟩
    rw [hperm.mem_iff, Ways.patterns, List.filter_append,
      filter_others_eq_nil hothers hfork hlabel, List.append_nil] at hmem
    exact hnext.prefix_of_mem (List.mem_filter.mp hmem).1
  · exact ((List.prefix_append_right_inj above).mpr (List.take_prefix 1 _)).trans

/-- A label leads to as many routes as begin with what leads along it. -/
theorem side_eq {ways : Ways α} (h : ways.Gathers routes above) (hways : ways.Sound above) :
    ∀ side ∈ ways.sides, side.1 = tally routes (above ++ side.2) := by
  intro side hside
  cases ways with
  | literal label next others =>
      obtain ⟨-, hnext, hothers, -⟩ := sound_literal.mp hways
      rw [sides, List.mem_cons] at hside
      rcases hside with rfl | hside
      · rw [tally_congr (h.begins_iff hways), tally, List.countP_eq_length_filter,
          List.Perm.length_eq (h.ofNext hways), hnext.patterns_eq, List.length_map]
        exact hnext.priority_eq
      · exact (h.ofOthers hways).side_eq hothers side hside
  | _ => simp [sides] at hside

end Gathers

/-! ### The order at a place -/

theorem mem_sides_of_mem_layouts {ways : Ways α} : ∀ child ∈ ways.layouts, child.kind = .literal →
    (child.priority, child.segment.take 1) ∈ ways.sides := by
  intro child hchild hkind
  cases ways with
  | none => simp [layouts] at hchild
  | literal label next others =>
      rw [layouts, List.mem_cons] at hchild
      rcases hchild with rfl | hchild
      · simp [sides]
      · exact List.mem_cons_of_mem _ (mem_sides_of_mem_layouts child hchild hkind)
  | param name next =>
      rw [layouts, List.mem_singleton] at hchild
      simp [hchild] at hkind
  | catchAll name value pattern =>
      rw [layouts, List.mem_singleton] at hchild
      simp [hchild, Layout.kind] at hkind

theorem begins_iff_of_mem_layouts {ways : Ways α} (h : ways.Gathers routes above)
    (hways : ways.Sound above) : ∀ child ∈ ways.layouts, child.kind = .literal →
    ∀ route ∈ routes, above ++ child.segment.take 1 <+: route ↔ above ++ child.segment <+: route := by
  intro child hchild hkind
  cases ways with
  | none => simp [layouts] at hchild
  | literal label next others =>
      rw [layouts, List.mem_cons] at hchild
      rcases hchild with rfl | hchild
      · simpa using h.begins_iff hways
      · exact begins_iff_of_mem_layouts (h.ofOthers hways) (sound_literal.mp hways).2.2.1 child
          hchild hkind
  | param name next =>
      rw [layouts, List.mem_singleton] at hchild
      simp [hchild] at hkind
  | catchAll name value pattern =>
      rw [layouts, List.mem_singleton] at hchild
      simp [hchild, Layout.kind] at hkind

/-- Of two labels, the first one leads to more routes, or to as many and waited less for the last. -/
theorem InOrder.ahead {label : Text} {next : Node α} {others : Ways α}
    (h : (literal label next others).InOrder routes above)
    (hfork : Fork label next others) : ∀ side ∈ others.sides, side.1 < next.priority
      ∨ side.1 = next.priority ∧ Sooner routes (above ++ label.take 1) (above ++ side.2) := by
  intro side hside
  have hcount := hfork.ranked side.1 (mem_counts_of_mem_sides side hside)
  rcases Nat.lt_or_eq_of_le hcount with hless | hsame
  · exact Or.inl hless
  · exact Or.inr ⟨hsame, (inOrder_literal.mp h).1 side hside hsame.symm⟩

theorem InOrder.pairwise_layouts {ways : Ways α} (h : ways.InOrder routes above)
    (hways : ways.Sound above) :
    ways.layouts.Pairwise fun child later => child.kind = .literal → later.kind = .literal →
      later.priority < child.priority ∨ later.priority = child.priority
        ∧ Sooner routes (above ++ child.segment.take 1) (above ++ later.segment.take 1) := by
  cases ways with
  | none => simp [layouts]
  | literal label next others =>
      obtain ⟨-, -, hothers, hfork⟩ := sound_literal.mp hways
      rw [layouts, List.pairwise_cons]
      refine ⟨?_, (inOrder_literal.mp h).2.2.pairwise_layouts hothers⟩
      intro later hlater _ hkind
      simpa using h.ahead hfork _ (mem_sides_of_mem_layouts later hlater hkind)
  | param name next => simp [layouts]
  | catchAll name value pattern => simp [layouts]

end Ways

namespace Layout

/-- The rules for the literal children of a place that `front` leads to. -/
structure Ranked (routes : List Text) (front : Text) (place : Layout α) : Prop where
  /-- A child counts the routes that begin with what leads to it. -/
  counted : ∀ child ∈ place.children, child.kind = .literal →
    child.priority = tally routes (front ++ child.segment)
  /-- Children with more routes come first, and of those with as many the one whose last route was
  accepted earlier. -/
  ordered : place.children.Pairwise fun child later => child.kind = .literal →
    later.kind = .literal → later.priority < child.priority ∨ later.priority = child.priority
      ∧ Sooner routes (front ++ child.segment) (front ++ later.segment)

theorem ranked_of_no_children {routes : List Text} {front : Text} {place : Layout α}
    (h : place.children = []) : Ranked routes front place := by
  constructor <;> simp [h]

end Layout

open Layout

theorem Node.ranked_layout {routes : List Text} {front segment : Text} {node : Node α}
    (kind : NodeKind) (name : Option Text) (hsound : node.Sound front)
    (horder : node.InOrder routes front) (hgathers : node.Gathers routes front) :
    Ranked routes front (node.layout segment kind name) := by
  have hways := hsound.ways
  have hbehind := hgathers.ways hsound
  have horder := Node.inOrder_iff.mp horder
  cases node with
  | mk held pattern priority ways =>
      have hbegins := Ways.begins_iff_of_mem_layouts hbehind hways
      constructor
      · intro child hchild hkind
        rw [← tally_congr (hbegins child hchild hkind)]
        exact hbehind.side_eq hways _ (Ways.mem_sides_of_mem_layouts child hchild hkind)
      · apply (horder.pairwise_layouts hways).imp_of_mem
        intro child later hchild hlater hahead hkind hkind'
        refine (hahead hkind hkind').imp_right (And.imp_right ?_)
        exact Sooner.congr (hbegins child hchild hkind) (hbegins later hlater hkind')

-- Induction on the tree, as for the other rules of a place.
mutual

theorem Node.ranked_of_within {node : Node α} : ∀ {routes : List Text}
    {above segment above' : Text} {kind : NodeKind} {name : Option Text} {place : Layout α},
    node.Sound (above ++ segment) → node.InOrder routes (above ++ segment) →
    node.Gathers routes (above ++ segment) →
    Within above (node.layout segment kind name) above' place →
    Ranked routes (above' ++ place.segment) place := by
  intro routes above segment above' kind name place hsound horder hgathers hwithin
  rcases hwithin.cases with ⟨rfl, rfl⟩ | ⟨child, hchild, hplace⟩
  · rw [Node.segment_layout]
    exact Node.ranked_layout kind name hsound horder hgathers
  · rw [Node.segment_layout] at hplace
    cases node with
    | mk held pattern priority ways =>
        exact Ways.ranked_of_within hsound.ways (Node.inOrder_iff.mp horder)
          (hgathers.ways hsound) child hchild hplace

theorem Ways.ranked_of_within {ways : Ways α} : ∀ {routes : List Text} {above above' : Text}
    {place : Layout α}, ways.Sound above → ways.InOrder routes above →
    ways.Gathers routes above → ∀ child ∈ ways.layouts, Within above child above' place →
    Ranked routes (above' ++ place.segment) place := by
  intro routes above above' place hways horder hgathers child hchild hwithin
  cases ways with
  | none => simp [Ways.layouts] at hchild
  | literal label next others =>
      obtain ⟨-, hnext, hothers, -⟩ := Ways.sound_literal.mp hways
      obtain ⟨-, hnextOrder, hothersOrder⟩ := Ways.inOrder_literal.mp horder
      rw [Ways.layouts, List.mem_cons] at hchild
      rcases hchild with rfl | hchild
      · exact Node.ranked_of_within hnext hnextOrder (hgathers.ofNext hways) hwithin
      · exact Ways.ranked_of_within hothers hothersOrder (hgathers.ofOthers hways) child hchild hwithin
  | param name next =>
      have hnext := (Ways.sound_param.mp hways).2.1
      rw [Ways.layouts, List.mem_singleton] at hchild
      subst hchild
      exact Node.ranked_of_within hnext (Ways.inOrder_param.mp horder) (hgathers.ofParam hways)
        hwithin
  | catchAll name value pattern =>
      rw [Ways.layouts, List.mem_singleton] at hchild
      subst hchild
      rcases hwithin.cases with ⟨rfl, rfl⟩ | ⟨child, hchild, -⟩
      · exact ranked_of_no_children rfl
      · simp [Layout.children] at hchild

end

namespace Tree

/-- All routes of a tree begin with the first label. -/
theorem Holds.gathers {label : Text} {node : Node α} {routes : List (Text × α)}
    (h : (root label node).Holds routes) : node.Gathers (routes.map Prod.fst) label := by
  have hnode := h.sound.2.2
  have hall : (routes.map Prod.fst).filter (label <+: ·) = routes.map Prod.fst := by
    rw [List.filter_eq_self]
    intro route hroute
    exact decide_eq_true (hnode.prefix_of_mem (h.patterns_perm.mem_iff.mpr hroute))
  rw [Node.Gathers, hall]
  exact h.patterns_perm.symm

theorem Holds.ranked_of_within {tree : Tree α} {routes : List (Text × α)} (h : tree.Holds routes)
    (horder : tree.InOrder (routes.map Prod.fst)) {above : Text} {place : Layout α}
    (hwithin : Within [] tree.layout above place) :
    Ranked (routes.map Prod.fst) (above ++ place.segment) place := by
  cases tree with
  | empty =>
      rcases hwithin.cases with ⟨rfl, rfl⟩ | ⟨child, hchild, -⟩
      · exact ranked_of_no_children rfl
      · simp [Tree.layout, Layout.children] at hchild
  | root label node =>
      have hnode : node.Sound ([] ++ label) := h.sound.2.2
      have horder : node.InOrder (routes.map Prod.fst) ([] ++ label) := Ways.inOrder_single.mp horder
      exact Node.ranked_of_within hnode horder h.gathers hwithin

end Tree

end RadixRouter
