import Mathlib.Data.List.Infix
import RadixRouter.Proofs.Tree.Among
import RadixRouter.Proofs.Tree.Tally

/-!
The order in which the patterns of a tree are listed, told from the accepted routes alone: it is that
of a dictionary whose alphabet is put in order anew behind every front. With the patterns the
repairs are settled too.
-/

namespace RadixRouter

open Pattern

variable {α : Type}

/-! ### The order of a dictionary -/

/-- Whether more routes begin with `f` than with `g`, or as many and the last of them was accepted
earlier. -/
def Ahead (routes : List Text) (f g : Text) : Prop :=
  tally routes g < tally routes f ∨ tally routes g = tally routes f ∧ Sooner routes f g

/-- Whether routes that go on from `front` with `c` come before those that go on with `d`. -/
def Comes (routes : List Text) (front : Text) (c d : Char) : Prop :=
  isMark c = false ∧ (isMark d = true ∨ Ahead routes (front ++ [c]) (front ++ [d]))

/-- Whether `p` comes before `q` where both have `front` in front of them. What ends comes before what
goes on. -/
def Before (routes : List Text) : (front p q : Text) → Prop
  | _, [], _ => True
  | _, _ :: _, [] => False
  | front, c :: p, d :: q =>
      if c = d then Before routes (front ++ [c]) p q else Comes routes front c d

section Order

variable {routes : List Text} {f g front p q : Text} {c d : Char}

theorem exists_mem_tails_iff_sooner :
    (∃ later ∈ routes.tails, (∃ route ∈ later.head?, g <+: route) ∧ ∀ other ∈ later, ¬ f <+: other)
      ↔ Sooner routes f g := by
  simp only [List.mem_tails]
  constructor
  · rintro ⟨later, ⟨earlier, rfl⟩, ⟨route, hroute, hbegins⟩, hnone⟩
    obtain ⟨later, rfl⟩ := List.head?_eq_some_iff.mp hroute
    exact ⟨earlier, route, later, rfl, hbegins, hnone⟩
  · rintro ⟨earlier, route, later, rfl, hbegins, hnone⟩
    exact ⟨route :: later, List.suffix_append earlier _, ⟨route, rfl, hbegins⟩, hnone⟩

instance : Decidable (Sooner routes f g) :=
  decidable_of_iff _ exists_mem_tails_iff_sooner

instance : Decidable (Ahead routes f g) :=
  inferInstanceAs (Decidable (_ ∨ _))

theorem Sooner.asymm (h : Sooner routes f g) : ¬ Sooner routes g f := by
  obtain ⟨earlier, route, later, heq, hbegins, hnone⟩ := h
  rintro ⟨earlier', route', later', heq', hbegins', hnone'⟩
  rcases List.suffix_or_suffix_of_suffix (heq ▸ List.suffix_append earlier _)
    (heq' ▸ List.suffix_append earlier' _) with hsuffix | hsuffix
  · exact hnone' route (hsuffix.subset List.mem_cons_self) hbegins
  · exact hnone route' (hsuffix.subset List.mem_cons_self) hbegins'

theorem Ahead.asymm (h : Ahead routes f g) : ¬ Ahead routes g f := by
  rcases h with hmore | ⟨hsame, hsooner⟩
  · rintro (hmore' | ⟨hsame', -⟩) <;> omega
  · rintro (hmore' | ⟨-, hsooner'⟩)
    · omega
    · exact hsooner.asymm hsooner'

theorem Comes.asymm (h : Comes routes front c d) : ¬ Comes routes front d c := by
  obtain ⟨hplain, hwild | hahead⟩ := h
  · simp [Comes, hwild]
  · rintro ⟨-, hwild' | hahead'⟩
    · simp [hplain] at hwild'
    · exact hahead.asymm hahead'

theorem Before.antisymm (h : Before routes front p q) (h' : Before routes front q p) : p = q := by
  induction p generalizing front q with
  | nil =>
      cases q with
      | nil => rfl
      | cons d q => exact h'.elim
  | cons c p ih =>
      cases q with
      | nil => exact h.elim
      | cons d q =>
          by_cases hsame : c = d
          · subst hsame
            rw [Before, if_pos rfl] at h h'
            rw [ih h h']
          · rw [Before, if_neg hsame] at h
            rw [Before, if_neg (Ne.symm hsame)] at h'
            exact (h.asymm h').elim

theorem before_append (front back : Text) :
    Before routes front (back ++ p) (back ++ q) ↔ Before routes (front ++ back) p q := by
  induction back generalizing front with
  | nil => simp
  | cons c back ih => simp [Before, ih]

theorem before_of_prefix (h : p <+: q) : Before routes front p q := by
  obtain ⟨back, rfl⟩ := h
  have hends : Before routes (front ++ p) [] back := trivial
  simpa using (before_append front p).mpr hends

end Order

/-- Whether the order of the one routes puts what any of them begin with in the same order as that of
the other routes. -/
def Agree (routes routes' : List Text) : Prop :=
  ∀ p ∈ routes, ∀ q ∈ routes, ∀ f ∈ p.inits, ∀ g ∈ q.inits, Ahead routes f g → Ahead routes' f g

instance (routes routes' : List Text) : Decidable (Agree routes routes') :=
  inferInstanceAs (Decidable (∀ p ∈ routes, _))

theorem Before.of_agree {routes routes' : List Text} (hagree : Agree routes routes')
    {front p q : Text} (hp : front ++ p ∈ routes) (hq : front ++ q ∈ routes)
    (h : Before routes front p q) : Before routes' front p q := by
  induction p generalizing front q with
  | nil => trivial
  | cons c p ih =>
      cases q with
      | nil => exact h
      | cons d q =>
          have hwhole : ∀ c back, front ++ c :: back = front ++ [c] ++ back := by simp
          rw [hwhole] at hp hq
          rw [Before] at h ⊢
          split at h
          · next hsame =>
              subst hsame
              rw [if_pos rfl]
              exact ih hp hq h
          · next hne =>
              rw [if_neg hne]
              refine h.imp_right (Or.imp_right (hagree _ hp _ hq _ ?_ _ ?_))
              · exact (List.mem_inits _ _).mpr (List.prefix_append _ p)
              · exact (List.mem_inits _ _).mpr (List.prefix_append _ q)

/-! ### The patterns of a tree -/

namespace Ways

variable {routes : List Text} {above label : Text} {next : Node α} {others : Ways α}

theorem exists_side {ways : Ways α} (hways : ways.Sound above) :
    ∀ d ∈ ways.indices, ∃ count, (count, [d]) ∈ ways.sides := by
  intro d hd
  cases ways with
  | literal label next others =>
      obtain ⟨hlabel, -, hothers, -⟩ := sound_literal.mp hways
      obtain ⟨c, label, rfl⟩ := List.exists_cons_of_ne_nil hlabel.ne_nil
      rw [indices, List.mem_append] at hd
      rcases hd with hhead | hd
      · cases List.mem_singleton.mp hhead
        exact ⟨next.priority, by simp [sides]⟩
      · obtain ⟨count, hside⟩ := exists_side hothers d hd
        exact ⟨count, List.mem_cons_of_mem _ hside⟩
  | _ => simp [indices] at hd

/-- Routes along the first label come before those along the other ways. -/
theorem comes_of_literal {c d : Char} (hways : (literal (c :: label) next others).Sound above)
    (horder : (literal (c :: label) next others).InOrder routes above)
    (hgathers : (literal (c :: label) next others).Gathers routes above)
    (hd : d ∈ others.indices ∨ isMark d = true) : Comes routes above c d := by
  obtain ⟨hlabel, -, hothers, hfork⟩ := sound_literal.mp hways
  refine ⟨hlabel.plain c List.mem_cons_self, ?_⟩
  rcases hd with hindex | hmark
  · obtain ⟨count, hside⟩ := exists_side hothers d hindex
    have hfirst : next.priority = tally routes (above ++ [c]) :=
      hgathers.side_eq hways (next.priority, [c]) (by simp [sides])
    have hother : count = tally routes (above ++ [d]) :=
      (hgathers.ofOthers hways).side_eq hothers _ hside
    have hahead : count < next.priority
        ∨ count = next.priority ∧ Sooner routes (above ++ [c]) (above ++ [d]) :=
      horder.ahead hfork _ hside
    rw [hfirst, hother] at hahead
    exact Or.inr hahead
  · exact Or.inl hmark

end Ways

-- Induction on the tree.
mutual

theorem Node.pairwise_patterns {node : Node α} : ∀ {routes : List Text} {above : Text},
    node.Sound above → node.InOrder routes above → node.Gathers routes above →
    node.patterns.Pairwise (Before routes []) := by
  intro routes above hsound horder hgathers
  have hways := hsound.ways
  have hbehind := hgathers.ways hsound
  have horder := Node.inOrder_iff.mp horder
  cases node with
  | mk held pattern priority ways =>
      have hinner := Ways.pairwise_patterns hways horder hbehind
      rw [Node.patterns, List.pairwise_append]
      refine ⟨by split <;> simp, hinner, ?_⟩
      intro p hp q hq
      obtain ⟨c, back, rfl, -⟩ := hways.exists_of_mem hq
      split at hp
      · next hsome =>
          rw [List.mem_singleton.mp hp, (Node.sound_mk.mp hsound).1.named hsome]
          exact before_of_prefix (List.prefix_append above _)
      · contradiction

theorem Ways.pairwise_patterns {ways : Ways α} : ∀ {routes : List Text} {above : Text},
    ways.Sound above → ways.InOrder routes above → ways.Gathers routes above →
    ways.patterns.Pairwise (Before routes []) := by
  intro routes above hways horder hgathers
  cases ways with
  | none => simp [Ways.patterns]
  | literal label next others =>
      obtain ⟨hlabel, hnext, hothers, hfork⟩ := Ways.sound_literal.mp hways
      obtain ⟨-, hnextOrder, hothersOrder⟩ := Ways.inOrder_literal.mp horder
      rw [Ways.patterns, List.pairwise_append]
      refine ⟨Node.pairwise_patterns hnext hnextOrder (hgathers.ofNext hways),
        Ways.pairwise_patterns hothers hothersOrder (hgathers.ofOthers hways), ?_⟩
      intro p hp q hq
      obtain ⟨c, label, rfl⟩ := List.exists_cons_of_ne_nil hlabel.ne_nil
      obtain ⟨back, rfl⟩ := hnext.prefix_of_mem hp
      obtain ⟨d, back', rfl, hd⟩ := hothers.exists_of_mem hq
      rw [List.append_assoc, List.cons_append, before_append, List.nil_append, Before,
        if_neg (hfork.head_ne hlabel hd)]
      exact Ways.comes_of_literal hways horder hgathers hd
  | param name next =>
      have hnext := (Ways.sound_param.mp hways).2.1
      rw [Ways.patterns]
      exact Node.pairwise_patterns hnext (Ways.inOrder_param.mp horder) (hgathers.ofParam hways)
  | catchAll name value pattern => simp [Ways.patterns]

end

namespace Tree

variable {tree tree' : Tree α} {routes routes' : List (Text × α)}

theorem Holds.pairwise_patterns (h : tree.Holds routes)
    (horder : tree.InOrder (routes.map Prod.fst)) :
    tree.patterns.Pairwise (Before (routes.map Prod.fst) []) := by
  cases tree with
  | empty => exact List.Pairwise.nil
  | root label node =>
      have hnode : node.Sound ([] ++ label) := h.sound.2.2
      have horder : node.InOrder (routes.map Prod.fst) ([] ++ label) := Ways.inOrder_single.mp horder
      exact Node.pairwise_patterns hnode horder h.gathers

/-- Trees of the same routes list them in the same order if the orders of the routes agree. -/
theorem Holds.patterns_eq_of_agree (h : tree.Holds routes) (h' : tree'.Holds routes')
    (horder : tree.InOrder (routes.map Prod.fst)) (horder' : tree'.InOrder (routes'.map Prod.fst))
    (hperm : (routes'.map Prod.fst).Perm (routes.map Prod.fst))
    (hagree : Agree (routes.map Prod.fst) (routes'.map Prod.fst)) :
    tree'.patterns = tree.patterns := by
  have hlisted : tree.patterns.Pairwise (Before (routes'.map Prod.fst) []) := by
    apply (h.pairwise_patterns horder).imp_of_mem
    intro p q hp hq
    exact Before.of_agree hagree (h.patterns_perm.mem_iff.mp hp) (h.patterns_perm.mem_iff.mp hq)
  refine List.Perm.eq_of_pairwise ?_ (h'.pairwise_patterns horder') hlisted ?_
  · exact fun p q _ _ => Before.antisymm
  · exact h'.patterns_perm.trans (hperm.trans h.patterns_perm.symm)

/-- A label leads to as many routes as its priority says. Of two labels at a place the one with the
higher priority comes first, and of those with the same one the label whose last route was accepted
earlier; the first routes do not matter. The list of the patterns and the repairs depend on these
orders alone. -/
theorem ofHistory_siblings_ranked (history : List (Text × α)) :
    (∀ above place, Layout.Within [] (ofHistory history).layout above place →
      Layout.Ranked ((routesOf history).map Prod.fst) (above ++ place.segment) place)
      ∧ ∀ history' : List (Text × α),
        ((routesOf history').map Prod.fst).Perm ((routesOf history).map Prod.fst) →
        Agree ((routesOf history).map Prod.fst) ((routesOf history').map Prod.fst) →
        (ofHistory history').patterns = (ofHistory history).patterns
          ∧ ∀ fixSlash path,
            (ofHistory history').repair fixSlash path = (ofHistory history).repair fixSlash path := by
  have h := holds_ofHistory history
  have horder := ofHistory_inOrder history
  refine ⟨fun above place hwithin => h.ranked_of_within horder hwithin, ?_⟩
  intro history' hperm hagree
  have h' := holds_ofHistory history'
  have hsame := h.patterns_eq_of_agree h' horder (ofHistory_inOrder history') hperm hagree
  refine ⟨hsame, ?_⟩
  intro fixSlash path
  rw [h.repair_eq_among, h'.repair_eq_among, hsame]

/-- Two labels that lead to two routes each. The one that has its first route later has its last one
earlier. -/
def overtaken : List (Text × Nat) :=
  [("/a".toList, 1), ("/b".toList, 2), ("/b/x".toList, 3), ("/a/x".toList, 4)]

/-- The same routes; one of the labels has both its first and its last route earlier. -/
def leading : List (Text × Nat) :=
  [("/b".toList, 2), ("/a".toList, 1), ("/b/x".toList, 3), ("/a/x".toList, 4)]

/-- The label whose first route came later is in front all the same, and the repairs are those of a
tree where it came earlier. -/
theorem overtaken_listed :
    (ofHistory overtaken).patterns
        = ["/b".toList, "/b/x".toList, "/a".toList, "/a/x".toList]
      ∧ (∀ above place, Layout.Within [] (ofHistory overtaken).layout above place →
        Layout.Ranked ((routesOf overtaken).map Prod.fst) (above ++ place.segment) place)
      ∧ (ofHistory leading).patterns = (ofHistory overtaken).patterns
      ∧ ∀ fixSlash path,
        (ofHistory leading).repair fixSlash path = (ofHistory overtaken).repair fixSlash path := by
  obtain ⟨hranked, hsame⟩ := ofHistory_siblings_ranked overtaken
  refine ⟨by decide +kernel, hranked, hsame leading ?_ ?_⟩
  · decide +kernel
  · decide +kernel

end Tree

end RadixRouter
