import RadixRouter.Proofs.Tree.History

/-!
What holds at every place of a tree once it is laid out in plain fields: how the children and the
index characters agree, where wildcards stand, what the counts count, and which pattern a place with
a value carries.
-/

namespace RadixRouter

open Pattern

variable {α : Type}

namespace Layout

def segment : Layout α → Text
  | mk segment _ _ _ _ _ _ _ _ => segment

def kind : Layout α → NodeKind
  | mk _ kind _ _ _ _ _ _ _ => kind

def wildChild : Layout α → Bool
  | mk _ _ _ wildChild _ _ _ _ _ => wildChild

def indices : Layout α → Text
  | mk _ _ _ _ indices _ _ _ _ => indices

def children : Layout α → List (Layout α)
  | mk _ _ _ _ _ children _ _ _ => children

def priority : Layout α → Nat
  | mk _ _ _ _ _ _ priority _ _ => priority

def value : Layout α → Option α
  | mk _ _ _ _ _ _ _ value _ => value

def pattern : Layout α → Text
  | mk _ _ _ _ _ _ _ _ pattern => pattern

end Layout

mutual

/-- How many values there are at a place and behind it. -/
def Layout.valueCount : Layout α → Nat
  | .mk _ _ _ _ _ children _ value _ => value.toList.length + Layout.valueCounts children

/-- How many values there are at the places of a list and behind them. -/
def Layout.valueCounts : List (Layout α) → Nat
  | [] => 0
  | place :: places => place.valueCount + Layout.valueCounts places

end

namespace Layout

/-- Whether `place` is the first layout or behind it, with the segments in front of each. -/
inductive Within : Text → Layout α → Text → Layout α → Prop where
  | self {above : Text} {layout : Layout α} : Within above layout above layout
  | behind {above above' : Text} {layout child place : Layout α} (hchild : child ∈ layout.children)
      (hplace : Within (above ++ layout.segment) child above' place) :
      Within above layout above' place

theorem Within.cases {above above' : Text} {layout place : Layout α}
    (h : Within above layout above' place) :
    (above' = above ∧ place = layout)
      ∨ ∃ child ∈ layout.children, Within (above ++ layout.segment) child above' place := by
  cases h with
  | self => exact Or.inl ⟨rfl, rfl⟩
  | behind hchild hplace => exact Or.inr ⟨_, hchild, hplace⟩

/-- The children of a place: literal ones in the order of their index characters and of their
priorities, and a wildcard behind them, if there is one. -/
structure Children (place : Layout α) (labels : List (Layout α)) (wild : Option (Layout α)) :
    Prop where
  children : place.children = labels ++ wild.toList
  literal : ∀ child ∈ labels, child.kind = .literal
  wildcard : ∀ child ∈ wild, child.kind = .param ∨ child.kind = .catchAll
  wildChild : place.wildChild = wild.isSome
  indices : labels.map (·.segment.head?) = place.indices.map some
  distinct : place.indices.Nodup
  ranked : labels.Pairwise fun child later => later.priority ≤ child.priority

/-- The rules of a place that the segments `above` lead to. -/
structure Orderly (above : Text) (place : Layout α) : Prop where
  children : ∃ labels wild, Children place labels wild
  label : place.kind = .root ∨ place.kind = .literal →
    place.segment ≠ [] ∧ ':' ∉ place.segment ∧ '*' ∉ place.segment
  param : place.kind = .param → place.wildChild = false ∧ place.children.length ≤ 1
    ∧ ∀ child ∈ place.children, child.kind = .literal ∧ child.segment.head? = some '/'
  catchAll : place.kind = .catchAll → place.value.isSome ∧ place.children = []
  mount : ∀ child ∈ place.children, child.kind = .catchAll →
    place.children = [child] ∧ place.value = none ∧ place.segment.getLast? = some '/'
  live : place.children = [] → place.value.isSome
  priority : place.priority = place.valueCount
  pattern : place.value.isSome → place.pattern = above ++ place.segment

end Layout

mutual

theorem Node.valueCount_layout {node : Node α} :
    ∀ (segment : Text) (kind : NodeKind) (name : Option Text),
      (node.layout segment kind name).valueCount = node.entries.length := by
  intro segment kind name
  cases node with
  | mk held pattern priority ways =>
      rw [Node.layout, Layout.valueCount, Ways.valueCounts_layouts, Node.entries_mk,
        List.length_append, List.length_map]

theorem Ways.valueCounts_layouts {ways : Ways α} :
    Layout.valueCounts ways.layouts = ways.entries.length := by
  cases ways with
  | none => simp [Ways.layouts, Layout.valueCounts]
  | literal label next others =>
      rw [Ways.layouts, Layout.valueCounts, Node.valueCount_layout, Ways.valueCounts_layouts,
        Ways.entries_literal, List.length_append, List.length_map]
  | param name next =>
      simp [Ways.layouts, Layout.valueCounts, Node.valueCount_layout]
  | catchAll name value pattern =>
      simp [Ways.layouts, Layout.valueCounts, Layout.valueCount]

end

namespace Node

variable {node : Node α} {segment : Text} {kind : NodeKind} {name : Option Text}

@[simp] theorem segment_layout : (node.layout segment kind name).segment = segment := by
  cases node
  rfl

@[simp] theorem kind_layout : (node.layout segment kind name).kind = kind := by
  cases node
  rfl

@[simp] theorem priority_layout : (node.layout segment kind name).priority = node.priority := by
  cases node
  rfl

end Node

namespace Ways

def labelLayouts : Ways α → List (Layout α)
  | literal label next others => next.layout label .literal Option.none :: others.labelLayouts
  | _ => []

def wildLayout? : Ways α → Option (Layout α)
  | literal _ _ others => others.wildLayout?
  | none => Option.none
  | ways => ways.layouts.head?

theorem layouts_eq (ways : Ways α) :
    ways.layouts = ways.labelLayouts ++ ways.wildLayout?.toList := by
  cases ways with
  | none => rfl
  | literal label next others => simp [layouts, labelLayouts, wildLayout?, layouts_eq others]
  | param name next => simp [layouts, labelLayouts, wildLayout?]
  | catchAll name value pattern => simp [layouts, labelLayouts, wildLayout?]

theorem indices_eq {ways : Ways α} : ∀ {above : Text}, ways.Sound above →
    ways.labelLayouts.map (·.segment.head?) = ways.indices.map some := by
  intro above hways
  cases ways with
  | none => rfl
  | literal label next others =>
      obtain ⟨hlabel, -, hothers, -⟩ := sound_literal.mp hways
      obtain ⟨c, label, rfl⟩ := List.exists_cons_of_ne_nil hlabel.ne_nil
      simp [labelLayouts, Ways.indices, indices_eq hothers]
  | param name next => rfl
  | catchAll name value pattern => rfl

theorem nodup_indices {ways : Ways α} :
    ∀ {above : Text}, ways.Sound above → ways.indices.Nodup := by
  intro above hways
  cases ways with
  | none => simp [Ways.indices]
  | literal label next others =>
      obtain ⟨hlabel, -, hothers, hfork⟩ := sound_literal.mp hways
      obtain ⟨c, label, rfl⟩ := List.exists_cons_of_ne_nil hlabel.ne_nil
      simpa [Ways.indices, nodup_indices hothers] using hfork.apart c rfl
  | param name next => simp [Ways.indices]
  | catchAll name value pattern => simp [Ways.indices]

theorem kind_of_mem_labelLayouts {ways : Ways α} :
    ∀ child ∈ ways.labelLayouts, child.kind = .literal := by
  intro child hchild
  cases ways with
  | none => simp [labelLayouts] at hchild
  | literal label next others =>
      simp only [labelLayouts, List.mem_cons] at hchild
      rcases hchild with rfl | hchild
      · simp
      · exact kind_of_mem_labelLayouts child hchild
  | param name next => simp [labelLayouts] at hchild
  | catchAll name value pattern => simp [labelLayouts] at hchild

theorem kind_of_mem_wildLayout? {ways : Ways α} :
    ∀ child ∈ ways.wildLayout?, child.kind = .param ∨ child.kind = .catchAll := by
  intro child hchild
  cases ways with
  | none => simp [wildLayout?] at hchild
  | literal label next others =>
      exact @kind_of_mem_wildLayout? others child hchild
  | param name next =>
      simp only [wildLayout?, layouts, List.head?_cons, Option.mem_some_iff] at hchild
      simp [← hchild]
  | catchAll name value pattern =>
      simp only [wildLayout?, layouts, List.head?_cons, Option.mem_some_iff] at hchild
      simp [← hchild, Layout.kind]

theorem hasWildcard_eq (ways : Ways α) : ways.hasWildcard = ways.wildLayout?.isSome := by
  cases ways with
  | none => rfl
  | literal label next others => exact hasWildcard_eq others
  | param name next => rfl
  | catchAll name value pattern => rfl

/-- A catch-all among sound ways is all of them. -/
theorem eq_catchAll_of_mem_layouts {ways : Ways α} : ∀ {above : Text}, ways.Sound above →
    ∀ child ∈ ways.layouts, child.kind = .catchAll →
      ∃ name value pattern, ways = catchAll name value pattern := by
  intro above hways child hchild hkind
  cases ways with
  | none => simp [layouts] at hchild
  | literal label next others =>
      obtain ⟨-, -, hothers, hfork⟩ := sound_literal.mp hways
      simp only [layouts, List.mem_cons] at hchild
      rcases hchild with rfl | hchild
      · simp at hkind
      · obtain ⟨name, value, pattern, rfl⟩ := eq_catchAll_of_mem_layouts hothers child hchild hkind
        simpa [catchAll?] using hfork.alone
  | param name next =>
      simp only [layouts, List.mem_singleton] at hchild
      simp [hchild] at hkind
  | catchAll name value pattern => exact ⟨name, value, pattern, rfl⟩

theorem eq_none_of_layouts {ways : Ways α} (h : ways.layouts = []) : ways = none := by
  cases ways with
  | none => rfl
  | literal label next others => simp [layouts] at h
  | param name next => simp [layouts] at h
  | catchAll name value pattern => simp [layouts] at h

theorem priority_mem_counts {ways : Ways α} :
    ∀ child ∈ ways.labelLayouts, child.priority ∈ ways.counts := by
  intro child hchild
  cases ways with
  | none => simp [labelLayouts] at hchild
  | literal label next others =>
      simp only [labelLayouts, List.mem_cons] at hchild
      rcases hchild with rfl | hchild
      · simp [counts]
      · simp [counts, priority_mem_counts child hchild]
  | param name next => simp [labelLayouts] at hchild
  | catchAll name value pattern => simp [labelLayouts] at hchild

theorem pairwise_priority {ways : Ways α} : ∀ {above : Text}, ways.Sound above →
    ways.labelLayouts.Pairwise fun child later => later.priority ≤ child.priority := by
  intro above hways
  cases ways with
  | none => simp [labelLayouts]
  | literal label next others =>
      obtain ⟨-, -, hothers, hfork⟩ := sound_literal.mp hways
      rw [labelLayouts, List.pairwise_cons]
      refine ⟨?_, pairwise_priority hothers⟩
      intro child hchild
      rw [Node.priority_layout]
      exact hfork.ranked _ (priority_mem_counts child hchild)
  | param name next => simp [labelLayouts]
  | catchAll name value pattern => simp [labelLayouts]

end Ways

open Layout

theorem Node.orderly_layout {above segment : Text} {node : Node α} {kind : NodeKind}
    (name : Option Text) (hsound : node.Sound (above ++ segment)) (hne : segment ≠ [])
    (hlabel : kind = .root ∨ kind = .literal → Label segment)
    (hparam : kind = .param → node.ways.AfterElement) (hkind : kind ≠ .catchAll) :
    Orderly above (node.layout segment kind name) := by
  cases node with
  | mk held pattern priority ways =>
      obtain ⟨hfields, hways⟩ := Node.sound_mk.mp hsound
      refine ⟨⟨ways.labelLayouts, ways.wildLayout?, ?_⟩, ?_, ?_, ?_, ?_, ?_, ?_, hfields.named⟩
      · exact ⟨ways.layouts_eq, Ways.kind_of_mem_labelLayouts, Ways.kind_of_mem_wildLayout?,
          ways.hasWildcard_eq, Ways.indices_eq hways, Ways.nodup_indices hways,
          Ways.pairwise_priority hways⟩
      · intro hlabelKind
        have hplain := (hlabel hlabelKind).plain
        exact ⟨hne, fun hcolon => by simpa [isMark] using hplain ':' hcolon,
          fun hstar => by simpa [isMark] using hplain '*' hstar⟩
      · intro hparamKind
        rcases (hparam hparamKind).cases with hnone | ⟨label, next, heq, hslash⟩
        · have hnone : ways = .none := hnone
          subst hnone
          exact ⟨rfl, by simp [Node.layout, Layout.children, Ways.layouts],
            by simp [Node.layout, Layout.children, Ways.layouts]⟩
        · have heq : ways = .literal label next .none := heq
          subst heq
          exact ⟨rfl, by simp [Node.layout, Layout.children, Ways.layouts],
            by simp [Node.layout, Layout.children, Ways.layouts, hslash]⟩
      · exact fun hcatch => (hkind hcatch).elim
      · intro child hchild hcatch
        obtain ⟨name', value, pattern', rfl⟩ :=
          Ways.eq_catchAll_of_mem_layouts hways child hchild hcatch
        obtain ⟨hheld, hslash⟩ := hfields.mount rfl
        refine ⟨?_, hheld, ?_⟩
        · simp only [Node.layout, Layout.children, Ways.layouts, List.mem_singleton] at hchild ⊢
          rw [hchild]
        · simpa [Node.layout, Layout.segment, hne] using hslash
      · exact fun hchildren => hfields.live (Ways.eq_none_of_layouts hchildren)
      · rw [Node.valueCount_layout, ← hsound.priority_eq]
        rfl

theorem Ways.orderly_catchAll {above name pattern : Text} {value : α}
    (hways : (catchAll name value pattern).Sound above) :
    Orderly above (.mk ('*' :: name) .catchAll (some name) false [] [] 1 (some value) pattern) := by
  refine ⟨⟨[], Option.none, ?_⟩, ?_, ?_, ?_, ?_, ?_, ?_, ?_⟩
  · exact ⟨rfl, by simp, by simp, rfl, rfl, List.nodup_nil, List.Pairwise.nil⟩
  · simp [Layout.kind]
  · simp [Layout.kind]
  · exact fun _ => ⟨rfl, rfl⟩
  · simp [Layout.children]
  · exact fun _ => rfl
  · simp [Layout.priority, Layout.valueCount, Layout.valueCounts]
  · exact fun _ => (Ways.sound_catchAll.mp hways).2

-- Induction on the tree: a place within a layout is the layout itself or within a child.
mutual

theorem Node.orderly_of_within {node : Node α} : ∀ {above segment above' : Text} {kind : NodeKind}
    {name : Option Text} {place : Layout α}, node.Sound (above ++ segment) → segment ≠ [] →
    (kind = .root ∨ kind = .literal → Label segment) →
    (kind = .param → node.ways.AfterElement) → kind ≠ .catchAll →
    Within above (node.layout segment kind name) above' place → Orderly above' place := by
  intro above segment above' kind name place hsound hne hlabel hparam hkind hwithin
  rcases hwithin.cases with ⟨rfl, rfl⟩ | ⟨child, hchild, hplace⟩
  · exact Node.orderly_layout name hsound hne hlabel hparam hkind
  · rw [Node.segment_layout] at hplace
    cases node with
    | mk held pattern priority ways =>
        have hways := (Node.sound_mk.mp hsound).2
        exact Ways.orderly_of_within hways child hchild hplace

theorem Ways.orderly_of_within {ways : Ways α} : ∀ {above above' : Text} {place : Layout α},
    ways.Sound above → ∀ child ∈ ways.layouts, Within above child above' place →
    Orderly above' place := by
  intro above above' place hways child hchild hwithin
  cases ways with
  | none => simp [Ways.layouts] at hchild
  | literal label next others =>
      obtain ⟨hlabel, hnext, hothers, -⟩ := Ways.sound_literal.mp hways
      simp only [Ways.layouts, List.mem_cons] at hchild
      rcases hchild with rfl | hchild
      · exact Node.orderly_of_within hnext hlabel.ne_nil (fun _ => hlabel) (by simp) (by simp)
          hwithin
      · exact Ways.orderly_of_within hothers child hchild hwithin
  | param name next =>
      obtain ⟨-, hnext, hafter⟩ := Ways.sound_param.mp hways
      simp only [Ways.layouts, List.mem_singleton] at hchild
      subst hchild
      exact Node.orderly_of_within hnext (by simp) (by simp) (fun _ => hafter) (by simp) hwithin
  | catchAll name value pattern =>
      simp only [Ways.layouts, List.mem_singleton] at hchild
      subst hchild
      rcases hwithin.cases with ⟨rfl, rfl⟩ | ⟨child, hchild, -⟩
      · exact Ways.orderly_catchAll hways
      · simp [Layout.children] at hchild

end

theorem Tree.Sound.orderly_of_within {tree : Tree α} (hsound : tree.Sound) :
    tree = .empty
      ∨ ∀ above place, Within [] tree.layout above place → Orderly above place := by
  cases tree with
  | empty => exact Or.inl rfl
  | root label node =>
      obtain ⟨hlabel, -, hnode⟩ := hsound
      right
      intro above place hwithin
      have hnode : node.Sound ([] ++ label) := hnode
      exact Node.orderly_of_within hnode hlabel.ne_nil (fun _ => hlabel) (by simp) (by simp) hwithin

/-- Every place of a tree is orderly, whatever was registered before and whatever was refused. -/
theorem Tree.layout_ofHistory_orderly (history : List (Text × α)) :
    ofHistory history = .empty
      ∨ ∀ above place, Within [] (ofHistory history).layout above place → Orderly above place :=
  (holds_ofHistory history).sound.orderly_of_within

end RadixRouter
