import RadixRouter.Proofs.Pattern.Scan
import RadixRouter.Proofs.Text.Boundary
import RadixRouter.Proofs.Tree.Layout
import RadixRouter.Tree.Record

/-!
What registration reads off the fields of a place, and the new places that it fills in: a chain of
places that is built field by field, with all text cut out at byte offsets, is the chain laid out.
-/

namespace RadixRouter

open Pattern

variable {α : Type}

namespace Layout

@[simp] theorem layout_record (place : Layout α) : place.record.layout = place := by
  cases place
  rfl

@[simp] theorem record_layout (place : Record α) : place.layout.record = place := rfl

@[simp] theorem record_mk {segment : Text} {kind : NodeKind} {name : Option Text} {wildChild : Bool}
    {indices : Text} {children : List (Layout α)} {priority : Nat} {value : Option α}
    {pattern : Text} :
    (mk segment kind name wildChild indices children priority value pattern).record
      = ⟨segment, kind, name, wildChild, indices, children, priority, value, pattern⟩ := rfl

end Layout

/-- The fields of a place of a tree. -/
@[simp] theorem Node.record_layout {segment pattern : Text} {kind : NodeKind} {name : Option Text}
    {held : Option α} {priority : Nat} {ways : Ways α} :
    ((Node.mk held pattern priority ways).layout segment kind name).record
      = ⟨segment, kind, name, ways.hasWildcard, ways.indices, ways.layouts, priority, held,
          pattern⟩ := by
  rw [Node.layout, Layout.record_mk]

section Fields

variable (node : Node α) (segment : Text) (kind : NodeKind) (name : Option Text)

@[simp] theorem Node.segment_record : (node.layout segment kind name).record.segment = segment := by
  cases node
  rfl

@[simp] theorem Node.kind_record : (node.layout segment kind name).record.kind = kind := by
  cases node
  rfl

@[simp] theorem Node.priority_record :
    (node.layout segment kind name).record.priority = node.priority := by
  cases node
  rfl

end Fields

namespace Record

open Ways (chain wildOf)

/-! ### New places -/

theorem ofWildcard?_eq {c : Cut} (hsound : c.Sound) (kind : NodeKind) (pattern : Text) :
    (ofWildcard? kind c.wildcard pattern : Option (Record α))
      = some ⟨c.wildcard, kind, some c.name, false, [], [], 1, none, pattern⟩ := by
  have hname : Text.fromByte? 1 c.wildcard = some c.name := hsound.slice?_name
  simp only [ofWildcard?, hname, Option.bind_eq_bind, Option.bind_some]

/-- A place that leads on along `rest` up to where the route ends. -/
def led (pattern : Text) (value : α) (rest : Text) (place : Record α) : Record α :=
  match cut? rest with
  | none => { place with segment := rest, value := some value, pattern := pattern }
  | some c => { place with
      segment := if c.literal = [] then place.segment else c.literal
      wildChild := true
      children := place.children ++ (wildOf pattern value c).layouts }

/-- A chain that does not begin with a wildcard begins with one label. -/
theorem chain_cases {rest : Text} {d : Char} (pattern : Text) (value : α)
    (hhead : rest.head? = some d) (hd : isMark d = false) :
    (cut? rest = none ∧ chain pattern value rest = .literal rest (.leaf pattern value) .none)
      ∨ ∃ c, cut? rest = some c ∧ c.literal ≠ [] ∧ c.literal.head? = some d
        ∧ chain pattern value rest
          = .literal c.literal (.mk none pattern 1 (wildOf pattern value c)) .none := by
  cases hcut : cut? rest with
  | none => exact Or.inl ⟨rfl, Ways.chain_of_plain pattern value (plain_of_cut?_eq_none hcut)⟩
  | some c =>
      have hwhole := append_of_cut? hcut
      have hne : c.literal ≠ [] := by
        intro hnil
        rw [hwhole, hnil, Cut.wildcard] at hhead
        have hmark := (sound_of_cut? hcut).isMark
        rw [Option.some.inj hhead, hd] at hmark
        contradiction
      refine Or.inr ⟨c, rfl, hne, ?_, ?_⟩
      · obtain ⟨e, literal, hliteral⟩ := List.exists_cons_of_ne_nil hne
        rw [hwhole, hliteral] at hhead
        rw [hliteral]
        exact hhead
      · rw [Ways.chain_of_cut? pattern value hcut, if_neg hne]

theorem wildOf_fields (pattern : Text) (value : α) (c : Cut) :
    (wildOf pattern value c).hasWildcard = true ∧ (wildOf pattern value c).indices = [] := by
  unfold wildOf
  split_ifs <;> exact ⟨rfl, rfl⟩

/-- A new place behind a label is the one that the chain begins with. -/
theorem led_blank {rest : Text} {d : Char} (pattern : Text) (value : α)
    (hhead : rest.head? = some d) (hd : isMark d = false) :
    ∃ label next, chain pattern value rest = .literal label next .none ∧ label.head? = some d
      ∧ next.priority = 1
      ∧ (blank .literal pattern).counted.led pattern value rest
        = (next.layout label .literal none).record := by
  rcases chain_cases pattern value hhead hd with ⟨hcut, hchain⟩ | ⟨c, hcut, hne, hliteral, hchain⟩
  · refine ⟨rest, .leaf pattern value, hchain, hhead, rfl, ?_⟩
    simp [led, hcut, Node.leaf, blank, counted, Ways.hasWildcard, Ways.indices, Ways.layouts]
  · refine ⟨c.literal, .mk none pattern 1 (wildOf pattern value c), hchain, hliteral, rfl, ?_⟩
    obtain ⟨hwild, hindices⟩ := wildOf_fields pattern value c
    simp [led, hcut, hne, blank, counted, hwild, hindices]

/-- A pattern that goes on with a wildcard is cut in front of it. -/
theorem exists_cut?_of_isMark {rest : Text} {d : Char} (hhead : rest.head? = some d)
    (hd : isMark d = true) : ∃ c, cut? rest = some c ∧ c.literal = [] := by
  obtain ⟨rest, rfl⟩ := List.head?_eq_some_iff.mp hhead
  have hplain : Plain [] := by simp [Plain]
  exact ⟨_, cut?_append rest hplain hd, rfl⟩

/-- A wildcard is put behind the other children, with what follows it. -/
theorem led_of_isMark {rest : Text} {d : Char} (pattern : Text) (value : α)
    (hhead : rest.head? = some d) (hd : isMark d = true) (place : Record α) :
    place.led pattern value rest
      = { place with
          wildChild := true
          children := place.children ++ (chain pattern value rest).layouts } := by
  obtain ⟨c, hcut, hliteral⟩ := exists_cut?_of_isMark hhead hd
  simp only [led, hcut, Ways.chain_of_cut? pattern value hcut, hliteral, ↓reduceIte]

theorem chain_fields_of_isMark {rest : Text} {d : Char} (pattern : Text) (value : α)
    (hhead : rest.head? = some d) (hd : isMark d = true) :
    (chain pattern value rest).hasWildcard = true ∧ (chain pattern value rest).indices = [] := by
  obtain ⟨c, hcut, hliteral⟩ := exists_cut?_of_isMark hhead hd
  rw [Ways.chain_of_cut? pattern value hcut, if_pos hliteral]
  exact wildOf_fields pattern value c

/-- The places behind a wildcard, field by field. -/
theorem layouts_wildOf {c : Cut} (hsound : c.Sound) (pattern : Text) (value : α) :
    (wildOf pattern value c).layouts
      = if c.mark = '*' then
          [.mk c.wildcard .catchAll (some c.name) false [] [] 1 (some value) pattern]
        else if c.rest = [] then
          [.mk c.wildcard .param (some c.name) false [] [] 1 (some value) pattern]
        else
          [.mk c.wildcard .param (some c.name) false ['/']
            [((blank .literal pattern).counted.led pattern value c.rest).layout] 1 none
            pattern] := by
  unfold wildOf
  split_ifs with hmark hrest
  · simp [Ways.layouts, Cut.wildcard, hmark]
  · have hcolon := hsound.mark.resolve_right hmark
    simp [Ways.layouts, Node.leaf, Node.layout, Ways.hasWildcard, Ways.indices, Cut.wildcard,
      hcolon]
  · have hcolon := hsound.mark.resolve_right hmark
    have hslash : c.rest.head? = some '/' := by
      obtain ⟨d, rest, hcons⟩ := List.exists_cons_of_ne_nil hrest
      rw [hcons, List.head?_cons, hsound.rest d (by simp [hcons])]
    obtain ⟨label, next, hchain, hlabel, -, hled⟩ := led_blank pattern value hslash rfl
    rw [hled, hchain, Layout.layout_record]
    simp [Ways.layouts, Node.layout, Ways.hasWildcard, Ways.indices, Cut.wildcard, hcolon, hlabel]

section Cuts

variable {rest : Text} {c : Cut} (hwhole : rest = c.literal ++ (c.wildcard ++ c.rest))
include hwhole

theorem leading?_eq (segment : Text) :
    leading? (Text.byteLength c.literal) rest segment
      = some (if c.literal = [] then segment else c.literal) := by
  by_cases hnil : c.literal = []
  · simp [leading?, hnil, Text.byteLength]
  · rw [leading?, if_pos (Text.byteLength_pos hnil), if_neg hnil, hwhole, Text.upToByte?_append]

theorem trailing?_eq :
    trailing? (Text.byteLength c.literal) rest = some (c.wildcard ++ c.rest) := by
  by_cases hnil : c.literal = []
  · simp [trailing?, hwhole, hnil, Text.byteLength]
  · rw [trailing?, if_pos (Text.byteLength_pos hnil), hwhole, Text.fromByte?_append]

end Cuts

/-- Leading on along `rest` never cuts into a character, and takes a round for each wildcard. -/
theorem fill?_eq (pattern : Text) (value : α) {rounds : Nat} {rest : Text}
    (hrounds : rest.length < rounds) (place : Record α) :
    fill? pattern value rounds rest place = some (place.led pattern value rest) := by
  induction rounds generalizing rest place with
  | zero => exact (Nat.not_lt_zero _ hrounds).elim
  | succ rounds ih =>
      cases hcut : cut? rest with
      | none =>
          simp only [fill?, search?_of_plain (plain_of_cut?_eq_none hcut), led, hcut,
            Option.bind_eq_bind, Option.bind_some]
      | some c =>
          have hsound := sound_of_cut? hcut
          have hwhole : rest = c.literal ++ (c.wildcard ++ c.rest) := by
            rw [← List.append_assoc]
            exact append_of_cut? hcut
          have hdeeper := ih (Nat.lt_of_lt_of_le (length_rest_lt hcut) (Nat.le_of_lt_succ hrounds))
            (blank .literal pattern).counted
          have hmore : Text.byteLength c.wildcard < Text.byteLength (c.wildcard ++ c.rest)
              ↔ c.rest ≠ [] := by
            rw [Text.byteLength_append, Nat.lt_add_right_iff_pos, Nat.pos_iff_ne_zero, ne_eq,
              Text.byteLength_eq_zero_iff]
          have hmark : c.wildcard.head? = some ':' ↔ c.mark ≠ '*' := by
            rcases hsound.mark with hcolon | hstar
            · simp [Cut.wildcard, hcolon]
            · simp [Cut.wildcard, hstar]
          have hled : place.led pattern value rest
              = { place with
                  segment := if c.literal = [] then place.segment else c.literal
                  wildChild := true
                  children := place.children ++ (wildOf pattern value c).layouts } := by
            simp only [led, hcut]
          rw [hled, layouts_wildOf hsound]
          simp only [fill?, search?_of_cut? hcut, leading?_eq hwhole, trailing?_eq hwhole, hmark,
            hmore, hdeeper, ofWildcard?_eq hsound, Text.fromByte?_append, Option.bind_eq_bind,
            Option.bind_some]
          by_cases hstar : c.mark = '*'
          · simp [hstar, attach, layout]
          · by_cases hrest : c.rest = []
            · simp [hstar, hrest, attach, layout]
            · simp [hstar, hrest, attach, layout]

theorem grow?_eq (pattern : Text) (value : α) (rest : Text) (place : Record α) :
    grow? pattern value rest place = some (place.counted.led pattern value rest) :=
  fill?_eq pattern value (Nat.lt_succ_self _) _

end Record

end RadixRouter
