import RadixRouter.Pattern.Scan
import RadixRouter.Proofs.Pattern.Follows
import RadixRouter.Proofs.Text.Utf8

/-!
The scan over the bytes of a pattern takes one round for each wildcard and one more, never cuts into
a character, and finds what the reading of the characters finds.
-/

namespace RadixRouter

namespace Text

theorem position?_append {sought : Char → Bool} {front : Text} {c : Char}
    (hfront : ∀ d ∈ front, sought d = false) (hc : sought c = true) (rest : Text) :
    position? sought (front ++ c :: rest) = some (byteLength front) := by
  induction front with
  | nil => simp [position?, hc, byteLength]
  | cons d front ih =>
      rw [List.forall_mem_cons] at hfront
      simp [position?, hfront.1, ih hfront.2, byteLength]

theorem position?_eq_none {sought : Char → Bool} {text : Text}
    (h : ∀ d ∈ text, sought d = false) : position? sought text = none := by
  induction text with
  | nil => rfl
  | cons d text ih =>
      rw [List.forall_mem_cons] at h
      simp [position?, h.1, ih h.2]

end Text

namespace Pattern

theorem utf8Size_of_isMark {c : Char} (h : isMark c = true) : c.utf8Size = 1 := by
  have : c = ':' ∨ c = '*' := by simpa [isMark] using h
  rcases this with rfl | rfl <;> rfl

theorem Cut.Sound.byteLength_wildcard {c : Cut} (h : c.Sound) :
    Text.byteLength c.wildcard = 1 + Text.byteLength c.name := by
  rw [Cut.wildcard, Text.byteLength, utf8Size_of_isMark h.isMark]

theorem Cut.Sound.slice?_name {c : Cut} (h : c.Sound) :
    Text.slice? 1 (Text.byteLength c.wildcard) c.wildcard = some c.name := by
  have hslice := Text.slice?_append [c.mark] c.name []
  rwa [List.append_nil, List.singleton_append, Text.byteLength, utf8Size_of_isMark h.isMark] at hslice

/-- A wildcard stands behind the same character in the rest as in the whole pattern: what is left
behind another wildcard begins with a slash. -/
theorem getLast?_append_literal {front rest : Text} {c : Cut}
    (hplace : front = [] ∨ ElementEnds rest) (hcut : cut? rest = some c) :
    (front ++ c.literal).getLast? = c.literal.getLast? := by
  rcases hplace with rfl | hends
  · rw [List.nil_append]
  · cases hliteral : c.literal with
    | nil =>
        have hmark : c.mark = '/' := by
          apply hends
          rw [append_of_cut? hcut, hliteral]
          rfl
        have := (sound_of_cut? hcut).isMark
        rw [hmark] at this
        contradiction
    | cons d literal =>
        rw [List.getLast?_append, List.getLast?_eq_some_getLast (List.cons_ne_nil d literal),
          Option.some_or]

/-- The search finds the wildcard at which a text is cut. -/
theorem search?_of_cut? {text : Text} {c : Cut} (hcut : cut? text = some c) :
    search? text = some (.found c.wildcard (Text.byteLength c.literal)) := by
  have hsound := sound_of_cut? hcut
  have hwhole := append_of_cut? hcut
  have hstart : Text.position? isMark text = some (Text.byteLength c.literal) := by
    rw [hwhole, Cut.wildcard, List.append_assoc]
    exact Text.position?_append hsound.literal hsound.isMark _
  have hopen : Text.byteLength c.literal + 1 = Text.byteLength (c.literal ++ [c.mark]) := by
    simp [Text.byteLength_append, Text.byteLength, utf8Size_of_isMark hsound.isMark]
  have hbehind : Text.slice? (Text.byteLength c.literal + 1) (Text.byteLength text) text
      = some (c.name ++ c.rest) := by
    have hslice := Text.slice?_append (c.literal ++ [c.mark]) (c.name ++ c.rest) []
    have hparts : c.literal ++ [c.mark] ++ (c.name ++ c.rest) = text := by
      rw [hwhole, Cut.wildcard]
      simp
    rwa [List.append_nil, hparts, ← hopen] at hslice
  have hstop : ((Text.position? (· = '/') (c.name ++ c.rest)).map
      (Text.byteLength c.literal + 1 + ·)).getD (Text.byteLength text)
        = Text.byteLength (c.literal ++ c.wildcard) := by
    have hname : ∀ d ∈ c.name, decide (d = '/') = false := by
      intro d hd
      exact decide_eq_false fun heq : d = '/' => hsound.name (heq ▸ hd)
    cases hrest : c.rest with
    | nil =>
        rw [List.append_nil, Text.position?_eq_none hname, hwhole, hrest, List.append_nil]
        rfl
    | cons d back =>
        cases hsound.rest d (by simp [hrest])
        rw [Text.position?_append hname (by simp)]
        simp only [Option.map_some, Option.getD_some, Text.byteLength_append,
          hsound.byteLength_wildcard]
        omega
  have hwildcard := Text.slice?_append c.literal c.wildcard c.rest
  rw [← hwhole] at hwildcard
  simp only [search?, hstart, hbehind, Option.bind_eq_bind, Option.bind_some, hstop, hwildcard]

theorem search?_of_plain {text : Text} (hplain : Plain text) : search? text = some .absent := by
  rw [search?, Text.position?_eq_none hplain]

section Round

variable {pattern front rest : Text} (hwhole : pattern = front ++ rest)
include hwhole

theorem slice?_rest : Text.slice? (Text.byteLength front) (Text.byteLength pattern) pattern
    = some rest := by
  have hslice := Text.slice?_append front rest []
  rwa [List.append_nil, ← hwhole] at hslice

/-- A round judges the first wildcard and moves behind it. -/
theorem round?_of_cut? (hplace : front = [] ∨ ElementEnds rest) {c : Cut}
    (hcut : cut? rest = some c) :
    round? pattern (Text.byteLength front) = some
      (if c.name.any isMark then .faulty (.multipleWildcardsInSegment c.wildcard pattern)
      else if c.name.isEmpty then .faulty (.unnamedWildcard pattern)
      else if c.mark = '*' ∧ c.rest ≠ [] then .faulty (.catchAllNotAtEnd pattern)
      else if c.mark = '*' ∧ c.literal.getLast? ≠ some '/' then
        .faulty (.catchAllWithoutSlash pattern)
      else .onward (Text.byteLength (front ++ c.literal ++ c.wildcard))) := by
  have hsound := sound_of_cut? hcut
  have hparts : pattern = front ++ c.literal ++ c.wildcard ++ c.rest := by
    rw [hwhole, append_of_cut? hcut]
    simp
  have hstop : Text.byteLength front + Text.byteLength c.literal + Text.byteLength c.wildcard
      = Text.byteLength (front ++ c.literal ++ c.wildcard) := by
    simp only [Text.byteLength_append]
  have hfront : Text.slice? 0 (Text.byteLength front + Text.byteLength c.literal) pattern
      = some (front ++ c.literal) := by
    have hslice := Text.slice?_append [] (front ++ c.literal) (c.wildcard ++ c.rest)
    rwa [List.nil_append, Text.byteLength_append, ← List.append_assoc, ← hparts] at hslice
  have hempty : Text.byteLength c.wildcard < 2 ↔ c.name.isEmpty = true := by
    rw [hsound.byteLength_wildcard, List.isEmpty_iff, ← Text.byteLength_eq_zero_iff]
    omega
  have hend : Text.byteLength (front ++ c.literal ++ c.wildcard) ≠ Text.byteLength pattern
      ↔ c.rest ≠ [] := by
    rw [hparts, Text.byteLength_append _ c.rest, ne_eq, ne_eq, ← Text.byteLength_eq_zero_iff]
    omega
  have hstar : c.wildcard.head? = some '*' ↔ c.mark = '*' := by simp [Cut.wildcard]
  simp only [round?, slice?_rest hwhole, search?_of_cut? hcut, hsound.slice?_name, hfront, hempty,
    hstop, hend, getLast?_append_literal hplace hcut, hstar, Option.bind_eq_bind,
    Option.bind_some]
  by_cases hmark : c.mark = '*' <;> simp only [hmark, true_and, false_and, ↓reduceIte] <;>
    split_ifs <;> rfl

theorem round?_of_plain (hplain : Plain rest) :
    round? pattern (Text.byteLength front) = some .finished := by
  simp only [round?, slice?_rest hwhole, search?_of_plain hplain, Option.bind_eq_bind,
    Option.bind_some]

end Round

/-- Behind a wildcard there is one mark less to be read. -/
theorem countP_rest_lt {text : Text} {c : Cut} (hcut : cut? text = some c) :
    c.rest.countP isMark < text.countP isMark := by
  have hmark := (sound_of_cut? hcut).isMark
  rw [append_of_cut? hcut, Cut.wildcard, List.countP_append, List.countP_append,
    List.countP_cons_of_pos hmark]
  omega

/-- A round for each mark and one more suffice, and the scan finds the first fault. -/
theorem scanWithin?_eq {pattern front rest : Text} (hwhole : pattern = front ++ rest)
    (hplace : front = [] ∨ ElementEnds rest) {rounds : Nat} (hrounds : rest.countP isMark < rounds) :
    scanWithin? pattern rounds (Text.byteLength front) = some (checkWildcards pattern rest) := by
  induction rounds generalizing front rest with
  | zero => exact (Nat.not_lt_zero _ hrounds).elim
  | succ rounds ih =>
      rw [scanWithin?, checkWildcards]
      split
      · next hcut =>
          rw [round?_of_plain hwhole (plain_of_cut?_eq_none hcut)]
          rfl
      · next c hcut =>
          have hparts : pattern = front ++ c.literal ++ c.wildcard ++ c.rest := by
            rw [hwhole, append_of_cut? hcut]
            simp
          have hfewer := countP_rest_lt hcut
          have honward := ih hparts (Or.inr (sound_of_cut? hcut).rest) (by omega)
          rw [round?_of_cut? hwhole hplace hcut, Option.bind_eq_bind, Option.bind_some]
          split_ifs
          case neg => exact honward
          all_goals rfl

end Pattern

end RadixRouter
