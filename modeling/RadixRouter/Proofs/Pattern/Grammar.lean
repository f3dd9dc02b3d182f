import RadixRouter.Pattern.Grammar
import RadixRouter.Proofs.Pattern.Follows
import RadixRouter.Proofs.Text.Split

/-!
The wildcards of a pattern, read one after the other, and its elements, each taken on its own: both
lead to the same fault, and to none for the patterns of the right form only.
-/

namespace RadixRouter.Pattern

instance (element : Text) : Decidable (ElementForm element) :=
  decidable_of_iff
    ((element.filter isMark).length ≤ 1 ∧ element.getLast?.all (!isMark ·) = true)
    ⟨fun h => ⟨h.1, by simpa [Option.all_eq_true] using h.2⟩,
      fun h => ⟨h.one_mark, by simpa [Option.all_eq_true] using h.named⟩⟩

instance (pattern : Text) : Decidable (WellFormed pattern) :=
  decidable_of_iff
    (pattern.head? = some '/' ∧ (∀ element ∈ Text.splitAt '/' pattern, ElementForm element)
      ∧ (∀ element ∈ (Text.splitAt '/' pattern).dropLast, '*' ∉ element)
      ∧ ∀ element ∈ (Text.splitAt '/' pattern).getLast?, '*' ∉ element.drop 1)
    ⟨fun h => ⟨h.1, h.2.1, h.2.2.1, h.2.2.2⟩, fun h => ⟨h.rooted, h.elements, h.inner, h.final⟩⟩

/-! ### An element on its own -/

/-- The wildcard of an element begins at its first mark. -/
theorem plain_or_marked (text : Text) :
    Plain text ∨ ∃ stem mark name, text = stem ++ mark :: name ∧ Plain stem
      ∧ isMark mark = true := by
  induction text with
  | nil => exact Or.inl (by simp [Plain])
  | cons c text ih =>
      by_cases hc : isMark c = true
      · exact Or.inr ⟨[], c, text, rfl, by simp [Plain], hc⟩
      · have hc : isMark c = false := by simpa using hc
        rcases ih with hplain | ⟨stem, mark, name, rfl, hstem, hmark⟩
        · exact Or.inl (List.forall_mem_cons.mpr ⟨hc, hplain⟩)
        · exact Or.inr ⟨c :: stem, mark, name, rfl, List.forall_mem_cons.mpr ⟨hc, hstem⟩, hmark⟩

theorem Plain.star_not_mem {text : Text} (h : Plain text) : '*' ∉ text := by
  intro hstar
  have := h '*' hstar
  simp [isMark] at this

theorem Plain.elementForm {element : Text} (h : Plain element) : ElementForm element := by
  refine ⟨?_, fun c hc => h c (List.mem_of_mem_getLast? hc)⟩
  rw [List.filter_eq_nil_iff.mpr fun c hc => by simp [h c hc]]
  exact Nat.zero_le _

theorem elementFault?_of_plain {element : Text} (h : Plain element) (pattern : Text)
    (last : Bool) : elementFault? pattern element last = none := by
  have hnone : element.dropWhile (!isMark ·) = [] :=
    List.dropWhile_eq_nil_iff.mpr fun c hc => by simp [h c hc]
  rw [elementFault?, hnone]

section Marked

variable {stem name : Text} {mark : Char} (hstem : Plain stem)
include hstem

theorem star_unfilled_iff :
    (mark = '*' ∧ (stem ++ mark :: name).head? ≠ some '*') ↔ mark = '*' ∧ stem ≠ [] := by
  apply and_congr_right
  intro hstar
  cases stem with
  | nil => simp [hstar]
  | cons c stem =>
      have hne : c ≠ '*' := fun heq => hstem.star_not_mem (heq ▸ List.mem_cons_self)
      simp [hne]

theorem star_mem_iff (hname : Plain name) : '*' ∈ stem ++ mark :: name ↔ mark = '*' := by
  simp [hstem.star_not_mem, hname.star_not_mem, eq_comm]

theorem star_mem_drop_iff (hname : Plain name) :
    '*' ∈ (stem ++ mark :: name).drop 1 ↔ mark = '*' ∧ stem ≠ [] := by
  cases stem with
  | nil => simp [hname.star_not_mem]
  | cons c stem =>
      have hstem : Plain stem := fun d hd => hstem d (List.mem_cons_of_mem c hd)
      rw [List.cons_append, List.drop_succ_cons, List.drop_zero, star_mem_iff hstem hname]
      simp

variable (hmark : isMark mark = true)
include hmark

theorem dropWhile_append_mark : (stem ++ mark :: name).dropWhile (!isMark ·) = mark :: name := by
  rw [List.dropWhile_append_of_pos fun c hc => by simp [hstem c hc],
    List.dropWhile_cons_of_neg (by simp [hmark])]

theorem elementForm_append_mark_iff :
    ElementForm (stem ++ mark :: name) ↔ name ≠ [] ∧ Plain name := by
  have hfilter : (stem ++ mark :: name).filter isMark = mark :: name.filter isMark := by
    rw [List.filter_append, List.filter_cons_of_pos hmark,
      List.filter_eq_nil_iff.mpr fun c hc => by simp [hstem c hc], List.nil_append]
  constructor
  · intro h
    have hone := h.one_mark
    rw [hfilter, List.length_cons] at hone
    have hnone : name.filter isMark = [] := List.eq_nil_of_length_eq_zero (by omega)
    refine ⟨?_, fun c hc => by simpa using List.filter_eq_nil_iff.mp hnone c hc⟩
    rintro rfl
    have := h.named mark (by simp)
    simp [hmark] at this
  · rintro ⟨hne, hname⟩
    refine ⟨?_, ?_⟩
    · rw [hfilter, List.filter_eq_nil_iff.mpr fun c hc => by simp [hname c hc]]
      exact Nat.le_refl _
    · intro c hc
      apply hname
      rw [List.getLast?_append, List.getLast?_cons_of_ne_nil hne] at hc
      rw [List.getLast?_eq_some_getLast hne, Option.some_or] at hc
      rw [← Option.some.inj hc]
      exact List.getLast_mem hne

end Marked

/-- The elements without a fault are those of the right form. -/
theorem elementFault?_eq_none_iff {pattern element : Text} {last : Bool} :
    elementFault? pattern element last = none
      ↔ ElementForm element ∧ (last = false → '*' ∉ element) ∧ '*' ∉ element.drop 1 := by
  rcases plain_or_marked element with hplain | ⟨stem, mark, name, rfl, hstem, hmark⟩
  · have hdrop : '*' ∉ element.drop 1 := fun h => hplain.star_not_mem (List.mem_of_mem_drop h)
    exact iff_of_true (elementFault?_of_plain hplain pattern last)
      ⟨hplain.elementForm, fun _ => hplain.star_not_mem, hdrop⟩
  · rw [elementForm_append_mark_iff hstem hmark, elementFault?, dropWhile_append_mark hstem hmark]
    by_cases hname : Plain name
    · have hmarks : ¬ name.any isMark = true := by simpa [Plain] using hname
      simp only [if_neg hmarks, star_unfilled_iff hstem, star_mem_iff hstem hname,
        star_mem_drop_iff hstem hname]
      by_cases hne : name = []
      · simp [hne]
      · by_cases hstar : mark = '*' <;> cases last <;> simp [hne, hstar, hname]
    · have hmarks : name.any isMark = true := by simpa [Plain] using hname
      simp [hmarks, hname]

/-! ### The elements in order -/

/-- The fault of the first element that has one. -/
def elementsFault? (pattern : Text) : List Text → Option RouteError
  | [] => none
  | element :: behind =>
      (elementFault? pattern element behind.isEmpty).or (elementsFault? pattern behind)

theorem elementsFault?_append_of_plain {front : List Text} (h : ∀ element ∈ front, Plain element)
    (pattern : Text) (behind : List Text) :
    elementsFault? pattern (front ++ behind) = elementsFault? pattern behind := by
  induction front with
  | nil => rfl
  | cons element front ih =>
      have helement := h element List.mem_cons_self
      rw [List.cons_append, elementsFault?, elementFault?_of_plain helement, Option.none_or]
      exact ih fun later hlater => h later (List.mem_cons_of_mem element hlater)

theorem isEmpty_append_cons (before : List Text) (element : Text) (behind : List Text) :
    (before ++ element :: behind).isEmpty = false := by
  cases before <;> rfl

theorem elementsFault?_eq_some_iff {pattern : Text} {elements : List Text} {fault : RouteError} :
    elementsFault? pattern elements = some fault
      ↔ ∃ before element behind, elements = before ++ element :: behind
        ∧ (∀ earlier ∈ before, elementFault? pattern earlier false = none)
        ∧ elementFault? pattern element behind.isEmpty = some fault := by
  induction elements with
  | nil => simp [elementsFault?]
  | cons first elements ih =>
      rw [elementsFault?, Option.or_eq_some_iff, ih]
      constructor
      · rintro (hfound | ⟨hfirst, before, element, behind, rfl, hbefore, hfound⟩)
        · exact ⟨[], first, elements, rfl, by simp, hfound⟩
        · rw [isEmpty_append_cons] at hfirst
          exact ⟨first :: before, element, behind, rfl,
            List.forall_mem_cons.mpr ⟨hfirst, hbefore⟩, hfound⟩
      · rintro ⟨before, element, behind, hsplit, hbefore, hfound⟩
        cases before with
        | nil =>
            cases hsplit
            exact Or.inl hfound
        | cons earlier before =>
            rw [List.cons_append, List.cons.injEq] at hsplit
            obtain ⟨rfl, rfl⟩ := hsplit
            rw [List.forall_mem_cons] at hbefore
            rw [isEmpty_append_cons]
            exact Or.inr ⟨hbefore.1, before, element, behind, rfl, hbefore.2, hfound⟩

theorem elementsFault?_eq_none_iff {pattern : Text} {elements : List Text} :
    elementsFault? pattern elements = none
      ↔ (∀ element ∈ elements, ElementForm element)
        ∧ (∀ element ∈ elements.dropLast, '*' ∉ element)
        ∧ ∀ element ∈ elements.getLast?, '*' ∉ element.drop 1 := by
  induction elements with
  | nil => simp [elementsFault?]
  | cons first elements ih =>
      rw [elementsFault?, Option.or_eq_none_iff, elementFault?_eq_none_iff, ih]
      cases elements with
      | nil => simp
      | cons second elements =>
          simp only [List.isEmpty_cons, List.forall_mem_cons, List.dropLast_cons_cons,
            List.getLast?_cons_cons, forall_const]
          constructor
          · rintro ⟨⟨hform, hstar, -⟩, ⟨hsecond, hforms⟩, hinner, hfinal⟩
            exact ⟨⟨hform, hsecond, hforms⟩, ⟨hstar, hinner⟩, hfinal⟩
          · rintro ⟨⟨hform, hsecond, hforms⟩, ⟨hstar, hinner⟩, hfinal⟩
            exact ⟨⟨hform, hstar, fun hmem => hstar (List.mem_of_mem_drop hmem)⟩,
              ⟨hsecond, hforms⟩, hinner, hfinal⟩

/-! ### The scan and the elements -/

/-- A pattern that is cut at its first wildcard, told from the slash in front of that element on. -/
structure Cut.Placed (c : Cut) (pattern front stem : Text) : Prop where
  literal : c.literal = front ++ '/' :: stem
  noSlash : '/' ∉ stem ++ c.wildcard
  whole : pattern = front ++ '/' :: (stem ++ c.wildcard ++ c.rest)

theorem exists_placed {pattern : Text} {c : Cut} (hcut : cut? pattern = some c)
    (hroot : pattern.head? = some '/') : ∃ front stem, c.Placed pattern front stem := by
  have hsound := sound_of_cut? hcut
  have hwhole := append_of_cut? hcut
  have hmark : c.mark ≠ '/' := by
    rcases hsound.mark with hmark | hmark <;> simp [hmark]
  have hslash : '/' ∈ c.literal := by
    cases hliteral : c.literal with
    | nil =>
        rw [hwhole, hliteral] at hroot
        exact (hmark (Option.some.inj hroot)).elim
    | cons d literal =>
        rw [hwhole, hliteral] at hroot
        cases hroot
        exact List.mem_cons_self
  obtain ⟨front, stem, hliteral, hstem⟩ := Text.exists_last_sep hslash
  refine ⟨front, stem, hliteral, ?_, ?_⟩
  · simp [Cut.wildcard, hstem, hmark.symm, hsound.name]
  · rw [hwhole, hliteral]
    simp

namespace Cut.Placed

variable {c : Cut} {pattern front stem : Text}

/-- The element of the wildcard stands between the elements before and behind it. -/
theorem elements_of_rest (h : c.Placed pattern front stem) {back : Text}
    (hrest : c.rest = '/' :: back) :
    Text.splitAt '/' pattern
      = Text.splitAt '/' front ++ (stem ++ c.wildcard) :: Text.splitAt '/' back := by
  rw [h.whole, hrest, Text.splitAt_append_cons, Text.splitAt_append_cons,
    Text.splitAt_of_not_mem h.noSlash]
  rfl

theorem elements_of_last (h : c.Placed pattern front stem) (hrest : c.rest = []) :
    Text.splitAt '/' pattern = Text.splitAt '/' front ++ [stem ++ c.wildcard] := by
  rw [h.whole, hrest, List.append_nil, Text.splitAt_append_cons,
    Text.splitAt_of_not_mem h.noSlash]

end Cut.Placed

/-- What the scan makes of the first wildcard is what is wrong with its element. -/
theorem checkWildcards_placed {whole rest front stem : Text} {c : Cut} (hcut : cut? rest = some c)
    (hplaced : c.Placed rest front stem) :
    checkWildcards whole rest
      = match elementFault? whole (stem ++ c.wildcard) c.rest.isEmpty with
        | some fault => .error fault
        | none => checkWildcards whole c.rest := by
  have hsound := sound_of_cut? hcut
  have hliteral := hsound.literal
  rw [hplaced.literal] at hliteral
  have hstem : Plain stem := fun d hd => hliteral.right d (List.mem_cons_of_mem '/' hd)
  have hbehind : c.literal.getLast? ≠ some '/' ↔ stem ≠ [] := by
    have hslash : '/' ∉ stem := fun h => hplaced.noSlash (List.mem_append_left _ h)
    rw [hplaced.literal]
    cases hlast : stem.getLast? with
    | none => simp [List.getLast?_eq_none_iff.mp hlast]
    | some d =>
        have hd := List.mem_of_getLast? hlast
        have hne : stem ≠ [] := List.ne_nil_of_mem hd
        have : d ≠ '/' := fun heq => hslash (heq ▸ hd)
        simp [List.getLast?_append, List.getLast?_cons, hlast, hne, this]
  have hend : c.rest ≠ [] ↔ c.rest.isEmpty = false := by simp
  rw [checkWildcards]
  split
  · next hnone => simp [hnone] at hcut
  · next c' hcut' =>
      cases hcut.symm.trans hcut'
      rw [elementFault?, Cut.wildcard, dropWhile_append_mark hstem hsound.isMark]
      simp only [star_unfilled_iff hstem, hbehind, hend, List.isEmpty_iff]
      split_ifs <;> rfl

theorem checkWildcards_of_plain {whole rest : Text} (hplain : Plain rest) :
    checkWildcards whole rest = .ok () := by
  have hcut : cut? rest = none := by
    unfold cut?
    rw [List.dropWhile_eq_nil_iff.mpr fun c hc => by simp [hplain c hc]]
  rw [checkWildcards]
  split
  · rfl
  · next c hcut' => simp [hcut] at hcut'

theorem plain_of_mem_splitAt {text : Text} (hplain : Plain text) :
    ∀ element ∈ Text.splitAt '/' text, Plain element :=
  fun _ helement c hc => hplain c (Text.mem_of_mem_splitAt helement hc)

/-- The scan reports the fault of the first element that has one. -/
theorem checkWildcards_eq {whole rest : Text} (hroot : rest.head? = some '/') :
    checkWildcards whole rest
      = match elementsFault? whole (Text.splitAt '/' rest) with
        | some fault => .error fault
        | none => .ok () := by
  induction hlength : rest.length using Nat.strong_induction_on generalizing rest with
  | h n ih =>
      cases hcut : cut? rest with
      | none =>
          have hplain := plain_of_cut?_eq_none hcut
          have hnone := elementsFault?_append_of_plain (plain_of_mem_splitAt hplain) whole []
          rw [List.append_nil] at hnone
          rw [checkWildcards_of_plain hplain, hnone]
          rfl
      | some c =>
          obtain ⟨front, stem, hplaced⟩ := exists_placed hcut hroot
          have hliteral := (sound_of_cut? hcut).literal
          rw [hplaced.literal] at hliteral
          have hfront := plain_of_mem_splitAt hliteral.left
          rw [checkWildcards_placed hcut hplaced]
          cases hrest : c.rest with
          | nil =>
              rw [hplaced.elements_of_last hrest, elementsFault?_append_of_plain hfront,
                elementsFault?, elementsFault?, Option.or_none,
                checkWildcards_of_plain (by simp [Plain])]
              rfl
          | cons d back =>
              cases (sound_of_cut? hcut).rest d (by simp [hrest])
              have hne : (Text.splitAt '/' back).isEmpty = false := by
                simpa using Text.splitAt_ne_nil '/' back
              have hshorter := length_rest_lt hcut
              have hbehind := ih c.rest.length (hlength ▸ hshorter) (by rw [hrest]; rfl) rfl
              rw [hrest, Text.splitAt_cons_sep, elementsFault?,
                elementFault?_of_plain (by simp [Plain]), Option.none_or] at hbehind
              rw [hplaced.elements_of_rest hrest, elementsFault?_append_of_plain hfront,
                elementsFault?, hne, hbehind, List.isEmpty_cons]
              cases elementFault? whole (stem ++ c.wildcard) false <;> rfl

/-! ### Whole patterns -/

theorem wellFormed_iff {pattern : Text} (hroot : pattern.head? = some '/') :
    WellFormed pattern ↔ elementsFault? pattern (Text.splitAt '/' pattern) = none := by
  rw [elementsFault?_eq_none_iff]
  exact ⟨fun h => ⟨h.elements, h.inner, h.final⟩, fun h => ⟨hroot, h.1, h.2.1, h.2.2⟩⟩

theorem check_of_rooted {pattern : Text} (hroot : pattern.head? = some '/') :
    check pattern = checkWildcards pattern pattern := by
  obtain ⟨rest, rfl⟩ := List.head?_eq_some_iff.mp hroot
  rfl

/-- The patterns that may be registered are those of the right form. -/
theorem check_eq_ok_iff {pattern : Text} : check pattern = .ok () ↔ WellFormed pattern := by
  by_cases hroot : pattern.head? = some '/'
  · rw [wellFormed_iff hroot, check_of_rooted hroot, checkWildcards_eq hroot]
    cases elementsFault? pattern (Text.splitAt '/' pattern) <;> simp
  · refine iff_of_false ?_ fun h => hroot h.rooted
    exact fun hok => hroot (follows_of_check hok).1

/-- A pattern of the right form may be registered. -/
theorem WellFormed.check {pattern : Text} (h : WellFormed pattern) :
    Pattern.check pattern = .ok () :=
  check_eq_ok_iff.mpr h

/-- A pattern is refused for what is wrong with it first. -/
theorem check_eq_error_iff {pattern : Text} {fault : RouteError} :
    check pattern = .error fault ↔ Malformed pattern fault := by
  cases pattern with
  | nil =>
      constructor
      · rintro ⟨⟩
        exact Malformed.empty
      · intro h
        cases h with
        | empty => rfl
        | rootless written rootless => contradiction
        | element rooted elements sound found => contradiction
  | cons c rest =>
      by_cases hroot : c = '/'
      · have hroot : (c :: rest).head? = some '/' := by rw [hroot]; rfl
        have hfound : check (c :: rest) = .error fault
            ↔ elementsFault? (c :: rest) (Text.splitAt '/' (c :: rest)) = some fault := by
          rw [check_of_rooted hroot, checkWildcards_eq hroot]
          cases elementsFault? (c :: rest) (Text.splitAt '/' (c :: rest)) <;> simp
        rw [hfound, elementsFault?_eq_some_iff]
        constructor
        · rintro ⟨before, element, behind, helements, hbefore, hfault⟩
          exact Malformed.element hroot helements hbefore hfault
        · intro h
          cases h with
          | rootless written rootless => contradiction
          | element rooted elements sound found => exact ⟨_, _, _, elements, sound, found⟩
      · have hrootless : (c :: rest).head? ≠ some '/' := by simpa using hroot
        rw [check, if_neg hroot]
        constructor
        · rintro ⟨⟩
          exact Malformed.rootless (List.cons_ne_nil c rest) hrootless
        · intro h
          cases h with
          | rootless written rootless => rfl
          | element rooted elements sound found => contradiction

end RadixRouter.Pattern
