import RadixRouter.Text.Fold

/-!
Comparison without regard to case, as it behaves when texts are put together and cut at slashes: a
character in front of the capitals, such as the slash or the percent sign, is the same letter as no
other character.
-/

namespace RadixRouter

namespace Lowercase

theorem bounds_of_mem_ranges : ∀ range ∈ ranges, 65 ≤ range.1 ∧ 97 ≤ range.2.2.2 := by
  decide +kernel

/-- In front of the capitals, all codes stand for themselves. -/
theorem code_of_lt {n : Nat} (hn : n < 65) : code n = n := by
  unfold code
  split
  · next first last step image hfound =>
      have hfirst : 65 ≤ first := (bounds_of_mem_ranges _ (List.mem_of_find?_eq_some hfound)).1
      have hlarge := List.find?_some hfound
      simp only [Bool.and_eq_true, decide_eq_true_eq] at hlarge
      omega
  · rfl

/-- A code in front of the small letters is the small letter of no other one. -/
theorem code_eq_self_of_lt {n : Nat} (h : code n < 97) : code n = n := by
  unfold code at h ⊢
  split
  · next first last step image hfound =>
      have himage : 97 ≤ image := (bounds_of_mem_ranges _ (List.mem_of_find?_eq_some hfound)).2
      simp only [hfound] at h
      omega
  · rfl

theorem eq_of_ofNat_eq {n : Nat} {d : Char} (hd : d ≠ Char.ofNat 0) (h : Char.ofNat n = d) :
    n = d.toNat := by
  subst h
  by_cases hvalid : n.isValidChar
  · rw [Char.ofNat, dif_pos hvalid]
    rfl
  · rw [Char.ofNat, dif_neg hvalid] at hd
    contradiction

section Caseless

variable {c d : Char} (hnull : d ≠ Char.ofNat 0) (hd : d.toNat < 65)
include hnull hd

theorem char_eq_singleton_iff : char c = [d] ↔ c = d := by
  constructor
  · intro h
    unfold char at h
    split at h
    · simp at h
    · have hcode := eq_of_ofNat_eq hnull (List.singleton_inj.mp h)
      rw [code_eq_self_of_lt (by omega)] at hcode
      exact Char.toNat_inj.mp hcode
  · rintro rfl
    have hdotted : c ≠ '\u0130' := by
      rintro rfl
      contradiction
    rw [char, if_neg hdotted, code_of_lt hd, Char.ofNat_toNat]

end Caseless

end Lowercase

/-- A character in front of the capitals is the same letter as itself alone. -/
theorem foldsTo_iff_of_lt {c d : Char} (hnull : d ≠ Char.ofNat 0) (hd : d.toNat < 65) :
    foldsTo c d = true ↔ c = d := by
  have hself := Lowercase.char_eq_singleton_iff (c := d) hnull hd
  have hother := Lowercase.char_eq_singleton_iff (c := c) hnull hd
  simp [foldsTo, hself.mpr rfl, hother]

theorem foldsTo_slash_iff {c : Char} : foldsTo c '/' = true ↔ c = '/' :=
  foldsTo_iff_of_lt (by decide) (by decide)

theorem foldsTo_symm {a b : Char} (h : foldsTo a b = true) : foldsTo b a = true := by
  simp only [foldsTo, Bool.or_eq_true, decide_eq_true_eq] at *
  exact h.imp Eq.symm Eq.symm

namespace Text

namespace FoldEq

theorem refl (s : Text) : FoldEq s s := by
  induction s with
  | nil => exact nil
  | cons c s ih => exact cons (by simp [foldsTo]) ih

theorem symm {s t : Text} (h : FoldEq s t) : FoldEq t s := by
  induction h with
  | nil => exact nil
  | cons hsame _ ih => exact cons (foldsTo_symm hsame) ih

theorem append {s t s' t' : Text} (h : FoldEq s t) (h' : FoldEq s' t') :
    FoldEq (s ++ s') (t ++ t') := by
  induction h with
  | nil => exact h'
  | cons hsame _ ih => exact cons hsame ih

theorem of_append {front back t : Text} (h : FoldEq (front ++ back) t) :
    ∃ front' back', t = front' ++ back' ∧ FoldEq front front' ∧ FoldEq back back' := by
  induction front generalizing t with
  | nil => exact ⟨[], t, rfl, nil, h⟩
  | cons c front ih =>
      rw [List.cons_append] at h
      cases h with
      | cons hsame hrest =>
          obtain ⟨front', back', rfl, hfront, hback⟩ := ih hrest
          exact ⟨_ :: front', back', rfl, cons hsame hfront, hback⟩

theorem cancel {front front' s t : Text} (h : FoldEq (front ++ s) (front' ++ t))
    (hlength : front.length = front'.length) : FoldEq s t := by
  induction front generalizing front' with
  | nil =>
      cases front' with
      | nil => exact h
      | cons c front' => contradiction
  | cons c front ih =>
      cases front' with
      | nil => contradiction
      | cons d front' =>
          cases h with
          | cons _ hrest => exact ih hrest (Nat.succ.inj hlength)

theorem length_eq {s t : Text} (h : FoldEq s t) : s.length = t.length := by
  induction h with
  | nil => rfl
  | cons _ _ ih => simp [ih]

theorem eq_nil {s : Text} (h : FoldEq s []) : s = [] := by
  cases h
  rfl

theorem eq_slash {s : Text} (h : FoldEq s ['/']) : s = ['/'] := by
  cases h with
  | cons hsame hrest => rw [foldsTo_slash_iff.mp hsame, hrest.eq_nil]

/-- A character in front of the capitals occurs equally often in texts that are equal but for
case. -/
theorem count_eq {s t : Text} (h : FoldEq s t) {d : Char} (hnull : d ≠ Char.ofNat 0)
    (hd : d.toNat < 65) : s.count d = t.count d := by
  induction h with
  | nil => rfl
  | @cons a b s t hsame hrest ih =>
      have hiff : a = d ↔ b = d := by
        constructor
        · rintro rfl
          exact (foldsTo_iff_of_lt hnull hd).mp (foldsTo_symm hsame)
        · rintro rfl
          exact (foldsTo_iff_of_lt hnull hd).mp hsame
      rw [List.count_cons, List.count_cons, ih]
      simp only [beq_iff_eq, hiff]

/-- Texts that are equal but for case part into elements at the same positions. -/
theorem upTo_fromNext {s t : Text} (h : FoldEq s t) :
    FoldEq (upTo '/' s) (upTo '/' t) ∧ FoldEq (fromNext '/' s) (fromNext '/' t) := by
  induction h with
  | nil => exact ⟨nil, nil⟩
  | @cons a b s t hsame hrest ih =>
      by_cases hb : b = '/'
      · subst hb
        have ha : a = '/' := foldsTo_slash_iff.mp hsame
        subst ha
        exact ⟨nil, cons hsame hrest⟩
      · have ha : a ≠ '/' := by
          rintro rfl
          exact hb (foldsTo_slash_iff.mp (foldsTo_symm hsame))
        simpa [upTo, fromNext, List.takeWhile_cons, List.dropWhile_cons, ha, hb]
          using And.intro (cons hsame ih.1) ih.2

end FoldEq

theorem afterFold?_eq_some_iff {front text rest : Text} :
    afterFold? front text = some rest ↔ ∃ head, text = head ++ rest ∧ FoldEq head front := by
  induction front generalizing text with
  | nil =>
      constructor
      · intro h
        exact ⟨[], by simpa [afterFold?] using h, FoldEq.nil⟩
      · rintro ⟨head, rfl, hfold⟩
        simp [afterFold?, hfold.eq_nil]
  | cons a front ih =>
      cases text with
      | nil =>
          constructor
          · intro h
            simp [afterFold?] at h
          · rintro ⟨head, heq, hfold⟩
            rw [(List.append_eq_nil_iff.mp heq.symm).1] at hfold
            cases hfold
      | cons b text =>
          constructor
          · intro h
            simp only [afterFold?] at h
            split at h
            · next hsame =>
                obtain ⟨head, rfl, hfold⟩ := ih.mp h
                exact ⟨b :: head, rfl, FoldEq.cons hsame hfold⟩
            · contradiction
          · rintro ⟨head, heq, hfold⟩
            cases hfold with
            | cons hsame hrest =>
                cases heq
                rw [afterFold?, if_pos hsame]
                exact ih.mpr ⟨_, rfl, hrest⟩

end Text

end RadixRouter
