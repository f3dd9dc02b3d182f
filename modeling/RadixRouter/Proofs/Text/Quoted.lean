import Mathlib.Data.List.Basic
import RadixRouter.Proofs.Text.Split
import RadixRouter.Text.Quoted

/-!
What can be read back from text in quotes. An encoded character determines where it ends, so the
text in quotes determines the text; and a quote that follows a space is the one that ends it.
-/

namespace RadixRouter.Quoted

/-! ### The digits of a number -/

theorem digitChar_injOn :
    ∀ m < 16, ∀ n < 16, Nat.digitChar m = Nat.digitChar n → m = n := by
  decide

/-- A number is determined by how it is written in base sixteen. -/
theorem toDigits_sixteen_injective {m n : Nat} (h : Nat.toDigits 16 m = Nat.toDigits 16 n) :
    m = n := by
  induction m using Nat.strongRecOn generalizing n with
  | ind m ih =>
      rw [Nat.toDigits_eq_if (by decide), @Nat.toDigits_eq_if 16 n (by decide)] at h
      have hmore : ∀ k (last digit : Char), [digit] ≠ Nat.toDigits 16 k ++ [last] := by
        intro k last digit heq
        have hlength := congrArg List.length heq
        have hpos : 0 < (Nat.toDigits 16 k).length := Nat.length_toDigits_pos
        simp only [List.length_append, List.length_singleton] at hlength
        omega
      split at h <;> split at h
      · next hm hn => exact digitChar_injOn m hm n hn (List.singleton_inj.mp h)
      · exact (hmore _ _ _ h).elim
      · exact (hmore _ _ _ h.symm).elim
      · next hm _ =>
        obtain ⟨hquotient, hremainder⟩ := List.append_inj' h rfl
        have hdiv := ih (m / 16) (by omega) hquotient
        have hmod := digitChar_injOn (m % 16) (Nat.mod_lt _ (by decide)) (n % 16)
          (Nat.mod_lt _ (by decide)) (List.singleton_inj.mp hremainder)
        omega

theorem mem_toDigits_sixteen {n : Nat} {c : Char} (h : c ∈ Nat.toDigits 16 n) :
    ∃ digit < 16, c = Nat.digitChar digit := by
  induction n using Nat.strongRecOn with
  | ind n ih =>
      rw [Nat.toDigits_eq_if (by decide)] at h
      split at h
      · next hn => exact ⟨n, hn, List.mem_singleton.mp h⟩
      · rcases List.mem_append.mp h with hmem | hmem
        · exact ih (n / 16) (by omega) hmem
        · exact ⟨n % 16, Nat.mod_lt _ (by decide), List.mem_singleton.mp hmem⟩

/-- A character that is no digit ends the digits of a number. -/
theorem toDigits_sixteen_append_injective {c : Char} (hc : ∀ digit < 16, Nat.digitChar digit ≠ c)
    {m n : Nat} {s t : Text} (h : Nat.toDigits 16 m ++ c :: s = Nat.toDigits 16 n ++ c :: t) :
    m = n ∧ s = t := by
  have hother : ∀ k, ∀ d ∈ Nat.toDigits 16 k, d ≠ c := by
    intro k d hd
    obtain ⟨digit, hdigit, rfl⟩ := mem_toDigits_sixteen hd
    exact hc digit hdigit
  have hdigits := congrArg (Text.upTo c) h
  rw [Text.upTo_append_cons (hother m), Text.upTo_append_cons (hother n)] at hdigits
  rw [hdigits] at h
  exact ⟨toDigits_sixteen_injective hdigits, (List.cons.inj (List.append_cancel_left h)).2⟩

/-! ### Encoded characters -/

/-- The letters that stand for a character behind a backslash. -/
def letters : List (Char × Char) :=
  [('0', '\x00'), ('t', '\t'), ('r', '\r'), ('n', '\n'), ('"', '"'), ('\\', '\\')]

theorem letters_functional :
    ∀ entry ∈ letters, entry.1 ≠ 'u' ∧ ∀ other ∈ letters, entry.1 = other.1 → entry = other := by
  decide

/-- A character is written by a letter, as it stands or by its number. -/
theorem encodeChar_cases (c : Char) :
    (∃ letter, (letter, c) ∈ letters ∧ encodeChar c = ['\\', letter])
      ∨ c ≠ '\\' ∧ c ≠ '"' ∧ encodeChar c = [c]
      ∨ encodeChar c = numbered c := by
  by_cases hletter : c ∈ letters.map Prod.snd
  · left
    simp only [letters, List.map_cons, List.map_nil, List.mem_cons, List.not_mem_nil,
      or_false] at hletter
    rcases hletter with rfl | rfl | rfl | rfl | rfl | rfl
    all_goals exact ⟨_, by simp [letters], rfl⟩
  · right
    simp only [letters, List.map_cons, List.map_nil, List.mem_cons, List.not_mem_nil, or_false,
      not_or] at hletter
    obtain ⟨h0, ht, hr, hn, hquote, hback⟩ := hletter
    rw [encodeChar, if_neg h0, if_neg ht, if_neg hr, if_neg hn, if_neg hquote, if_neg hback]
    split
    · exact Or.inl ⟨hback, hquote, rfl⟩
    · exact Or.inr rfl

/-- An encoded character determines the character, and where it ends in a longer text. -/
theorem encodeChar_append_injective {c d : Char} {s t : Text}
    (h : encodeChar c ++ s = encodeChar d ++ t) : c = d ∧ s = t := by
  -- A backslash tells the second kind from the others, and the `u` behind it the third.
  rcases encodeChar_cases c with ⟨letter, hc, hcode⟩ | ⟨hback, -, hcode⟩ | hcode <;>
  rcases encodeChar_cases d with ⟨letter', hd, hcode'⟩ | ⟨hback', -, hcode'⟩ | hcode' <;>
  rw [hcode, hcode'] at h
  · obtain ⟨hletter, hst⟩ := List.cons.inj (List.cons.inj h).2
    have hentry := (letters_functional _ hc).2 _ hd hletter
    exact ⟨congrArg Prod.snd hentry, hst⟩
  · exact (hback' (List.cons.inj h).1.symm).elim
  · exact ((letters_functional _ hc).1 (List.cons.inj (List.cons.inj h).2).1).elim
  · exact (hback (List.cons.inj h).1).elim
  · exact List.cons.inj h
  · exact (hback (List.cons.inj h).1).elim
  · exact ((letters_functional _ hd).1 (List.cons.inj (List.cons.inj h).2).1.symm).elim
  · exact (hback' (List.cons.inj h).1.symm).elim
  · simp only [numbered, List.cons_append, List.append_assoc, List.cons.injEq, true_and,
      List.nil_append] at h
    obtain ⟨hnumber, hst⟩ := toDigits_sixteen_append_injective (by decide) h
    exact ⟨Char.toNat_inj.mp hnumber, hst⟩

/-- No encoded character begins with the quote that ends the text. -/
theorem quote_cons_ne_encodeChar_append (c : Char) (s t : Text) :
    '"' :: s ≠ encodeChar c ++ t := by
  intro h
  rcases encodeChar_cases c with ⟨letter, -, hcode⟩ | ⟨-, hquote, hcode⟩ | hcode <;>
  rw [hcode] at h
  · exact absurd (List.cons.inj h).1 (by decide)
  · exact hquote (List.cons.inj h).1.symm
  · exact absurd (List.cons.inj h).1 (by decide)

theorem encodeChar_eq_of_space_mem {c : Char} (h : ' ' ∈ encodeChar c) :
    encodeChar c = [' '] := by
  rcases encodeChar_cases c with ⟨letter, hletter, hcode⟩ | ⟨-, -, hcode⟩ | hcode <;>
  rw [hcode] at h ⊢
  · have hnot : ∀ entry ∈ letters, ' ' ∉ ['\\', entry.1] := by decide
    exact (hnot _ hletter h).elim
  · rw [List.mem_singleton.mp h]
  · simp only [numbered, List.cons_append, List.mem_cons, List.mem_append, List.not_mem_nil,
      or_false] at h
    rcases h with h | h | h | h | h
    · exact absurd h (by decide)
    · exact absurd h (by decide)
    · exact absurd h (by decide)
    · obtain ⟨digit, hdigit, heq⟩ := mem_toDigits_sixteen h
      have hnot : ∀ digit < 16, ' ' ≠ Nat.digitChar digit := by decide
      exact (hnot digit hdigit heq).elim
    · exact absurd h (by decide)

/-! ### Encoded text -/

/-- Text in quotes determines the text, and where it ends in a longer one. -/
theorem encode_append_injective {text text' s t : Text}
    (h : encode text ++ s = encode text' ++ t) : text = text' ∧ s = t := by
  simp only [encode, List.cons_append, List.cons.injEq, true_and, List.append_assoc,
    List.nil_append] at h
  induction text generalizing text' with
  | nil =>
      cases text' with
      | nil => exact ⟨rfl, (List.cons.inj h).2⟩
      | cons d text' =>
          rw [List.flatMap_cons, List.append_assoc] at h
          exact (quote_cons_ne_encodeChar_append d _ _ h).elim
  | cons c text ih =>
      cases text' with
      | nil =>
          rw [List.flatMap_cons, List.append_assoc] at h
          exact (quote_cons_ne_encodeChar_append c _ _ h.symm).elim
      | cons d text' =>
          rw [List.flatMap_cons, List.flatMap_cons, List.append_assoc, List.append_assoc] at h
          obtain ⟨rfl, hrest⟩ := encodeChar_append_injective h
          obtain ⟨rfl, hst⟩ := ih hrest
          exact ⟨rfl, hst⟩

theorem encode_injective : Function.Injective encode := by
  intro text text' h
  exact (encode_append_injective (congrArg (· ++ []) h)).1

/-- Behind the opening quote, only the closing one can follow a space. -/
theorem eq_nil_of_spaced_quote {text before after : Text}
    (h : text.flatMap encodeChar ++ ['"'] = before ++ ' ' :: '"' :: after) : after = [] := by
  induction text generalizing before with
  | nil =>
      have hlength := congrArg List.length h
      simp only [List.flatMap_nil, List.nil_append, List.length_append, List.length_cons,
        List.length_nil] at hlength
      omega
  | cons c text ih =>
      rw [List.flatMap_cons, List.append_assoc] at h
      rcases List.append_eq_append_iff.mp h with ⟨rest, -, hrest⟩ | ⟨rest, hcode, hrest⟩
      · exact ih hrest
      · cases rest with
        | nil => exact @ih [] hrest.symm
        | cons d rest =>
            -- The space is the character itself, so the quote comes right behind it.
            obtain ⟨rfl, hquote⟩ := List.cons.inj hrest
            have hspace := encodeChar_eq_of_space_mem (c := c) (by rw [hcode]; simp)
            have hempty : rest = [] := by
              have hlength := congrArg List.length (hcode.symm.trans hspace)
              simp only [List.length_append, List.length_cons, List.length_nil] at hlength
              exact List.eq_nil_of_length_eq_zero (by omega)
            subst hempty
            cases text with
            | nil => exact (List.cons.inj hquote).2
            | cons e text =>
                change '"' :: after = (e :: text).flatMap encodeChar ++ ['"'] at hquote
                rw [List.flatMap_cons, List.append_assoc] at hquote
                exact (quote_cons_ne_encodeChar_append e _ _ hquote).elim

end RadixRouter.Quoted
