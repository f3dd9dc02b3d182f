import RadixRouter.Text.Utf8

/-!
The bytes of texts that are put together, and cuts between their parts.
-/

namespace RadixRouter.Text

/-! ### The bytes of a character -/

theorem utf8EncodeChar_of_lt {c : Char} (h : c.toNat < 0x80) :
    String.utf8EncodeChar c = [UInt8.ofNat c.toNat] := by
  have hle : c.val.toNat ≤ 0x7F := Nat.le_of_lt_succ h
  unfold String.utf8EncodeChar
  rw [if_pos hle]
  rfl

/-- The bytes of a character that is not ASCII are no ASCII characters. -/
theorem le_of_mem_utf8EncodeChar {c : Char} (h : 0x80 ≤ c.toNat) :
    ∀ b ∈ String.utf8EncodeChar c, 0x80 ≤ b := by
  have hnot : ¬ c.val.toNat ≤ 0x7F := Nat.not_le_of_lt h
  have hbyte : ∀ n, 0x80 ≤ n → n < 0x100 → (0x80 : UInt8) ≤ UInt8.ofNat n := by
    intro n hlow hhigh
    rw [UInt8.le_iff_toNat_le, UInt8.toNat_ofNat', Nat.mod_eq_of_lt hhigh]
    exact hlow
  intro b hb
  unfold String.utf8EncodeChar at hb
  rw [if_neg hnot] at hb
  split at hb
  · simp only [List.mem_cons, List.not_mem_nil, or_false] at hb
    rcases hb with rfl | rfl <;> exact hbyte _ (by omega) (by omega)
  · split at hb
    · simp only [List.mem_cons, List.not_mem_nil, or_false] at hb
      rcases hb with rfl | rfl | rfl <;> exact hbyte _ (by omega) (by omega)
    · simp only [List.mem_cons, List.not_mem_nil, or_false] at hb
      rcases hb with rfl | rfl | rfl | rfl <;> exact hbyte _ (by omega) (by omega)

/-- A byte of a text is an ASCII character of it, or it is no ASCII character. -/
theorem mem_utf8_cases {text : Text} {b : UInt8} (hb : b ∈ utf8 text) :
    (∃ c ∈ text, c.toNat < 0x80 ∧ b = UInt8.ofNat c.toNat)
      ∨ ∃ c ∈ text, 0x80 ≤ c.toNat ∧ 0x80 ≤ b := by
  obtain ⟨c, hc, hmem⟩ := List.mem_flatMap.mp hb
  by_cases hascii : c.toNat < 0x80
  · rw [utf8EncodeChar_of_lt hascii, List.mem_singleton] at hmem
    exact Or.inl ⟨c, hc, hascii, hmem⟩
  · have hlarge : 0x80 ≤ c.toNat := Nat.le_of_not_lt hascii
    exact Or.inr ⟨c, hc, hlarge, le_of_mem_utf8EncodeChar hlarge b hmem⟩

/-- An ASCII character whose byte stands in a text stands in the text. -/
theorem mem_of_mem_utf8 {text : Text} {c : Char} (hascii : c.toNat < 0x80)
    (h : UInt8.ofNat c.toNat ∈ utf8 text) : c ∈ text := by
  have hcode : (UInt8.ofNat c.toNat).toNat = c.toNat := by
    rw [UInt8.toNat_ofNat', Nat.mod_eq_of_lt (by omega)]
  rcases mem_utf8_cases h with ⟨d, hd, hdascii, hsame⟩ | ⟨d, -, -, hlarge⟩
  · have hsame := congrArg UInt8.toNat hsame
    rw [hcode, UInt8.toNat_ofNat', Nat.mod_eq_of_lt (by omega)] at hsame
    rwa [Char.toNat_inj.mp hsame]
  · rw [UInt8.le_iff_toNat_le, hcode] at hlarge
    exact absurd hascii (Nat.not_lt_of_le hlarge)

/-! ### The bytes of a text -/

theorem utf8_cons (c : Char) (text : Text) :
    utf8 (c :: text) = String.utf8EncodeChar c ++ utf8 text := rfl

theorem utf8_append (a b : Text) : utf8 (a ++ b) = utf8 a ++ utf8 b := by
  simp [utf8]

theorem utf8_ne_nil {text : Text} (hne : text ≠ []) : utf8 text ≠ [] := by
  cases text with
  | nil => contradiction
  | cons c text =>
      have hlength := String.length_utf8EncodeChar (c := c)
      have hpos := c.utf8Size_pos
      rw [utf8_cons, Ne, List.append_eq_nil_iff, ← List.length_eq_zero_iff]
      omega

theorem utf8_injective {a b : Text} (h : utf8 a = utf8 b) : a = b := by
  have hread := congrArg ofUtf8? h
  rw [ofUtf8?_utf8, ofUtf8?_utf8] at hread
  exact Option.some.inj hread

/-- Bytes are those of the text that they spell. -/
theorem utf8_of_ofUtf8? {bytes : Bytes} {text : Text} (h : ofUtf8? bytes = some text) :
    utf8 text = bytes := by
  obtain ⟨chars, hdecode, rfl⟩ := Option.map_eq_some_iff.mp h
  have hsome : bytes.toByteArray.utf8Decode?.isSome = true := by rw [hdecode]; rfl
  have hencode := ByteArray.utf8Encode_get_utf8Decode? (h := hsome)
  rw [Option.get_of_eq_some hsome hdecode] at hencode
  exact List.toByteArray_inj.mp hencode

/-- A text whose first byte is an ASCII character begins with this character. -/
theorem exists_eq_cons_of_utf8 {text : Text} {c : Char} (hascii : c.toNat < 0x80) {bytes : Bytes}
    (h : utf8 text = UInt8.ofNat c.toNat :: bytes) : ∃ rest, text = c :: rest := by
  cases text with
  | nil => contradiction
  | cons d rest =>
      have hfirst : UInt8.ofNat c.toNat ∈ utf8 [d] := by
        obtain ⟨b, front, hd⟩ := List.exists_cons_of_ne_nil (utf8_ne_nil (List.cons_ne_nil d []))
        rw [← List.singleton_append, utf8_append, hd, List.cons_append] at h
        rw [hd, (List.cons.inj h).1]
        exact List.mem_cons_self
      rw [List.mem_singleton.mp (mem_of_mem_utf8 hascii hfirst)]
      exact ⟨rest, rfl⟩

/-! ### Cuts at byte offsets -/

theorem byteLength_append (a b : Text) :
    byteLength (a ++ b) = byteLength a + byteLength b := by
  induction a with
  | nil => simp [byteLength]
  | cons c a ih => simp [byteLength, ih, Nat.add_assoc]

theorem length_utf8 (text : Text) : (utf8 text).length = byteLength text := by
  induction text with
  | nil => rfl
  | cons c text ih => simp [utf8_cons, byteLength, ih]

theorem byteLength_pos {text : Text} (hne : text ≠ []) : 0 < byteLength text := by
  cases text with
  | nil => contradiction
  | cons c rest =>
      have := c.utf8Size_pos
      simp only [byteLength]
      omega

theorem byteLength_lt_append {rest : Text} (front : Text) (hne : rest ≠ []) :
    byteLength front < byteLength (front ++ rest) := by
  rw [byteLength_append]
  exact Nat.lt_add_of_pos_right (byteLength_pos hne)

theorem byteLength_eq_zero_iff {text : Text} : byteLength text = 0 ↔ text = [] := by
  cases text with
  | nil => exact iff_of_true rfl rfl
  | cons c rest =>
      have hne := List.cons_ne_nil c rest
      exact iff_of_false (Nat.ne_of_gt (byteLength_pos hne)) hne

theorem takeBytes_append (front rest : Text) (count : Nat) :
    takeBytes (byteLength front + count) (front ++ rest) = front ++ takeBytes count rest := by
  induction front with
  | nil => simp [byteLength]
  | cons c front ih =>
      have hsize : byteLength (c :: front) + count - c.utf8Size = byteLength front + count := by
        simp only [byteLength]
        omega
      have hfits : c.utf8Size ≤ byteLength (c :: front) + count := by
        simp only [byteLength]
        omega
      simp [takeBytes, hsize, hfits, ih]

theorem takeBytes_byteLength_append (front rest : Text) :
    takeBytes (byteLength front) (front ++ rest) = front := by
  simpa [takeBytes_zero] using takeBytes_append front rest 0

theorem dropBytes_byteLength_append (front rest : Text) :
    dropBytes (byteLength front) (front ++ rest) = rest := by
  have whole := takeBytes_append_dropBytes (byteLength front) (front ++ rest)
  rw [takeBytes_byteLength_append] at whole
  exact List.append_cancel_left whole

/-- A part of a text is what is cut out between its ends. -/
theorem slice?_append (front middle back : Text) :
    slice? (byteLength front) (byteLength (front ++ middle)) (front ++ middle ++ back)
      = some middle := by
  have hfront : takeBytes (byteLength front) (front ++ middle ++ back) = front := by
    rw [List.append_assoc, takeBytes_byteLength_append]
  rw [slice?, hfront, takeBytes_byteLength_append]
  simp

end RadixRouter.Text
