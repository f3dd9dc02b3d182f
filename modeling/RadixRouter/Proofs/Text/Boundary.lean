import RadixRouter.Proofs.Text.Shared
import RadixRouter.Text.Boundary

/-!
Where the count of shared bytes is backed off to. It is a boundary of both texts, though it is
sought in one of them only, and both are cut there behind the longest front that their characters
share.
-/

namespace RadixRouter.Text

/-! ### Boundaries -/

theorem isBoundary_append (front rest : Text) (offset : Nat) :
    isBoundary (front ++ rest) (byteLength front + offset) = isBoundary rest offset := by
  rw [isBoundary, isBoundary, utf8_append, ← length_utf8 front,
    List.getElem?_append_right (Nat.le_add_right _ offset), Nat.add_sub_cancel_left,
    byteLength_append, length_utf8]
  simp only [Nat.add_left_cancel_iff]

/-- The first byte of a character, and no other one, begins a character. -/
theorem isBoundary_cons_of_lt {c : Char} {offset : Nat} (hlt : offset < c.utf8Size)
    (text : Text) : isBoundary (c :: text) offset = decide (offset = 0) := by
  have hlength : offset < (String.utf8EncodeChar c).length := by
    rwa [String.length_utf8EncodeChar]
  rw [isBoundary, utf8_cons, List.getElem?_append_left hlength, List.getElem?_eq_getElem hlength]
  exact decide_eq_decide.mpr UInt8.isUTF8FirstByte_getElem_utf8EncodeChar

theorem isBoundary_zero (text : Text) : isBoundary text 0 = true := by
  cases text with
  | nil => rfl
  | cons c text => simp [isBoundary_cons_of_lt c.utf8Size_pos]

/-- A boundary is where a front of the text ends. -/
theorem isBoundary_byteLength (front rest : Text) :
    isBoundary (front ++ rest) (byteLength front) = true := by
  have happend := isBoundary_append front rest 0
  rwa [isBoundary_zero] at happend

/-! ### Backing off -/

/-- Within the first character there is no boundary but its begin. -/
theorem backOff_of_lt {c : Char} {offset : Nat} (hlt : offset < c.utf8Size) (text : Text) :
    backOff (c :: text) offset = 0 := by
  induction offset with
  | zero => rfl
  | succ offset ih =>
      rw [backOff, isBoundary_cons_of_lt hlt]
      simpa using ih (Nat.lt_of_succ_lt hlt)

/-- Behind the first character the boundaries are those of what follows it. -/
theorem backOff_add (c : Char) (text : Text) (offset : Nat) :
    backOff (c :: text) (c.utf8Size + offset) = c.utf8Size + backOff text offset := by
  have hfirst : ∀ offset, isBoundary (c :: text) (c.utf8Size + offset) = isBoundary text offset :=
    isBoundary_append [c] text
  induction offset with
  | zero =>
      obtain ⟨size, hsize⟩ := Nat.exists_eq_add_one.mpr c.utf8Size_pos
      have hend := hfirst 0
      rw [isBoundary_zero, hsize, Nat.add_zero] at hend
      simp only [hsize, Nat.add_zero, backOff, hend, ↓reduceIte]
  | succ offset ih =>
      rw [← Nat.add_assoc, backOff, Nat.add_assoc, hfirst, ih, backOff]
      split <;> rfl

/-- Backing off step by step leaves the whole characters in front of the offset. -/
theorem backOff_eq (text : Text) {offset : Nat} (hle : offset ≤ byteLength text) :
    backOff text offset = byteLength (takeBytes offset text) := by
  induction text generalizing offset with
  | nil =>
      rw [Nat.le_zero.mp hle]
      rfl
  | cons c text ih =>
      by_cases hfits : c.utf8Size ≤ offset
      · obtain ⟨behind, rfl⟩ := Nat.exists_eq_add_of_le hfits
        rw [byteLength] at hle
        rw [backOff_add, ih (Nat.le_of_add_le_add_left hle), takeBytes, if_pos hfits,
          Nat.add_sub_cancel_left, byteLength]
      · rw [backOff_of_lt (Nat.lt_of_not_le hfits), takeBytes, if_neg hfits, byteLength]

theorem commonBytes_le_length (a b : Bytes) : commonBytes a b ≤ a.length := by
  induction a generalizing b with
  | nil => cases b <;> simp [commonBytes]
  | cons x a ih =>
      cases b with
      | nil => simp [commonBytes]
      | cons y b =>
          rw [commonBytes]
          split
          · exact Nat.succ_le_succ (ih b)
          · exact Nat.zero_le _

theorem sharedOffset_eq (a b : Text) : sharedOffset a b = sharedBytes a b := by
  have hle := commonBytes_le_length (utf8 a) (utf8 b)
  rw [length_utf8] at hle
  exact backOff_eq a hle

/-! ### Cuts -/

theorem upToByte?_append (front rest : Text) :
    upToByte? (byteLength front) (front ++ rest) = some front :=
  slice?_append [] front rest

theorem fromByte?_append (front rest : Text) :
    fromByte? (byteLength front) (front ++ rest) = some rest := by
  have hslice := slice?_append front rest []
  rwa [List.append_nil] at hslice

/-! ### Partings -/

/-- The longest front that the characters of two texts share. -/
structure LongestShared (front a b : Text) : Prop where
  left : front <+: a
  right : front <+: b
  longest : ∀ other, other <+: a → other <+: b → other <+: front

theorem longestShared_append {rest tail : Text} (front : Text) (hparted : Parted rest tail) :
    LongestShared front (front ++ rest) (front ++ tail) := by
  refine ⟨List.prefix_append front rest, List.prefix_append front tail, ?_⟩
  intro other hleft hright
  rcases List.prefix_or_prefix_of_prefix hleft (List.prefix_append front rest) with
    hshorter | ⟨more, rfl⟩
  · exact hshorter
  · rw [List.prefix_append_right_inj] at hleft hright
    cases more with
    | nil => simp
    | cons c more =>
        obtain ⟨rest, rfl⟩ := hleft
        obtain ⟨tail, rfl⟩ := hright
        exact absurd rfl (hparted c rfl)

/-- How `shared` bytes cut two texts where their characters part. -/
structure Parting (a b : Text) (shared : Nat) (front rest tail : Text) : Prop where
  /-- The bytes are counted and backed off in the first text. -/
  counted : sharedOffset a b = shared
  /-- They are those of the longest front that the characters share. -/
  bytes : shared = byteLength front
  longest : LongestShared front a b
  /-- Neither text is cut within a character. -/
  boundary : isBoundary a shared = true ∧ isBoundary b shared = true
  upTo : upToByte? shared a = some front ∧ upToByte? shared b = some front
  behind : fromByte? shared a = some rest ∧ fromByte? shared b = some tail
  /-- What is behind the cuts does not begin with the same character. -/
  parted : Parted rest tail

/-- Any two texts are cut by the bytes that they share where their characters part. -/
theorem exists_sharedBytes_parting (a b : Text) :
    ∃ front rest tail, Parting a b (sharedBytes a b) front rest tail := by
  obtain ⟨front, rest, tail, rfl, rfl, hparted⟩ := exists_parting a b
  refine ⟨front, rest, tail, ?_⟩
  have hbytes := sharedBytes_append front hparted
  refine ⟨sharedOffset_eq _ _, hbytes, longestShared_append front hparted, ?_, ?_, ?_, hparted⟩
  · rw [hbytes]
    exact ⟨isBoundary_byteLength front rest, isBoundary_byteLength front tail⟩
  · rw [hbytes]
    exact ⟨upToByte?_append front rest, upToByte?_append front tail⟩
  · rw [hbytes]
    exact ⟨fromByte?_append front rest, fromByte?_append front tail⟩

end RadixRouter.Text
