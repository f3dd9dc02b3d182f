import RadixRouter.Proofs.Text.Utf8

/-!
Where two texts part. Their bytes are compared, but the cut falls where their characters first
differ: no two characters share all the bytes of one of them.
-/

namespace RadixRouter.Text

/-- Two texts that do not begin with the same character. -/
def Parted (a b : Text) : Prop :=
  ∀ c ∈ a.head?, c ∉ b.head?

theorem exists_parting (a b : Text) :
    ∃ front rest tail, a = front ++ rest ∧ b = front ++ tail ∧ Parted rest tail := by
  induction a generalizing b with
  | nil => exact ⟨[], [], b, rfl, rfl, by simp [Parted]⟩
  | cons c a ih =>
      cases b with
      | nil => exact ⟨[], c :: a, [], rfl, rfl, by simp [Parted]⟩
      | cons d b =>
          by_cases hsame : c = d
          · obtain ⟨front, rest, tail, ha, hb, hparted⟩ := ih b
            exact ⟨c :: front, rest, tail, by simp [ha], by simp [hb, hsame], hparted⟩
          · exact ⟨[], c :: a, d :: b, rfl, rfl, by simp [Parted, Ne.symm hsame]⟩

theorem commonBytes_append (front a b : Bytes) :
    commonBytes (front ++ a) (front ++ b) = front.length + commonBytes a b := by
  induction front with
  | nil => simp
  | cons x front ih =>
      simp only [List.cons_append, commonBytes, ih, ↓reduceIte, List.length_cons]
      omega

theorem take_commonBytes (a b : Bytes) :
    a.take (commonBytes a b) = b.take (commonBytes a b) := by
  induction a generalizing b with
  | nil => cases b <;> simp [commonBytes]
  | cons x a ih =>
      cases b with
      | nil => simp [commonBytes]
      | cons y b =>
          by_cases hsame : x = y
          · simp [commonBytes, hsame, ih b]
          · simp [commonBytes, hsame]

/-- Bytes that begin with the encoding of a character begin with that of no other one. -/
theorem eq_of_utf8EncodeChar_append {c d : Char} {a b : Bytes}
    (h : String.utf8EncodeChar c ++ a = String.utf8EncodeChar d ++ b) : c = d := by
  have decoded : ∀ (e : Char) (bytes : Bytes),
      ByteArray.utf8DecodeChar? (String.utf8EncodeChar e ++ bytes).toByteArray 0 = some e := by
    intro e bytes
    rw [List.toByteArray_append]
    exact ByteArray.utf8DecodeChar?_utf8EncodeChar_append
  have hc := decoded c a
  rw [h, decoded d b] at hc
  exact (Option.some.inj hc).symm

theorem commonBytes_lt_of_ne {c d : Char} (hne : c ≠ d) (a b : Bytes) :
    commonBytes (String.utf8EncodeChar c ++ a) (String.utf8EncodeChar d ++ b) < c.utf8Size := by
  apply Nat.lt_of_not_le
  intro hlong
  have hshared := take_commonBytes (String.utf8EncodeChar c ++ a) (String.utf8EncodeChar d ++ b)
  have hfront := congrArg (List.take c.utf8Size) hshared
  rw [List.take_take, List.take_take, Nat.min_eq_left hlong,
    ← String.length_utf8EncodeChar, List.take_left] at hfront
  apply hne
  apply eq_of_utf8EncodeChar_append (a := (String.utf8EncodeChar d ++ b).drop
    (String.utf8EncodeChar c).length) (b := b)
  calc String.utf8EncodeChar c ++ _
      = (String.utf8EncodeChar d ++ b).take (String.utf8EncodeChar c).length
          ++ (String.utf8EncodeChar d ++ b).drop (String.utf8EncodeChar c).length := by
        rw [← hfront]
    _ = String.utf8EncodeChar d ++ b := List.take_append_drop _ _

theorem takeBytes_commonBytes_of_parted {rest tail : Text} (hparted : Parted rest tail) :
    takeBytes (commonBytes (utf8 rest) (utf8 tail)) rest = [] := by
  cases rest with
  | nil => rfl
  | cons c rest =>
      cases tail with
      | nil =>
          have hnone : commonBytes (utf8 (c :: rest)) (utf8 []) = 0 := by
            cases utf8 (c :: rest) <;> rfl
          rw [hnone, takeBytes_zero]
      | cons d tail =>
          have hne : c ≠ d := by
            intro heq
            exact hparted c rfl (by simp [heq])
          have hlt : commonBytes (utf8 (c :: rest)) (utf8 (d :: tail)) < c.utf8Size :=
            commonBytes_lt_of_ne hne (utf8 rest) (utf8 tail)
          rw [takeBytes, if_neg (Nat.not_le_of_lt hlt)]

/-- The bytes that two texts share are those of the characters that they share. -/
theorem sharedBytes_append {rest tail : Text} (front : Text) (hparted : Parted rest tail) :
    sharedBytes (front ++ rest) (front ++ tail) = byteLength front := by
  rw [sharedBytes, utf8_append, utf8_append, commonBytes_append, length_utf8, takeBytes_append,
    takeBytes_commonBytes_of_parted hparted, List.append_nil]

end RadixRouter.Text
