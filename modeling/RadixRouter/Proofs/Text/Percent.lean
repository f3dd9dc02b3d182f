import RadixRouter.Http.Target
import RadixRouter.Proofs.Text.Split
import RadixRouter.Proofs.Text.Utf8
import RadixRouter.Text.Percent

/-!
Reading takes back what writing does: an encoded path decodes to the path. What is written are
slashes, unreserved characters and bytes in three characters each, so that no query begins in it.
-/

namespace RadixRouter.Percent

/-! ### One byte -/

/-- What holds of each byte below 256 holds of every byte. -/
theorem forall_byte {P : UInt8 → Prop} (h : ∀ n, n < 256 → P (UInt8.ofNat n)) (b : UInt8) :
    P b := by
  have hb := h b.toNat b.toNat_lt_size
  rwa [UInt8.ofNat_toNat] at hb

theorem utf8_encodeByte_of_isUnreserved (b : UInt8) :
    isUnreserved b = true → Text.utf8 (encodeByte b) = [b] ∧ b ≠ sign := by
  revert b
  exact forall_byte (by decide +kernel)

theorem utf8_encodeByte_of_reserved (b : UInt8) :
    isUnreserved b = false →
      Text.utf8 (encodeByte b)
          = [sign, (hexDigit (b >>> 4)).toNat.toUInt8, (hexDigit (b &&& 15)).toNat.toUInt8]
        ∧ triple? sign (hexDigit (b >>> 4)).toNat.toUInt8 (hexDigit (b &&& 15)).toNat.toUInt8
          = some b := by
  revert b
  exact forall_byte (by decide +kernel)

theorem all_isPathChar_encodeByte (b : UInt8) :
    (encodeByte b).all Target.isPathChar = true := by
  revert b
  exact forall_byte (by decide +kernel)

theorem decodeBytes_cons {b : UInt8} (hb : b ≠ sign) (rest : Bytes) :
    decodeBytes (b :: rest) = b :: decodeBytes rest := by
  match rest with
  | [] => rfl
  | [_] => rfl
  | hi :: lo :: rest => simp [decodeBytes, triple?, hb]

theorem decodeBytes_encodeByte (b : UInt8) (rest : Bytes) :
    decodeBytes (Text.utf8 (encodeByte b) ++ rest) = b :: decodeBytes rest := by
  cases hb : isUnreserved b with
  | true =>
      obtain ⟨hbytes, hsign⟩ := utf8_encodeByte_of_isUnreserved b hb
      rw [hbytes]
      exact decodeBytes_cons hsign rest
  | false =>
      obtain ⟨hbytes, htriple⟩ := utf8_encodeByte_of_reserved b hb
      rw [hbytes]
      simp [decodeBytes, htriple]

/-! ### A path -/

/-- How a character of a path is written. -/
def encodeChar (c : Char) : Text :=
  if c = '/' then ['/'] else encode [c]

theorem encode_cons (c : Char) (text : Text) : encode (c :: text) = encode [c] ++ encode text := by
  simp [encode, Text.utf8]

theorem encodePath_nil : encodePath [] = [] := rfl

theorem encodePath_cons (c : Char) (path : Text) :
    encodePath (c :: path) = encodeChar c ++ encodePath path := by
  have hne := Text.splitAt_ne_nil '/' path
  simp only [encodePath, Text.joinWith, encodeChar]
  rw [Text.splitAt]
  split
  · rw [List.map_cons, List.intercalate_cons_of_ne_nil (by simpa using hne)]
    rfl
  · cases hsplit : Text.splitAt '/' path with
    | nil => contradiction
    | cons piece pieces =>
        simp only [List.map_cons]
        rw [encode_cons]
        cases pieces <;> simp

theorem decodeBytes_encode (text : Text) (rest : Bytes) :
    decodeBytes (Text.utf8 (encode text) ++ rest) = Text.utf8 text ++ decodeBytes rest := by
  rw [encode]
  induction Text.utf8 text with
  | nil => rfl
  | cons b bytes ih =>
      rw [List.flatMap_cons, Text.utf8_append, List.append_assoc, decodeBytes_encodeByte, ih]
      rfl

theorem decodeBytes_encodeChar (c : Char) (rest : Bytes) :
    decodeBytes (Text.utf8 (encodeChar c) ++ rest) = Text.utf8 [c] ++ decodeBytes rest := by
  unfold encodeChar
  split
  · next hslash =>
      subst hslash
      exact decodeBytes_cons (by decide) rest
  · exact decodeBytes_encode [c] rest

theorem decodeBytes_encodePath (path : Text) :
    decodeBytes (Text.utf8 (encodePath path)) = Text.utf8 path := by
  induction path with
  | nil => rfl
  | cons c path ih =>
      rw [encodePath_cons, Text.utf8_append, decodeBytes_encodeChar, ih, ← Text.utf8_append]
      rfl

theorem decodeBytes_of_not_mem {bytes : Bytes} (h : sign ∉ bytes) : decodeBytes bytes = bytes := by
  induction bytes with
  | nil => rfl
  | cons b bytes ih =>
      simp only [List.mem_cons, not_or] at h
      rw [decodeBytes_cons (Ne.symm h.1), ih h.2]

theorem isPathChar_of_mem_encodePath {path : Text} :
    ∀ c ∈ encodePath path, Target.isPathChar c = true := by
  intro c hc
  induction path with
  | nil => simp [encodePath_nil] at hc
  | cons d path ih =>
      rw [encodePath_cons] at hc
      rcases List.mem_append.mp hc with hc | hc
      · unfold encodeChar at hc
        split at hc
        · rw [List.mem_singleton.mp hc]
          decide
        · rw [encode] at hc
          obtain ⟨b, -, hc⟩ := List.mem_flatMap.mp hc
          exact List.all_eq_true.mp (all_isPathChar_encodeByte b) c hc
      · exact ih hc

/-! ### The form of an encoded path -/

/-- The characters that stand for themselves: letters and digits of ASCII, and `-._~`. -/
def isUnreservedChar (c : Char) : Bool :=
  c.isAlphanum || c = '-' || c = '.' || c = '_' || c = '~'

/-- The digits of a written byte. -/
def isHexDigit (c : Char) : Bool :=
  ('0' ≤ c && c ≤ '9') || ('A' ≤ c && c ≤ 'F')

/-- Whether a text consists of slashes, unreserved characters, and percent signs with two
hexadecimal digits. -/
inductive Encoded : Text → Prop where
  | nil : Encoded []
  | slash {text : Text} (next : Encoded text) : Encoded ('/' :: text)
  | unreserved {c : Char} {text : Text} (self : isUnreservedChar c = true) (next : Encoded text) :
      Encoded (c :: text)
  | byte {hi lo : Char} {text : Text} (high : isHexDigit hi = true) (low : isHexDigit lo = true)
      (next : Encoded text) : Encoded ('%' :: hi :: lo :: text)

theorem isUnreservedChar_of_isUnreserved (b : UInt8) :
    isUnreserved b = true → isUnreservedChar (Char.ofNat b.toNat) = true := by
  revert b
  exact forall_byte (by decide +kernel)

theorem isHexDigit_halves (b : UInt8) :
    isHexDigit (hexDigit (b >>> 4)) = true ∧ isHexDigit (hexDigit (b &&& 15)) = true := by
  revert b
  exact forall_byte (by decide +kernel)

theorem slash_not_mem_encodeByte (b : UInt8) : '/' ∉ encodeByte b := by
  revert b
  exact forall_byte (by decide +kernel)

theorem encodeByte_ne_nil (b : UInt8) : encodeByte b ≠ [] := by
  unfold encodeByte
  split <;> simp

namespace Encoded

variable {a b : Text}

theorem append (ha : Encoded a) (hb : Encoded b) : Encoded (a ++ b) := by
  induction ha with
  | nil => exact hb
  | slash _ ih => exact slash ih
  | unreserved self _ ih => exact unreserved self ih
  | byte high low _ ih => exact byte high low ih

theorem encodeByte (b : UInt8) : Encoded (encodeByte b) := by
  unfold Percent.encodeByte
  split
  · next hself => exact unreserved (isUnreservedChar_of_isUnreserved b hself) nil
  · obtain ⟨high, low⟩ := isHexDigit_halves b
    exact byte high low nil

theorem encode (text : Text) : Encoded (encode text) := by
  unfold Percent.encode
  induction Text.utf8 text with
  | nil => exact nil
  | cons b bytes ih => exact (encodeByte b).append ih

theorem encodePath (path : Text) : Encoded (encodePath path) := by
  induction path with
  | nil => exact nil
  | cons c path ih =>
      rw [encodePath_cons]
      refine append ?_ ih
      unfold encodeChar
      split
      · exact slash nil
      · exact encode [c]

end Encoded

theorem slash_not_mem_encode (text : Text) : '/' ∉ encode text := by
  intro hmem
  obtain ⟨b, -, hb⟩ := List.mem_flatMap.mp hmem
  exact slash_not_mem_encodeByte b hb

/-- The elements of an encoded path are those of the path, each of them encoded. -/
theorem splitAt_encodePath (path : Text) :
    Text.splitAt '/' (encodePath path) = (Text.splitAt '/' path).map encode := by
  apply Text.splitAt_joinWith
  · simpa using Text.splitAt_ne_nil '/' path
  · intro piece hpiece
    obtain ⟨element, -, rfl⟩ := List.mem_map.mp hpiece
    exact slash_not_mem_encode element

theorem encode_ne_nil {text : Text} (hne : text ≠ []) : encode text ≠ [] := by
  obtain ⟨b, bytes, hbytes⟩ := List.exists_cons_of_ne_nil (Text.utf8_ne_nil hne)
  rw [encode, hbytes, List.flatMap_cons]
  exact List.append_ne_nil_of_left_ne_nil (encodeByte_ne_nil b) _

/-- An encoded path begins with a slash if and only if the path does. -/
theorem head?_encodePath_eq_slash_iff {path : Text} :
    (encodePath path).head? = some '/' ↔ path.head? = some '/' := by
  cases path with
  | nil => rw [encodePath_nil]
  | cons c path =>
      rw [encodePath_cons, List.head?_cons, Option.some_inj]
      by_cases hslash : c = '/'
      · simp [encodeChar, hslash]
      · obtain ⟨first, later, hencode⟩ :=
          List.exists_cons_of_ne_nil (encode_ne_nil (List.cons_ne_nil c []))
        have hfirst : first ≠ '/' := by
          rintro rfl
          apply slash_not_mem_encode [c]
          rw [hencode]
          exact List.mem_cons_self
        simp [encodeChar, hslash, hencode, hfirst]

/-! ### Reading a path -/

theorem sign_mem_utf8 {text : Text} (h : sign ∈ Text.utf8 text) : '%' ∈ text :=
  Text.mem_of_mem_utf8 (by decide) h

/-- An encoded path decodes to the path. -/
theorem decodePath_encodePath (path : Text) : decodePath (encodePath path) = path := by
  unfold decodePath
  split
  · rw [decodeBytes_encodePath, Text.ofUtf8?_utf8]
    rfl
  · next hsign =>
      apply Text.utf8_injective
      rw [← decodeBytes_encodePath path, decodeBytes_of_not_mem]
      intro hmem
      exact hsign (by simpa using sign_mem_utf8 hmem)

/-- A slash in front of a path stays there when the path is decoded. -/
theorem exists_decodePath_slash (raw : Text) :
    ∃ path, decodePath ('/' :: raw) = '/' :: path := by
  unfold decodePath
  split
  · cases hread : Text.ofUtf8? (decodeBytes (Text.utf8 ('/' :: raw))) with
    | none => exact ⟨raw, rfl⟩
    | some text =>
        have hbytes := Text.utf8_of_ofUtf8? hread
        rw [← List.singleton_append, Text.utf8_append] at hbytes
        exact Text.exists_eq_cons_of_utf8 (by decide) (hbytes.trans (decodeBytes_cons (by decide) _))
  · exact ⟨raw, rfl⟩

/-- No two paths are written alike. -/
theorem encodePath_injective : Function.Injective encodePath :=
  Function.LeftInverse.injective decodePath_encodePath

end RadixRouter.Percent
