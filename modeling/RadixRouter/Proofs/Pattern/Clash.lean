import RadixRouter.Proofs.Pattern.Match

/-!
Where two lists of tokens part, and whether they may stand in one tree: they are not the same, and
where they first differ there are neither two wildcards nor a catch-all.
-/

namespace RadixRouter.Pattern

theorem Token.eq_of_write_eq {v w : Token} (hv : v.isWild = true) (hw : w.isWild = true)
    (h : v.write = w.write) : v = w := by
  cases v <;> cases w <;> simp_all [Token.isWild, Token.write]

theorem flatMap_write_char (text : Text) : (text.map Token.char).flatMap Token.write = text := by
  induction text with
  | nil => rfl
  | cons c text ih => simp [Token.write, ih]

/-- The tokens in front of the first place where two lists differ. -/
def shared : List Token → List Token → List Token
  | a :: p, b :: q => if a = b then a :: shared p q else []
  | _, _ => []

theorem shared_append_part (p q : List Token) :
    shared p q ++ (part p q).1 = p ∧ shared p q ++ (part p q).2 = q := by
  fun_induction part p q with
  | case1 a p q ih => simp [shared, ih]
  | case2 a p b q hne => simp [shared, hne]
  | case3 p q hnot =>
      cases p with
      | nil => simp [shared]
      | cons a p =>
          cases q with
          | nil => simp [shared]
          | cons b q => exact (hnot a p b q rfl rfl).elim

theorem shared_append (front p q : List Token) :
    shared (front ++ p) (front ++ q) = front ++ shared p q := by
  induction front with
  | nil => rfl
  | cons token front ih => simp [shared, ih]

/-- Whether two different wildcards stand where two lists of tokens first differ. -/
def WildcardsClashTokens (p q : List Token) : Prop :=
  ∃ v front w back, v.isWild = true ∧ w.isWild = true ∧ part p q = (v :: front, w :: back)

/-- Whether a catch-all stands on one side where two lists of tokens first differ. -/
def CatchAllClashTokens (p q : List Token) : Prop :=
  ∃ token ∈ (part p q).1.head?.toList ++ (part p q).2.head?.toList, token.isCatchAll = true

/-- Whether two lists of tokens may stand in one tree. -/
structure Compatible (p q : List Token) : Prop where
  ne : p ≠ q
  wildcards : ¬ WildcardsClashTokens p q
  catchAll : ¬ CatchAllClashTokens p q

theorem wildcardsClashTokens_append_iff (front : List Token) {p q : List Token} :
    WildcardsClashTokens (front ++ p) (front ++ q) ↔ WildcardsClashTokens p q := by
  simp only [WildcardsClashTokens, part_append]

theorem catchAllClashTokens_append_iff (front : List Token) {p q : List Token} :
    CatchAllClashTokens (front ++ p) (front ++ q) ↔ CatchAllClashTokens p q := by
  simp only [CatchAllClashTokens, part_append]

theorem Compatible.append (front : List Token) {p q : List Token} (h : Compatible p q) :
    Compatible (front ++ p) (front ++ q) :=
  ⟨fun heq => h.ne (List.append_cancel_left heq),
    fun hclash => h.wildcards ((wildcardsClashTokens_append_iff front).mp hclash),
    fun hclash => h.catchAll ((catchAllClashTokens_append_iff front).mp hclash)⟩

/-! ### Lists that part at once -/

/-- Whether two lists of tokens differ from the first token on. -/
def PartAtOnce (p q : List Token) : Prop :=
  part p q = (p, q)

theorem partAtOnce_nil_left (q : List Token) : PartAtOnce [] q := by
  cases q <;> rfl

theorem partAtOnce_nil_right (p : List Token) : PartAtOnce p [] := by
  cases p <;> rfl

theorem partAtOnce_of_ne {a b : Token} (hne : a ≠ b) (p q : List Token) :
    PartAtOnce (a :: p) (b :: q) :=
  part_of_ne hne p q

namespace PartAtOnce

variable {p q : List Token}

theorem shared_eq (h : PartAtOnce p q) : shared p q = [] := by
  have hwhole := (shared_append_part p q).1
  rw [h] at hwhole
  simpa using hwhole

theorem ne (h : PartAtOnce p q) (hsome : p ≠ [] ∨ q ≠ []) : p ≠ q := by
  rintro rfl
  have hpart := part_append p [] []
  rw [List.append_nil, h] at hpart
  have hnil : p = [] := congrArg Prod.fst hpart
  exact hsome.elim (· hnil) (· hnil)

theorem wildcardsClashTokens_iff (h : PartAtOnce p q) :
    WildcardsClashTokens p q
      ↔ ∃ v ∈ p.head?, ∃ w ∈ q.head?, v.isWild = true ∧ w.isWild = true := by
  rw [WildcardsClashTokens, h]
  constructor
  · rintro ⟨v, front, w, back, hv, hw, heq⟩
    cases heq
    exact ⟨v, rfl, w, rfl, hv, hw⟩
  · rintro ⟨v, hp, w, hq, hv, hw⟩
    obtain ⟨front, rfl⟩ := List.head?_eq_some_iff.mp hp
    obtain ⟨back, rfl⟩ := List.head?_eq_some_iff.mp hq
    exact ⟨v, front, w, back, hv, hw, rfl⟩

theorem catchAllClashTokens_iff (h : PartAtOnce p q) :
    CatchAllClashTokens p q
      ↔ (∃ v ∈ p.head?, v.isCatchAll = true) ∨ ∃ w ∈ q.head?, w.isCatchAll = true := by
  rw [CatchAllClashTokens, h]
  simp only [List.mem_append, Option.mem_toList, Option.mem_def, or_and_right, exists_or]

/-- Lists that part at once are compatible if they begin with one wildcard at most, and with no
catch-all. -/
theorem compatible (h : PartAtOnce p q) (hsome : p ≠ [] ∨ q ≠ [])
    (hone : ∀ v ∈ p.head?, ∀ w ∈ q.head?, v.isWild = true → w.isWild = false)
    (hleft : ∀ v ∈ p.head?, v.isCatchAll = false)
    (hright : ∀ w ∈ q.head?, w.isCatchAll = false) : Compatible p q := by
  refine ⟨h.ne hsome, ?_, ?_⟩
  · rw [h.wildcardsClashTokens_iff]
    rintro ⟨v, hv, w, hw, hvWild, hwWild⟩
    simp [hone v hv w hw hvWild] at hwWild
  · rw [h.catchAllClashTokens_iff]
    rintro (⟨v, hv, hcatch⟩ | ⟨w, hw, hcatch⟩)
    · simp [hleft v hv] at hcatch
    · simp [hright w hw] at hcatch

end PartAtOnce

theorem compatible_nil_left {w : Token} {q : List Token} (hw : w.isCatchAll = false) :
    Compatible [] (w :: q) :=
  (partAtOnce_nil_left _).compatible (by simp) (by simp) (by simp) (by simpa using hw)

/-- One wildcard, if it is no catch-all, is compatible with every other token. -/
theorem compatible_of_ne {a b : Token} (p q : List Token) (hne : a ≠ b)
    (hone : a.isWild = true → b.isWild = false) (ha : a.isCatchAll = false)
    (hb : b.isCatchAll = false) : Compatible (a :: p) (b :: q) :=
  (partAtOnce_of_ne hne p q).compatible (by simp) (by simpa using hone) (by simpa using ha)
    (by simpa using hb)

end RadixRouter.Pattern
