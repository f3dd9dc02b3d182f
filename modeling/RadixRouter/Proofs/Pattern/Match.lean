import RadixRouter.Proofs.Pattern.Follows

/-!
Matching and specificity of lists of tokens, as they behave when a front is put before them.
-/

namespace RadixRouter

open Pattern

namespace Text

theorem upTo_append_slash (path rest : Text) : upTo '/' (path ++ '/' :: rest) = upTo '/' path := by
  induction path with
  | nil => rfl
  | cons c path ih =>
      by_cases hc : c = '/'
      · simp [upTo, hc]
      · simpa [upTo, List.takeWhile_cons, hc] using ih

theorem fromNext_append_slash (path rest : Text) :
    fromNext '/' (path ++ '/' :: rest) = fromNext '/' path ++ '/' :: rest := by
  have whole := upTo_append_fromNext '/' (path ++ '/' :: rest)
  rw [upTo_append_slash] at whole
  rw [← List.append_cancel_left_eq (upTo '/' path), whole, ← List.append_assoc,
    upTo_append_fromNext]

theorem upTo_concat (path : Text) : upTo '/' (path ++ ['/']) = upTo '/' path :=
  upTo_append_slash path []

theorem fromNext_concat (path : Text) :
    fromNext '/' (path ++ ['/']) = fromNext '/' path ++ ['/'] :=
  fromNext_append_slash path []

end Text

namespace Pattern

/-- Whether the first tokens have a character where they first differ from the second ones, and
the second ones a wildcard. -/
def MoreSpecificTokens (p q : List Token) : Prop :=
  ∃ c front wild back, wild.isWild = true ∧ part p q = (.char c :: front, wild :: back)

theorem part_append (front p q : List Token) : part (front ++ p) (front ++ q) = part p q := by
  induction front with
  | nil => rfl
  | cons token front ih => simp [part, ih]

theorem part_of_ne {a b : Token} (hne : a ≠ b) (p q : List Token) :
    part (a :: p) (b :: q) = (a :: p, b :: q) := by
  simp [part, hne]

theorem part_swap (p q : List Token) : part q p = (part p q).swap := by
  fun_induction part p q with
  | case1 a p q ih => simpa [part] using ih
  | case2 a p b q hne => simp [part, Ne.symm hne]
  | case3 p q hnot =>
      cases p with
      | nil => cases q <;> rfl
      | cons a p =>
          cases q with
          | nil => rfl
          | cons b q => exact (hnot a p b q rfl rfl).elim

theorem MoreSpecificTokens.append (front : List Token) {p q : List Token}
    (h : MoreSpecificTokens p q) : MoreSpecificTokens (front ++ p) (front ++ q) := by
  rw [MoreSpecificTokens, part_append]
  exact h

/-- A character is more specific than a wildcard. -/
theorem moreSpecificTokens_char {wild : Token} (c : Char) (hwild : wild.isWild = true)
    (p q : List Token) : MoreSpecificTokens (.char c :: p) (wild :: q) := by
  have hne : Token.char c ≠ wild := by
    rintro rfl
    simp [Token.isWild] at hwild
  exact ⟨c, p, wild, q, hwild, part_of_ne hne p q⟩

theorem MoreSpecificTokens.asymm {p q : List Token} (h : MoreSpecificTokens p q) :
    ¬ MoreSpecificTokens q p := by
  obtain ⟨c, front, wild, back, hwild, hpart⟩ := h
  rintro ⟨c', front', wild', back', -, hpart'⟩
  rw [part_swap, hpart] at hpart'
  cases hpart'
  simp [Token.isWild] at hwild

/-! ### Matching -/

def MatchesTokens (tokens : List Token) (path : Text) : Prop :=
  (bind? tokens path).isSome

instance (tokens : List Token) (path : Text) : Decidable (MatchesTokens tokens path) :=
  inferInstanceAs (Decidable ((bind? tokens path).isSome = true))

theorem bind?_nil (path : Text) : bind? [] path = if path = [] then some [] else none := by
  cases path <;> rfl

theorem bind?_param (name : Text) (tokens : List Token) (path : Text) :
    bind? (.param name :: tokens) path
      = if Text.upTo '/' path = [] then none
        else (bind? tokens (Text.fromNext '/' path)).map (⟨name, Text.upTo '/' path⟩ :: ·) := by
  cases path <;> rfl

theorem bind?_catchAll (name path : Text) : bind? [.catchAll name] path = some [⟨name, path⟩] := by
  cases path <;> rfl

theorem bind?_chars (label : Text) (tokens : List Token) (path : Text) :
    bind? (label.map .char ++ tokens) path = (Text.after? label path).bind (bind? tokens) := by
  induction label generalizing path with
  | nil => rfl
  | cons c label ih =>
      cases path with
      | nil => rfl
      | cons d path =>
          by_cases hsame : c = d
          · simp [bind?, Text.after?, hsame, ih]
          · simp [bind?, Text.after?, hsame]

@[simp] theorem matchesTokens_nil {path : Text} : MatchesTokens [] path ↔ path = [] := by
  simp [MatchesTokens, bind?_nil]

theorem matchesTokens_chars {label : Text} {tokens : List Token} {path : Text} :
    MatchesTokens (label.map .char ++ tokens) path
      ↔ ∃ rest, path = label ++ rest ∧ MatchesTokens tokens rest := by
  rw [MatchesTokens, bind?_chars]
  simp only [Option.isSome_bind, Option.any_eq_true, Text.after?_eq_some_iff, MatchesTokens]

theorem matchesTokens_char {c : Char} {tokens : List Token} {path : Text} :
    MatchesTokens (.char c :: tokens) path ↔ ∃ rest, path = c :: rest ∧ MatchesTokens tokens rest :=
  @matchesTokens_chars [c] tokens path

theorem matchesTokens_param {name : Text} {tokens : List Token} {path : Text} :
    MatchesTokens (.param name :: tokens) path
      ↔ Text.upTo '/' path ≠ [] ∧ MatchesTokens tokens (Text.fromNext '/' path) := by
  rw [MatchesTokens, bind?_param]
  by_cases hempty : Text.upTo '/' path = []
  · simp [hempty]
  · simp [hempty, MatchesTokens]

@[simp] theorem matchesTokens_catchAll {name path : Text} :
    MatchesTokens [.catchAll name] path := by
  simp [MatchesTokens, bind?_catchAll]

end Pattern

end RadixRouter
