import Mathlib.Data.List.TakeWhile
import RadixRouter.Pattern.Token

/-!
What may follow a front of a pattern. `Follows above rest` is the grammar of patterns read from
left to right, in the pieces in which a tree takes a pattern apart; `check` accepts nothing else.
-/

namespace RadixRouter.Pattern

/-- Text that consists of no wildcard. -/
def Plain (text : Text) : Prop :=
  ∀ c ∈ text, isMark c = false

/-- The name of a wildcard: not empty, and neither a slash nor a mark in it. -/
structure Name (name : Text) : Prop where
  ne_nil : name ≠ []
  no_slash : '/' ∉ name
  plain : Plain name

/-- What may stand behind an element: nothing, or text from a slash on. -/
def ElementEnds (rest : Text) : Prop :=
  ∀ c ∈ rest.head?, c = '/'

/-- Whether `rest` completes a pattern that begins with `above`. -/
inductive Follows : Text → Text → Prop where
  | nil {above : Text} : Follows above []
  | char {above rest : Text} {c : Char} (plain : isMark c = false)
      (next : Follows (above ++ [c]) rest) : Follows above (c :: rest)
  | param {above name rest text : Text} (named : Name name) (ends : ElementEnds rest)
      (next : Follows (above ++ ':' :: name) rest) (whole : text = name ++ rest) :
      Follows above (':' :: text)
  | catchAll {above name : Text} (named : Name name) (behind : above.getLast? = some '/') :
      Follows above ('*' :: name)

theorem upTo_append {name rest : Text} (hslash : '/' ∉ name) (hends : ElementEnds rest) :
    Text.upTo '/' (name ++ rest) = name := by
  have hname : ∀ c ∈ name, decide (c ≠ '/') = true := by
    intro c hc
    simp only [decide_eq_true_eq]
    exact fun heq => hslash (heq ▸ hc)
  rw [Text.upTo, List.takeWhile_append_of_pos hname]
  cases rest with
  | nil => simp
  | cons c rest => simp [hends c rfl]

theorem fromNext_append {name rest : Text} (hslash : '/' ∉ name) (hends : ElementEnds rest) :
    Text.fromNext '/' (name ++ rest) = rest := by
  have whole := Text.upTo_append_fromNext '/' (name ++ rest)
  rw [upTo_append hslash hends] at whole
  exact List.append_cancel_left whole

theorem not_mem_upTo (text : Text) : '/' ∉ Text.upTo '/' text := by
  intro hmem
  have := List.mem_takeWhile_imp hmem
  simp at this

theorem elementEnds_fromNext (text : Text) : ElementEnds (Text.fromNext '/' text) := by
  intro c hc
  have := List.head?_dropWhile_not (fun d => decide (d ≠ '/')) text
  rw [Text.fromNext] at hc
  rw [hc] at this
  simpa using this

theorem Plain.left {a b : Text} (h : Plain (a ++ b)) : Plain a :=
  fun c hc => h c (List.mem_append.mpr (Or.inl hc))

theorem Plain.right {a b : Text} (h : Plain (a ++ b)) : Plain b :=
  fun c hc => h c (List.mem_append.mpr (Or.inr hc))

/-- A front without wildcards can be moved from the one side to the other. -/
theorem follows_append_iff {above front rest : Text} (hplain : Plain front) :
    Follows above (front ++ rest) ↔ Follows (above ++ front) rest := by
  induction front generalizing above with
  | nil => simp
  | cons c front ih =>
      have hc : isMark c = false := hplain c List.mem_cons_self
      have hmove : Follows (above ++ [c]) (front ++ rest) ↔ Follows (above ++ [c] ++ front) rest :=
        ih fun d hd => hplain d (List.mem_cons_of_mem c hd)
      rw [List.append_assoc, List.singleton_append] at hmove
      rw [← hmove, List.cons_append]
      constructor
      · intro h
        cases h with
        | char _ next => exact next
        | param named ends next whole => simp [isMark] at hc
        | catchAll named behind => simp [isMark] at hc
      · exact Follows.char hc

theorem Follows.tail_of_param {above name rest : Text} (hslash : '/' ∉ name)
    (hends : ElementEnds rest) (h : Follows above (':' :: (name ++ rest))) :
    Name name ∧ Follows (above ++ ':' :: name) rest := by
  cases h with
  | char plain next => simp [isMark] at plain
  | @param _ name' rest' _ named ends next whole =>
      have hname : name = name' := by
        rw [← upTo_append hslash hends, whole, upTo_append named.no_slash ends]
      subst hname
      have hrest : rest = rest' := List.append_cancel_left whole
      subst hrest
      exact ⟨named, next⟩

/-- Text that begins with the element of a parameter. -/
theorem eq_param_of_upTo {name rest : Text} (h : Text.upTo '/' rest = ':' :: name) :
    rest = ':' :: (name ++ Text.fromNext '/' rest) := by
  rw [← List.cons_append, ← h, Text.upTo_append_fromNext]

/-! ### Tokens of what follows -/

@[simp] theorem tokens_nil : tokens [] = [] := by
  rw [tokens]

theorem tokens_cons {c : Char} (hc : isMark c = false) (rest : Text) :
    tokens (c :: rest) = .char c :: tokens rest := by
  rw [tokens]
  simp [hc]

theorem tokens_append {front : Text} (hplain : Plain front) (rest : Text) :
    tokens (front ++ rest) = front.map .char ++ tokens rest := by
  induction front with
  | nil => rfl
  | cons c front ih =>
      rw [List.cons_append, tokens_cons (hplain c List.mem_cons_self),
        ih (fun d hd => hplain d (List.mem_cons_of_mem c hd))]
      rfl

theorem tokens_param {name rest : Text} (hslash : '/' ∉ name) (hends : ElementEnds rest) :
    tokens (':' :: (name ++ rest)) = .param name :: tokens rest := by
  rw [tokens, if_pos (by rfl), upTo_append hslash hends, fromNext_append hslash hends]
  rfl

theorem tokens_catchAll {name : Text} (hslash : '/' ∉ name) :
    tokens ('*' :: name) = [.catchAll name] := by
  have hends : ElementEnds [] := by simp [ElementEnds]
  have hname := upTo_append hslash hends
  have hrest := fromNext_append hslash hends
  rw [List.append_nil] at hname hrest
  rw [tokens, if_pos (by rfl), hname, hrest, tokens_nil]
  rfl

/-- Text that goes on with the wildcard `w`, and with the tokens `back` behind it. -/
structure GoesOnWild (rest : Text) (w : Token) (back : List Token) : Prop where
  tokens_eq : tokens rest = w :: back
  isWild : w.isWild = true
  mark : rest.head?.any isMark = true
  written : w.write = Text.upTo '/' rest
  star : w.isCatchAll = true ↔ rest.head? = some '*'
  last : w.isCatchAll = true → back = []

/-- What is left of a pattern goes on with a character of its own or with a wildcard. -/
theorem Follows.first {above rest : Text} (h : Follows above rest) (hne : rest ≠ []) :
    (∃ c back, rest.head? = some c ∧ isMark c = false ∧ tokens rest = .char c :: back)
      ∨ ∃ w back, GoesOnWild rest w back := by
  cases h with
  | nil => contradiction
  | @char _ rest c plain next => exact Or.inl ⟨c, tokens rest, rfl, plain, tokens_cons plain rest⟩
  | @param _ name rest text named ends next whole =>
      subst whole
      have hslash : '/' ∉ ':' :: name := by simp [named.no_slash]
      exact Or.inr ⟨.param name, tokens rest, tokens_param named.no_slash ends, rfl, rfl,
        (upTo_append hslash ends).symm, by simp [Token.isCatchAll], by simp [Token.isCatchAll]⟩
  | @catchAll _ name named behind =>
      have hslash : '/' ∉ '*' :: name := by simp [named.no_slash]
      have hends : ElementEnds [] := by simp [ElementEnds]
      have hname := upTo_append hslash hends
      rw [List.append_nil] at hname
      exact Or.inr ⟨.catchAll name, [], tokens_catchAll named.no_slash, rfl, rfl, hname.symm,
        by simp [Token.isCatchAll], fun _ => rfl⟩

theorem tokens_injective {p q : Text} (h : tokens p = tokens q) : p = q := by
  rw [← flatMap_write_tokens p, ← flatMap_write_tokens q, h]

/-! ### Cuts -/

theorem plain_of_cut?_eq_none {pattern : Text} (h : cut? pattern = none) : Plain pattern := by
  unfold cut? at h
  split at h
  · next hnone =>
      intro c hc
      have := List.dropWhile_eq_nil_iff.mp hnone c hc
      simpa using this
  · contradiction

/-- What the pieces of a cut are like. -/
structure Cut.Sound (c : Cut) : Prop where
  literal : Plain c.literal
  mark : c.mark = ':' ∨ c.mark = '*'
  name : '/' ∉ c.name
  rest : ElementEnds c.rest

theorem Cut.Sound.isMark {c : Cut} (h : c.Sound) : Pattern.isMark c.mark = true := by
  rcases h.mark with hmark | hmark <;> simp [hmark, Pattern.isMark]

theorem sound_of_cut? {pattern : Text} {c : Cut} (h : cut? pattern = some c) : c.Sound := by
  unfold cut? at h
  split at h
  · contradiction
  · next mark after hback =>
      cases h
      have hmark : isMark mark = true := by
        have := List.head?_dropWhile_not (!isMark ·) pattern
        rw [hback] at this
        simpa using this
      constructor
      · intro c hc
        have := List.mem_takeWhile_imp hc
        simpa using this
      · simpa [isMark] using hmark
      · exact not_mem_upTo after
      · exact elementEnds_fromNext after

/-! ### Accepted patterns -/

/-- The conditions that `checkWildcards` puts on the first wildcard. -/
theorem checkWildcards_of_cut? {whole rest : Text} {c : Cut} (hcut : cut? rest = some c)
    (hok : checkWildcards whole rest = .ok ()) :
    Name c.name ∧ (c.mark = '*' → c.rest = [] ∧ c.literal.getLast? = some '/')
      ∧ checkWildcards whole c.rest = .ok () := by
  rw [checkWildcards] at hok
  split at hok
  · next hnone => simp [hnone] at hcut
  · next c' hcut' =>
      cases hcut.symm.trans hcut'
      split at hok
      · contradiction
      · next hmarks =>
          split at hok
          · contradiction
          · next hempty =>
              split at hok
              · contradiction
              · next hend =>
                  split at hok
                  · contradiction
                  · next hslash =>
                      refine ⟨⟨by simpa using hempty, (sound_of_cut? hcut).name, ?_⟩, ?_, hok⟩
                      · intro d hd
                        simpa using (List.any_eq_false.mp (by simpa using hmarks)) d hd
                      · intro hmark
                        simp only [hmark, true_and, Decidable.not_not] at hend hslash
                        exact ⟨hend, hslash⟩

theorem follows_of_checkWildcards {whole above rest : Text}
    (hok : checkWildcards whole rest = .ok ()) : Follows above rest := by
  induction hlength : rest.length using Nat.strong_induction_on generalizing above rest with
  | h n ih =>
      cases hcut : cut? rest with
      | none =>
          rw [← List.append_nil rest, follows_append_iff (plain_of_cut?_eq_none hcut)]
          exact Follows.nil
      | some c =>
          obtain ⟨hname, hcatch, htail⟩ := checkWildcards_of_cut? hcut hok
          have hsound := sound_of_cut? hcut
          rw [append_of_cut? hcut, List.append_assoc, follows_append_iff hsound.literal]
          rcases hsound.mark with hmark | hmark
          · rw [Cut.wildcard, hmark]
            refine Follows.param hname hsound.rest ?_ rfl
            exact ih c.rest.length (hlength ▸ length_rest_lt hcut) htail rfl
          · obtain ⟨hrest, hslash⟩ := hcatch hmark
            rw [Cut.wildcard, hmark, hrest, List.append_nil]
            apply Follows.catchAll hname
            rw [List.getLast?_append, hslash]
            rfl

/-- A pattern that is accepted begins with a slash and follows the grammar. -/
theorem follows_of_check {pattern : Text} (hok : check pattern = .ok ()) :
    pattern.head? = some '/' ∧ Follows [] pattern := by
  unfold check at hok
  split at hok
  · contradiction
  · next c rest =>
      split at hok
      · next hslash => exact ⟨by simp [hslash], follows_of_checkWildcards hok⟩
      · contradiction

end RadixRouter.Pattern
