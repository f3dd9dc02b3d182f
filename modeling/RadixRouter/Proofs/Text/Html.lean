import RadixRouter.Text.Html

/-!
Text with entities in it. It can neither end the attribute that it stands in nor begin a tag, and
reading its entities from left to right gives the text back that was escaped, also where that looked
like an entity itself.
-/

namespace RadixRouter.Html

/-- The entities that stand for a special character. -/
def entities : List Text :=
  ["&amp;".toList, "&lt;".toList, "&gt;".toList, "&#34;".toList, "&#39;".toList]

/-- What text inside an attribute has to be like: no quote and no angle bracket in it, and no
ampersand but at the beginning of an entity. -/
structure Inert (text : Text) : Prop where
  plain : ∀ c ∈ text, c ≠ '<' ∧ c ≠ '>' ∧ c ≠ '"' ∧ c ≠ '\''
  ampersands : ∀ front back, text = front ++ '&' :: back →
    ∃ entity ∈ entities, entity <+: '&' :: back

namespace Inert

theorem nil : Inert [] := by
  constructor <;> simp

/-- An ampersand in the first part begins an entity that ends in the first part. -/
theorem append {a b : Text} (ha : Inert a) (hb : Inert b) : Inert (a ++ b) := by
  constructor
  · intro c hc
    exact (List.mem_append.mp hc).elim (ha.plain c) (hb.plain c)
  · intro front back hwhole
    rcases List.append_eq_append_iff.mp hwhole with ⟨more, hfront, hb'⟩ | ⟨more, ha', hback⟩
    · exact hb.ampersands more back hb'
    · cases more with
      | nil => exact hb.ampersands [] back hback.symm
      | cons c more =>
          obtain ⟨rfl, rfl⟩ := List.cons.inj hback
          obtain ⟨entity, hentity, hprefix⟩ := ha.ampersands front more ha'
          exact ⟨entity, hentity, hprefix.trans (List.prefix_append _ b)⟩

theorem entity : ∀ entity ∈ entities, Inert entity := by
  have hplain : ∀ entity ∈ entities, ∀ c ∈ entity, c ≠ '<' ∧ c ≠ '>' ∧ c ≠ '"' ∧ c ≠ '\'' := by
    simp [entities]
  have hone : ∀ entity ∈ entities, '&' ∉ entity.tail := by simp [entities]
  intro entity hentity
  refine ⟨hplain entity hentity, ?_⟩
  rintro front back rfl
  cases front with
  | nil => exact ⟨_, hentity, List.prefix_refl _⟩
  | cons c front => exact (hone _ hentity (by simp)).elim

theorem char {c : Char} (hc : c ∉ ['&', '<', '>', '"', '\'']) : Inert [c] := by
  simp only [List.mem_cons, List.not_mem_nil, or_false, not_or] at hc
  obtain ⟨hamp, hplain⟩ := hc
  constructor
  · simpa using hplain
  · intro front back hwhole
    have hmem : '&' ∈ [c] := by rw [hwhole]; simp
    exact (hamp (List.mem_singleton.mp hmem).symm).elim

end Inert

/-- A character is written as its entity, if it has one. -/
theorem escapeChar_cases (c : Char) :
    escapeChar c ∈ entities ∧ (∀ rest, unescape (escapeChar c ++ rest) = c :: unescape rest)
      ∨ c ∉ ['&', '<', '>', '"', '\''] ∧ escapeChar c = [c] := by
  by_cases hc : c ∈ ['&', '<', '>', '"', '\'']
  · left
    simp only [List.mem_cons, List.not_mem_nil, or_false] at hc
    rcases hc with rfl | rfl | rfl | rfl | rfl
    all_goals exact ⟨by decide, fun rest => by simp [escapeChar, unescape]⟩
  · right
    refine ⟨hc, ?_⟩
    simp only [List.mem_cons, List.not_mem_nil, or_false, not_or] at hc
    simp [escapeChar, hc]

theorem unescape_cons {c : Char} (hc : c ≠ '&') (rest : Text) :
    unescape (c :: rest) = c :: unescape rest := by
  rw [unescape] <;> simp [hc]

theorem inert_escape (text : Text) : Inert (escape text) := by
  induction text with
  | nil => exact Inert.nil
  | cons c text ih =>
      apply Inert.append _ ih
      rcases escapeChar_cases c with ⟨hentity, -⟩ | ⟨hc, heq⟩
      · exact Inert.entity _ hentity
      · rw [heq]
        exact Inert.char hc

theorem unescape_escape (text : Text) : unescape (escape text) = text := by
  induction text with
  | nil => rfl
  | cons c text ih =>
      rw [escape, List.flatMap_cons, ← escape]
      rcases escapeChar_cases c with ⟨-, hread⟩ | ⟨hc, heq⟩
      · rw [hread, ih]
      · have hamp : c ≠ '&' := by
          rintro rfl
          simp at hc
        rw [heq, List.singleton_append, unescape_cons hamp, ih]

end RadixRouter.Html
