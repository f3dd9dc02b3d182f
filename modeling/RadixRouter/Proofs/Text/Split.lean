import RadixRouter.Text

/-!
Texts and separators: the front of a text up to the next one, and the pieces between them.
-/

namespace RadixRouter.Text

variable {sep : Char}

theorem upTo_append_cons {front : Text} (hfront : ∀ c ∈ front, c ≠ sep) (back : Text) :
    upTo sep (front ++ sep :: back) = front := by
  rw [upTo, List.takeWhile_append_of_pos (by simpa using hfront)]
  simp

theorem fromNext_append_cons {front : Text} (hfront : ∀ c ∈ front, c ≠ sep) (back : Text) :
    fromNext sep (front ++ sep :: back) = sep :: back := by
  rw [fromNext, List.dropWhile_append_of_pos (by simpa using hfront)]
  simp

theorem upTo_of_forall_ne {front : Text} (hfront : ∀ c ∈ front, c ≠ sep) :
    upTo sep front = front := by
  have whole : upTo sep (front ++ []) = front ++ upTo sep [] :=
    List.takeWhile_append_of_pos (by simpa using hfront)
  simpa [upTo] using whole

theorem fromNext_of_forall_ne {front : Text} (hfront : ∀ c ∈ front, c ≠ sep) :
    fromNext sep front = [] := by
  have whole := upTo_append_fromNext sep front
  rw [upTo_of_forall_ne hfront] at whole
  exact List.append_right_eq_self.mp whole

theorem splitAt_ne_nil (sep : Char) (text : Text) : splitAt sep text ≠ [] := by
  cases text with
  | nil => simp [splitAt]
  | cons c rest =>
      rw [splitAt]
      split
      · simp
      · split <;> simp

theorem splitAt_cons_sep (sep : Char) (text : Text) :
    splitAt sep (sep :: text) = [] :: splitAt sep text := by
  simp [splitAt]

/-- A separator stands between the pieces of what is before and after it. -/
theorem splitAt_append_cons (sep : Char) (front back : Text) :
    splitAt sep (front ++ sep :: back) = splitAt sep front ++ splitAt sep back := by
  induction front with
  | nil => simp [splitAt]
  | cons c front ih =>
      rw [List.cons_append, splitAt, splitAt, ih]
      split
      · rfl
      · cases hsplit : splitAt sep front with
        | nil => exact (splitAt_ne_nil sep front hsplit).elim
        | cons piece pieces => rfl

theorem splitAt_of_not_mem {text : Text} (h : sep ∉ text) : splitAt sep text = [text] := by
  induction text with
  | nil => rfl
  | cons c text ih =>
      simp only [List.mem_cons, not_or] at h
      rw [splitAt, if_neg (Ne.symm h.1), ih h.2]

/-- The last piece is that of what is behind a separator. -/
theorem getLast?_splitAt_append_cons (sep : Char) (front back : Text) :
    (splitAt sep (front ++ sep :: back)).getLast? = (splitAt sep back).getLast? := by
  rw [splitAt_append_cons, List.getLast?_append,
    List.getLast?_eq_some_getLast (splitAt_ne_nil sep back), Option.some_or]

/-- No separator stands in a piece. -/
theorem not_mem_of_mem_splitAt {text piece : Text} (h : piece ∈ splitAt sep text) :
    sep ∉ piece := by
  induction text generalizing piece with
  | nil =>
      rw [List.mem_singleton.mp h]
      exact List.not_mem_nil
  | cons c text ih =>
      rw [splitAt] at h
      split at h
      · rcases List.mem_cons.mp h with rfl | h
        · exact List.not_mem_nil
        · exact ih h
      · next hc =>
          split at h
          · next hsplit => exact (splitAt_ne_nil sep text hsplit).elim
          · next first pieces hsplit =>
              rw [hsplit] at ih
              rcases List.mem_cons.mp h with rfl | h
              · rw [List.mem_cons, not_or]
                exact ⟨Ne.symm hc, ih List.mem_cons_self⟩
              · exact ih (List.mem_cons_of_mem _ h)

/-- The characters of a piece stand in the text. -/
theorem mem_of_mem_splitAt {text piece : Text} (h : piece ∈ splitAt sep text) {c : Char}
    (hc : c ∈ piece) : c ∈ text := by
  induction text generalizing piece with
  | nil =>
      rw [List.mem_singleton.mp h] at hc
      contradiction
  | cons d text ih =>
      rw [splitAt] at h
      split at h
      · rcases List.mem_cons.mp h with rfl | h
        · contradiction
        · exact List.mem_cons_of_mem d (ih h hc)
      · split at h
        · next hsplit => exact (splitAt_ne_nil sep text hsplit).elim
        · next first pieces hsplit =>
            rw [hsplit] at ih
            rcases List.mem_cons.mp h with rfl | h
            · rcases List.mem_cons.mp hc with rfl | hc
              · exact List.mem_cons_self
              · exact List.mem_cons_of_mem d (ih List.mem_cons_self hc)
            · exact List.mem_cons_of_mem d (ih (List.mem_cons_of_mem first h) hc)

/-! ### Joining -/

theorem joinWith_cons {pieces : List Text} (hne : pieces ≠ []) (piece : Text) :
    joinWith sep (piece :: pieces) = piece ++ sep :: joinWith sep pieces := by
  simp [joinWith, List.intercalate_cons_of_ne_nil hne]

theorem joinWith_singleton (piece : Text) : joinWith sep [piece] = piece :=
  List.intercalate_singleton

theorem joinWith_concat {pieces : List Text} (hne : pieces ≠ []) (piece : Text) :
    joinWith sep (pieces ++ [piece]) = joinWith sep pieces ++ sep :: piece := by
  induction pieces with
  | nil => contradiction
  | cons first pieces ih =>
      by_cases hlast : pieces = []
      · rw [hlast, joinWith_singleton, List.singleton_append, joinWith_cons (by simp),
          joinWith_singleton]
      · rw [List.cons_append, joinWith_cons (by simp), ih hlast, joinWith_cons hlast]
        simp

/-- Pieces without separators are what their join is split into. -/
theorem splitAt_joinWith {pieces : List Text} (hne : pieces ≠ [])
    (hpieces : ∀ piece ∈ pieces, sep ∉ piece) : splitAt sep (joinWith sep pieces) = pieces := by
  induction pieces with
  | nil => contradiction
  | cons first pieces ih =>
      have hfirst := splitAt_of_not_mem (hpieces first List.mem_cons_self)
      by_cases hlast : pieces = []
      · rw [hlast, joinWith_singleton, hfirst]
      · have hrest := ih hlast fun piece hpiece => hpieces piece (List.mem_cons_of_mem _ hpiece)
        rw [joinWith_cons hlast, splitAt_append_cons, hfirst, hrest, List.singleton_append]

/-- The pieces of a text give the text back. -/
theorem joinWith_splitAt (sep : Char) (text : Text) : joinWith sep (splitAt sep text) = text := by
  induction text with
  | nil => rfl
  | cons c text ih =>
      have hne := splitAt_ne_nil sep text
      rw [splitAt]
      split
      · next hsep => rw [joinWith_cons hne, ih, hsep, List.nil_append]
      · cases hsplit : splitAt sep text with
        | nil => contradiction
        | cons piece pieces =>
            rw [hsplit] at ih
            by_cases hlast : pieces = []
            · subst hlast
              simpa [joinWith_singleton] using ih
            · rw [joinWith_cons hlast] at ih ⊢
              simp [← ih]

/-- A text with a separator in it has a last one. -/
theorem exists_last_sep {text : Text} (h : sep ∈ text) :
    ∃ front back, text = front ++ sep :: back ∧ sep ∉ back := by
  obtain ⟨back, front, hreverse, hback⟩ := List.eq_append_cons_of_mem (List.mem_reverse.mpr h)
  refine ⟨front.reverse, back.reverse, ?_, by simpa using hback⟩
  simpa using congrArg List.reverse hreverse

end RadixRouter.Text
