import RadixRouter.Http.Target
import RadixRouter.Proofs.Text.Split

/-!
Request targets read and written: what their paths and queries can be, and that a target is read
back as it was written.
-/

namespace RadixRouter

namespace Target

/-- A path and a query as they stand in a target. -/
def write (target : Target) : Text :=
  match target.query with
  | some query => target.path ++ '?' :: query
  | none => target.path

variable {c : Char}

theorem isPathChar_bounds (h : isPathChar c = true) : 0x20 ≤ c.toNat ∧ c.toNat ≠ 0x7F := by
  simp only [isPathChar, Bool.or_eq_true, Bool.and_eq_true, decide_eq_true_eq] at h
  omega

theorem isQueryChar_bounds (h : isQueryChar c = true) : 0x20 ≤ c.toNat ∧ c.toNat ≠ 0x7F := by
  simp only [isQueryChar, Bool.or_eq_true, Bool.and_eq_true, decide_eq_true_eq] at h
  omega

theorem ne_of_isPathChar {d : Char} (h : isPathChar c = true) (hd : isPathChar d = false) :
    c ≠ d := by
  rintro rfl
  simp [h] at hd

theorem ne_hash_of_isQueryChar (h : isQueryChar c = true) : c ≠ '#' := by
  rintro rfl
  exact absurd h (by decide)

theorem query_of_ofPathAndQuery? {text : Text} {target : Target}
    (h : ofPathAndQuery? text = some target) :
    ∀ query ∈ target.query, query.all isQueryChar = true := by
  intro query hquery
  unfold ofPathAndQuery? at h
  simp only at h
  split at h
  · split at h
    · cases h
      contradiction
    · next rest hrest =>
        split at h
        · next hall =>
            cases h
            cases hquery
            exact hall
        · contradiction
  · contradiction

/-- The query of a request target has characters of a query only. -/
theorem query_of_ofText? {text : Text} {target : Target} (h : ofText? text = some target) :
    ∀ query ∈ target.query, query.all isQueryChar = true := by
  unfold ofText? at h
  split at h
  · contradiction
  · split at h
    · contradiction
    · cases h
      simp
    · exact query_of_ofPathAndQuery? h
    · split at h
      · next rest _ =>
          unfold ofHierarchy? at h
          simp only at h
          split at h
          · obtain ⟨target', hread, rfl⟩ := Option.map_eq_some_iff.mp h
            have hquery := query_of_ofPathAndQuery? hread
            split
            · exact hquery
            · exact hquery
          · contradiction
      · contradiction
      · split at h
        · cases h
          simp
        · contradiction

theorem path_of_ofPathAndQuery? {text : Text} {target : Target}
    (h : ofPathAndQuery? text = some target) :
    target.path = Text.upTo '?' (Text.upTo '#' text) := by
  unfold ofPathAndQuery? at h
  simp only at h
  split at h
  · split at h
    · cases h
      rfl
    · split at h
      · cases h
        rfl
      · contradiction
  · contradiction

/-- Behind an authority, a path is empty or begins with a slash. -/
theorem path_cases_of_ends {text : Text} {target : Target}
    (hends : ∀ c, text.head? = some c → endsAuthority c = true)
    (h : ofPathAndQuery? text = some target) :
    target.path = [] ∨ ∃ rest, target.path = '/' :: rest := by
  rw [path_of_ofPathAndQuery? h]
  cases text with
  | nil => exact Or.inl rfl
  | cons c text =>
      have hc := hends c rfl
      simp only [endsAuthority, Bool.or_eq_true, decide_eq_true_eq] at hc
      rcases hc with (rfl | rfl) | rfl
      · exact Or.inr ⟨Text.upTo '?' (Text.upTo '#' text), by simp [Text.upTo]⟩
      · exact Or.inl (by simp [Text.upTo])
      · exact Or.inl (by simp [Text.upTo])

theorem path_cases_of_ofHierarchy? {text : Text} {target : Target}
    (h : ofHierarchy? text = some target) :
    target.path = [] ∨ ∃ rest, target.path = '/' :: rest := by
  unfold ofHierarchy? at h
  simp only at h
  split at h
  · obtain ⟨target', hread, rfl⟩ := Option.map_eq_some_iff.mp h
    split
    · exact Or.inr ⟨[], rfl⟩
    · apply path_cases_of_ends _ hread
      intro c hc
      have hfirst := List.head?_dropWhile_not (!endsAuthority ·) text
      rw [hc] at hfirst
      simpa using hfirst
  · contradiction

/-- The path of a request target is the asterisk if the target is, and otherwise it is empty or
begins with a slash. -/
theorem path_cases_of_ofText? {text : Text} {target : Target} (h : ofText? text = some target) :
    text = ['*'] ∧ target.path = ['*']
      ∨ text ≠ ['*'] ∧ (target.path = [] ∨ ∃ rest, target.path = '/' :: rest) := by
  unfold ofText? at h
  split at h
  · contradiction
  · split at h
    · contradiction
    · cases h
      exact Or.inl ⟨rfl, rfl⟩
    · refine Or.inr ⟨by simp, path_cases_of_ends ?_ h⟩
      intro c hc
      cases hc
      rfl
    · next hstar _ =>
        refine Or.inr ⟨hstar, ?_⟩
        split at h
        · exact path_cases_of_ofHierarchy? h
        · contradiction
        · split at h
          · cases h
            exact Or.inl rfl
          · contradiction

/-- What the characters of a target have to be. -/
structure Readable (target : Target) : Prop where
  path : ∀ c ∈ target.path, isPathChar c = true
  query : ∀ query ∈ target.query, query.all isQueryChar = true

/-- A target is read back as it was written. -/
theorem ofPathAndQuery?_write {target : Target} (h : target.Readable) :
    ofPathAndQuery? target.write = some target := by
  obtain ⟨path, query⟩ := target
  have hpath : ∀ c ∈ path, isPathChar c = true := h.path
  have hmark : ∀ c ∈ path, c ≠ '?' := fun c hc => ne_of_isPathChar (hpath c hc) (by decide)
  have hhash : ∀ c ∈ path, c ≠ '#' := fun c hc => ne_of_isPathChar (hpath c hc) (by decide)
  have hall : path.all isPathChar = true := List.all_eq_true.mpr hpath
  unfold ofPathAndQuery? write
  cases query with
  | none =>
      simp only [Text.upTo_of_forall_ne hhash, Text.upTo_of_forall_ne hmark,
        Text.fromNext_of_forall_ne hmark, hall, if_true]
  | some query =>
      have hqueryAll := h.query query rfl
      have hwhole : ∀ c ∈ path ++ '?' :: query, c ≠ '#' := by
        intro c hc
        rcases List.mem_append.mp hc with hc | hc
        · exact hhash c hc
        · rcases List.mem_cons.mp hc with rfl | hc
          · decide
          · exact ne_hash_of_isQueryChar (List.all_eq_true.mp hqueryAll c hc)
      simp only [Text.upTo_of_forall_ne hwhole, Text.upTo_append_cons hmark,
        Text.fromNext_append_cons hmark, hall, hqueryAll, if_true]

/-- What is written of a target has no control characters. -/
theorem bounds_of_mem_write {target : Target} (h : target.Readable) :
    ∀ c ∈ target.write, 0x20 ≤ c.toNat ∧ c.toNat ≠ 0x7F := by
  intro c hc
  unfold write at hc
  split at hc
  · next query hsome =>
      rcases List.mem_append.mp hc with hc | hc
      · exact isPathChar_bounds (h.path c hc)
      · rcases List.mem_cons.mp hc with rfl | hc
        · decide
        · exact isQueryChar_bounds (List.all_eq_true.mp (h.query query hsome) c hc)
  · exact isPathChar_bounds (h.path c hc)

end Target

end RadixRouter
