import RadixRouter.Proofs.Path.Clean

/-!
Cleaning as a projection. The cleaned paths are those whose elements mean themselves; cleaning
leaves them as they are, and only the elements of a front matter for what is put behind it.
-/

namespace RadixRouter.Path

open Text

/-- The path of the given elements. -/
def rooted (kept : List Text) (directory : Bool) : Text :=
  '/' :: joinWith '/' kept ++ (if kept ≠ [] && directory then ['/'] else [])

/-- Whether a path begins with a slash and all its elements behind it mean themselves, but for one
empty element at the end. -/
def IsCanonical (path : Text) : Prop :=
  ∃ rest, path = '/' :: rest
    ∧ (∀ element ∈ (splitAt '/' rest).dropLast, Proper element)
    ∧ ∀ element ∈ (splitAt '/' rest).getLast?, element = [] ∨ Proper element

/-- Whether a path begins with one slash and no more. With two of them a host would follow. -/
def IsLocal (path : Text) : Prop :=
  ∃ rest, path = '/' :: rest ∧ rest.head? ≠ some '/'

theorem clean_eq_rooted (path : Text) :
    clean path = rooted (elements path) (endsLikeDirectory path) :=
  clean_eq_canonical path

theorem clean_eq_of_elements {path other : Text} (helements : elements path = elements other)
    (hdirectory : elements other ≠ [] → endsLikeDirectory path = endsLikeDirectory other) :
    clean path = clean other := by
  rw [clean_eq_rooted, clean_eq_rooted, helements]
  by_cases hnone : elements other = []
  · simp [rooted, hnone]
  · rw [hdirectory hnone]

/-! ### The path of elements -/

section Rooted

variable {kept : List Text}

theorem rooted_nil (directory : Bool) : rooted [] directory = ['/'] := rfl

theorem rooted_false (kept : List Text) : rooted kept false = '/' :: joinWith '/' kept := by
  simp [rooted]

theorem rooted_true (hne : kept ≠ []) : rooted kept true = '/' :: (joinWith '/' kept ++ ['/']) := by
  simp [rooted, hne]

variable (hkept : ∀ element ∈ kept, Element element)
include hkept

theorem splitAt_join (hne : kept ≠ []) : splitAt '/' (joinWith '/' kept) = kept :=
  splitAt_joinWith hne fun element helement => (hkept element helement).no_slash

theorem splitAt_join_slash (hne : kept ≠ []) :
    splitAt '/' (joinWith '/' kept ++ ['/']) = kept ++ [[]] := by
  rw [splitAt_append_cons, splitAt_join hkept hne]
  rfl

omit hkept in
theorem foldl_keep_of_proper {pieces : List Text} (hpieces : ∀ piece ∈ pieces, Proper piece) :
    pieces.foldl keep kept = kept ++ pieces := by
  induction pieces generalizing kept with
  | nil => simp
  | cons piece pieces ih =>
      have hrest := fun other hother => hpieces other (List.mem_cons_of_mem piece hother)
      rw [List.foldl_cons, keep_of_proper (hpieces piece List.mem_cons_self), ih hrest,
        ← List.append_cons]

/-- The elements are read back. -/
theorem elements_rooted (directory : Bool) : elements (rooted kept directory) = kept := by
  have hproper : kept.foldl keep [] = kept :=
    foldl_keep_of_proper fun element helement => (hkept element helement).toProper
  by_cases hne : kept = []
  · rw [hne, rooted_nil, elements_singleton_slash]
  · cases directory with
    | false =>
        rw [rooted_false, elements, splitAt_cons_sep, splitAt_join hkept hne, List.foldl_cons,
          keep_nil, hproper]
    | true =>
        rw [rooted_true hne, elements, splitAt_cons_sep, splitAt_join_slash hkept hne,
          List.foldl_cons, keep_nil, List.foldl_append, hproper]
        exact keep_nil kept

omit hkept in
/-- A path that ends like a directory has an empty last element or a dot there. -/
theorem last_of_endsLikeDirectory {path : Text} (h : endsLikeDirectory path = true) :
    (splitAt '/' path).getLast? = some [] ∨ (splitAt '/' path).getLast? = some ['.'] := by
  rw [endsLikeDirectory, Bool.or_eq_true, decide_eq_true_eq, decide_eq_true_eq] at h
  refine h.imp_left fun hslash => ?_
  obtain ⟨front, rfl⟩ := List.getLast?_eq_some_iff.mp hslash
  exact getLast?_splitAt_append_cons '/' front []

theorem endsLikeDirectory_rooted (hne : kept ≠ []) (directory : Bool) :
    endsLikeDirectory (rooted kept directory) = directory := by
  cases directory with
  | true =>
      have hlast : ('/' :: (joinWith '/' kept ++ ['/'])).getLast? = some '/' :=
        List.getLast?_concat (l := '/' :: joinWith '/' kept)
      rw [rooted_true hne, endsLikeDirectory, hlast]
      rfl
  | false =>
      rw [Bool.eq_false_iff, rooted_false]
      intro hends
      have hlast := last_of_endsLikeDirectory hends
      have hmem := List.getLast_mem hne
      have hsplit := getLast?_splitAt_append_cons '/' [] (joinWith '/' kept)
      rw [List.nil_append, splitAt_join hkept hne, List.getLast?_eq_some_getLast hne] at hsplit
      rw [hsplit, Option.some_inj, Option.some_inj] at hlast
      have helement := hkept _ hmem
      exact hlast.elim helement.ne_nil helement.ne_dot

theorem clean_rooted (directory : Bool) : clean (rooted kept directory) = rooted kept directory := by
  rw [clean_eq_rooted, elements_rooted hkept]
  by_cases hne : kept = []
  · rw [hne, rooted_nil, rooted_nil]
  · rw [endsLikeDirectory_rooted hkept hne]

theorem isCanonical_rooted (directory : Bool) : IsCanonical (rooted kept directory) := by
  have hproper : ∀ element ∈ kept, Proper element :=
    fun element helement => (hkept element helement).toProper
  by_cases hne : kept = []
  · rw [hne, rooted_nil]
    exact ⟨[], rfl, by simp [splitAt], by simp [splitAt]⟩
  · cases directory with
    | false =>
        refine ⟨joinWith '/' kept, rooted_false kept, ?_⟩
        rw [splitAt_join hkept hne]
        refine ⟨fun element helement => hproper element (List.dropLast_subset kept helement), ?_⟩
        intro element helement
        exact Or.inr (hproper element (List.mem_of_getLast? helement))
    | true =>
        refine ⟨joinWith '/' kept ++ ['/'], rooted_true hne, ?_⟩
        rw [splitAt_join_slash hkept hne, List.dropLast_concat, List.getLast?_concat]
        exact ⟨hproper, by simp⟩

end Rooted

/-- The paths in canonical form are the paths of elements. -/
theorem isCanonical_iff {path : Text} :
    IsCanonical path ↔ ∃ kept directory, (∀ element ∈ kept, Element element)
      ∧ path = rooted kept directory := by
  constructor
  · rintro ⟨rest, rfl, hfront, hlast⟩
    have hjoin := joinWith_splitAt '/' rest
    have hslash : ∀ piece ∈ splitAt '/' rest, '/' ∉ piece := fun _ => not_mem_of_mem_splitAt
    obtain ⟨front, last, hpieces⟩ :=
      (List.eq_nil_or_concat (splitAt '/' rest)).resolve_left (splitAt_ne_nil '/' rest)
    rw [List.concat_eq_append] at hpieces
    rw [hpieces] at hjoin hslash hfront hlast
    rw [List.dropLast_concat] at hfront
    rw [List.getLast?_concat] at hlast
    have helements : ∀ element ∈ front, Element element :=
      fun element helement => ⟨hfront element helement, hslash element (by simp [helement])⟩
    rcases hlast last rfl with rfl | hproper
    · refine ⟨front, true, helements, ?_⟩
      by_cases hne : front = []
      · rw [hne, rooted_nil, ← hjoin, hne]
        rfl
      · rw [rooted_true hne, ← hjoin, joinWith_concat hne]
    · refine ⟨front ++ [last], false, ?_, ?_⟩
      · intro element helement
        rcases List.mem_append.mp helement with helement | helement
        · exact helements element helement
        · rw [List.mem_singleton.mp helement]
          exact ⟨hproper, hslash last (by simp)⟩
      · rw [rooted_false, hjoin]
  · rintro ⟨kept, directory, hkept, rfl⟩
    exact isCanonical_rooted hkept directory

/-! ### Cleaning -/

theorem elements_clean (path : Text) : elements (clean path) = elements path := by
  rw [clean_eq_rooted, elements_rooted element_of_mem_elements]

theorem clean_eq_self_iff {path : Text} : clean path = path ↔ IsCanonical path := by
  rw [isCanonical_iff]
  constructor
  · intro hclean
    exact ⟨elements path, endsLikeDirectory path, element_of_mem_elements,
      hclean.symm.trans (clean_eq_rooted path)⟩
  · rintro ⟨kept, directory, hkept, rfl⟩
    exact clean_rooted hkept directory

theorem elements_append_cons (path more : Text) :
    elements (path ++ '/' :: more) = (splitAt '/' more).foldl keep (elements path) := by
  rw [elements, splitAt_append_cons, List.foldl_append, elements]

/-- How a path ends is decided behind its last slash. -/
theorem endsLikeDirectory_append_cons (path other more : Text) :
    endsLikeDirectory (path ++ '/' :: more) = endsLikeDirectory (other ++ '/' :: more) := by
  have hlast : ∀ front : Text, (front ++ '/' :: more).getLast? = ('/' :: more).getLast? := by
    intro front
    rw [List.getLast?_append, List.getLast?_eq_some_getLast (List.cons_ne_nil '/' more),
      Option.some_or]
  rw [endsLikeDirectory, endsLikeDirectory, hlast, hlast, getLast?_splitAt_append_cons,
    getLast?_splitAt_append_cons]

/-- A cleaned path begins with one slash. -/
theorem isLocal_clean (path : Text) : IsLocal (clean path) := by
  have helements := @element_of_mem_elements path
  rw [clean_eq_rooted]
  refine ⟨_, rfl, ?_⟩
  cases hkept : elements path with
  | nil => simp [joinWith]
  | cons element others =>
      rw [hkept] at helements
      have helement := helements element List.mem_cons_self
      obtain ⟨c, rest, rfl⟩ := List.exists_cons_of_ne_nil helement.ne_nil
      have hc : c ≠ '/' := by
        rintro rfl
        exact helement.no_slash List.mem_cons_self
      by_cases hnone : others = []
      · simpa [hnone, joinWith_singleton] using hc
      · simpa [joinWith_cons hnone] using hc

/-- Cleaning is a projection to the paths in canonical form, and it can be done to a front first. -/
theorem clean_projects (path more : Text) :
    clean (clean path) = clean path
      ∧ (clean path = path ↔ IsCanonical path)
      ∧ clean (path ++ '/' :: more) = clean (clean path ++ '/' :: more) := by
  refine ⟨?_, clean_eq_self_iff, ?_⟩
  · rw [clean_eq_self_iff, isCanonical_iff]
    exact ⟨elements path, endsLikeDirectory path, element_of_mem_elements, clean_eq_rooted path⟩
  · apply clean_eq_of_elements
    · rw [elements_append_cons, elements_append_cons, elements_clean]
    · intro _
      exact endsLikeDirectory_append_cons path (clean path) more

end RadixRouter.Path
