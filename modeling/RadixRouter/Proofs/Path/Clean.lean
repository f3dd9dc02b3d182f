import Mathlib.Data.List.TakeWhile
import RadixRouter.Path.Clean
import RadixRouter.Proofs.Text.Split
import RadixRouter.Proofs.Text.Utf8

/-!
Reading the bytes of a path gives its canonical form. Between two elements, what is kept of the
bytes is the text of the elements that remain so far, and one element is read as `keep` says.
-/

namespace RadixRouter.Path

open Text

/-! ### Elements -/

/-- Whether an element means itself. -/
structure Proper (element : Text) : Prop where
  ne_nil : element ≠ []
  ne_dot : element ≠ ['.']
  ne_dots : element ≠ ['.', '.']

/-- What each element of a cleaned path is like. -/
structure Element (element : Text) : Prop extends Proper element where
  no_slash : '/' ∉ element

theorem keep_of_proper {element : Text} (h : Proper element) (kept : List Text) :
    keep kept element = kept ++ [element] := by
  simp [keep, h.ne_nil, h.ne_dot, h.ne_dots]

theorem keep_nil (kept : List Text) : keep kept [] = kept := by
  simp [keep]

theorem keep_dot (kept : List Text) : keep kept ['.'] = kept := by
  simp [keep]

theorem keep_dots (kept : List Text) : keep kept ['.', '.'] = kept.dropLast := by
  simp [keep]

theorem element_of_mem_keep {kept : List Text} (hkept : ∀ element ∈ kept, Element element)
    {piece : Text} (hslash : '/' ∉ piece) : ∀ element ∈ keep kept piece, Element element := by
  intro element helement
  unfold keep at helement
  split at helement
  · exact hkept element helement
  · next hplain =>
      split at helement
      · exact hkept element (List.dropLast_subset kept helement)
      · next hdots =>
          rcases List.mem_append.mp helement with helement | helement
          · exact hkept element helement
          · rw [List.mem_singleton.mp helement]
            rw [not_or] at hplain
            exact ⟨⟨hplain.1, hplain.2, hdots⟩, hslash⟩

theorem element_of_mem_foldl {pieces : List Text} (hpieces : ∀ piece ∈ pieces, '/' ∉ piece)
    {kept : List Text} (hkept : ∀ element ∈ kept, Element element) :
    ∀ element ∈ pieces.foldl keep kept, Element element := by
  induction pieces generalizing kept with
  | nil => exact hkept
  | cons piece pieces ih =>
      have hpiece := hpieces piece List.mem_cons_self
      exact ih (fun other hother => hpieces other (List.mem_cons_of_mem _ hother))
        (element_of_mem_keep hkept hpiece)

theorem element_of_mem_elements {path : Text} :
    ∀ element ∈ elements path, Element element :=
  element_of_mem_foldl (fun _ => not_mem_of_mem_splitAt) (by simp)

/-! ### What is kept of the bytes -/

theorem slash_not_mem_utf8 {text : Text} (h : '/' ∉ text) : slash ∉ utf8 text :=
  fun hmem => h (mem_of_mem_utf8 (by decide) hmem)

theorem utf8_slash_cons (text : Text) : utf8 ('/' :: text) = slash :: utf8 text := rfl

/-- The bytes of the elements, from the end. -/
def keptBytes (kept : List Text) : Bytes :=
  (utf8 (joinWith '/' kept)).reverse

theorem keptBytes_nil : keptBytes [] = [] := rfl

theorem keptBytes_singleton (element : Text) : keptBytes [element] = (utf8 element).reverse := by
  rw [keptBytes, joinWith_singleton]

theorem keptBytes_concat {kept : List Text} (hne : kept ≠ []) (element : Text) :
    keptBytes (kept ++ [element]) = (utf8 element).reverse ++ slash :: keptBytes kept := by
  rw [keptBytes, joinWith_concat hne, utf8_append, utf8_slash_cons, keptBytes]
  simp

theorem keptBytes_ne_nil {kept : List Text} (hkept : ∀ element ∈ kept, Element element)
    (hne : kept ≠ []) : keptBytes kept ≠ [] := by
  obtain ⟨front, last, rfl⟩ := (List.eq_nil_or_concat kept).resolve_left hne
  rw [List.concat_eq_append] at hkept ⊢
  by_cases hfront : front = []
  · have hlast := hkept last (by simp)
    rw [hfront, List.nil_append, keptBytes_singleton, Ne, List.reverse_eq_nil_iff]
    exact utf8_ne_nil hlast.ne_nil
  · rw [keptBytes_concat hfront]
    simp

theorem push_keptBytes {kept : List Text} (hkept : ∀ element ∈ kept, Element element)
    (element : Text) : push (keptBytes kept) (utf8 element) = keptBytes (kept ++ [element]) := by
  unfold push
  by_cases hne : kept = []
  · rw [hne, if_pos keptBytes_nil, List.nil_append, keptBytes_singleton]
  · rw [if_neg (keptBytes_ne_nil hkept hne), keptBytes_concat hne]

theorem forall_ne_slash {bytes : Bytes} (h : slash ∉ bytes) :
    ∀ b ∈ bytes, decide (b ≠ slash) = true := by
  intro b hb
  rw [decide_eq_true_eq]
  rintro rfl
  exact h hb

theorem pop_of_not_mem {front : Bytes} (hfront : slash ∉ front) : pop front = [] := by
  rw [pop, List.dropWhile_eq_nil_iff.mpr (forall_ne_slash hfront), List.drop_nil]

theorem pop_append {front : Bytes} (hfront : slash ∉ front) (back : Bytes) :
    pop (front ++ slash :: back) = back := by
  rw [pop, List.dropWhile_append_of_pos (forall_ne_slash hfront)]
  simp

theorem pop_keptBytes {kept : List Text} (hkept : ∀ element ∈ kept, Element element) :
    pop (keptBytes kept) = keptBytes kept.dropLast := by
  rcases List.eq_nil_or_concat kept with rfl | ⟨front, last, rfl⟩
  · rfl
  · rw [List.concat_eq_append] at hkept ⊢
    have hlast : slash ∉ (utf8 last).reverse := by
      rw [List.mem_reverse]
      exact slash_not_mem_utf8 (hkept last (by simp)).no_slash
    rw [List.dropLast_concat]
    by_cases hfront : front = []
    · rw [hfront, List.nil_append, keptBytes_singleton, pop_of_not_mem hlast, keptBytes_nil]
    · rw [keptBytes_concat hfront, pop_append hlast]

/-! ### Reading -/

theorem readElements_nil (kept : Bytes) (directory : Bool) :
    readElements kept directory [] = (kept, directory) := by
  rw [readElements]

theorem readElements_slash (kept : Bytes) (directory : Bool) (rest : Bytes) :
    readElements kept directory (slash :: rest) = readElements kept directory rest := by
  rw [readElements, if_pos rfl]

theorem readElements_dot (kept : Bytes) (directory : Bool) {rest : Bytes}
    (hends : atEnd rest = true) :
    readElements kept directory (dot :: rest)
      = readElements kept (directory || rest = []) rest := by
  rw [readElements, if_neg (by decide)]
  cases rest with
  | nil => simp [readElements_nil]
  | cons b rest =>
      have hb : b = slash := by simpa [atEnd] using hends
      simp [hb, readElements_slash]

theorem readElements_dots (kept : Bytes) (directory : Bool) {rest : Bytes}
    (hends : atEnd rest = true) :
    readElements kept directory (dot :: dot :: rest)
      = readElements (pop kept) directory rest := by
  rw [readElements, if_neg (by decide), if_neg (by simp), if_neg (by simp [dot, slash]),
    if_pos (by simpa using hends)]
  rfl

theorem takeWhile_element {element rest : Bytes} (hslash : slash ∉ element)
    (hends : atEnd rest = true) : (element ++ rest).takeWhile (· ≠ slash) = element := by
  rw [List.takeWhile_append_of_pos (forall_ne_slash hslash)]
  cases rest with
  | nil => simp
  | cons b rest =>
      have hb : b = slash := by simpa [atEnd] using hends
      simp [hb]

theorem dropWhile_element {element rest : Bytes} (hslash : slash ∉ element)
    (hends : atEnd rest = true) : (element ++ rest).dropWhile (· ≠ slash) = rest := by
  have whole := List.takeWhile_append_dropWhile (p := (· ≠ slash)) (l := element ++ rest)
  rw [takeWhile_element hslash hends] at whole
  exact List.append_cancel_left whole

/-- An element without a meaning of its own is put behind what is kept. -/
theorem readElements_push (kept : Bytes) (directory : Bool) {element rest : Bytes}
    (hne : element ≠ []) (hslash : slash ∉ element) (hdot : element ≠ [dot])
    (hdots : element ≠ [dot, dot]) (hends : atEnd rest = true) :
    readElements kept directory (element ++ rest)
      = readElements (push kept element) directory rest := by
  cases element with
  | nil => contradiction
  | cons b element =>
      rw [List.mem_cons, not_or] at hslash
      obtain ⟨hb, helement⟩ := hslash
      have hlonger : b = dot → element ≠ [] := by
        rintro rfl rfl
        exact hdot rfl
      rw [List.cons_append, readElements, if_neg (Ne.symm hb), if_neg, if_neg, if_neg,
        takeWhile_element helement hends, dropWhile_element helement hends]
      · intro hspecial
        simp only [Bool.and_eq_true, decide_eq_true_eq] at hspecial
        obtain ⟨⟨rfl, hsecond⟩, hafter⟩ := hspecial
        obtain ⟨c, element, rfl⟩ := List.exists_cons_of_ne_nil (hlonger rfl)
        obtain rfl : c = dot := by simpa using hsecond
        cases element with
        | nil => exact hdots rfl
        | cons d element =>
            have hd : d = slash := by simpa [atEnd] using hafter
            exact helement (by simp [hd])
      · intro hspecial
        simp only [Bool.and_eq_true, decide_eq_true_eq] at hspecial
        obtain ⟨c, element, rfl⟩ := List.exists_cons_of_ne_nil (hlonger hspecial.1)
        have hc : c = slash := by simpa using hspecial.2
        exact helement (by simp [hc])
      · intro hspecial
        simp only [Bool.and_eq_true, decide_eq_true_eq] at hspecial
        exact hlonger hspecial.1 (List.append_eq_nil_iff.mp hspecial.2).1

/-- An element of the path is read as a whole. -/
theorem readElements_element {kept : List Text} (hkept : ∀ element ∈ kept, Element element)
    (directory : Bool) {piece : Text} (hslash : '/' ∉ piece) (rest : Bytes)
    (hends : atEnd rest = true) :
    readElements (keptBytes kept) directory (utf8 piece ++ rest)
      = readElements (keptBytes (keep kept piece))
          (directory || (decide (rest = []) && decide (piece = ['.']))) rest := by
  by_cases hnil : piece = []
  · subst hnil
    simp [keep_nil, utf8]
  by_cases hdot : piece = ['.']
  · subst hdot
    have hbytes : utf8 ['.'] ++ rest = dot :: rest := rfl
    rw [hbytes, readElements_dot (keptBytes kept) directory hends, keep_dot]
    simp
  by_cases hdots : piece = ['.', '.']
  · subst hdots
    have hbytes : utf8 ['.', '.'] ++ rest = dot :: dot :: rest := rfl
    rw [hbytes, readElements_dots (keptBytes kept) directory hends, keep_dots,
      pop_keptBytes hkept]
    simp
  have hne : ∀ other, piece ≠ other → utf8 piece ≠ utf8 other :=
    fun other hother heq => hother (utf8_injective heq)
  rw [readElements_push (keptBytes kept) directory (utf8_ne_nil hnil) (slash_not_mem_utf8 hslash)
    (hne ['.'] hdot) (hne ['.', '.'] hdots) hends, push_keptBytes hkept,
    keep_of_proper ⟨hnil, hdot, hdots⟩]
  simp [hdot]

/-- The path is read as its elements say. -/
theorem readElements_utf8 {kept : List Text} (hkept : ∀ element ∈ kept, Element element)
    (directory : Bool) (path : Text) :
    readElements (keptBytes kept) directory (utf8 path)
      = (keptBytes ((splitAt '/' path).foldl keep kept),
          directory || (splitAt '/' path).getLast? = some ['.']) := by
  induction hlength : path.length using Nat.strong_induction_on generalizing path kept directory with
  | h n ih =>
      by_cases hsep : '/' ∈ path
      · obtain ⟨front, back, rfl, hfront⟩ := List.eq_append_cons_of_mem hsep
        have hback : back.length < n := by
          simp only [List.length_append, List.length_cons] at hlength
          omega
        have hread := readElements_element hkept directory hfront (utf8 ('/' :: back))
          (by simp [utf8_slash_cons, atEnd])
        rw [utf8_append, hread, utf8_slash_cons, readElements_slash,
          ih _ hback (element_of_mem_keep hkept hfront) _ back rfl,
          getLast?_splitAt_append_cons, splitAt_append_cons, splitAt_of_not_mem hfront,
          List.singleton_append, List.foldl_cons]
        simp
      · have hread := readElements_element hkept directory hsep [] rfl
        rw [List.append_nil, readElements_nil] at hread
        rw [hread, splitAt_of_not_mem hsep]
        simp

/-! ### The whole path -/

theorem getLast?_utf8_eq_slash_iff {path : Text} :
    (utf8 path).getLast? = some slash ↔ path.getLast? = some '/' := by
  constructor
  · intro hlast
    rcases List.eq_nil_or_concat path with rfl | ⟨front, c, rfl⟩
    · simp [utf8] at hlast
    · rw [List.concat_eq_append] at hlast ⊢
      have hbytes : utf8 [c] ≠ [] := utf8_ne_nil (by simp)
      rw [utf8_append, List.getLast?_append, List.getLast?_eq_some_getLast hbytes,
        Option.some_or] at hlast
      have hmem : slash ∈ utf8 [c] := Option.some.inj hlast ▸ List.getLast_mem hbytes
      have hc : '/' ∈ [c] := mem_of_mem_utf8 (by decide) hmem
      rw [List.getLast?_concat, List.mem_singleton.mp hc]
  · intro hlast
    obtain ⟨front, rfl⟩ := List.getLast?_eq_some_iff.mp hlast
    rw [utf8_append]
    exact List.getLast?_concat

theorem elements_singleton_slash : elements ['/'] = [] := by
  simp [elements, splitAt, keep_nil]

/-- A path of which something remains is more than a slash. -/
theorem one_lt_length_utf8 {path : Text} (hne : elements path ≠ [])
    (hlast : path.getLast? = some '/') : 1 < (utf8 path).length := by
  obtain ⟨front, rfl⟩ := List.getLast?_eq_some_iff.mp hlast
  have hfront : front ≠ [] := by
    rintro rfl
    exact hne elements_singleton_slash
  have hpos := List.length_pos_iff.mpr (utf8_ne_nil hfront)
  rw [utf8_append, List.length_append]
  exact Nat.lt_add_of_pos_left hpos

theorem directory_utf8 {path : Text} (hne : elements path ≠ []) :
    (decide (1 < (utf8 path).length) && (utf8 path).getLast? = some slash
      || (splitAt '/' path).getLast? = some ['.']) = endsLikeDirectory path := by
  rw [Bool.eq_iff_iff, endsLikeDirectory]
  simp only [Bool.or_eq_true, Bool.and_eq_true, decide_eq_true_eq, getLast?_utf8_eq_slash_iff]
  rw [and_iff_right_of_imp (one_lt_length_utf8 hne)]

/-- The bytes that are read off a path are those of its canonical form. -/
theorem cleanBytes_utf8 (path : Text) : cleanBytes (utf8 path) = utf8 (canonical path) := by
  have hread := @readElements_utf8 [] (by simp)
    (decide (1 < (utf8 path).length) && (utf8 path).getLast? = some slash) path
  have hkept : (splitAt '/' path).foldl keep [] = elements path := rfl
  rw [keptBytes_nil, hkept] at hread
  rw [cleanBytes, hread, canonical]
  by_cases hnone : elements path = []
  · have hroot : utf8 ['/'] = [slash] := rfl
    simp [hnone, keptBytes_nil, joinWith, hroot]
  · have hbytes := keptBytes_ne_nil element_of_mem_elements hnone
    have hjoined : slash :: (keptBytes (elements path)).reverse
        = utf8 ('/' :: joinWith '/' (elements path)) := by
      rw [keptBytes, List.reverse_reverse, utf8_slash_cons]
    simp only [directory_utf8 hnone, hbytes, hnone, ne_eq, not_false_eq_true, decide_true,
      Bool.and_true, hjoined]
    cases endsLikeDirectory path with
    | false => simp
    | true => exact (utf8_append _ ['/']).symm

theorem clean_eq_canonical (path : Text) : clean path = canonical path := by
  rw [clean, cleanBytes_utf8, ofUtf8?_utf8, Option.getD_some]

end RadixRouter.Path
