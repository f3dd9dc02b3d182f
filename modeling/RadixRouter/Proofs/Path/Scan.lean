import RadixRouter.Path.Scan
import RadixRouter.Proofs.Path.Clean

/-!
Cleaning with positions never reads where no byte stands. A scan that stands behind a front of the
path, with something kept, does what reading the rest of the path does.
-/

namespace RadixRouter.Path

open Text

namespace Scan

/-- The scan that has read `front` and has `kept`, which is read from its end. -/
def behind (front kept : Bytes) (directory : Bool) : Scan :=
  ⟨front.length, slash :: kept.reverse, directory⟩

theorem skip_behind (front more kept : Bytes) (directory : Bool) :
    (behind front kept directory).skip more.length = behind (front ++ more) kept directory := by
  simp [skip, behind]

/-! ### Cutting back -/

theorem pop_cons_slash (kept : Bytes) : pop (slash :: kept) = kept := by
  simp [pop]

theorem pop_cons_of_ne {b : UInt8} (hb : b ≠ slash) (kept : Bytes) : pop (b :: kept) = pop kept := by
  simp [pop, hb]

/-- The buffer is cut back to where `pop` cuts, whatever was written behind what is kept. -/
theorem exists_cut? {kept : Bytes} (hne : kept ≠ []) (extra : Bytes) :
    ∃ position, cut? (slash :: (kept.reverse ++ extra)) kept.length = some position
      ∧ (slash :: (kept.reverse ++ extra)).take position = slash :: (pop kept).reverse := by
  induction kept generalizing extra with
  | nil => contradiction
  | cons b kept ih =>
      cases kept with
      | nil => exact ⟨1, rfl, by by_cases hb : b = slash <;> simp [pop, hb]⟩
      | cons c kept =>
          have hread : (slash :: ((b :: c :: kept).reverse ++ extra))[kept.length + 2]? = some b := by
            simp
          rw [List.length_cons, List.length_cons, cut?, hread]
          by_cases hb : b = slash
          · subst hb
            have htake : ((c :: kept).reverse ++ slash :: extra).take (kept.length + 1)
                = (c :: kept).reverse := List.take_left' (by simp)
            refine ⟨kept.length + 2, by simp, ?_⟩
            rw [pop_cons_slash, List.reverse_cons, ← List.append_cons, List.take_succ_cons, htake]
          · obtain ⟨position, hcut, htake⟩ := ih (by simp) (b :: extra)
            rw [List.append_cons, ← List.reverse_cons, List.length_cons] at hcut
            rw [List.append_cons, ← List.reverse_cons] at htake
            exact ⟨position, by simpa [hb] using hcut, by rw [htake, pop_cons_of_ne hb]⟩

theorem back?_behind (front kept : Bytes) (directory : Bool) :
    (behind front kept directory).back? = some (behind front (pop kept) directory) := by
  by_cases hne : kept = []
  · subst hne
    rfl
  · obtain ⟨position, hcut, htake⟩ := exists_cut? hne []
    rw [List.append_nil] at hcut htake
    have hpos := List.length_pos_iff.mpr hne
    rw [back?, if_pos (by simpa [behind] using hpos)]
    simp only [behind, List.length_cons, List.length_reverse, Nat.add_sub_cancel, hcut, htake,
      Option.bind_eq_bind, Option.bind_some]

/-! ### Writing an element -/

theorem copy?_eq (front : Bytes) {element rest : Bytes} (hslash : slash ∉ element)
    (hends : atEnd rest = true) (buffer : Bytes) (directory : Bool) :
    copy? (front ++ element ++ rest) ⟨front.length, buffer, directory⟩
      = some ⟨(front ++ element).length, buffer ++ element, directory⟩ := by
  induction element generalizing front buffer with
  | nil =>
      rw [copy?]
      cases rest with
      | nil => simp
      | cons b rest =>
          have hb : b = slash := by simpa [atEnd] using hends
          simp [hb]
  | cons b element ih =>
      rw [List.mem_cons, not_or] at hslash
      have hread : (front ++ b :: element ++ rest)[front.length]? = some b := by simp
      have hmore : front.length < (front ++ b :: element ++ rest).length := by simp
      have hnext := ih (front ++ [b]) hslash.2 (buffer ++ [b])
      rw [copy?, if_pos hmore, hread]
      simpa [Ne.symm hslash.1] using hnext

theorem element?_behind (front kept : Bytes) (directory : Bool) {element rest : Bytes}
    (hslash : slash ∉ element) (hends : atEnd rest = true) :
    (behind front kept directory).element? (front ++ element ++ rest)
      = some (behind (front ++ element) (push kept element) directory) := by
  refine (copy?_eq front hslash hends _ _).trans ?_
  by_cases hne : kept = []
  · simp [behind, push, hne]
  · have hpos := List.length_pos_iff.mpr hne
    simp [behind, push, hne, hpos]

/-! ### Reading on -/

section Steps

variable (front kept : Bytes) (directory : Bool)

theorem step?_slash (rest : Bytes) :
    (behind front kept directory).step? (front ++ slash :: rest)
      = some (behind (front ++ [slash]) kept directory) := by
  simp [step?, behind, skip]

theorem step?_last :
    (behind front kept directory).step? (front ++ [dot])
      = some (behind (front ++ [dot]) kept true) := by
  have hdot : dot ≠ slash := by decide
  simp [step?, behind, skip, hdot]

theorem step?_dot (rest : Bytes) :
    (behind front kept directory).step? (front ++ dot :: slash :: rest)
      = some (behind (front ++ [dot, slash]) kept directory) := by
  have hdot : dot ≠ slash := by decide
  simp [step?, behind, skip, hdot]

theorem step?_dots {rest : Bytes} (hends : atEnd rest = true) :
    (behind front kept directory).step? (front ++ dot :: dot :: rest)
      = some (behind (front ++ [dot, dot]) (pop kept) directory) := by
  have hdot : dot ≠ slash := by decide
  have hback : ((behind front kept directory).skip 2).back?
      = some (behind (front ++ [dot, dot]) (pop kept) directory) := by
    rw [← back?_behind, ← skip_behind]
    rfl
  rw [← hback]
  cases rest with
  | nil => simp [step?, behind, hdot]
  | cons b rest =>
      have hb : b = slash := by simpa [atEnd] using hends
      simp [step?, behind, hdot, hb]

/-- Any other element is written to the buffer; the bytes ahead are read where they stand. -/
theorem step?_element {element rest : Bytes} (hne : element ≠ []) (hslash : slash ∉ element)
    (hdot : element ≠ [dot]) (hdots : element ≠ [dot, dot]) (hends : atEnd rest = true) :
    (behind front kept directory).step? (front ++ element ++ rest)
      = some (behind (front ++ element) (push kept element) directory) := by
  rw [← element?_behind front kept directory hslash hends]
  cases element with
  | nil => contradiction
  | cons b element =>
      rw [List.mem_cons, not_or] at hslash
      obtain ⟨hb, helement⟩ := hslash
      by_cases hfirst : b = dot
      · subst hfirst
        cases element with
        | nil => contradiction
        | cons c element =>
            have hc : c ≠ slash := by
              rintro rfl
              exact helement List.mem_cons_self
            by_cases hsecond : c = dot
            · subst hsecond
              cases element with
              | nil => contradiction
              | cons d element =>
                  have hd : d ≠ slash := by
                    rintro rfl
                    exact helement (by simp)
                  simp [step?, behind, hc, hd]
            · simp [step?, behind, Ne.symm hb, hc, hsecond]
      · simp [step?, behind, Ne.symm hb, hfirst]

end Steps

theorem run?_of_step? {source : Bytes} {scan next : Scan}
    (h : scan.step? source = some next) : scan.run? source = next.run? source := by
  obtain ⟨first, hfirst, -⟩ := Option.bind_eq_some_iff.mp h
  have hmore : scan.position < source.length := (List.getElem?_eq_some_iff.mp hfirst).1
  rw [run?, if_pos hmore]
  split
  · next other hother =>
      rw [h] at hother
      cases hother
      rfl
  · next hnone =>
      rw [h] at hnone
      contradiction

theorem run?_end (source kept : Bytes) (directory : Bool) :
    (behind source kept directory).run? source = some (behind source kept directory) := by
  rw [run?, if_neg (by simp [behind])]

/-- The bytes behind the first one of an element: the others of the element, and what follows. -/
theorem exists_element (bytes : Bytes) :
    ∃ element rest, bytes = element ++ rest ∧ slash ∉ element ∧ atEnd rest = true := by
  refine ⟨bytes.takeWhile (· ≠ slash), bytes.dropWhile (· ≠ slash),
    List.takeWhile_append_dropWhile.symm, ?_, ?_⟩
  · intro hmem
    have hne := List.mem_takeWhile_imp hmem
    simp at hne
  · have hhead := List.head?_dropWhile_not (fun b => decide (b ≠ slash)) bytes
    cases hrest : bytes.dropWhile (· ≠ slash) with
    | nil => rfl
    | cons b rest =>
        rw [hrest] at hhead
        simpa [atEnd] using hhead

-- Induction on the reading of the elements: one step of the scan for each of its steps.
/-- Reading on from behind `front` ends at the end of the path, and with what reading the elements
of the rest ends with. -/
theorem run?_behind (front kept : Bytes) (directory : Bool) (rest : Bytes) :
    (behind front kept directory).run? (front ++ rest)
      = some (behind (front ++ rest) (readElements kept directory rest).1
          (readElements kept directory rest).2) := by
  fun_induction readElements kept directory rest generalizing front with
  | case1 kept => simpa using run?_end front kept directory
  | case2 kept rest ih =>
      have hrun := ih (front ++ [slash])
      rw [← List.append_cons] at hrun
      rw [run?_of_step? (step?_slash front kept directory rest), hrun]
  | case3 kept b rest hslash hlast =>
      simp only [Bool.and_eq_true, decide_eq_true_eq] at hlast
      obtain ⟨rfl, rfl⟩ := hlast
      rw [run?_of_step? (step?_last front kept directory), run?_end]
  | case4 kept b rest hslash hlast hdot ih =>
      simp only [Bool.and_eq_true, decide_eq_true_eq] at hdot
      obtain ⟨rfl, hhead⟩ := hdot
      obtain ⟨rest, rfl⟩ := List.head?_eq_some_iff.mp hhead
      have hrun := ih (front ++ [dot, slash])
      rw [run?_of_step? (step?_dot front kept directory rest)]
      simpa using hrun
  | case5 kept b rest hslash hlast hdot hdots ih =>
      simp only [Bool.and_eq_true, decide_eq_true_eq] at hdots
      obtain ⟨⟨rfl, hhead⟩, hends⟩ := hdots
      obtain ⟨rest, rfl⟩ := List.head?_eq_some_iff.mp hhead
      have hends : atEnd rest = true := hends
      have hrun := ih (front ++ [dot, dot])
      rw [run?_of_step? (step?_dots front kept directory hends)]
      simpa using hrun
  | case6 kept b rest hslash hlast hdot hdots ih =>
      obtain ⟨element, rest, rfl, helement, hends⟩ := exists_element rest
      rw [takeWhile_element helement hends, dropWhile_element helement hends] at ih ⊢
      have hfirst : slash ∉ b :: element := by
        rw [List.mem_cons, not_or]
        exact ⟨Ne.symm hslash, helement⟩
      have hnotDot : b :: element ≠ [dot] := by
        intro heq
        cases heq
        cases rest with
        | nil => exact hlast rfl
        | cons c rest => exact hdot (by simpa [atEnd] using hends)
      have hnotDots : b :: element ≠ [dot, dot] := by
        intro heq
        cases heq
        exact hdots (by simpa using hends)
      have hstep := step?_element front kept directory (List.cons_ne_nil b element) hfirst hnotDot
        hnotDots hends
      have hrun := ih (front ++ b :: element)
      rw [List.append_assoc, List.cons_append] at hstep hrun
      rw [run?_of_step? hstep, hrun]

end Scan

/-- A leading slash is left out, as it is when the elements are read. -/
theorem Scan.run?_start (b : UInt8) (rest : Bytes) (directory : Bool) :
    run? (b :: rest) ⟨if b = slash then 1 else 0, [slash], directory⟩
      = some (behind (b :: rest) (readElements [] directory (b :: rest)).1
          (readElements [] directory (b :: rest)).2) := by
  split
  · next hslash =>
      subst hslash
      rw [readElements_slash]
      exact run?_behind [slash] [] directory rest
  · exact run?_behind [] [] directory (b :: rest)

/-- A scan of any bytes ends, and with the bytes that reading their elements gives. -/
theorem scan?_eq (source : Bytes) : scan? source = some (cleanBytes source) := by
  cases source with
  | nil => simp [scan?, cleanBytes, readElements_nil]
  | cons b rest =>
      have hlast : (b :: rest)[(b :: rest).length - 1]? = some ((b :: rest).getLast (by simp)) := by
        rw [← List.getLast?_eq_getElem?, List.getLast?_eq_some_getLast]
      have hkept : ∀ kept : Bytes, 1 < (slash :: kept.reverse).length ↔ kept ≠ [] := by
        intro kept
        rw [List.length_cons, List.length_reverse, Nat.lt_add_left_iff_pos, List.length_pos_iff]
      rw [scan?, if_neg (List.cons_ne_nil b rest), hlast, List.getElem?_cons_zero]
      simp only [Option.bind_eq_bind, Option.bind_some, Scan.run?_start, Scan.behind, hkept,
        cleanBytes, List.getLast?_eq_some_getLast (List.cons_ne_nil b rest), Option.some.injEq]

/-- A path is cleaned as its elements say: a scan of its bytes comes to an end without reading where
no byte stands, what it gives are the bytes of a text, and that text is the canonical form. -/
theorem scan?_spells_canonical (path : Text) :
    scan? (utf8 path) = some (cleanBytes (utf8 path))
      ∧ ofUtf8? (cleanBytes (utf8 path)) = some (canonical path)
      ∧ clean path = canonical path := by
  refine ⟨scan?_eq _, ?_, clean_eq_canonical path⟩
  rw [cleanBytes_utf8, ofUtf8?_utf8]

end RadixRouter.Path
