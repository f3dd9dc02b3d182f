import RadixRouter.Path.Clean

/-!
Lexical cleaning of a path with positions. The path is read where the next byte stands, up to two
bytes ahead; what is kept stands in a buffer that is written at its end and cut back at a position.
Reading where no byte stands is a failure.
-/

namespace RadixRouter.Path

/-- How far a path is read, what is kept of it behind a leading slash, and whether the path is
known to end like a directory. -/
structure Scan where
  position : Nat
  buffer : Bytes
  directory : Bool
  deriving DecidableEq, Repr

namespace Scan

/-- Leaves the next `count` bytes out. -/
def skip (count : Nat) (scan : Scan) : Scan :=
  { scan with position := scan.position + count }

/-- The last position from `position` down that holds a slash; 1 if there is none above it. -/
def cut? (buffer : Bytes) : (position : Nat) → Option Nat
  | position + 2 => do
      let b ← buffer[position + 2]?
      if b = slash then some (position + 2) else cut? buffer (position + 1)
  | position => some position

/-- Cuts the last element off the buffer, if there is one. -/
def back? (scan : Scan) : Option Scan :=
  if 1 < scan.buffer.length then do
    let position ← cut? scan.buffer (scan.buffer.length - 1)
    some { scan with buffer := scan.buffer.take position }
  else some scan

/-- Writes the bytes up to the next slash to the buffer. -/
def copy? (source : Bytes) (scan : Scan) : Option Scan :=
  if scan.position < source.length then do
    let b ← source[scan.position]?
    if b = slash then some scan
    else copy? source ⟨scan.position + 1, scan.buffer ++ [b], scan.directory⟩
  else some scan
termination_by source.length - scan.position

/-- Writes an element to the buffer, with a slash before it if it is not the first one. -/
def element? (source : Bytes) (scan : Scan) : Option Scan :=
  copy? source
    { scan with buffer := if 1 < scan.buffer.length then scan.buffer ++ [slash] else scan.buffer }

/-- Reads on from a byte of the path: a slash, an element of special meaning, or any other
element. -/
def step? (source : Bytes) (scan : Scan) : Option Scan := do
  let first ← source[scan.position]?
  if first = slash then some (scan.skip 1)
  else if first ≠ dot then scan.element? source
  else if scan.position + 1 = source.length then some { scan.skip 1 with directory := true }
  else
    let second ← source[scan.position + 1]?
    if second = slash then some (scan.skip 2)
    else if second ≠ dot then scan.element? source
    else if scan.position + 2 = source.length then (scan.skip 2).back?
    else
      let third ← source[scan.position + 2]?
      if third = slash then (scan.skip 2).back? else scan.element? source

theorem position_le_of_copy? {source : Bytes} {scan last : Scan}
    (h : copy? source scan = some last) : scan.position ≤ last.position := by
  fun_induction copy? source scan generalizing last with
  | case1 scan hmore ih =>
      obtain ⟨b, -, hb⟩ := Option.bind_eq_some_iff.mp h
      split at hb
      · cases hb
        exact Nat.le_refl _
      · exact Nat.le_of_succ_le (ih b hb)
  | case2 scan hdone =>
      cases h
      exact Nat.le_refl _

theorem position_back? {scan last : Scan} (h : scan.back? = some last) :
    last.position = scan.position := by
  unfold back? at h
  split at h
  · obtain ⟨position, -, hlast⟩ := Option.bind_eq_some_iff.mp h
    cases hlast
    rfl
  · cases h
    rfl

theorem position_lt_of_element? {source : Bytes} {scan last : Scan} {b : UInt8}
    (hread : source[scan.position]? = some b) (hslash : b ≠ slash)
    (h : scan.element? source = some last) : scan.position < last.position := by
  have hmore : scan.position < source.length := (List.getElem?_eq_some_iff.mp hread).1
  unfold element? at h
  rw [copy?, if_pos hmore, hread] at h
  simp only [Option.bind_eq_bind, Option.bind_some, if_neg hslash] at h
  exact position_le_of_copy? h

/-- Every step leads further into the path. -/
theorem position_lt_of_step? {source : Bytes} {scan next : Scan}
    (h : scan.step? source = some next) : scan.position < next.position := by
  obtain ⟨first, hfirst, h⟩ := Option.bind_eq_some_iff.mp h
  split at h
  · cases h
    exact Nat.lt_succ_self _
  · next hslash =>
      split at h
      · exact position_lt_of_element? hfirst hslash h
      · split at h
        · cases h
          exact Nat.lt_succ_self _
        · obtain ⟨second, -, h⟩ := Option.bind_eq_some_iff.mp h
          split at h
          · cases h
            exact Nat.lt_add_of_pos_right Nat.two_pos
          · split at h
            · exact position_lt_of_element? hfirst hslash h
            · split at h
              · rw [position_back? h]
                exact Nat.lt_add_of_pos_right Nat.two_pos
              · obtain ⟨third, -, h⟩ := Option.bind_eq_some_iff.mp h
                split at h
                · rw [position_back? h]
                  exact Nat.lt_add_of_pos_right Nat.two_pos
                · exact position_lt_of_element? hfirst hslash h

def run? (source : Bytes) (scan : Scan) : Option Scan :=
  if scan.position < source.length then
    match _h : scan.step? source with
    | some next => next.run? source
    | none => none
  else some scan
termination_by source.length - scan.position
decreasing_by
  have := position_lt_of_step? _h
  omega

end Scan

/-- The bytes of the cleaned path, unless one is read where none stands. -/
def scan? (source : Bytes) : Option Bytes :=
  if source = [] then some [slash]
  else do
    let first ← source[0]?
    let last ← source[source.length - 1]?
    let start : Scan :=
      ⟨if first = slash then 1 else 0, [slash], 1 < source.length && last = slash⟩
    let final ← start.run? source
    some (if final.directory && 1 < final.buffer.length then final.buffer ++ [slash]
      else final.buffer)

end RadixRouter.Path
