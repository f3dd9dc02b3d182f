import RadixRouter.RouteError

/-!
Route patterns as text: `:name` stands for one path element, a final `*name` for the rest of the
path. `Cut` finds the next wildcard of a pattern, `check` tells whether a pattern may be
registered.
-/

namespace RadixRouter.Pattern

/-- The two characters that begin a wildcard. -/
def isMark (c : Char) : Bool :=
  c = ':' || c = '*'

/-- A pattern taken apart at its first wildcard. -/
structure Cut where
  /-- The text in front of the wildcard. -/
  literal : Text
  /-- The character that begins the wildcard. -/
  mark : Char
  /-- The text between the mark and the next slash. -/
  name : Text
  /-- What follows the wildcard: nothing, or text from a slash on. -/
  rest : Text

def Cut.wildcard (c : Cut) : Text :=
  c.mark :: c.name

/-- The first wildcard of `pattern`, or nothing when it has none. -/
def cut? (pattern : Text) : Option Cut :=
  match pattern.dropWhile (!isMark ·) with
  | [] => none
  | mark :: after =>
      some ⟨pattern.takeWhile (!isMark ·), mark, Text.upTo '/' after, Text.fromNext '/' after⟩

theorem append_of_cut? {pattern : Text} {c : Cut} (h : cut? pattern = some c) :
    pattern = c.literal ++ c.wildcard ++ c.rest := by
  unfold cut? at h
  split at h
  · contradiction
  · next mark after tail =>
      cases h
      have whole := List.takeWhile_append_dropWhile (p := (!isMark ·)) (l := pattern)
      rw [tail] at whole
      simp [Cut.wildcard, Text.upTo_append_fromNext, whole]

theorem length_rest_lt {pattern : Text} {c : Cut} (h : cut? pattern = some c) :
    c.rest.length < pattern.length := by
  rw [append_of_cut? h]
  simp [Cut.wildcard]
  omega

/-- The first fault among the wildcards of `rest`, the part of `whole` still to be read. A second
mark in the element counts before a missing name, and both before a misplaced catch-all. -/
def checkWildcards (whole rest : Text) : Except RouteError Unit :=
  match _h : cut? rest with
  | none => .ok ()
  | some c =>
      if c.name.any isMark then .error (.multipleWildcardsInSegment c.wildcard whole)
      else if c.name.isEmpty then .error (.unnamedWildcard whole)
      else if c.mark = '*' ∧ c.rest ≠ [] then .error (.catchAllNotAtEnd whole)
      else if c.mark = '*' ∧ c.literal.getLast? ≠ some '/' then
        .error (.catchAllWithoutSlash whole)
      else checkWildcards whole c.rest
termination_by rest.length
decreasing_by exact length_rest_lt _h

/-- Whether `pattern` may be registered at all, and if not, why. -/
def check (pattern : Text) : Except RouteError Unit :=
  match pattern with
  | [] => .error .empty
  | c :: _ =>
      if c = '/' then checkWildcards pattern pattern else .error (.missingLeadingSlash pattern)

end RadixRouter.Pattern
