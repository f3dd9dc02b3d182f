import RadixRouter.Pattern.Basic

/-!
The grammar of patterns, said for each of the elements between the slashes on its own, and what
is reported where a pattern departs from it.
-/

namespace RadixRouter.Pattern

/-- The form of an element: at most one mark in it, and a name behind the mark. -/
structure ElementForm (element : Text) : Prop where
  one_mark : (element.filter isMark).length ≤ 1
  named : ∀ c ∈ element.getLast?, isMark c = false

/-- The form of a pattern: a slash in front, elements of the right form, and a catch-all nowhere
but at the beginning of the last element. -/
structure WellFormed (pattern : Text) : Prop where
  rooted : pattern.head? = some '/'
  elements : ∀ element ∈ Text.splitAt '/' pattern, ElementForm element
  inner : ∀ element ∈ (Text.splitAt '/' pattern).dropLast, '*' ∉ element
  final : ∀ element ∈ (Text.splitAt '/' pattern).getLast?, '*' ∉ element.drop 1

/-- What is wrong with an element of `pattern`, if anything is. Its wildcard reaches from the first
mark to the end; a second mark in it counts before a missing name, and both before a catch-all
that does not end the pattern or does not fill the element. -/
def elementFault? (pattern element : Text) (last : Bool) : Option RouteError :=
  match element.dropWhile (!isMark ·) with
  | [] => none
  | mark :: name =>
      if name.any isMark then some (.multipleWildcardsInSegment (mark :: name) pattern)
      else if name = [] then some (.unnamedWildcard pattern)
      else if mark = '*' ∧ last = false then some (.catchAllNotAtEnd pattern)
      else if mark = '*' ∧ element.head? ≠ some '*' then some (.catchAllWithoutSlash pattern)
      else none

/-- Why `pattern` may not be registered: there is nothing of it, it does not begin with a slash,
or `fault` is what is wrong with the first of its elements that anything is wrong with. -/
inductive Malformed : (pattern : Text) → (fault : RouteError) → Prop where
  | empty : Malformed [] .empty
  | rootless {pattern : Text} (written : pattern ≠ []) (rootless : pattern.head? ≠ some '/') :
      Malformed pattern (.missingLeadingSlash pattern)
  | element {pattern element : Text} {fault : RouteError} {before behind : List Text}
      (rooted : pattern.head? = some '/')
      (elements : Text.splitAt '/' pattern = before ++ element :: behind)
      (sound : ∀ earlier ∈ before, elementFault? pattern earlier false = none)
      (found : elementFault? pattern element behind.isEmpty = some fault) :
      Malformed pattern fault

end RadixRouter.Pattern
