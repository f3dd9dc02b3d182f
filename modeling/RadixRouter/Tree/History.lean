import RadixRouter.Tree.Insert

/-!
Trees as they come about: by registrations, one after the other, some of which are refused.
-/

namespace RadixRouter.Tree

variable {α : Type}

/-- Registers one route after the other and goes on after a refusal. -/
def insertAll (tree : Tree α) : List (Text × α) → Tree α
  | [] => tree
  | (pattern, value) :: later => (tree.insert pattern value).1.insertAll later

/-- The routes that are not refused. -/
def accepted (tree : Tree α) : List (Text × α) → List (Text × α)
  | [] => []
  | (pattern, value) :: later =>
      match tree.insert pattern value with
      | (next, .ok ()) => (pattern, value) :: next.accepted later
      | (next, .error _) => next.accepted later

/-- Whether none of the routes is refused when they are registered one after the other. -/
def takesAll (tree : Tree α) : List (Text × α) → Bool
  | [] => true
  | (pattern, value) :: later =>
      match tree.insert pattern value with
      | (next, .ok ()) => next.takesAll later
      | (_, .error _) => false

/-- The tree that registrations make of nothing. -/
def ofHistory (history : List (Text × α)) : Tree α :=
  empty.insertAll history

/-- The routes of a history that are not refused. -/
def routesOf (history : List (Text × α)) : List (Text × α) :=
  empty.accepted history

end RadixRouter.Tree
