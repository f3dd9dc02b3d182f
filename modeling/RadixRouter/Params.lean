import RadixRouter.Text

/-!
The values that a route's wildcards take, in the order of the pattern. A name may occur twice;
its first value counts.
-/

namespace RadixRouter

/-- A wildcard's name and the text it stands for. -/
structure Param where
  name : Text
  value : Text
  deriving DecidableEq, Repr

/-- The bindings of a match, from left to right. -/
abbrev Params := List Param

namespace Params

/-- The first value bound to `name`. -/
def get? (params : Params) (name : Text) : Option Text :=
  (params.find? (·.name = name)).map Param.value

def at? (params : Params) (index : Nat) : Option Text :=
  params[index]?.map Param.value

def toPairs (params : Params) : List (Text × Text) :=
  params.map fun p => (p.name, p.value)

def ofPairs (pairs : List (Text × Text)) : Params :=
  pairs.map fun p => ⟨p.1, p.2⟩

/-- The bindings in the order of their names, and of their values where names are equal. -/
def sorted (params : Params) : Params :=
  params.mergeSort fun p q => !(q.name < p.name || (q.name = p.name && q.value < p.value))

@[simp] theorem toPairs_ofPairs (pairs : List (Text × Text)) : (ofPairs pairs).toPairs = pairs := by
  simp [toPairs, ofPairs, Function.comp_def]

end Params

end RadixRouter
