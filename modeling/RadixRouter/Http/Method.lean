import RadixRouter.Text

/-!
Request methods. A method is a token; the registered methods have names of their own here, any
other token is a method too. Upper and lower case differ.
-/

namespace RadixRouter

/-- The ASCII characters that tokens consist of: letters, digits and fifteen signs. -/
def isTokenChar (c : Char) : Bool :=
  c.isAlphanum || "!#$%&'*+-.^_\x60|~".toList.contains c

structure Method where
  name : Text
  deriving DecidableEq, Repr

namespace Method

def get : Method := ⟨['G', 'E', 'T']⟩
def head : Method := ⟨['H', 'E', 'A', 'D']⟩
def post : Method := ⟨['P', 'O', 'S', 'T']⟩
def put : Method := ⟨['P', 'U', 'T']⟩
def patch : Method := ⟨['P', 'A', 'T', 'C', 'H']⟩
def delete : Method := ⟨['D', 'E', 'L', 'E', 'T', 'E']⟩
def options : Method := ⟨['O', 'P', 'T', 'I', 'O', 'N', 'S']⟩
def connect : Method := ⟨['C', 'O', 'N', 'N', 'E', 'C', 'T']⟩

/-- The methods with a registration shorthand. -/
def shorthands : List Method :=
  [get, post, put, patch, delete, head, options]

/-- The method of that name, if the name is a token. -/
def ofText? (name : Text) : Option Method :=
  if name ≠ [] && name.all isTokenChar then some ⟨name⟩ else none

end Method

end RadixRouter
