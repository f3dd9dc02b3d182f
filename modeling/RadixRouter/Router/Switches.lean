import RadixRouter.Text

/-!
The switches of a router's policy for requests that no route matches.
-/

namespace RadixRouter

/-- Which answers a router gives on its own. -/
structure Switches where
  /-- Redirect a path that only lacks a final slash or has one too many. -/
  redirectTrailingSlash : Bool := true
  /-- Redirect a path that matches once it is cleaned and its case is mended. -/
  redirectFixedPath : Bool := true
  /-- Answer 405 when another method has a route for the path. -/
  handleMethodNotAllowed : Bool := true
  /-- Answer OPTIONS requests that have no route of their own. -/
  handleOptions : Bool := true
  deriving DecidableEq, Repr

inductive Switch where
  | redirectTrailingSlash
  | redirectFixedPath
  | handleMethodNotAllowed
  | handleOptions
  deriving DecidableEq, Repr

namespace Switch

/-- The switches in the order in which they are listed. -/
def all : List Switch :=
  [redirectTrailingSlash, redirectFixedPath, handleMethodNotAllowed, handleOptions]

def name : Switch → Text
  | redirectTrailingSlash => "redirect_trailing_slash".toList
  | redirectFixedPath => "redirect_fixed_path".toList
  | handleMethodNotAllowed => "handle_method_not_allowed".toList
  | handleOptions => "handle_options".toList

def get (switches : Switches) : Switch → Bool
  | redirectTrailingSlash => switches.redirectTrailingSlash
  | redirectFixedPath => switches.redirectFixedPath
  | handleMethodNotAllowed => switches.handleMethodNotAllowed
  | handleOptions => switches.handleOptions

def set (switches : Switches) (on : Bool) : Switch → Switches
  | redirectTrailingSlash => { switches with redirectTrailingSlash := on }
  | redirectFixedPath => { switches with redirectFixedPath := on }
  | handleMethodNotAllowed => { switches with handleMethodNotAllowed := on }
  | handleOptions => { switches with handleOptions := on }

@[simp] theorem get_set_self (switches : Switches) (on : Bool) (switch : Switch) :
    get (set switches on switch) switch = on := by
  cases switch <;> rfl

end Switch

end RadixRouter
