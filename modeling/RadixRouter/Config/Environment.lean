import RadixRouter.Router.Switches
import RadixRouter.Text.Blank

/-!
Settings from environment variables. A value that cannot be understood counts as absent.
-/

namespace RadixRouter

abbrev Environment := List (Text × Text)

/-- The truth value that a word stands for. -/
def truth? (text : Text) : Option Bool :=
  let word := Text.lowerAscii (Text.trim text)
  if ["1", "true", "yes", "on"].any (·.toList = word) then some true
  else if ["0", "false", "no", "off"].any (·.toList = word) then some false
  else none

namespace Environment

/-- What the names of the program's variables begin with. -/
def front : Text := "TRIEROUTER_".toList

def get? (environment : Environment) (name : Text) : Option Text :=
  (environment.find? (·.1 = name)).map Prod.snd

/-- The value of one of the program's variables. -/
def setting? (environment : Environment) (name : String) : Option Text :=
  environment.get? (front ++ name.toList)

/-- The truth value of one of the program's variables. -/
def flag (environment : Environment) (name : String) (default : Bool) : Bool :=
  ((environment.setting? name).bind truth?).getD default

end Environment

def Switch.variableName (switch : Switch) : Text :=
  Environment.front ++ switch.name.map Char.toUpper

/-- The switches as the environment sets them; the others are on. -/
def Switches.ofEnvironment (environment : Environment) : Switches :=
  Switch.all.foldl (fun switches switch =>
    match (environment.get? switch.variableName).bind truth? with
    | some on => Switch.set switches on switch
    | none => switches) {}

end RadixRouter
