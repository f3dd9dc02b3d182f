import RadixRouter.Text.Decimal

/-!
How much is logged: nothing, errors only, and so on up to everything.
-/

namespace RadixRouter

/-- The levels of detail, from none to all. -/
inductive LogLevel where
  | off
  | error
  | warn
  | info
  | debug
  | trace
  deriving DecidableEq, Repr

namespace LogLevel

def all : List LogLevel :=
  [off, error, warn, info, debug, trace]

def rank : LogLevel → Nat
  | off => 0
  | error => 1
  | warn => 2
  | info => 3
  | debug => 4
  | trace => 5

def name : LogLevel → Text
  | off => "off".toList
  | error => "error".toList
  | warn => "warn".toList
  | info => "info".toList
  | debug => "debug".toList
  | trace => "trace".toList

/-- The level that a name in any case, or a number, stands for. -/
def ofText? (text : Text) : Option LogLevel :=
  match Decimal.word? text with
  | some n => all[n]?
  | none => if text = [] then some error else all.find? (·.name = Text.lowerAscii text)

end LogLevel

end RadixRouter
