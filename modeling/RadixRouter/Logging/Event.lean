import RadixRouter.Logging.Level

/-!
What is logged: events with a level, the part of the program that they come from, and fields.
-/

namespace RadixRouter

structure LogEvent where
  level : LogLevel
  /-- The part of the program, parts within parts parted by double colons. -/
  target : Text
  message : Text
  /-- Further facts by name. -/
  fields : List (Text × Text)
  deriving DecidableEq, Repr

namespace LogEvent

def field? (event : LogEvent) (name : Text) : Option Text :=
  (event.fields.find? (·.1 = name)).map Prod.snd

/-- The names that an event can be chosen by; the message is a field, too. -/
def fieldNames (event : LogEvent) : List Text :=
  "message".toList :: event.fields.map Prod.fst

end LogEvent

end RadixRouter
