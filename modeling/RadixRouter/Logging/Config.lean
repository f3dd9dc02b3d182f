import RadixRouter.Config.Environment
import RadixRouter.Logging.Directive
import RadixRouter.Text.Fold

/-!
The settings of the log, and what is logged when the log begins.
-/

namespace RadixRouter

/-- How events are written. -/
inductive LogFormat where
  /-- One object a line. -/
  | json
  /-- For people. -/
  | pretty
  deriving DecidableEq, Repr

/-- The format that a word stands for; any word but one means objects. -/
def LogFormat.ofText (text : Text) : LogFormat :=
  if Text.lower (Text.trim text) = "pretty".toList then pretty else json

structure LogConfig where
  /-- The level as it was given. -/
  level : Text := "info".toList
  format : LogFormat := .json
  /-- Whether events are written by a thread of their own. -/
  async : Bool := true
  /-- Further directives with commas between them. -/
  targetFilter : Option Text := none
  /-- Whether events tell where in the program they come from. -/
  includeLocation : Bool := false
  deriving DecidableEq, Repr

namespace LogConfig

def ofEnvironment (environment : Environment) : LogConfig :=
  let defaults : LogConfig := {}
  { level := (environment.setting? "LOG_LEVEL").getD defaults.level
    format := ((environment.setting? "LOG_FORMAT").map LogFormat.ofText).getD defaults.format
    async := environment.flag "LOG_ASYNC" defaults.async
    targetFilter := (environment.setting? "LOG_TARGET_FILTER").filter (Text.trim · ≠ [])
    includeLocation := environment.flag "LOG_INCLUDE_LOCATION" defaults.includeLocation }

/-- The settings for work on the program itself. -/
def forDevelopment : LogConfig :=
  { level := "debug".toList
    format := .pretty
    async := false
    targetFilter := none
    includeLocation := true }

/-- The level that the settings ask for; a word that is none of the others means `info`. -/
def levelOf (config : LogConfig) : LogLevel :=
  let word := Text.lower (Text.trim config.level)
  ([.trace, .debug, .warn, .error].find? (·.name = word)).getD .info

/-- The further directives, without blanks around them. -/
def filterTexts (config : LogConfig) : List Text :=
  match config.targetFilter with
  | some text => ((Text.splitAt ',' text).map Text.trim).filter (· ≠ [])
  | none => []

def directives (config : LogConfig) : List Directive :=
  config.filterTexts.filterMap fun text => (Directive.ofText text).toOption

def invalidTexts (config : LogConfig) : List Text :=
  config.filterTexts.filter fun text => (Directive.ofText text).toOption.isNone

/-- The variable that replaces the level of the settings. -/
def overrideName : Text := "RUST_LOG".toList

/-- The filter in force: the environment's own directives if they can be read, the level of the
settings otherwise, and the further directives. The environment's directives have to be such that
no character is severed. -/
def filter (config : LogConfig) (environment : Environment) : Except DirectiveFault LogFilter :=
  let settings := LogFilter.ofDirectives [{ level := config.levelOf }]
  let base : Except DirectiveFault LogFilter := match (environment.get? overrideName).map LogFilter.ofText with
    | some (.error .severed) => .error .severed
    | some (.ok filter) => .ok filter
    | some (.error .malformed) | none => .ok settings
  base.map (config.directives.foldl LogFilter.add)

def warnings (config : LogConfig) : List LogEvent :=
  config.invalidTexts.map fun text =>
    { level := .warn
      target := "trierouter::logging".toList
      message := "Ignoring invalid log filter directive".toList
      fields := [("directive".toList, text)] }

end LogConfig

end RadixRouter
