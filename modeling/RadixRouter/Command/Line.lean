import RadixRouter.Config.Environment
import RadixRouter.Net.Address
import RadixRouter.Text.Decimal

/-!
The command line: a command, its options in any order, and its operands. An option's value is
checked when the next argument that could be a value of its own, or the end, shows that it is
complete; until then other faults come first.
-/

namespace RadixRouter

/-- How a server is to be started; what is left out is taken from the environment. -/
structure ServeOptions where
  address : Option SocketAddress := none
  workers : Option Nat := none
  config : Option Text := none
  staticDirectory : Option Text := none
  developmentLogs : Bool := false
  deriving DecidableEq

/-- What the program is asked to do. -/
inductive Command where
  /-- Serve the demo routes. -/
  | serve (options : ServeOptions)
  /-- Report on one request. -/
  | lookup (method path : Text) (config : Option Text)
  /-- List the demo routes. -/
  | routes
  deriving DecidableEq

/-- Why a command line asks for nothing. Help is one of the reasons. -/
inductive UsageFault where
  | helpAsked
  | helpMissing
  | unknownArgument
  | unknownCommand
  | missingOperand
  | missingValue
  | badValue
  | unexpectedValue
  | repeated
  deriving DecidableEq, Repr

namespace CommandLine

inductive OptionName where
  | address
  | workers
  | config
  | staticDirectory
  | developmentLogs
  | help
  deriving DecidableEq, Repr

namespace OptionName

def long : OptionName → Text
  | address => "addr".toList
  | workers => "workers".toList
  | config => "config".toList
  | staticDirectory => "static-dir".toList
  | developmentLogs => "dev-logs".toList
  | help => "help".toList

/-- The letter of an option, if it has one. -/
def short? : OptionName → Option Char
  | address => some 'a'
  | workers => some 'w'
  | config => some 'c'
  | help => some 'h'
  | _ => none

def takesValue : OptionName → Bool
  | developmentLogs => false
  | help => false
  | _ => true

def checkValue (name : OptionName) (value : Text) : Except UsageFault Unit :=
  match name with
  | address => if (SocketAddress.ofText? value).isSome then .ok () else .error .badValue
  | workers => if (Decimal.word? value).isSome then .ok () else .error .badValue
  | _ => if value = [] then .error .missingValue else .ok ()

end OptionName

/-- What a command accepts: its options, and how many operands. -/
structure Form where
  options : List OptionName
  operands : Nat

def serveForm : Form :=
  ⟨[.address, .workers, .config, .staticDirectory, .developmentLogs, .help], 0⟩

def lookupForm : Form :=
  ⟨[.config, .help], 2⟩

def routesForm : Form :=
  ⟨[.help], 0⟩

/-- What has been read of the arguments of a command. -/
structure Reading where
  /-- The options that are set, with their values. -/
  settings : List (OptionName × Text) := []
  operands : List Text := []
  /-- The option whose value is not checked yet, or not even read. -/
  pending : Option (OptionName × Option Text) := none
  /-- Whether all further arguments are operands. -/
  trailing : Bool := false

namespace Reading

def value? (reading : Reading) (name : OptionName) : Option Text :=
  (reading.settings.find? (·.1 = name)).map Prod.snd

/-- Sets an option, which may happen only once. -/
def set (reading : Reading) (name : OptionName) (value : Text) : Except UsageFault Reading :=
  if (reading.value? name).isSome then .error .repeated
  else if name.takesValue then do
    name.checkValue value
    return { reading with settings := (name, value) :: reading.settings }
  else .ok { reading with settings := (name, value) :: reading.settings }

/-- Sets the option that is pending. -/
def settle (reading : Reading) : Except UsageFault Reading :=
  match reading.pending with
  | none => .ok reading
  | some (_, none) => .error .missingValue
  | some (name, some value) => { reading with pending := none }.set name value

/-- Takes an option that has been named, with a value if one is attached to its name. -/
def take (reading : Reading) (name : OptionName) (attached : Option Text) :
    Except UsageFault Reading := do
  let reading ← reading.settle
  if name = .help then throw .helpAsked
  if name.takesValue then
    match attached with
    | some value => reading.set name value
    | none => return { reading with pending := some (name, none) }
  else reading.set name []

/-- Takes an operand, if the command has room for it. -/
def operand (form : Form) (reading : Reading) (argument : Text) : Except UsageFault Reading :=
  if reading.operands.length < form.operands then do
    let reading ← reading.settle
    return { reading with operands := reading.operands ++ [argument] }
  else .error .unknownArgument

/-- Takes an argument that begins with two hyphens. -/
def long (form : Form) (reading : Reading) (argument : Text) : Except UsageFault Reading :=
  let attached := match Text.fromNext '=' argument with
    | [] => none
    | _ :: value => some value
  match form.options.find? (·.long = Text.upTo '=' argument) with
  | none => .error .unknownArgument
  | some name =>
      if attached.isSome && !name.takesValue then .error .unexpectedValue
      else reading.take name attached

/-- Takes an argument of one hyphen, a letter and perhaps a value. -/
def short (form : Form) (reading : Reading) (letter : Char) (rest : Text) :
    Except UsageFault Reading :=
  match form.options.find? (·.short? = some letter) with
  | none => .error .unknownArgument
  | some name =>
      let attached := match rest with
        | [] => none
        | '=' :: value => some value
        | value => some value
      reading.take name attached

def step (form : Form) (reading : Reading) (argument : Text) : Except UsageFault Reading :=
  if reading.trailing then reading.operand form argument
  else match argument with
    | ['-', '-'] => .ok { reading with trailing := true }
    | '-' :: '-' :: rest => reading.long form rest
    | '-' :: letter :: rest => reading.short form letter rest
    | _ =>
        match reading.pending with
        | some (name, none) => .ok { reading with pending := some (name, some argument) }
        | _ => reading.operand form argument

/-- The configuration file, from the arguments or from the environment. -/
def config? (reading : Reading) (environment : Environment) :
    Except UsageFault (Option Text) :=
  match reading.value? .config with
  | some path => .ok (some path)
  | none =>
      match environment.setting? "CONFIG" with
      | some path => do
          OptionName.checkValue .config path
          return some path
      | none => .ok none

end Reading

def read (form : Form) (arguments : List Text) : Except UsageFault Reading := do
  let reading ← arguments.foldlM (Reading.step form) {}
  reading.settle

def readServe (environment : Environment) (arguments : List Text) : Except UsageFault Command := do
  let reading ← read serveForm arguments
  let config ← reading.config? environment
  return .serve
    { address := (reading.value? .address).bind SocketAddress.ofText?
      workers := (reading.value? .workers).bind Decimal.word?
      config := config
      staticDirectory := reading.value? .staticDirectory
      developmentLogs := (reading.value? .developmentLogs).isSome }

def readLookup (environment : Environment) (arguments : List Text) :
    Except UsageFault Command := do
  let reading ← read lookupForm arguments
  let config ← reading.config? environment
  match reading.operands with
  | [method, path] => return .lookup method path config
  | _ => throw .missingOperand

def readRoutes (arguments : List Text) : Except UsageFault Command := do
  let _ ← read routesForm arguments
  return .routes

/-- The names of the commands; help is one, too. -/
def commandNames : List Text :=
  ["serve".toList, "lookup".toList, "routes".toList, "help".toList]

/-- Why a command line that begins with `argument`, which is no command, is refused. -/
def refusal (argument : Text) (rest : List Text) : UsageFault :=
  match argument with
  | ['-', '-'] =>
      match rest with
      | [] => .helpMissing
      | name :: _ => if commandNames.contains name then .unknownArgument else .unknownCommand
  | '-' :: '-' :: name =>
      if name = OptionName.help.long then .helpAsked
      else if Text.upTo '=' name = OptionName.help.long then .unexpectedValue
      else .unknownArgument
  | '-' :: letter :: _ => if some letter = OptionName.help.short? then .helpAsked else .unknownArgument
  | _ => .unknownCommand

/-- Why a command line that asks for help on `names` has no other result. -/
def helpFault : List Text → UsageFault
  | [] => .helpAsked
  | [name] => if commandNames.contains name then .helpAsked else .unknownCommand
  | _ => .unknownCommand

def parse (environment : Environment) : List Text → Except UsageFault Command
  | [] => .error .helpMissing
  | name :: arguments =>
      if name = "serve".toList then readServe environment arguments
      else if name = "lookup".toList then readLookup environment arguments
      else if name = "routes".toList then readRoutes arguments
      else if name = "help".toList then .error (helpFault arguments)
      else .error (refusal name arguments)

end CommandLine

end RadixRouter
