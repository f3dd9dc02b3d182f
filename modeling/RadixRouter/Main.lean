import RadixRouter.Command.Run

/-!
The program. It reads what the command needs of the machine, carries the command out, and writes
what comes of it. This build has no listener, so serving ends where an address would be bound.
-/

namespace RadixRouter.Program

def variableNames : List Text :=
  LogConfig.overrideName :: Switch.all.map Switch.variableName
    ++ ["ADDR", "WORKERS", "MAX_BODY_BYTES", "CONFIG", "LOG_LEVEL", "LOG_FORMAT", "LOG_ASYNC",
        "LOG_INCLUDE_LOCATION", "LOG_TARGET_FILTER"].map (Environment.front ++ ·.toList)

def readEnvironment : IO Environment := do
  let found ← variableNames.mapM fun name => do
    return (← IO.getEnv (String.ofList name)).map fun value => (name, value.toList)
  return found.filterMap id

/-- The configuration file that a command names. -/
def configPath? : Command → Option Text
  | .serve options => options.config
  | .lookup _ _ config => config
  | .routes => none

/-- Reads the one file that a command may need. -/
def readDirectory (path : Option Text) : IO Directory := do
  match path with
  | none => return ⟨[]⟩
  | some path =>
      try
        let content ← IO.FS.readFile (String.ofList path)
        return ⟨[(Directory.names path, .file (Text.utf8 content.toList))]⟩
      catch _ => return ⟨[]⟩

/-- A machine without a listener. -/
def offline : Network :=
  ⟨fun _ => false, fun _ => false⟩

/-- Carries out the command of a command line, and returns the status to end with. -/
def carryOut (arguments : List String) : IO UInt32 := do
  let environment ← readEnvironment
  match CommandLine.parse environment (arguments.map String.toList) with
  | .error .helpAsked => return 0
  | .error _ => return 2
  | .ok command =>
      let directory ← readDirectory (configPath? command)
      let host : Host := ⟨environment, directory, offline⟩
      let (outcome, logged) := host.run command
      for event in logged do
        IO.println (String.ofList
          (event.level.name ++ ' ' :: event.target ++ ": ".toList ++ event.message))
      match outcome with
      | .printed text => IO.print (String.ofList text); return 0
      | .serving => return 0
      | .broken => return 101
      | .failed fault => IO.eprintln ("Error: " ++ fault.message); return 1

end RadixRouter.Program

def main (arguments : List String) : IO UInt32 :=
  RadixRouter.Program.carryOut arguments
