import RadixRouter.Config.Yaml
import RadixRouter.Files.Directory

/-!
Switches from a file.
-/

namespace RadixRouter

/-- Why a file gives no switches; each cause names the file. -/
inductive LoadFault where
  | unreadable (path : Text)
  | malformed (path : Text)
  deriving DecidableEq, Repr

def LoadFault.message : LoadFault → String
  | unreadable path => "reading router config " ++ String.ofList path
  | malformed path => "parsing router config " ++ String.ofList path

/-- The text of the file that `path` names, seen from the directory. -/
def Directory.readText? (directory : Directory) (path : Text) : Option Text := do
  let location ← directory.fileLocation? [] path
  let bytes ← directory.file? location
  Text.ofUtf8? bytes

def Switches.load (directory : Directory) (path : Text) : Except LoadFault Switches :=
  match directory.readText? path with
  | none => .error (.unreadable path)
  | some text =>
      match Yaml.switches? text with
      | none => .error (.malformed path)
      | some switches => .ok switches

end RadixRouter
