import RadixRouter.Router.Switches
import RadixRouter.Yaml.Document

/-!
Switches in a YAML document: a mapping from the names of switches to truth values.
-/

namespace RadixRouter.Yaml

/-- The name of the tag of truth values. -/
def truthTag : Text := "tag:yaml.org,2002:bool".toList

/-- The truth value that a scalar stands for. It is a plain word, or a literal block that is tagged
as a truth value. -/
def Scalar.truth? (scalar : Scalar) : Option Bool :=
  let fits := match scalar.style with
    | .plain => true
    | .literal => scalar.tag = some truthTag
    | .quoted | .folded => false
  if !fits then none
  else if ["true", "True", "TRUE"].any (·.toList = scalar.text) then some true
  else if ["false", "False", "FALSE"].any (·.toList = scalar.text) then some false
  else none

/-- Sets the switches that keys and values name, which follow each other. Each switch is set once
at most. -/
def set? (free : List Switch) (switches : Switches) : List Scalar → Option Switches
  | [] => some switches
  | [_] => none
  | key :: value :: rest => do
      let switch ← free.find? (·.name = key.text)
      let on ← value.truth?
      set? (free.erase switch) (Switch.set switches on switch) rest

/-- The switches that a text sets; the others are on. -/
def switches? (text : Text) : Option Switches :=
  (Document.ofText? text).bind fun document => document.scalars?.bind (set? Switch.all {})

end RadixRouter.Yaml
