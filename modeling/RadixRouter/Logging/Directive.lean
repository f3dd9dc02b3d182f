import RadixRouter.Logging.Event
import RadixRouter.Logging.ValuePattern
import RadixRouter.Text.Utf8

/-!
Which events are logged. A directive allows the events of one part of the program, or of all, up
to a level; of the directives that concern an event the most specific one decides.

The parts of a directive are found in its text without the blanks around it, but they are cut out of
the text as it was given, at the same distances from its beginning. So blanks in front move all
parts, and blanks behind belong to the last one.
-/

namespace RadixRouter

/-- What a directive asks of a field of an event. -/
structure FieldTest where
  name : Text
  /-- Whether a value is asked for as well. -/
  hasValue : Bool
  deriving DecidableEq, Repr

/-- A directive: a level for some of the events. It has no commas in its text, and so it asks for no
more than one field. -/
structure Directive where
  /-- How the targets of the events begin. -/
  target : Option Text := none
  /-- The section of the program that the events have to be in; outside all sections a directive
  with one says nothing. -/
  span : Option Text := none
  field : Option FieldTest := none
  level : LogLevel := .trace
  deriving DecidableEq, Repr

inductive DirectiveFault where
  | malformed
  /-- A cut falls into a character. -/
  | severed
  deriving DecidableEq, Repr

namespace Directive

/-- Whether a directive that names a level or a target may begin with `c`. -/
def mayBegin (c : Char) : Bool :=
  c = '-' || c = ':' || c = '_' || Alphanumeric.isLetterOrNumber c

/-- The level that stands behind an equals sign, all of them if nothing does. -/
def level? (text : Text) : Except DirectiveFault LogLevel :=
  if text = [] then .ok .trace
  else match LogLevel.ofText? text with
    | some level => .ok level
    | none => .error .malformed

/-- Reads a field: its name, and behind an equals sign the value that is asked for. -/
def field? (text : Text) : Except DirectiveFault FieldTest :=
  if text = [] then .error .malformed
  else match Text.splitAt '=' text with
    | name :: value :: _ =>
        if ValuePattern.isValid value then .ok ⟨name, true⟩ else .error .malformed
    | pieces => .ok ⟨pieces.flatten, false⟩

/-- What is being read of a directive, with the distance where it begins. -/
inductive Stage where
  | start
  /-- A level or a target. -/
  | name (start : Nat)
  | span (start : Nat)
  | field (start : Nat)
  /-- Behind the field's brace. -/
  | closed
  /-- Behind the section's bracket. -/
  | scoped
  | level (start : Nat)

/-- A directive that has been read up to some distance. -/
structure Progress where
  directive : Directive
  stage : Stage
  distance : Nat

/-- The part of `text` between two distances. -/
def cut? (text : Text) (start stop : Nat) : Except DirectiveFault Text :=
  match Text.slice? start stop text with
  | some part => .ok part
  | none => .error .severed

/-- Reads one character of a directive whose parts are cut out of `text`. -/
def Progress.step (text : Text) (progress : Progress) (c : Char) :
    Except DirectiveFault Progress := do
  let d := progress.directive
  let here := progress.distance
  let next := here + c.utf8Size
  match progress.stage with
  | .start =>
      if c = '[' then return ⟨d, .span next, next⟩
      else if mayBegin c then return ⟨d, .name here, next⟩
      else throw .malformed
  | .name start =>
      if c = '=' then return ⟨{ d with target := ← cut? text start here }, .level next, next⟩
      else if c = '[' then return ⟨{ d with target := ← cut? text start here }, .span next, next⟩
      else return ⟨d, .name start, next⟩
  | .span start =>
      if c = ']' then return ⟨{ d with span := ← cut? text start here }, .scoped, next⟩
      else if c = '\x7b' then
        let span ← cut? text start here
        return ⟨{ d with span := if span = [] then none else some span }, .field next, next⟩
      else return ⟨d, .span start, next⟩
  | .field start =>
      if c = '\x7d' then
        let field ← field? (← cut? text start here)
        return ⟨{ d with field }, .closed, next⟩
      else return ⟨d, .field start, next⟩
  | .closed => if c = ']' then return ⟨d, .scoped, next⟩ else throw .malformed
  | .scoped => if c = '=' then return ⟨d, .level next, next⟩ else throw .malformed
  | .level start => return ⟨d, .level start, next⟩

/-- The directive that has been read when its text is at an end. -/
def Progress.finish (text : Text) (progress : Progress) : Except DirectiveFault Directive := do
  let d := progress.directive
  let upToEnd (start : Nat) := cut? text start (Text.byteLength text)
  match progress.stage with
  | .name start =>
      let name ← upToEnd start
      match LogLevel.ofText? name with
      | some level => return { d with level }
      | none => return { d with target := name }
  | .level start => return { d with level := ← level? (← upToEnd start) }
  | .scoped => return d
  | _ => throw .malformed

/-- Reads a directive: a level for everything, or a target, a scope or both, with a level or for
all of them. -/
def ofText (text : Text) : Except DirectiveFault Directive := do
  let progress ← (Text.trim text).foldlM (Progress.step text) ⟨{}, .start, 0⟩
  progress.finish text

/-- Whether a directive says something about events outside all sections, whatever the values of
their fields. -/
def isStatic (directive : Directive) : Bool :=
  directive.span = none && directive.field.all (!·.hasValue)

def concerns (directive : Directive) (event : LogEvent) : Bool :=
  directive.target.all (·.isPrefixOf event.target)
    && directive.field.all fun field => event.fieldNames.contains field.name

/-- Whether `a` comes behind `b`, where nothing comes first. -/
def comesBehind (a b : Option Text) : Bool :=
  match a, b with
  | none, _ => false
  | some _, none => true
  | some a, some b => b < a

/-- Whether a directive is more specific than another: it has a longer target, or as long a one and
a field where the other has none. Among directives as specific as each other those count first that
come last in the order of their targets, and then of their fields. -/
def outranks (a b : Directive) : Bool :=
  let size (d : Directive) : Nat := d.target.elim 0 fun target => Text.byteLength target + 1
  let name (d : Directive) : Option Text := d.field.map FieldTest.name
  if size a ≠ size b then size b < size a
  else if a.field.isSome ≠ b.field.isSome then a.field.isSome
  else if a.target ≠ b.target then comesBehind a.target b.target
  else comesBehind (name a) (name b)

/-- Whether two directives are about the same events. -/
def sameScope (a b : Directive) : Bool :=
  a.target = b.target && a.field = b.field

end Directive

/-- The directives in force, without two about the same events. -/
structure LogFilter where
  directives : List Directive

namespace LogFilter

/-- Puts a directive in force; it replaces one about the same events. -/
def add (filter : LogFilter) (directive : Directive) : LogFilter :=
  if directive.isStatic then
    ⟨directive :: filter.directives.filter (!directive.sameScope ·)⟩
  else filter

/-- The filter of the given directives. Without any, errors alone are logged. -/
def ofDirectives (directives : List Directive) : LogFilter :=
  if directives = [] then ⟨[{ level := .error }]⟩ else directives.foldl add ⟨[]⟩

/-- The filter that a text of directives with commas between them describes. -/
def ofText (text : Text) : Except DirectiveFault LogFilter := do
  let directives ← ((Text.splitAt ',' text).filter (· ≠ [])).mapM Directive.ofText
  return ofDirectives directives

/-- The most specific directive that concerns an event. -/
def deciding? (filter : LogFilter) (event : LogEvent) : Option Directive :=
  (filter.directives.filter (·.concerns event)).foldl (fun best directive =>
    match best with
    | some other => if directive.outranks other then some directive else best
    | none => some directive) none

def allows (filter : LogFilter) (event : LogEvent) : Bool :=
  match filter.deciding? event with
  | some directive => event.level.rank ≤ directive.level.rank
  | none => false

end LogFilter

end RadixRouter
