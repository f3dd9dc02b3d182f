import RadixRouter.Http.Method
import RadixRouter.Text.Utf8

/-!
Header fields: names are tokens in small letters, values are bytes. Values of one name keep their
order.
-/

namespace RadixRouter

/-- A header's name in small letters and its value. -/
structure Header where
  name : Text
  value : Bytes
  deriving DecidableEq, Repr

/-- Header fields in the order in which they were added. -/
abbrev Headers := List Header

namespace Header

/-- Whether a byte may stand in a value: no control character but the tab. -/
def isValueByte (b : UInt8) : Bool :=
  (0x20 ≤ b && b ≠ 0x7F) || b = 0x09

/-- Whether a value can be shown as ASCII text. -/
def isVisibleByte (b : UInt8) : Bool :=
  (0x20 ≤ b && b < 0x7F) || b = 0x09

/-- The bytes of a value given as text, if all of them may stand in one. -/
def value? (text : Text) : Option Bytes :=
  let bytes := Text.utf8 text
  if bytes.all isValueByte then some bytes else none

/-- The name in small letters, if it is a token. -/
def name? (text : Text) : Option Text :=
  if text ≠ [] && text.all isTokenChar then some (Text.lowerAscii text) else none

/-- A header of the given name and value, if both are valid. -/
def ofText? (name value : Text) : Option Header := do
  let name ← name? name
  let value ← value? value
  return ⟨name, value⟩

end Header

namespace Headers

def get? (headers : Headers) (name : Text) : Option Bytes :=
  (headers.find? (·.name = name)).map Header.value

def insert (headers : Headers) (name : Text) (value : Bytes) : Headers :=
  headers.filter (·.name ≠ name) ++ [⟨name, value⟩]

/-- Gives `name` the text `value`, unless that cannot stand in a header. -/
def insertText (headers : Headers) (name value : Text) : Headers :=
  match Header.value? value with
  | some bytes => headers.insert name bytes
  | none => headers

/-- The first value of `name` as text, if it is visible ASCII. -/
def visible? (headers : Headers) (name : Text) : Option Text := do
  let value ← headers.get? name
  if value.all Header.isVisibleByte then some (value.map fun b => Char.ofNat b.toNat) else none

/-- The headers in the order of their names; values of one name stay in order. -/
def sorted (headers : Headers) : Headers :=
  headers.mergeSort fun a b => !(b.name < a.name)

theorem get?_insert_self (headers : Headers) (name : Text) (value : Bytes) :
    (headers.insert name value).get? name = some value := by
  have absent : (headers.filter (·.name ≠ name)).find? (·.name = name) = none := by
    simp [List.find?_eq_none]
  simp only [insert, get?, List.find?_append, absent]
  simp

end Headers

/-- Header names that the library itself reads or writes. -/
def Header.allow : Text := "allow".toList

def Header.contentType : Text := "content-type".toList

def Header.contentTypeOptions : Text := "x-content-type-options".toList

def Header.location : Text := "location".toList

def Header.requestId : Text := "x-request-id".toList

end RadixRouter
