import RadixRouter.Text

/-!
The bytes of a text, and cuts of a text at byte offsets. A cut falls on a character boundary
because the offset is backed off to the nearest one in front of it.
-/

namespace RadixRouter

/-- Raw bytes: bodies, header values, and text before it is known to be text. -/
abbrev Bytes := List UInt8

namespace Text

def utf8 (text : Text) : Bytes :=
  text.flatMap String.utf8EncodeChar

/-- The text that `bytes` spell, if they are UTF-8. -/
def ofUtf8? (bytes : Bytes) : Option Text :=
  bytes.toByteArray.utf8Decode?.map Array.toList

theorem ofUtf8?_utf8 (text : Text) : ofUtf8? (utf8 text) = some text := by
  have encoded : (utf8 text).toByteArray = text.utf8Encode := rfl
  rw [ofUtf8?, encoded, List.utf8Decode?_utf8Encode]
  rfl

def byteLength : Text → Nat
  | [] => 0
  | c :: rest => c.utf8Size + byteLength rest

/-- The whole characters within the first `count` bytes. -/
def takeBytes : Nat → Text → Text
  | _, [] => []
  | count, c :: rest =>
      if c.utf8Size ≤ count then c :: takeBytes (count - c.utf8Size) rest else []

/-- The characters that begin after the first `count` bytes. -/
def dropBytes : Nat → Text → Text
  | _, [] => []
  | count, c :: rest =>
      if c.utf8Size ≤ count then dropBytes (count - c.utf8Size) rest else c :: rest

theorem takeBytes_append_dropBytes (count : Nat) (text : Text) :
    takeBytes count text ++ dropBytes count text = text := by
  induction text generalizing count with
  | nil => rfl
  | cons c rest ih =>
      by_cases h : c.utf8Size ≤ count
      · simp [takeBytes, dropBytes, h, ih]
      · simp [takeBytes, dropBytes, h]

/-- The characters behind the first `start` bytes up to the first `stop` ones, unless a cut would
fall into a character. -/
def slice? (start stop : Nat) (text : Text) : Option Text :=
  let front := takeBytes start text
  let upToStop := takeBytes stop text
  if byteLength front = start && byteLength upToStop = stop then
    some (upToStop.drop front.length)
  else none

theorem takeBytes_zero (text : Text) : takeBytes 0 text = [] := by
  cases text with
  | nil => rfl
  | cons c rest =>
      have := c.utf8Size_pos
      simp only [takeBytes]
      split
      · omega
      · rfl

/-- How many bytes `a` and `b` have in common before they first differ. -/
def commonBytes : (a b : Bytes) → Nat
  | x :: a, y :: b => if x = y then commonBytes a b + 1 else 0
  | _, _ => 0

/-- The byte length of the front that `a` and `b` share. The bytes are counted first; the count
is then backed off to a character boundary of `a`, since two characters may share their first
bytes only. -/
def sharedBytes (a b : Text) : Nat :=
  byteLength (takeBytes (commonBytes (utf8 a) (utf8 b)) a)

/-- The characters at the start of `bytes`, with U+FFFD for each byte that begins none. -/
def ofUtf8Lossy (bytes : Bytes) : Text :=
  match bytes with
  | [] => []
  | b :: rest =>
      match (b :: rest).toByteArray.utf8DecodeChar? 0 with
      | some c => c :: ofUtf8Lossy (rest.drop (c.utf8Size - 1))
      | none => '\uFFFD' :: ofUtf8Lossy rest
termination_by bytes.length
decreasing_by
  · simp only [List.length_drop, List.length_cons]; omega
  · simp

end Text

end RadixRouter
