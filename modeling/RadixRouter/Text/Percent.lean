import RadixRouter.Text.Utf8

/-!
Percent-coding of paths. Writing leaves the unreserved characters and the slashes between elements
as they are; reading takes a percent sign and two hexadecimal digits for a byte, and any other
percent sign for itself.
-/

namespace RadixRouter.Percent

/-- The byte of the percent sign. -/
def sign : UInt8 := 0x25

/-- The bytes that stand for themselves: letters, digits and `-._~`. -/
def isUnreserved (b : UInt8) : Bool :=
  (0x30 ≤ b && b ≤ 0x39) || (0x41 ≤ b && b ≤ 0x5A) || (0x61 ≤ b && b ≤ 0x7A)
    || b = 0x2D || b = 0x2E || b = 0x5F || b = 0x7E

/-- The capital hexadecimal digit of a number below 16. -/
def hexDigit (n : UInt8) : Char :=
  Char.ofNat (if n < 10 then 0x30 + n.toNat else 0x37 + n.toNat)

/-- The value of a hexadecimal digit in either case. -/
def hexValue? (b : UInt8) : Option UInt8 :=
  if 0x30 ≤ b && b ≤ 0x39 then some (b - 0x30)
  else if 0x41 ≤ b && b ≤ 0x46 then some (b - 0x37)
  else if 0x61 ≤ b && b ≤ 0x66 then some (b - 0x57)
  else none

def encodeByte (b : UInt8) : Text :=
  if isUnreserved b then [Char.ofNat b.toNat] else ['%', hexDigit (b >>> 4), hexDigit (b &&& 15)]

/-- A text with all but the unreserved characters written as bytes. -/
def encode (text : Text) : Text :=
  (Text.utf8 text).flatMap encodeByte

/-- A path with each of its elements encoded, so that its slashes stay separators. -/
def encodePath (path : Text) : Text :=
  Text.joinWith '/' ((Text.splitAt '/' path).map encode)

/-- The byte that three bytes stand for, if they are a sign and two hexadecimal digits. -/
def triple? (first hi lo : UInt8) : Option UInt8 :=
  if first = sign then
    match hexValue? hi, hexValue? lo with
    | some h, some l => some (h <<< 4 ||| l)
    | _, _ => none
  else none

/-- The bytes that encoded bytes stand for. -/
def decodeBytes : Bytes → Bytes
  | first :: hi :: lo :: rest =>
      match triple? first hi lo with
      | some byte => byte :: decodeBytes rest
      | none => first :: decodeBytes (hi :: lo :: rest)
  | bytes => bytes

/-- The path that an encoded path stands for. A path that does not decode to text is taken as it
came. -/
def decodePath (raw : Text) : Text :=
  if raw.contains '%' then (Text.ofUtf8? (decodeBytes (Text.utf8 raw))).getD raw else raw

end RadixRouter.Percent
