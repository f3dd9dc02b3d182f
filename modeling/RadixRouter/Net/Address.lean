import RadixRouter.Text

/-!
Internet addresses with a port, as text. IPv4 numbers have no leading zeros; an IPv6 address is
written with its longest run of zero groups left out.
-/

namespace RadixRouter

inductive IpAddress where
  | v4 (octets : Vector UInt8 4)
  | v6 (groups : Vector UInt16 8)
  deriving DecidableEq

/-- An address, a port, and for version 6 the number of the zone it belongs to. -/
structure SocketAddress where
  ip : IpAddress
  port : UInt16
  zone : UInt32
  deriving DecidableEq

namespace Net

def digit? (base : Nat) (c : Char) : Option Nat :=
  let value :=
    if c.isDigit then c.toNat - '0'.toNat
    else if 'a' ≤ c ∧ c ≤ 'z' then c.toNat - 'a'.toNat + 10
    else if 'A' ≤ c ∧ c ≤ 'Z' then c.toNat - 'A'.toNat + 10
    else base
  if value < base then some value else none

/-- The number that the digits of `text` spell. -/
def value (base : Nat) (text : Text) : Nat :=
  text.foldl (fun n c => n * base + (digit? base c).getD 0) 0

/-- Reads a number of at least one digit, and returns it with its digits and the rest. -/
def number? (base : Nat) (text : Text) : Option (Nat × Text × Text) :=
  let digits := text.takeWhile fun c => (digit? base c).isSome
  if digits = [] then none
  else some (value base digits, digits, text.dropWhile fun c => (digit? base c).isSome)

/-- Reads a number of one octet: three digits at most, and no zero in front of another digit. -/
def octet? (text : Text) : Option (UInt8 × Text) := do
  let (n, digits, rest) ← number? 10 text
  if digits.length ≤ 3 ∧ n < 256 ∧ (digits.head? ≠ some '0' ∨ digits.length = 1) then
    some (n.toUInt8, rest)
  else none

def ipv4? (text : Text) : Option (Vector UInt8 4 × Text) := do
  let (a, rest) ← octet? text
  let rest ← Text.after? ['.'] rest
  let (b, rest) ← octet? rest
  let rest ← Text.after? ['.'] rest
  let (c, rest) ← octet? rest
  let rest ← Text.after? ['.'] rest
  let (d, rest) ← octet? rest
  return (#v[a, b, c, d], rest)

/-- Reads a group of one to four hexadecimal digits. -/
def group? (text : Text) : Option (UInt16 × Text) := do
  let (n, digits, rest) ← number? 16 text
  if digits.length ≤ 4 then some (n.toUInt16, rest) else none

/-- Reads at most `limit` groups with colons between them. The last two may be written as an IPv4
address; the flag tells whether they were. -/
def groups (limit : Nat) (first : Bool) (text : Text) : List UInt16 × Bool × Text :=
  match limit with
  | 0 => ([], false, text)
  | limit + 1 =>
      match if first then some text else Text.after? [':'] text with
      | none => ([], false, text)
      | some start =>
          match if limit = 0 then none else ipv4? start with
          | some (octets, rest) =>
              let pair (hi lo : UInt8) : UInt16 := (hi.toNat * 256 + lo.toNat).toUInt16
              ([pair octets[0] octets[1], pair octets[2] octets[3]], true, rest)
          | none =>
              match group? start with
              | none => ([], false, text)
              | some (g, rest) =>
                  let (more, ipv4, rest) := groups limit false rest
                  (g :: more, ipv4, rest)

/-- Eight groups, if there are eight. -/
def ofGroups? (groups : List UInt16) : Option (Vector UInt16 8) :=
  if h : groups.toArray.size = 8 then some ⟨groups.toArray, h⟩ else none

/-- Reads an IPv6 address: eight groups, or fewer around a double colon. -/
def ipv6? (text : Text) : Option (Vector UInt16 8 × Text) :=
  let (front, ipv4, rest) := groups 8 true text
  if front.length = 8 then (ofGroups? front).map (·, rest)
  else if ipv4 then none
  else do
    let rest ← Text.after? [':', ':'] rest
    let (back, _, rest) := groups (7 - front.length) true rest
    let zeros := List.replicate (8 - front.length - back.length) 0
    let whole ← ofGroups? (front ++ zeros ++ back)
    return (whole, rest)

def port? (text : Text) : Option (UInt16 × Text) := do
  let rest ← Text.after? [':'] text
  let (n, _, rest) ← number? 10 rest
  if n < UInt16.size then some (n.toUInt16, rest) else none

/-- Reads a percent sign and the number of a zone. -/
def zone? (text : Text) : Option (UInt32 × Text) := do
  let rest ← Text.after? ['%'] text
  let (n, _, rest) ← number? 10 rest
  if n < UInt32.size then some (n.toUInt32, rest) else none

/-- The groups in hexadecimal with colons between them. -/
def writeGroups (groups : List UInt16) : Text :=
  Text.joinWith ':' (groups.map fun g => Nat.toDigits 16 g.toNat)

/-- The first of the longest runs of zero groups: where it begins and how long it is. -/
def longestZeros (groups : List UInt16) : Nat × Nat :=
  let step := fun (s : (Nat × Nat) × Nat × Nat) (g : UInt16) =>
    let (best, index, run) := s
    if g = 0 then
      let run := run + 1
      (if best.2 < run then (index + 1 - run, run) else best, index + 1, run)
    else (best, index + 1, 0)
  (groups.foldl step ((0, 0), 0, 0)).1

end Net

namespace IpAddress

/-- An IPv4 address in dotted form. -/
def writeOctets (octets : List UInt8) : Text :=
  Text.joinWith '.' (octets.map fun o => Nat.toDigits 10 o.toNat)

/-- The usual text of an address. -/
def write : IpAddress → Text
  | v4 octets => writeOctets octets.toList
  | v6 groups =>
      match groups.toList with
      | [0, 0, 0, 0, 0, 0xFFFF, hi, lo] =>
          "::ffff:".toList ++ writeOctets
            [(hi >>> 8).toUInt8, hi.toUInt8, (lo >>> 8).toUInt8, lo.toUInt8]
      | all =>
          let (start, run) := Net.longestZeros all
          if run > 1 then
            Net.writeGroups (all.take start) ++ [':', ':'] ++ Net.writeGroups (all.drop (start + run))
          else Net.writeGroups all

end IpAddress

namespace SocketAddress

/-- Reads an address and a port: `a.b.c.d:port`, or `[address%zone]:port` for version 6. -/
def ofText? (text : Text) : Option SocketAddress :=
  let ipv4 : Option SocketAddress := do
    let (octets, rest) ← Net.ipv4? text
    let (port, rest) ← Net.port? rest
    if rest = [] then some ⟨.v4 octets, port, 0⟩ else none
  let ipv6 : Option SocketAddress := do
    let rest ← Text.after? ['['] text
    let (groups, rest) ← Net.ipv6? rest
    let (zone, rest) := (Net.zone? rest).getD (0, rest)
    let rest ← Text.after? [']'] rest
    let (port, rest) ← Net.port? rest
    if rest = [] then some ⟨.v6 groups, port, zone⟩ else none
  ipv4 <|> ipv6

def write (address : SocketAddress) : Text :=
  let port := ':' :: Nat.toDigits 10 address.port.toNat
  match address.ip with
  | .v4 _ => address.ip.write ++ port
  | .v6 _ =>
      let zone := if address.zone = 0 then [] else '%' :: Nat.toDigits 10 address.zone.toNat
      '[' :: address.ip.write ++ zone ++ ']' :: port

end SocketAddress

end RadixRouter
