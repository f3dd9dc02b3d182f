import RadixRouter.Pattern.Basic
import RadixRouter.Text.Utf8

/-!
The search for a fault as it runs over the bytes of a pattern. An offset moves from behind one
wildcard to behind the next, and all text is cut out at offsets. A scan gives no result when a cut
falls into a character, or when it needs more rounds than it is given.
-/

namespace RadixRouter.Text

/-- The byte offset of the first character that is sought. -/
def position? (sought : Char → Bool) : Text → Option Nat
  | [] => none
  | c :: rest => if sought c then some 0 else (position? sought rest).map (c.utf8Size + ·)

end RadixRouter.Text

namespace RadixRouter.Pattern

/-- The first wildcard of `text` with its byte offset. -/
inductive Search where
  | absent
  | found (wildcard : Text) (start : Nat)
  deriving DecidableEq, Repr

/-- Searches for a wildcard, which runs up to the next slash; nothing if a cut falls into a
character. -/
def search? (text : Text) : Option Search :=
  match Text.position? isMark text with
  | none => some .absent
  | some start => do
      let behind ← Text.slice? (start + 1) (Text.byteLength text) text
      let length? := Text.position? (· = '/') behind
      let stop := (length?.map (start + 1 + ·)).getD (Text.byteLength text)
      let wildcard ← Text.slice? start stop text
      some (.found wildcard start)

/-- What a round of the scan comes to: its end, a fault, or the offset of the next round. -/
inductive Round where
  | finished
  | faulty (fault : RouteError)
  | onward (offset : Nat)
  deriving DecidableEq, Repr

/-- Looks at the first wildcard from `offset` on; nothing if a cut falls into a character. -/
def round? (pattern : Text) (offset : Nat) : Option Round := do
  let rest ← Text.slice? offset (Text.byteLength pattern) pattern
  match ← search? rest with
  | .absent => some .finished
  | .found wildcard i =>
      let start := offset + i
      let stop := start + Text.byteLength wildcard
      let name ← Text.slice? 1 (Text.byteLength wildcard) wildcard
      if name.any isMark then some (.faulty (.multipleWildcardsInSegment wildcard pattern))
      else if Text.byteLength wildcard < 2 then some (.faulty (.unnamedWildcard pattern))
      else if wildcard.head? = some '*' then
        if stop ≠ Text.byteLength pattern then some (.faulty (.catchAllNotAtEnd pattern))
        else do
          let front ← Text.slice? 0 start pattern
          if front.getLast? ≠ some '/' then some (.faulty (.catchAllWithoutSlash pattern))
          else some (.onward stop)
      else some (.onward stop)

/-- The scan from `offset` on, within so many rounds; nothing if they do not suffice. -/
def scanWithin? (pattern : Text) : (rounds offset : Nat) → Option (Except RouteError Unit)
  | 0, _ => none
  | rounds + 1, offset => do
      match ← round? pattern offset with
      | .finished => some (.ok ())
      | .faulty fault => some (.error fault)
      | .onward next => scanWithin? pattern rounds next

end RadixRouter.Pattern
