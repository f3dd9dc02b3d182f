import RadixRouter.Text.Utf8

/-!
Lexical cleaning of a path. `cleanBytes` reads the bytes of the path once, from left to right;
`elements` is the same thing said with a stack of path elements.
-/

namespace RadixRouter.Path

/-- The byte between path elements. -/
def slash : UInt8 := 0x2F

/-- The byte that the elements of special meaning consist of. -/
def dot : UInt8 := 0x2E

/-- Whether an element ends in front of `rest`. -/
def atEnd : Bytes → Bool
  | [] => true
  | b :: _ => b = slash

/-- Puts an element behind what is kept; `kept` is read from its end. -/
def push (kept element : Bytes) : Bytes :=
  if kept = [] then element.reverse else element.reverse ++ slash :: kept

/-- Removes the last element of what is kept. -/
def pop (kept : Bytes) : Bytes :=
  (kept.dropWhile (· ≠ slash)).drop 1

/-- Reads the elements of `source`. `kept` is what is left of those before it, from its end and
without the leading slash; `directory` tells whether the path is known to end like a directory. -/
def readElements (kept : Bytes) (directory : Bool) (source : Bytes) : Bytes × Bool :=
  match source with
  | [] => (kept, directory)
  | b :: rest =>
      if b = slash then readElements kept directory rest
      else if b = dot && rest = [] then (kept, true)
      else if b = dot && rest.head? = some slash then readElements kept directory (rest.drop 1)
      else if b = dot && rest.head? = some dot && atEnd (rest.drop 1) then
        readElements (pop kept) directory (rest.drop 1)
      else
        readElements (push kept (b :: rest.takeWhile (· ≠ slash))) directory
          (rest.dropWhile (· ≠ slash))
termination_by source.length
decreasing_by
  all_goals simp only [List.length_cons, List.length_drop]
  · omega
  · omega
  · omega
  · have := (List.dropWhile_suffix (l := rest) (· ≠ slash)).length_le
    omega

def cleanBytes (source : Bytes) : Bytes :=
  let directory := decide (1 < source.length) && source.getLast? = some slash
  let (kept, directory) := readElements [] directory source
  if directory && kept ≠ [] then slash :: kept.reverse ++ [slash] else slash :: kept.reverse

/-- The canonical form of `path`: rooted, without empty, `.` and `..` elements. A final slash
stays, and a final `.` leaves one behind. Bytes that were no text would be shown as U+FFFD. -/
def clean (path : Text) : Text :=
  let bytes := cleanBytes (Text.utf8 path)
  (Text.ofUtf8? bytes).getD (Text.ofUtf8Lossy bytes)

/-- The elements that remain when `..` takes back the element before it. -/
def keep (kept : List Text) (element : Text) : List Text :=
  if element = [] ∨ element = ['.'] then kept
  else if element = ['.', '.'] then kept.dropLast
  else kept ++ [element]

def elements (path : Text) : List Text :=
  (Text.splitAt '/' path).foldl keep []

/-- Whether the cleaned path ends in a slash, unless it is the root anyway. -/
def endsLikeDirectory (path : Text) : Bool :=
  path.getLast? = some '/' || (Text.splitAt '/' path).getLast? = some ['.']

/-- The canonical form said with the elements that remain. -/
def canonical (path : Text) : Text :=
  let kept := elements path
  let tail := if kept ≠ [] && endsLikeDirectory path then ['/'] else []
  '/' :: Text.joinWith '/' kept ++ tail

end RadixRouter.Path
