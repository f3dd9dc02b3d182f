import RadixRouter.Params
import RadixRouter.Pattern.Basic

/-!
A pattern as a list of tokens, and what it means without a tree: which paths it matches with which
bindings, which of two patterns is the more specific one, and where two patterns part.
-/

namespace RadixRouter.Pattern

/-- A part of a pattern that matches on its own. -/
inductive Token where
  /-- The character itself. -/
  | char (c : Char)
  /-- One path element. -/
  | param (name : Text)
  /-- The whole rest of a path. -/
  | catchAll (name : Text)
  deriving DecidableEq, Repr

namespace Token

def isWild : Token → Bool
  | char _ => false
  | param _ => true
  | catchAll _ => true

def isCatchAll : Token → Bool
  | catchAll _ => true
  | _ => false

/-- A token as it stands in a pattern. -/
def write : Token → Text
  | char c => [c]
  | param name => ':' :: name
  | catchAll name => '*' :: name

/-- The wildcard that begins with `mark`. -/
def wildcard (mark : Char) (name : Text) : Token :=
  if mark = '*' then catchAll name else param name

theorem write_wildcard {mark : Char} (h : isMark mark = true) (name : Text) :
    (wildcard mark name).write = mark :: name := by
  unfold wildcard
  split
  · next hm => simp [write, hm]
  · next hm =>
      have : mark = ':' := by simpa [isMark, hm] using h
      simp [write, this]

end Token

/-- The tokens of a pattern. A wildcard's name ends at the next slash. -/
def tokens (pattern : Text) : List Token :=
  match pattern with
  | [] => []
  | c :: rest =>
      if isMark c then .wildcard c (Text.upTo '/' rest) :: tokens (Text.fromNext '/' rest)
      else .char c :: tokens rest
termination_by pattern.length
decreasing_by
  · have := Text.length_fromNext_le '/' rest
    simp only [List.length_cons]
    omega
  · simp

/-- The tokens say all that the pattern says. -/
theorem flatMap_write_tokens (pattern : Text) : (tokens pattern).flatMap Token.write = pattern := by
  fun_induction tokens pattern with
  | case1 => rfl
  | case2 c rest hc ih =>
      simp [ih, Token.write_wildcard hc, Text.upTo_append_fromNext]
  | case3 c rest hc ih => simp [ih, Token.write]

/-- The bindings with which `path` matches the tokens: a character matches itself, a parameter
takes all up to the next slash, and a catch-all takes all. -/
def bind? : List Token → Text → Option Params
  | [], path => if path = [] then some [] else none
  | .char _ :: _, [] => none
  | .char c :: tokens, d :: path => if c = d then bind? tokens path else none
  | .param name :: tokens, path =>
      if Text.upTo '/' path = [] then none
      else (bind? tokens (Text.fromNext '/' path)).map (⟨name, Text.upTo '/' path⟩ :: ·)
  | .catchAll name :: tokens, path => if tokens = [] then some [⟨name, path⟩] else none

def Matches (pattern path : Text) : Prop :=
  (bind? (tokens pattern) path).isSome

/-- Two lists of tokens from the first place on where they differ. -/
def part : List Token → List Token → List Token × List Token
  | a :: p, b :: q => if a = b then part p q else (a :: p, b :: q)
  | p, q => (p, q)

/-- Whether `p` has a character where it first differs from `q`, and `q` a wildcard. -/
def MoreSpecific (p q : Text) : Prop :=
  ∃ c front wild back, wild.isWild = true
    ∧ part (tokens p) (tokens q) = (.char c :: front, wild :: back)

/-- Whether two different wildcards stand where `p` and `q` first differ. -/
def WildcardsClash (p q : Text) : Prop :=
  ∃ v front w back, v.isWild = true ∧ w.isWild = true
    ∧ part (tokens p) (tokens q) = (v :: front, w :: back)

/-- Whether a catch-all stands on one side where `p` and `q` first differ. -/
def CatchAllClash (p q : Text) : Prop :=
  ∃ token ∈ ((part (tokens p) (tokens q)).1.head?.toList
    ++ (part (tokens p) (tokens q)).2.head?.toList), token.isCatchAll = true

end RadixRouter.Pattern
