import RadixRouter.Text

/-!
Computations that may panic and that leave notes. A panic ends a computation early; the notes made
before it stay.
-/

namespace RadixRouter

/-- What a computation panicked with: a text, or a value that has none. -/
inductive Panic where
  | text (message : Text)
  | other
  deriving DecidableEq, Repr

def Panic.message : Panic → Text
  | text message => message
  | other => "Box<dyn Any>".toList

/-- A computation that yields an `α` or panics, and adds to the notes made so far. -/
abbrev Run (α : Type) := ExceptT Panic (StateM (List Text)) α

namespace Run

def note (text : Text) : Run Unit :=
  modify (· ++ [text])

def panic {α : Type} (cause : Panic) : Run α :=
  throw cause

/-- What a sum that is no machine word panics with. -/
def overflow : Panic :=
  .text "attempt to add with overflow".toList

/-- The sum of two machine words, if it is one. -/
def addWord (a b : UInt64) : Run UInt64 :=
  if a.toNat + b.toNat < UInt64.size then pure (a + b) else panic overflow

/-- Runs `body`, and `recover` if it panics. -/
def recovering {α : Type} (body : Run α) (recover : Panic → Run α) : Run α :=
  tryCatch body recover

/-- The outcome and the notes of a computation that begins without any. -/
def outcome {α : Type} (body : Run α) : Except Panic α × List Text :=
  (ExceptT.run body).run []

end Run

end RadixRouter
