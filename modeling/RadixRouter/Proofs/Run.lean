import RadixRouter.Run

/-!
Computations that end without a panic, and what they leave behind.
-/

namespace RadixRouter.Run

variable {α β : Type}

/-- How `body` ends when it is begun with `notes`. -/
def runFrom (body : Run α) (notes : List Text) : Except Panic α × List Text :=
  (ExceptT.run body).run notes

/-- Whether `body`, begun with `notes`, ends with `result` and `later` without a panic. -/
def Yields (body : Run α) (notes : List Text) (result : α) (later : List Text) : Prop :=
  body.runFrom notes = (.ok result, later)

theorem runFrom_bind (body : Run α) (next : α → Run β) (notes : List Text) :
    (body >>= next).runFrom notes = match body.runFrom notes with
      | (.ok a, mid) => (next a).runFrom mid
      | (.error cause, mid) => (.error cause, mid) := by
  unfold runFrom
  simp only [ExceptT.run_bind, StateT.run_bind]
  rcases (ExceptT.run body).run notes with ⟨_ | _, mid⟩ <;> rfl

theorem runFrom_recovering (body : Run α) (recover : Panic → Run α) (notes : List Text) :
    (recovering body recover).runFrom notes = match body.runFrom notes with
      | (.ok a, mid) => (.ok a, mid)
      | (.error cause, mid) => (recover cause).runFrom mid := by
  unfold runFrom recovering
  change ((ExceptT.tryCatch body recover).run).run notes = _
  simp only [ExceptT.tryCatch, ExceptT.run_mk, StateT.run_bind]
  simp only [ExceptT.run]
  rcases StateT.run body notes with ⟨_ | _, mid⟩ <;> rfl

theorem runFrom_pure (a : α) (notes : List Text) :
    (pure a : Run α).runFrom notes = (.ok a, notes) := rfl

theorem runFrom_panic (cause : Panic) (notes : List Text) :
    (panic cause : Run α).runFrom notes = (.error cause, notes) := rfl

theorem panic_ne_pure (cause : Panic) (a : α) : (panic cause : Run α) ≠ pure a := by
  intro heq
  have hends := congrArg (fun body => body.runFrom []) heq
  simp [runFrom_panic, runFrom_pure] at hends

/-! ### Sums of machine words -/

theorem addWord_of_lt {a b : UInt64} (h : a.toNat + b.toNat < UInt64.size) :
    addWord a b = pure (a + b) :=
  if_pos h

theorem addWord_of_le {a b : UInt64} (h : UInt64.size ≤ a.toNat + b.toNat) :
    addWord a b = panic overflow :=
  if_neg (Nat.not_lt_of_le h)

/-! ### Ends without a panic -/

namespace Yields

variable {body : Run α} {notes mid later : List Text} {a b : α} {result : β}

theorem pure_iff : Yields (pure a) notes b later ↔ a = b ∧ notes = later := by
  simp [Yields, runFrom_pure]

theorem pure_pair_iff {a' b' : β} :
    Yields (pure (a, a')) notes (b, b') later ↔ a = b ∧ a' = b' ∧ notes = later := by
  rw [pure_iff, Prod.mk.injEq, and_assoc]

/-- A sequence yields what its second part yields behind its first part. -/
theorem bind_iff {next : α → Run β} :
    Yields (body >>= next) notes result later
      ↔ ∃ a mid, Yields body notes a mid ∧ Yields (next a) mid result later := by
  simp only [Yields, runFrom_bind]
  rcases body.runFrom notes with ⟨_ | a, mid⟩ <;> simp [and_assoc]

end Yields

end RadixRouter.Run
