import TypeScribe.Files
import TypeScribe.Proofs.Directory

/-!
# Programs on files

What a program that may fail makes of a directory, put together from what its steps make of it.
-/

namespace TypeScribe

variable {ε ε' α β : Type} {before between after directory : Directory}
  {program : ExceptT ε (StateM Directory) α} {next : α → ExceptT ε (StateM Directory) β}

/-- Run in `before`, the program comes to this result and leaves `after` behind. -/
def Yields (program : ExceptT ε (StateM Directory) α) (before : Directory) (result : Except ε α)
    (after : Directory) : Prop :=
  program.run before = (result, after)

section Yields

variable {value : α} {fault : ε} {x : Except ε α}

theorem yields_bind (h : Yields program before x between) :
    (program >>= next).run before =
      match x with
      | .ok value => (next value).run between
      | .error fault => (.error fault, between) := by
  change (ExceptT.bindCont next (program.run before).1) (program.run before).2 = _
  rw [h]
  cases x <;> rfl

theorem Yields.bind_ok {result : Except ε β} (h : Yields program before (.ok value) between)
    (hnext : Yields (next value) between result after) :
    Yields (program >>= next) before result after :=
  (yields_bind h).trans hnext

theorem Yields.bind_error (h : Yields program before (.error fault) after) :
    Yields (program >>= next) before (.error fault) after :=
  yields_bind h

theorem Yields.map (h : Yields program before x after) (f : α → β) :
    Yields (program >>= fun value => pure (f value)) before (x.map f) after := by
  cases x with
  | ok value => exact h.bind_ok rfl
  | error fault => exact h.bind_error

theorem Yields.adapt (h : Yields program before x after) (f : ε → ε') :
    Yields (program.adapt f) before (x.mapError f) after := by
  change ((program.run before).1.mapError f, (program.run before).2) = _
  rw [h]

end Yields

/-! ## Programs that settle -/

/-- If the program can succeed, it does, and has done by then what it should. Otherwise it fails, and
nothing has changed. -/
def Settles (program : ExceptT ε (StateM Directory) α) (before : Directory) (can : Prop)
    (done : α → Directory → Prop) : Prop :=
  (can ∧ ∃ value after, Yields program before (.ok value) after ∧ done value after) ∨
    ¬can ∧ ∃ fault, Yields program before (.error fault) before

/-- The program looks for a value and changes nothing. It fails only if there is none. -/
def Looks (program : ExceptT ε (StateM Directory) α) (directory : Directory) (found : α → Prop) :
    Prop :=
  Settles program directory (∃ value, found value) fun value after =>
    found value ∧ after = directory

section Settles

variable {value : α} {found : α → Prop} {can : Prop} {done : β → Directory → Prop}

theorem Looks.adapt (h : Looks program directory found) (f : ε → ε') :
    Looks (program.adapt f) directory found := by
  obtain ⟨hfound, value, after, hyields, hvalue⟩ | ⟨hnone, fault, hyields⟩ := h
  · exact .inl ⟨hfound, value, after, hyields.adapt f, hvalue⟩
  · exact .inr ⟨hnone, f fault, hyields.adapt f⟩

end Settles

end TypeScribe
