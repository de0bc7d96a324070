import Mathlib.Tactic.Common
set_option autoImplicit false

/-! Calls that end with a value, with an error of the program's own, or with a panic.
A body written with `refuseIf`, `orFail` and `unwrap` is a chain of binds, and the
lemmas below turn "it returned `b`" into the conjunction of its guards. -/

namespace Tetonic.Lib

/-- How a call ends when it does not return: an error value, or a panic. -/
inductive Fault (ε : Type) where
  | error (e : ε)
  | panicked
  deriving DecidableEq, Repr

abbrev Outcome (ε α : Type) := Except (Fault ε) α

variable {ε α β : Type}

/-- `if p { return Err(e) }`. -/
def refuseIf (p : Prop) [Decidable p] (e : ε) : Outcome ε Unit :=
  if p then .error (.error e) else .ok ()

/-- `o.ok_or(e)?`. -/
def orFail (o : Option α) (e : ε) : Outcome ε α :=
  match o with
  | some a => .ok a
  | none => .error (.error e)

/-- `o.unwrap()`. -/
def unwrap (o : Option α) : Outcome ε α :=
  match o with
  | some a => .ok a
  | none => .error .panicked

def fail (e : ε) : Outcome ε α := .error (.error e)

@[simp] theorem bind_eq_ok {δ : Type} {x : Except δ α} {f : α → Except δ β} {b : β} :
    (x >>= f) = .ok b ↔ ∃ a, x = .ok a ∧ f a = .ok b := by
  cases x <;> simp [bind, Except.bind]

@[simp] theorem pure_eq_ok {a b : α} : (pure a : Outcome ε α) = .ok b ↔ a = b := by
  simp [pure, Except.pure]

@[simp] theorem refuseIf_eq_ok {p : Prop} [Decidable p] {e : ε} {u : Unit} :
    refuseIf p e = .ok u ↔ ¬ p := by
  unfold refuseIf
  split <;> simp_all

@[simp] theorem orFail_eq_ok {o : Option α} {e : ε} {a : α} : orFail o e = .ok a ↔ o = some a := by
  cases o <;> simp [orFail]

@[simp] theorem unwrap_eq_ok {o : Option α} {a : α} :
    (unwrap o : Outcome ε α) = .ok a ↔ o = some a := by
  cases o <;> simp [unwrap]

@[simp] theorem fail_ne_ok {e : ε} {a : α} : ¬ (fail e : Outcome ε α) = .ok a := by
  simp [fail]

/-! A call ends with the error of the first step that does not return. -/

theorem bind_eq_error {δ : Type} {x : Except δ α} {f : α → Except δ β} {e : δ} :
    (x >>= f) = .error e ↔ x = .error e ∨ ∃ a, x = .ok a ∧ f a = .error e := by
  cases x <;> simp [bind, Except.bind]

theorem refuseIf_eq_error {p : Prop} [Decidable p] {e : ε} {fault : Fault ε} :
    refuseIf p e = .error fault ↔ p ∧ fault = .error e := by
  unfold refuseIf
  split <;> simp_all [eq_comm]

theorem orFail_eq_error {o : Option α} {e : ε} {fault : Fault ε} :
    orFail o e = .error fault ↔ o = none ∧ fault = .error e := by
  cases o <;> simp [orFail, eq_comm]

theorem pure_ne_error {a : α} {fault : Fault ε} : ¬ (pure a : Outcome ε α) = .error fault := by
  simp [pure, Except.pure]

theorem map_bind_outcome {γ : Type} (x : Outcome ε α) (f : α → Outcome ε β) (g : β → γ) :
    (x >>= f).map g = x >>= fun a => (f a).map g := by
  cases x <;> rfl

@[simp] theorem map_pure_outcome {γ : Type} (a : α) (g : α → γ) :
    (pure a : Outcome ε α).map g = pure (g a) := rfl

end Tetonic.Lib
