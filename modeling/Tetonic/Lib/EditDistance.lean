import Mathlib.Tactic.Common
set_option autoImplicit false

/-! The least number of insertions, deletions and substitutions between two lists. -/

namespace Tetonic.Lib

variable {α : Type} [DecidableEq α] {a b : List α}

def editDistance : List α → List α → Nat
  | [], b => b.length
  | a, [] => a.length
  | c :: a, d :: b => min (min (editDistance (c :: a) b + 1) (editDistance a (d :: b) + 1))
      (editDistance a b + if c = d then 0 else 1)

theorem editDistance_nil (a : List α) : editDistance a [] = a.length := by
  cases a <;> simp [editDistance]

theorem editDistance_length (a b : List α) :
    a.length ≤ b.length + editDistance a b ∧ b.length ≤ a.length + editDistance a b := by
  induction a generalizing b with
  | nil => simp [editDistance]
  | cons c a iha =>
    induction b with
    | nil => simp [editDistance_nil]
    | cons d b ihb =>
      have h₁ := iha (d :: b)
      have h₂ := iha b
      simp only [editDistance, List.length_cons] at *
      omega

theorem editDistance_comm (a b : List α) : editDistance a b = editDistance b a := by
  induction a generalizing b with
  | nil => simp [editDistance, editDistance_nil]
  | cons c a iha =>
    induction b with
    | nil => simp [editDistance, editDistance_nil]
    | cons d b ihb =>
      simp only [editDistance, iha, ihb, eq_comm]
      omega

theorem editDistance_eq_zero : editDistance a b = 0 ↔ a = b := by
  induction a generalizing b with
  | nil => cases b <;> simp [editDistance]
  | cons c a ih =>
    cases b with
    | nil => simp [editDistance_nil]
    | cons d b => by_cases hcd : c = d <;> simp [editDistance, ih, hcd]

/-- The recursion from the other end. -/
theorem editDistance_snoc (a b : List α) (c d : α) :
    editDistance (a ++ [c]) (b ++ [d]) =
      min (min (editDistance (a ++ [c]) b + 1) (editDistance a (b ++ [d]) + 1))
        (editDistance a b + if c = d then 0 else 1) := by
  induction a generalizing b with
  | nil =>
    induction b with
    | nil => simp [editDistance]
    | cons y b ih =>
      simp [editDistance] at ih ⊢
      omega
  | cons x a iha =>
    induction b with
    | nil =>
      have h := iha []
      simp [editDistance, editDistance_nil] at h ⊢
      omega
    | cons y b ihb =>
      have h₁ := iha (y :: b)
      have h₂ := iha b
      simp only [List.cons_append, editDistance] at h₁ h₂ ihb ⊢
      simp only [h₁, h₂, ihb, ← Nat.add_min_add_right]
      ac_rfl

theorem editDistance_triangle (a b c : List α) :
    editDistance a c ≤ editDistance a b + editDistance b c := by
  -- The step for three non-empty lists uses the bound at five triples, each smaller in the first
  -- list that differs.
  induction a generalizing b c with
  | nil => simpa [editDistance] using (editDistance_length b c).2
  | cons x a iha =>
    induction b generalizing c with
    | nil =>
      have h := iha [] c
      cases c <;> simp [editDistance, editDistance_nil] at h ⊢
      omega
    | cons y b ihb =>
      induction c with
      | nil => simpa [editDistance_nil, Nat.add_comm] using (editDistance_length (x :: a)
          (y :: b)).1
      | cons z c ihc =>
        have h₁ := iha (y :: b) (z :: c)
        have h₂ := ihb (z :: c)
        have h₃ := ihb c
        have h₄ := iha b (z :: c)
        have h₅ := iha b c
        simp only [editDistance] at *
        grind

end Tetonic.Lib
