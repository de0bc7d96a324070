import Tetonic.Lib.EditDistance
set_option autoImplicit false

/-! How far two lines are from each other, by the two rows that `fuzzy_patch` keeps. -/

namespace Tetonic.Txn

open Lib

/-- The row `curr` for the character `ca`, from `curr[j]` on: `row` holds `prev[j]`, `prev[j + 1]`
and what follows. -/
def levenshteinRow (ca : Char) : Nat → List Char → List Nat → List Nat
  | curr, cb :: b, prev :: next :: row =>
    let cost := if ca = cb then 0 else 1
    curr :: levenshteinRow ca (min (min (curr + 1) (next + 1)) (prev + cost)) b (next :: row)
  | curr, _, _ => [curr]

def levenshtein (a b : String) : Nat :=
  let prev := List.range (b.toList.length + 1)
  (a.toList.foldl (fun s ca => (s.1 + 1, levenshteinRow ca (s.1 + 1) b.toList s.2))
    (0, prev)).2.getLastD 0

/-- The row of distances from `a` to `b` and to `b` with more and more of a text after it. -/
def distances (a : List Char) : List Char → List Char → List Nat
  | b, [] => [editDistance a b]
  | b, c :: rest => editDistance a b :: distances a (b ++ [c]) rest

theorem levenshteinRow_eq (c : Char) (a b rest : List Char) :
    levenshteinRow c (editDistance (a ++ [c]) b) rest (distances a b rest) =
      distances (a ++ [c]) b rest := by
  induction rest generalizing b with
  | nil => rfl
  | cons d rest ih =>
    have hrest := ih (b ++ [d])
    rw [editDistance_snoc] at hrest
    cases rest <;> simp_all [levenshteinRow, distances]

theorem distances_nil (b rest : List Char) :
    distances [] b rest = List.range' b.length (rest.length + 1) := by
  induction rest generalizing b with
  | nil => simp [distances, editDistance]
  | cons c rest ih => simp [distances, editDistance, ih, List.range'_succ]

theorem distances_last (a b rest : List Char) :
    (distances a b rest).getLastD 0 = editDistance a (b ++ rest) := by
  induction rest generalizing b with
  | nil => simp [distances]
  | cons c rest ih =>
    rw [List.append_cons, ← ih]
    cases rest <;> simp [distances]

theorem foldl_distances (a b done : List Char) :
    (a.foldl (fun s c => (s.1 + 1, levenshteinRow c (s.1 + 1) b s.2))
      (done.length, distances done [] b)).2 = distances (done ++ a) [] b := by
  induction a generalizing done with
  | nil => simp
  | cons c a ih =>
    have hrow := levenshteinRow_eq c done [] b
    rw [editDistance_nil, List.length_append, List.length_singleton] at hrow
    simpa [hrow] using ih (done ++ [c])

theorem levenshtein_eq (a b : String) : levenshtein a b = editDistance a.toList b.toList := by
  have hrow := foldl_distances a.toList b.toList []
  rw [distances_nil, List.length_nil, ← List.range_eq_range'] at hrow
  rw [levenshtein, hrow, distances_last, List.nil_append, List.nil_append]

theorem levenshtein_editDistance :
    (∀ a b : String, levenshtein a b = editDistance a.toList b.toList) ∧
    (∀ a b : String, levenshtein a b = levenshtein b a) ∧
    (∀ a b : String, levenshtein a b = 0 ↔ a = b) ∧
    ∀ a b c : String, levenshtein a c ≤ levenshtein a b + levenshtein b c := by
  refine ⟨levenshtein_eq, fun a b => ?_, fun a b => ?_, fun a b c => ?_⟩
  · rw [levenshtein_eq, levenshtein_eq, editDistance_comm]
  · rw [levenshtein_eq, editDistance_eq_zero, String.toList_inj]
  · rw [levenshtein_eq, levenshtein_eq, levenshtein_eq]
    exact editDistance_triangle _ _ _

example : levenshtein "kitten" "sitting" = 3 := by decide +kernel

end Tetonic.Txn
