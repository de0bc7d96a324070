import Tetonic.Lib.Outcome
set_option autoImplicit false

/-! Numbered journals. A journal is a list of events that carry consecutive numbers; a
state is rebuilt from it by running a fallible step over the events. Cutting the journal
below a number and keeping the state reached there rebuilds the same state. -/

namespace Tetonic.Lib

section Numbering

variable {ε : Type} (seq : ε → Nat)

/-- The events are numbered `n + 1`, `n + 2`, and so on. -/
def Consecutive : Nat → List ε → Prop
  | _, [] => True
  | n, e :: es => seq e = n + 1 ∧ Consecutive (n + 1) es

variable {seq}

theorem consecutive_append {n : Nat} {xs ys : List ε} :
    Consecutive seq n (xs ++ ys) ↔ Consecutive seq n xs ∧ Consecutive seq (n + xs.length) ys := by
  induction xs generalizing n with
  | nil => simp [Consecutive]
  | cons e xs ih =>
    have hlen : n + 1 + xs.length = n + (xs.length + 1) := by omega
    simp [Consecutive, ih, hlen, and_assoc]

theorem Consecutive.bounds {n : Nat} {es : List ε} (h : Consecutive seq n es) {e : ε}
    (he : e ∈ es) : n < seq e ∧ seq e ≤ n + es.length := by
  induction es generalizing n with
  | nil => simp at he
  | cons d es ih =>
    obtain ⟨hd, hes⟩ := h
    simp only [List.length_cons]
    rcases List.mem_cons.mp he with rfl | he
    · omega
    · have := ih hes he
      omega

theorem Consecutive.pairwise {n : Nat} {es : List ε} (h : Consecutive seq n es) :
    es.Pairwise fun a b => seq a < seq b := by
  induction es generalizing n with
  | nil => exact List.Pairwise.nil
  | cons e es ih =>
    obtain ⟨he, hes⟩ := h
    refine List.pairwise_cons.mpr ⟨fun d hd => ?_, ih hes⟩
    have := (hes.bounds hd).1
    omega

theorem filter_seq_eq {es : List ε} (h : es.Pairwise fun a b => seq a < seq b) {e : ε}
    (he : e ∈ es) : (es.filter fun a => decide (seq a = seq e)) = [e] := by
  induction es with
  | nil => cases he
  | cons d ds ih =>
    obtain ⟨hd, hds⟩ := List.pairwise_cons.mp h
    rcases List.mem_cons.mp he with rfl | hmem
    · have hnone : (ds.filter fun a => decide (seq a = seq e)) = [] := by
        refine List.filter_eq_nil_iff.mpr fun a ha heq => ?_
        have hlt := hd a ha
        have heq := of_decide_eq_true heq
        omega
      rw [List.filter_cons_of_pos (by simp), hnone]
    · have hlt := hd e hmem
      rw [List.filter_cons_of_neg (by simp only [decide_eq_true_eq]; omega)]
      exact ih hds hmem

section
variable {n : Nat} {es : List ε} (h : Consecutive seq n es) (floor : Nat)
include h

theorem Consecutive.filter_lt :
    es.filter (fun e => decide (seq e < floor)) = es.take (floor - 1 - n) := by
  induction es generalizing n with
  | nil => simp
  | cons e es ih =>
    obtain ⟨he, hes⟩ := h
    by_cases hlt : n + 1 < floor
    · have hcount : floor - 1 - n = floor - 1 - (n + 1) + 1 := by omega
      simp [he, hlt, hcount, ih hes]
    · have hzero : floor - 1 - n = 0 := by omega
      have hzero' : floor - 1 - (n + 1) = 0 := by omega
      simp [he, hlt, hzero, hzero', ih hes]

theorem Consecutive.filter_ge :
    es.filter (fun e => decide (floor ≤ seq e)) = es.drop (floor - 1 - n) := by
  induction es generalizing n with
  | nil => simp
  | cons e es ih =>
    obtain ⟨he, hes⟩ := h
    by_cases hle : floor ≤ n + 1
    · have hzero : floor - 1 - n = 0 := by omega
      have hzero' : floor - 1 - (n + 1) = 0 := by omega
      simp [he, hle, hzero, hzero', ih hes]
    · have hcount : floor - 1 - n = floor - 1 - (n + 1) + 1 := by omega
      simp [he, hle, hcount, ih hes]

end

end Numbering

section Replay

variable {σ ε err : Type} (step : σ → ε → Outcome err σ)

/-- Run the step over the events, in order, up to the first failure. -/
def replay (base : σ) (events : List ε) : Outcome err σ := events.foldlM step base

@[simp] theorem replay_nil (base : σ) : replay step base [] = .ok base := rfl

variable {step}

theorem replay_append (base : σ) (xs ys : List ε) :
    replay step base (xs ++ ys) = replay step base xs >>= fun m => replay step m ys := by
  simp [replay, List.foldlM_append]

theorem replay_snoc {base s : σ} {es : List ε} (h : replay step base es = .ok s) (e : ε) :
    replay step base (es ++ [e]) = step s e := by
  rw [replay_append, h]
  show (step s e >>= fun t => replay step t []) = step s e
  cases step s e <;> rfl

theorem replay_cut {base t : σ} {es : List ε} (h : replay step base es = .ok t) (k : Nat) :
    ∃ m, replay step base (es.take k) = .ok m ∧ replay step m (es.drop k) = .ok t := by
  rw [← List.take_append_drop k es, replay_append, bind_eq_ok] at h
  exact h

theorem replay_invariant {I : σ → Prop} (hstep : ∀ s e t, I s → step s e = .ok t → I t)
    {base t : σ} {es : List ε} (hbase : I base) (h : replay step base es = .ok t) : I t := by
  induction es generalizing base with
  | nil =>
    cases h
    exact hbase
  | cons e es ih =>
    rw [← List.singleton_append, replay_append, bind_eq_ok] at h
    obtain ⟨m, hm, h⟩ := h
    have he : step base e = .ok m := by
      have hone := replay_snoc (replay_nil step base) e
      rw [← hone]
      exact hm
    exact ih (hstep base e m hbase he) h

end Replay

end Tetonic.Lib
