import Tetonic.Lib.OrdMap
set_option autoImplicit false

/-! The circuit breaker of a worker (`scheduler/circuit.rs`). Times are those of one clock that does
not run backwards, in nanoseconds. -/

namespace Tetonic.Broker
open Lib

inductive CircuitState where
  | closed
  | opened
  | halfOpen
  deriving DecidableEq, Repr

structure WorkerCircuit where
  state : CircuitState := .closed
  failures : Nat := 0
  openedAt : Option Nat := none
  halfOpenSuccesses : Nat := 0
  deriving DecidableEq, Repr

structure CircuitBreakerRegistry where
  inner : OrdMap String WorkerCircuit := ∅
  (failureThreshold openCooldown halfOpenSuccessThreshold : Nat)

/-- The circuit as `state` finds it at `now`. -/
def WorkerCircuit.cooled (c : WorkerCircuit) (cooldown now : Nat) : WorkerCircuit :=
  match c.state, c.openedAt with
  | .opened, some since =>
    if now - since ≥ cooldown then { c with state := .halfOpen, halfOpenSuccesses := 0 } else c
  | _, _ => c

def WorkerCircuit.close (c : WorkerCircuit) : WorkerCircuit :=
  { c with state := .closed, failures := 0, openedAt := none }

/-- A success that comes while the circuit is open closes it, too. -/
def WorkerCircuit.succeed (c : WorkerCircuit) (threshold : Nat) : WorkerCircuit :=
  if c.state = .halfOpen then
    let c := { c with halfOpenSuccesses := c.halfOpenSuccesses + 1 }
    if c.halfOpenSuccesses ≥ threshold then c.close else c
  else c.close

def WorkerCircuit.fail (c : WorkerCircuit) (threshold now : Nat) : WorkerCircuit :=
  let failures := min (c.failures + 1) 4294967295
  if failures ≥ threshold ∨ c.state = .halfOpen then ⟨.opened, failures, some now, 0⟩
  else { c with failures }

inductive CircuitOp where
  | state
  | recordSuccess
  | recordFailure
  deriving DecidableEq, Repr

structure CircuitCall where
  op : CircuitOp
  workerId : String
  now : Nat

namespace CircuitBreakerRegistry

def entry (r : CircuitBreakerRegistry) (workerId : String) : WorkerCircuit :=
  r.inner[workerId]?.getD {}

def state (r : CircuitBreakerRegistry) (workerId : String) (now : Nat) : CircuitState :=
  ((r.entry workerId).cooled r.openCooldown now).state

def allowsDispatch (r : CircuitBreakerRegistry) (workerId : String) (now : Nat) : Bool :=
  !decide (r.state workerId now = .opened)

def after (r : CircuitBreakerRegistry) (c : CircuitCall) : WorkerCircuit :=
  match c.op with
  | .state => (r.entry c.workerId).cooled r.openCooldown c.now
  | .recordSuccess => (r.entry c.workerId).succeed r.halfOpenSuccessThreshold
  | .recordFailure => (r.entry c.workerId).fail r.failureThreshold c.now

def step (r : CircuitBreakerRegistry) (c : CircuitCall) : CircuitBreakerRegistry :=
  { r with inner := r.inner.insert c.workerId (r.after c) }

def run (r : CircuitBreakerRegistry) (calls : List CircuitCall) : CircuitBreakerRegistry :=
  calls.foldl step r

/-- No success of the worker is recorded while its circuit is open. -/
def NoneWhileOpen (workerId : String) : CircuitBreakerRegistry → List CircuitCall → Prop
  | _, [] => True
  | r, c :: calls => (c.op = .recordSuccess → c.workerId = workerId →
      (r.entry workerId).state ≠ .opened) ∧ NoneWhileOpen workerId (r.step c) calls

/-- How many successes of the worker are recorded while its circuit is half open. -/
def halfOpenSuccesses (workerId : String) : CircuitBreakerRegistry → List CircuitCall → Nat
  | _, [] => 0
  | r, c :: calls => halfOpenSuccesses workerId (r.step c) calls +
      if c.op = .recordSuccess ∧ c.workerId = workerId ∧ (r.entry workerId).state = .halfOpen
      then 1 else 0

variable {r : CircuitBreakerRegistry} {workerId : String} {calls : List CircuitCall} {t : Nat}

theorem entry_step (r : CircuitBreakerRegistry) (c : CircuitCall) (workerId : String) :
    (r.step c).entry workerId = if c.workerId = workerId then r.after c else r.entry workerId := by
  unfold entry step
  rw [OrdMap.get_insert]
  split <;> rfl

/-- Opened at `t` or later. -/
def OpenSince (t : Nat) (c : WorkerCircuit) : Prop :=
  c.state = .opened ∧ ∃ since, c.openedAt = some since ∧ t ≤ since

theorem OpenSince.cooled {c : WorkerCircuit} {cooldown now : Nat} (h : OpenSince t c)
    (hle : t ≤ now) (hnow : now < t + cooldown) : c.cooled cooldown now = c := by
  obtain ⟨hstate, since, hsince, hlater⟩ := h
  simp only [WorkerCircuit.cooled, hstate, hsince]
  exact if_neg (by omega)

theorem OpenSince.refuses {u : Nat} (h : OpenSince t (r.entry workerId)) (hle : t ≤ u)
    (hu : u < t + r.openCooldown) : r.allowsDispatch workerId u = false := by
  rw [allowsDispatch, state, h.cooled hle hu, h.1]
  rfl

theorem OpenSince.step {c : CircuitCall} (h : OpenSince t (r.entry workerId))
    (hnone : c.op = .recordSuccess → c.workerId = workerId → (r.entry workerId).state ≠ .opened)
    (hle : t ≤ c.now) (hnow : c.now < t + r.openCooldown) :
    OpenSince t ((r.step c).entry workerId) := by
  rw [entry_step]
  split
  · rename_i heq
    subst heq
    unfold after
    split
    · rwa [h.cooled hle hnow]
    · exact absurd h.1 (hnone ‹_› rfl)
    · simp only [WorkerCircuit.fail]
      split
      · exact ⟨rfl, c.now, rfl, hle⟩
      · exact h
  · exact h

theorem OpenSince.run {u : Nat} (h : OpenSince t (r.entry workerId))
    (hnone : NoneWhileOpen workerId r calls) (htimes : ∀ c ∈ calls, t ≤ c.now ∧ c.now ≤ u)
    (hu : u < t + r.openCooldown) : OpenSince t ((r.run calls).entry workerId) := by
  induction calls generalizing r with
  | nil => exact h
  | cons c calls ih =>
    obtain ⟨hle, hcu⟩ := htimes c List.mem_cons_self
    exact ih (h.step hnone.1 hle (Nat.lt_of_le_of_lt hcu hu)) hnone.2
      (fun d hd => htimes d (List.mem_cons_of_mem _ hd)) hu

/-- A circuit that has been open has `n` successes to show for what it is now. -/
def Earned (threshold n : Nat) (c : WorkerCircuit) : Prop :=
  match c.state with
  | .closed => threshold ≤ n
  | .opened => True
  | .halfOpen => c.halfOpenSuccesses ≤ n

section
variable {threshold n limit cooldown now : Nat} {c : WorkerCircuit} (h : Earned threshold n c)
include h

theorem Earned.cooled : Earned threshold n (c.cooled cooldown now) := by
  unfold WorkerCircuit.cooled
  split
  · split
    · exact Nat.zero_le n
    · exact h
  · exact h

theorem Earned.fail : Earned threshold n (c.fail limit now) := by
  unfold WorkerCircuit.fail
  dsimp only
  split
  · trivial
  · exact h

/-- A success counts while the circuit is half open; the one that fills the threshold closes it. -/
theorem Earned.succeed (hopen : c.state ≠ .opened) :
    Earned threshold (n + if c.state = .halfOpen then 1 else 0) (c.succeed threshold) := by
  unfold WorkerCircuit.succeed
  cases hstate : c.state with
  | opened => exact absurd hstate hopen
  | closed => simpa [Earned, WorkerCircuit.close, hstate] using h
  | halfOpen =>
    have hn : c.halfOpenSuccesses ≤ n := by simpa [Earned, hstate] using h
    simp only [if_true]
    split
    · exact Nat.le_trans ‹_› (Nat.succ_le_succ hn)
    · simpa [Earned, hstate] using hn

end

theorem Earned.step {n : Nat} {c : CircuitCall}
    (h : Earned r.halfOpenSuccessThreshold n (r.entry workerId))
    (hnone : c.op = .recordSuccess → c.workerId = workerId → (r.entry workerId).state ≠ .opened) :
    Earned r.halfOpenSuccessThreshold
      (n + if c.op = .recordSuccess ∧ c.workerId = workerId ∧ (r.entry workerId).state = .halfOpen
        then 1 else 0) ((r.step c).entry workerId) := by
  rw [entry_step]
  by_cases hworker : c.workerId = workerId
  · subst hworker
    rw [if_pos rfl, after]
    cases hop : c.op with
    | state => simpa using h.cooled
    | recordFailure => simpa using h.fail
    | recordSuccess => simpa using h.succeed (hnone hop rfl)
  · simpa [hworker] using h

theorem Earned.run {n : Nat} (h : Earned r.halfOpenSuccessThreshold n (r.entry workerId))
    (hnone : NoneWhileOpen workerId r calls) :
    Earned r.halfOpenSuccessThreshold (n + halfOpenSuccesses workerId r calls)
      ((r.run calls).entry workerId) := by
  induction calls generalizing r n with
  | nil => exact h
  | cons c calls ih =>
    have := ih (r := r.step c) (h.step hnone.1) hnone.2
    rwa [Nat.add_assoc, Nat.add_comm (ite _ _ _)] at this

theorem openCooldown_run (r : CircuitBreakerRegistry) (calls : List CircuitCall) :
    (r.run calls).openCooldown = r.openCooldown := by
  induction calls generalizing r with
  | nil => rfl
  | cons c calls ih => exact ih (r.step c)

/-- Unless successes come in while it is open, a circuit that a failure opens at `t` refuses
until its cooldown is over, and closes on as many half-open successes as it takes. -/
theorem circuit_discipline (r r' : CircuitBreakerRegistry) (workerId : String) (t : Nat)
    (calls : List CircuitCall) (hr' : r' = r.step ⟨.recordFailure, workerId, t⟩)
    (hopen : (r'.entry workerId).state = .opened ∧ (r'.entry workerId).openedAt = some t)
    (hnone : NoneWhileOpen workerId r' calls) :
    (∀ u, t ≤ u → u < t + r.openCooldown → (∀ c ∈ calls, t ≤ c.now ∧ c.now ≤ u) →
      (r'.run calls).allowsDispatch workerId u = false) ∧
    (((r'.run calls).entry workerId).state = .closed →
      r.halfOpenSuccessThreshold ≤ halfOpenSuccesses workerId r' calls) := by
  subst hr'
  constructor
  · intro u hle hu htimes
    have hrun := OpenSince.run ⟨hopen.1, t, hopen.2, Nat.le_refl t⟩ hnone htimes hu
    exact hrun.refuses hle (by rwa [openCooldown_run])
  · intro hclosed
    have h := Earned.run (n := 0) (by simp [Earned, hopen.1]) hnone
    rwa [Earned, hclosed, Nat.zero_add] at h

def demo : CircuitBreakerRegistry := ⟨∅, 3, 30000000000, 1⟩

def failure (now : Nat) : CircuitCall := ⟨.recordFailure, "w", now⟩

def success (now : Nat) : CircuitCall := ⟨.recordSuccess, "w", now⟩

def probe : List CircuitCall := [⟨.state, "w", 30000000000⟩, success 30000000001]

/-- Three failures, a check after the cooldown and a success close the circuit. -/
theorem circuit_discipline_cycle : ∃ r', ((run r' probe).entry "w").state = .closed ∧
    1 ≤ halfOpenSuccesses "w" r' probe := by
  refine ⟨(demo.run [failure 0, failure 0]).step (failure 0), by decide +kernel,
    (circuit_discipline (demo.run [failure 0, failure 0]) _ "w" 0 probe rfl (by decide +kernel)
      ⟨?_, ?_, trivial⟩).2 (by decide +kernel)⟩ <;> decide +kernel

/-- The result of a call made before the third failure comes a second after it. -/
theorem late_success_closes : ∃ r',
    r' = demo.run [failure 0, failure 0, failure 0] ∧ (r'.entry "w").state = .opened ∧
      ((r'.step (success 1000000000)).entry "w").state = .closed ∧
      halfOpenSuccesses "w" r' [success 1000000000] = 0 ∧
      (r'.step (success 1000000000)).allowsDispatch "w" 2000000000 = true :=
  ⟨_, rfl, by decide +kernel⟩

end CircuitBreakerRegistry
end Tetonic.Broker
