import Tetonic.Run.Domain
set_option autoImplicit false

/-! Lease validation and the classes of attempt states (`lease.rs`). -/

namespace Tetonic.Run
open Lib

/-- Leased, starting or running: the attempt is held by a worker. -/
def AttemptState.inFlight : AttemptState → Bool
  | .leased | .starting | .running => true
  | _ => false

def AttemptState.isOpen : AttemptState → Bool
  | .created | .leased | .starting | .running => true
  | _ => false

def AttemptState.cancelable : AttemptState → Bool
  | .created | .leased | .starting | .running | .suspended => true
  | _ => false

def isTerminalAttempt : AttemptState → Bool
  | .succeeded | .failed | .timedOut | .leaseExpired | .canceled | .superseded => true
  | _ => false

def isResultAcceptableState (state : AttemptState) : Bool := state.inFlight

theorem AttemptState.cancelable_eq_not_terminal (s : AttemptState) :
    s.cancelable = !isTerminalAttempt s := by
  cases s <;> rfl

section
variable {s : AttemptState}

theorem AttemptState.inFlight_not_terminal (h : s.inFlight = true) :
    isTerminalAttempt s = false := by
  revert h
  cases s <;> decide

theorem AttemptState.isOpen_not_terminal (h : s.isOpen = true) : isTerminalAttempt s = false := by
  revert h
  cases s <;> decide

theorem AttemptState.inFlight_open (h : s.inFlight = true) : s.isOpen = true := by
  revert h
  cases s <;> decide

theorem AttemptState.suspended_of_not_open (ht : isTerminalAttempt s = false)
    (ho : s.isOpen = false) : s = .suspended := by
  revert ht ho
  cases s <;> decide

end

def validateLeaseProof (attempt : AttemptRecord) (proof : LeaseProof) : RunOutcome Unit :=
  match attempt.lease with
  | none => fail (.invalidTransition "attempt has no lease")
  | some lease => do
    refuseIf (lease.leaseId ≠ proof.leaseId) (.staleResult "lease id mismatch")
    refuseIf (lease.leaseEpoch ≠ proof.leaseEpoch)
      (.staleLeaseEpoch lease.leaseEpoch proof.leaseEpoch)
    refuseIf (lease.holder ≠ proof.holder) (.staleResult "lease holder mismatch")

/-- A proof is valid for a lease exactly when it names its id, epoch and holder. -/
def LeaseProof.names (proof : LeaseProof) (lease : AttemptLease) : Prop :=
  lease.leaseId = proof.leaseId ∧ lease.leaseEpoch = proof.leaseEpoch ∧ lease.holder = proof.holder

@[simp] theorem validateLeaseProof_eq_ok {attempt : AttemptRecord} {proof : LeaseProof} {u : Unit} :
    validateLeaseProof attempt proof = .ok u ↔
      ∃ lease, attempt.lease = some lease ∧ proof.names lease := by
  unfold validateLeaseProof LeaseProof.names
  cases attempt.lease with
  | none | some => simp

def isLeaseCurrent (attempt : AttemptRecord) (now : UInt64) : Bool :=
  match attempt.lease with
  | none => false
  | some lease => decide (now ≤ lease.expiresAt) && attempt.state.inFlight

theorem isLeaseCurrent_inFlight {attempt : AttemptRecord} {now : UInt64}
    (h : isLeaseCurrent attempt now = true) : attempt.state.inFlight = true := by
  unfold isLeaseCurrent at h
  cases hl : attempt.lease with
  | none => simp [hl] at h
  | some =>
    simp only [hl, Bool.and_eq_true] at h
    exact h.2

def renewLease (lease : AttemptLease) (heartbeatSequence newExpiresAt : UInt64) : AttemptLease :=
  { lease with lastHeartbeatSequence := heartbeatSequence, expiresAt := newExpiresAt }

def canRenewLease (snapshot : RunSnapshot) (attempt : AttemptRecord) (now : UInt64) : Bool :=
  if snapshot.cancellation.runCanceled ∨ snapshot.state = .canceled then false
  else
    match snapshot.tasks[attempt.taskId]? with
    | some task => if task.state = .canceled then false else isLeaseCurrent attempt now
    | none => isLeaseCurrent attempt now

end Tetonic.Run
