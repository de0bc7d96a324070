import Tetonic.Run.Lifecycle
set_option autoImplicit false

/-! Restart recovery (`recovery.rs`): the pass over expired leases, the detector, and what
`recover_at_startup` makes of one run with them. -/

namespace Tetonic.Run
open Lib

variable (P : Platform)

def AttemptRecord.expiredAt (a : AttemptRecord) (now : UInt64) : Bool :=
  a.state.inFlight && a.lease.any (·.expiresAt < now)

def recoverAttempt (now : UInt64) (snapshot : RunSnapshot) (id : AttemptId) :
    RunOutcome RunSnapshot := do
  let attempt ← unwrap snapshot.attempts[id]?
  expireAttempt P snapshot id attempt "lease expired on recovery" now

def recoverExpiredLeases (snapshot : RunSnapshot) (now : UInt64) : RunOutcome RunSnapshot :=
  (snapshot.attempts.keysWhere fun _ a => a.expiredAt now).foldlM (recoverAttempt P now) snapshot

/-- The intentionally parked run: root task only, its suspension complete, every worker stopped. -/
def parkedExempt (snapshot : RunSnapshot) : Bool :=
  decide (snapshot.state = .active)
    && !snapshot.cancellation.runCanceled
    && decide (snapshot.tasks.size = 1)
    && snapshot.tasks.allValues (fun t =>
        t.binding.activation.isSome && t.binding.executionScope.isSome
          && t.binding.delegation.isNone && t.finalizationClaim.isNone)
    && snapshot.attempts.anyValue (fun a => decide (a.state = .suspended))
    && snapshot.attempts.allValues (fun a =>
        a.executionQuiesced
          && (isTerminalAttempt a.state
            || (decide (a.state = .suspended)
              && a.executionClaimed
              && a.lease.isSome
              && a.suspension.any (fun p =>
                  decide (p.remainingSeconds > 0) && !(p.checkpoint.artifactId == "")
                    && !(p.checkpoint.digest == ""))
              && snapshot.tasks[a.taskId]?.any (fun t =>
                  decide (t.state = .parked) && decide (t.activeAttempt = some a.attemptId)))))
    && snapshot.tasks.allValues (fun t =>
        match t.state with
        | .parked | .succeeded | .failed | .canceled | .skipped => true
        | _ => false)

/-- The test of the loop over attempts: past its task's deadline, its lease lapsed, or no lease. -/
def attemptOverdue (snapshot : RunSnapshot) (now : UInt64) (attempt : AttemptRecord) : Bool :=
  attempt.state.inFlight
    && ((decide (snapshot.state = .active)
        && snapshot.tasks[attempt.taskId]?.any (fun task => task.binding.deadline.any (· ≤ now)))
      || match attempt.lease with
        | some lease => decide (lease.expiresAt < now)
        | none => decide (snapshot.state = .active))

def taskInconsistent (snapshot : RunSnapshot) (task : TaskRecord) : Bool :=
  (decide (task.state = .leased ∨ task.state = .running) && task.activeAttempt.isNone)
    || (task.finalizationClaim.isSome && decide (snapshot.state = .active))

def detectRecoveryRequired (snapshot : RunSnapshot) (now : UInt64) : Bool :=
  if snapshot.state = .recoveryRequired then true
  else if parkedExempt snapshot then false
  else if snapshot.attempts.anyValue (fun a => decide (a.state = .suspended)) then true
  else if snapshot.attempts.anyValue (attemptOverdue snapshot now) then true
  else if snapshot.tasks.anyValue (taskInconsistent snapshot) then true
  else if snapshot.state = .active then
    if snapshot.attempts.anyValue (fun a => decide (a.state = .succeeded)) then true
    else
      snapshot.jobSpec.isSome
        && snapshot.attempts.anyValue (·.state.failedEnd)
        && !snapshot.attempts.anyValue (·.state.inFlight)
  else false

/-- What `recover_at_startup` makes of one run's snapshot. -/
def startupPass (snapshot : RunSnapshot) (now : UInt64) : RunOutcome RunSnapshot := do
  let snap ← recoverExpiredLeases P snapshot now
  if detectRecoveryRequired snap now ∧ snap.state ≠ .recoveryRequired then
    pure { snap with state := .recoveryRequired }
  else pure snap

end Tetonic.Run
