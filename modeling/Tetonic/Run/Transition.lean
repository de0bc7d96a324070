import Tetonic.Lib.Sums
import Tetonic.Run.Retry
set_option autoImplicit false

/-! The run state machine (`transition.rs`, `transition/`, `acceptance.rs`): what each
command checks and what it does to the snapshot. No function here reads the event list or
changes the sequence number. -/

namespace Tetonic.Run
open Lib

variable (P : Platform)

def newTask (taskId : TaskId) (binding : TaskInputBinding) : TaskRecord where
  taskId
  state := .created
  binding
  acceptedArtifact := none
  activeAttempt := none
  winningAttempt := none
  finalizationClaim := none
  completedVersion := none
  retry := {}
  sideEffectKeys := []

def ensureNotRecovery (run : RunSnapshot) : RunOutcome Unit :=
  refuseIf (run.state = .recoveryRequired) .recoveryRequired

def ensureRunAcceptsMutations (run : RunSnapshot) : RunOutcome Unit := do
  ensureNotRecovery run
  refuseIf (run.cancellation.runCanceled = true) (.runNotAccepting .canceled)
  refuseIf (¬ (run.state = .active ∨ run.state = .created)) (.runNotAccepting run.state)

def findTask (snapshot : RunSnapshot) (id : TaskId) : RunOutcome TaskRecord :=
  orFail snapshot.tasks[id]? (.taskNotFound id)

def findAttempt (snapshot : RunSnapshot) (id : AttemptId) : RunOutcome AttemptRecord :=
  orFail snapshot.attempts[id]? (.attemptNotFound id)

def applyCreateRun (snapshot : RunSnapshot) (cmd : CreateRun) : RunOutcome RunSnapshot := do
  refuseIf (snapshot.tasks.isEmpty = false ∨ snapshot.sequence > 0)
    (.conflict ("run " ++ cmd.runId ++ " already exists"))
  pure { snapshot with
    runId := cmd.runId
    sessionId := cmd.sessionId
    state := .created
    workspaceVersion := cmd.rootBinding.workspaceVersion
    deadlines := { snapshot.deadlines with runDeadline := cmd.rootBinding.deadline }
    tasks := snapshot.tasks.insert cmd.rootTaskId (newTask cmd.rootTaskId cmd.rootBinding)
    speculation := cmd.speculation.getD snapshot.speculation
    jobSpec := cmd.jobSpec }

def applyStartRun (snapshot : RunSnapshot) (cmd : StartRun) : RunOutcome RunSnapshot := do
  refuseIf (snapshot.runId ≠ cmd.runId) (.runNotFound cmd.runId)
  refuseIf (snapshot.state ≠ .created)
    (.invalidTransition ("cannot start run from " ++ snapshot.state.debug))
  pure (recomputeBlockedReady { snapshot with state := .active })

/-- The fence of a delegated task: the delegating attempt still runs under the given lease.
Old journals omit the lease, and with it the check. -/
def checkDelegation (snapshot : RunSnapshot) (delegation : Option DelegatedTaskBinding)
    (timestamp : UInt64) : RunOutcome Unit :=
  match delegation.bind fun d => d.parentLease.map (d.parentAttempt, ·) with
  | none => pure ()
  | some (parentAttempt, proof) => do
    let parent ← findAttempt snapshot parentAttempt
    validateLeaseProof parent proof
    let task ← findTask snapshot parent.taskId
    refuseIf (parent.state ≠ .running
        ∨ parent.executionClaimed = false
        ∨ parent.executionQuiesced = true
        ∨ parent.suspension.isSome = true
        ∨ task.state ≠ .running
        ∨ task.activeAttempt ≠ some parent.attemptId
        ∨ task.finalizationClaim.isSome = true
        ∨ isLeaseCurrent parent timestamp = false
        ∨ task.binding.deadline.any (· ≤ timestamp) = true)
      (.invalidTransition "delegation requires the current running parent")

def addTask (snapshot : RunSnapshot) (cmd : AddTask) : RunOutcome RunSnapshot := do
  ensureRunAcceptsMutations snapshot
  checkDelegation snapshot cmd.binding.delegation cmd.envelope.timestamp
  refuseIf (snapshot.tasks.contains cmd.taskId = true)
    (.conflict ("task " ++ cmd.taskId ++ " exists"))
  pure (recomputeBlockedReady { snapshot with
    tasks := snapshot.tasks.insert cmd.taskId (newTask cmd.taskId cmd.binding) })

def applyAddDependency (snapshot : RunSnapshot) (cmd : AddDependency) :
    RunOutcome RunSnapshot := do
  ensureRunAcceptsMutations snapshot
  let task ← findTask snapshot cmd.taskId
  refuseIf (taskIsLocked task.state = true) .dependencyLocked
  refuseIf (snapshot.tasks.contains cmd.dependsOn = false) (.taskNotFound cmd.dependsOn)
  refuseIf (wouldCreateCycle snapshot.dependencies cmd.taskId cmd.dependsOn = true) .cycleDetected
  pure (recomputeBlockedReady { snapshot with
    dependencies := snapshot.dependencies.insert cmd.taskId
      (snapshot.dependencies[cmd.taskId]?.getD [] ++ [⟨cmd.dependsOn, cmd.policy⟩]) })

def applyMarkTaskReady (snapshot : RunSnapshot) (cmd : MarkTaskReady) :
    RunOutcome RunSnapshot := do
  ensureRunAcceptsMutations snapshot
  let task ← findTask snapshot cmd.taskId
  if task.state = .ready then pure snapshot
  else do
    refuseIf (¬ (task.state = .created ∨ task.state = .blocked))
      (.invalidTransition ("cannot mark ready from " ++ task.state.debug))
    refuseIf (task.retry.nextRetryAt.any (cmd.envelope.timestamp < ·) = true)
      (.invalidTransition "retry backoff not elapsed")
    refuseIf (dependenciesSatisfied snapshot cmd.taskId = false)
      (.invalidTransition "dependencies not satisfied")
    pure { snapshot with tasks := snapshot.tasks.insert cmd.taskId { task with state := .ready } }

/-- The digest an attempt of the task is bound to: the job's own, or the binding's. -/
def inputDigestOf (snapshot : RunSnapshot) (binding : TaskInputBinding) : String :=
  match binding.jobSpec.or snapshot.jobSpec with
  | some spec => spec.inputDigest
  | none => bindingInputDigest P binding

def newAttempt (snapshot : RunSnapshot) (cmd : CreateAttempt) (task : TaskRecord) :
    AttemptRecord where
  suspension := none
  executionQuiesced := false
  executionClaimed := false
  attemptId := cmd.attemptId
  taskId := cmd.taskId
  state := .created
  taskVersion := task.binding.taskDefinitionVersion
  workspaceVersion := task.binding.workspaceVersion
  inputDigest := inputDigestOf P snapshot task.binding
  resultDigest := none
  deliveryKey := cmd.deliveryKey
  lease := none
  failureClass := none
  failureReason := none
  attemptNumber := task.retry.attemptCount + 1

def applyCreateAttempt (snapshot : RunSnapshot) (cmd : CreateAttempt) :
    RunOutcome RunSnapshot := do
  ensureRunAcceptsMutations snapshot
  match cmd.deliveryKey.bind (snapshot.deliveryIndex[·]?) with
  | some existing => do
    refuseIf (existing ≠ cmd.attemptId)
      (.duplicateDelivery ("delivery key bound to " ++ existing))
    pure snapshot
  | none => do
    let task ← findTask snapshot cmd.taskId
    refuseIf (task.state ≠ .ready ∧ task.state ≠ .leased
        ∧ ¬ (snapshot.speculation.allowed = true ∧ task.state = .running))
      (.invalidTransition ("cannot create attempt for task in " ++ task.state.debug))
    refuseIf (task.retry.attemptCount ≥ task.binding.retryPolicy.maxAttempts) .retryLimitExceeded
    refuseIf (snapshot.attempts.contains cmd.attemptId = true)
      (.conflict ("attempt " ++ cmd.attemptId ++ " exists"))
    let activeCount := snapshot.attempts.countValues fun a =>
      decide (a.taskId = cmd.taskId) && a.state.isOpen
    refuseIf (activeCount ≥ snapshot.speculation.maxSimultaneousAttempts)
      (.conflict "max simultaneous attempts reached")
    pure { snapshot with
      attempts := snapshot.attempts.insert cmd.attemptId (newAttempt P snapshot cmd task)
      deliveryIndex := match cmd.deliveryKey with
        | some key => snapshot.deliveryIndex.insert key cmd.attemptId
        | none => snapshot.deliveryIndex
      tasks := snapshot.tasks.insert cmd.taskId { task with
        activeAttempt := some cmd.attemptId
        state := if task.state = .ready then .leased else task.state } }

def applyLeaseAttempt (snapshot : RunSnapshot) (cmd : LeaseAttempt) : RunOutcome RunSnapshot := do
  ensureRunAcceptsMutations snapshot
  let attempt ← findAttempt snapshot cmd.attemptId
  refuseIf (attempt.state ≠ .created)
    (.invalidTransition ("cannot lease attempt from " ++ attempt.state.debug))
  -- The release profile wraps: `next_lease_epoch + 1` of the last epoch is 0.
  let epoch := if cmd.leaseEpoch > 0 then cmd.leaseEpoch else snapshot.nextLeaseEpoch + 1
  let lease : AttemptLease := {
    leaseId := cmd.leaseId
    attemptId := cmd.attemptId
    leaseEpoch := epoch
    holder := cmd.holder
    issuedAt := cmd.issuedAt
    expiresAt := cmd.expiresAt
    heartbeatIntervalSecs := cmd.heartbeatIntervalSecs
    lastHeartbeatSequence := 0 }
  pure { snapshot with
    nextLeaseEpoch := epoch
    attempts := snapshot.attempts.insert cmd.attemptId
      { attempt with state := .leased, lease := some lease } }

def applyClaimExecution (snapshot : RunSnapshot) (cmd : StartAttempt) :
    RunOutcome RunSnapshot := do
  ensureRunAcceptsMutations snapshot
  let attempt ← findAttempt snapshot cmd.attemptId
  refuseIf (attempt.state ≠ .starting ∨ attempt.executionClaimed = true)
    (.duplicateDelivery "Attempt already dispatched or not started")
  validateLeaseProof attempt cmd.leaseProof
  refuseIf (isLeaseCurrent attempt cmd.envelope.timestamp = false)
    (.staleResult "lease expired before dispatch")
  pure { snapshot with
    attempts := snapshot.attempts.insert cmd.attemptId
      { attempt with executionClaimed := true, state := .running }
    tasks := snapshot.tasks.modify attempt.taskId fun task => { task with state := .running } }

def applyStartAttempt (snapshot : RunSnapshot) (cmd : StartAttempt) : RunOutcome RunSnapshot := do
  ensureRunAcceptsMutations snapshot
  let attempt ← findAttempt snapshot cmd.attemptId
  refuseIf (attempt.state ≠ .leased)
    (.invalidTransition ("cannot start attempt from " ++ attempt.state.debug))
  validateLeaseProof attempt cmd.leaseProof
  pure { snapshot with
    attempts := snapshot.attempts.insert cmd.attemptId { attempt with state := .starting } }

def byteLength (s : String) : Nat := s.utf8ByteSize

def suspend (snapshot : RunSnapshot) (cmd : SuspendAttempt) : RunOutcome RunSnapshot := do
  ensureRunAcceptsMutations snapshot
  let attempt ← findAttempt snapshot cmd.attemptId
  validateLeaseProof attempt cmd.leaseProof
  let task ← findTask snapshot attempt.taskId
  refuseIf (snapshot.tasks.size ≠ 1
      ∨ task.activeAttempt ≠ some cmd.attemptId
      ∨ snapshot.attempts.anyValue (fun other =>
          decide (other.attemptId ≠ cmd.attemptId)
            && (!other.executionQuiesced || !isTerminalAttempt other.state)) = true
      ∨ task.binding.activation.isNone = true
      ∨ task.binding.delegation.isSome = true
      ∨ task.binding.executionScope.isNone = true
      ∨ attempt.state ≠ .running
      ∨ attempt.executionClaimed = false
      ∨ attempt.executionQuiesced = true
      ∨ attempt.suspension.isSome = true
      ∨ task.state ≠ .running
      ∨ task.finalizationClaim.isSome = true
      ∨ isLeaseCurrent attempt cmd.envelope.timestamp = false
      ∨ byteLength cmd.checkpoint.artifactId = 0
      ∨ byteLength cmd.checkpoint.artifactId > 256
      ∨ byteLength cmd.checkpoint.digest = 0
      ∨ byteLength cmd.checkpoint.digest > 256)
    (.invalidTransition "suspension requires a claimed, quiescent executor boundary")
  let remainingSeconds ← orFail
    ((task.binding.deadline.bind (checkedSub · cmd.envelope.timestamp)).filter (· > 0))
    (.invalidTransition "suspension requires unspent execution time")
  pure { snapshot with
    attempts := snapshot.attempts.insert cmd.attemptId { attempt with
      state := .suspended
      executionQuiesced := true
      suspension := some {
        checkpoint := cmd.checkpoint
        reason := cmd.reason
        suspendedAt := cmd.envelope.timestamp
        remainingSeconds } }
    tasks := snapshot.tasks.insert attempt.taskId { task with state := .parked } }

def resume (snapshot : RunSnapshot) (cmd : ResumeAttempt) : RunOutcome RunSnapshot := do
  ensureRunAcceptsMutations snapshot
  let attempt ← findAttempt snapshot cmd.attemptId
  validateLeaseProof attempt cmd.leaseProof
  let parked ← orFail attempt.suspension (.invalidTransition "attempt has no saved suspension")
  let task ← findTask snapshot attempt.taskId
  refuseIf (snapshot.tasks.size ≠ 1
      ∨ task.activeAttempt ≠ some cmd.attemptId
      ∨ attempt.executionClaimed = false
      ∨ task.finalizationClaim.isSome = true
      ∨ snapshot.attempts.anyValue (fun other =>
          decide (other.attemptId ≠ cmd.attemptId)
            && (!other.executionQuiesced || !isTerminalAttempt other.state)) = true
      ∨ task.binding.activation.isNone = true
      ∨ task.binding.delegation.isSome = true
      ∨ task.binding.executionScope.isNone = true
      ∨ attempt.state ≠ .suspended
      ∨ attempt.executionQuiesced = false
      ∨ task.state ≠ .parked
      ∨ parked.checkpoint ≠ cmd.checkpoint
      ∨ cmd.envelope.timestamp < parked.suspendedAt
      ∨ parked.remainingSeconds = 0)
    (.invalidTransition "suspension changed before resumption")
  let deadline ← orFail (checkedAdd cmd.envelope.timestamp parked.remainingSeconds)
    (.invalidTransition "resume deadline overflow")
  let epoch ← orFail (checkedAdd snapshot.nextLeaseEpoch 1)
    (.invalidTransition "lease epoch overflow")
  let lease ← unwrap attempt.lease
  pure { snapshot with
    nextLeaseEpoch := epoch
    attempts := snapshot.attempts.insert cmd.attemptId { attempt with
      state := .starting
      executionClaimed := false
      executionQuiesced := false
      suspension := none
      lease := some { lease with
        leaseEpoch := epoch
        holder := cmd.holder
        issuedAt := cmd.envelope.timestamp
        expiresAt := saturatingAdd cmd.envelope.timestamp 300
        lastHeartbeatSequence := 0 } }
    tasks := snapshot.tasks.insert attempt.taskId { task with
      state := .leased
      binding := { task.binding with deadline := some deadline } }
    deadlines := if task.binding.activation.isSome = true then
        { snapshot.deadlines with runDeadline := some deadline }
      else snapshot.deadlines }

def heartbeatLease (cmd : RecordHeartbeat) (lease : AttemptLease) : AttemptLease :=
  match cmd.renewedExpiresAt with
  | some newExpiresAt =>
    if cmd.report.leaseRenewalRequested then renewLease lease cmd.heartbeatSequence newExpiresAt
    else lease
  | none => { lease with lastHeartbeatSequence := cmd.heartbeatSequence }

def applyRecordHeartbeat (snapshot : RunSnapshot) (cmd : RecordHeartbeat) :
    RunOutcome RunSnapshot := do
  let attempt ← findAttempt snapshot cmd.attemptId
  refuseIf (attempt.state.inFlight = false) (.invalidTransition "heartbeat on inactive attempt")
  validateLeaseProof attempt cmd.leaseProof
  refuseIf (cmd.heartbeatSequence ≤ (attempt.lease.map (·.lastHeartbeatSequence)).getD 0)
    (.staleResult "non-monotonic heartbeat sequence")
  refuseIf (canRenewLease snapshot attempt cmd.envelope.timestamp = false)
    (.invalidTransition "cannot renew lease")
  pure { snapshot with
    attempts := snapshot.attempts.insert cmd.attemptId
      { attempt with lease := attempt.lease.map (heartbeatLease cmd) } }

def digestAccepted (snapshot : RunSnapshot) (binding : TaskInputBinding) (digest : String) : Bool :=
  match binding.jobSpec.or snapshot.jobSpec with
  | some spec => decide (spec.inputDigest = digest)
  | none => inputDigestMatches P binding digest

/-- Unicode `White_Space`, which `str::trim` removes. -/
def isTrimmed (c : Char) : Bool :=
  let n := c.toNat
  (0x09 ≤ n && n ≤ 0x0d) || n == 0x20 || n == 0x85 || n == 0xa0 || n == 0x1680
    || (0x2000 ≤ n && n ≤ 0x200a) || n == 0x2028 || n == 0x2029 || n == 0x202f || n == 0x205f
    || n == 0x3000

def isBlank (s : String) : Bool := s.toList.all isTrimmed

def tryAcceptCompletion (snapshot : RunSnapshot) (cmd : CompleteAttempt) : RunOutcome Unit := do
  refuseIf (snapshot.cancellation.runCanceled = true) (.invalidTransition "run canceled")
  let attempt ← findAttempt snapshot cmd.attemptId
  if attempt.state = .succeeded ∧ attempt.resultDigest = some cmd.resultDigest then pure ()
  else do
    refuseIf (isResultAcceptableState attempt.state = false)
      (.staleResult ("cannot accept result from " ++ attempt.state.debug))
    validateLeaseProof attempt cmd.leaseProof
    refuseIf (isLeaseCurrent attempt cmd.envelope.timestamp = false) (.staleResult "lease expired")
    refuseIf (attempt.taskVersion ≠ cmd.taskVersion) (.conflict "task version mismatch")
    let task ← findTask snapshot attempt.taskId
    refuseIf (task.state = .canceled) (.invalidTransition "task canceled")
    refuseIf (digestAccepted P snapshot task.binding cmd.inputDigest = false)
      (.conflict "input digest mismatch")
    refuseIf (workspaceMatches task.binding cmd.workspaceVersion = false)
      (.conflict "workspace version mismatch")
    refuseIf (isBlank cmd.resultDigest = true) (.conflict "invalid result digest")
    refuseIf (task.winningAttempt.any (· ≠ cmd.attemptId) = true)
      (.staleResult "another attempt already won")
    refuseIf (task.completedVersion = some cmd.taskVersion ∧ task.winningAttempt.isSome = true)
      (.staleResult "task version already completed")
    refuseIf (task.binding.deadline.any (· ≤ cmd.envelope.timestamp) = true)
      (.deadlineExceeded .task)

def tryClaimFinalization (snapshot : RunSnapshot) (cmd : ClaimFinalization) : RunOutcome Unit := do
  refuseIf (snapshot.cancellation.runCanceled = true) (.invalidTransition "run canceled")
  let task ← findTask snapshot cmd.taskId
  refuseIf (task.binding.deadline.any (· ≤ cmd.envelope.timestamp) = true)
    (.deadlineExceeded .task)
  if task.finalizationClaim = some cmd.attemptId then pure ()
  else do
    refuseIf (task.finalizationClaim.isSome = true) (.staleResult "another attempt already claimed")
    refuseIf (task.winningAttempt.any (· ≠ cmd.attemptId) = true)
      (.staleResult "another attempt already won")
    refuseIf (task.state = .canceled) (.invalidTransition "task canceled")
    let attempt ← findAttempt snapshot cmd.attemptId
    refuseIf (attempt.taskId ≠ cmd.taskId) (.conflict "task mismatch")
    validateLeaseProof attempt cmd.leaseProof
    refuseIf (isLeaseCurrent attempt cmd.envelope.timestamp = false) (.staleResult "lease expired")
    refuseIf (attempt.taskVersion ≠ cmd.taskVersion) (.conflict "task version mismatch")
    refuseIf (digestAccepted P snapshot task.binding cmd.inputDigest = false)
      (.conflict "input digest mismatch")

def supersede (taskId : TaskId) (winner : AttemptId) (id : AttemptId) (a : AttemptRecord) :
    AttemptRecord :=
  if a.taskId = taskId ∧ id ≠ winner ∧ a.state.isOpen = true then { a with state := .superseded }
  else a

def applyWinnerSelection (out : RunSnapshot) (attemptId : AttemptId) (taskId : TaskId)
    (taskVersion : UInt64) : RunOutcome RunSnapshot := do
  let task ← unwrap out.tasks[taskId]?
  pure { out with
    tasks := out.tasks.insert taskId
      { task with winningAttempt := some attemptId, completedVersion := some taskVersion }
    attempts := out.attempts.map (supersede taskId attemptId) }

def applyClaimFinalization (snapshot : RunSnapshot) (cmd : ClaimFinalization) :
    RunOutcome RunSnapshot := do
  ensureNotRecovery snapshot
  tryClaimFinalization P snapshot cmd
  let task ← findTask snapshot cmd.taskId
  pure { snapshot with
    tasks := snapshot.tasks.insert cmd.taskId
      { task with finalizationClaim := some cmd.attemptId } }

def applyCompleteAttempt (snapshot : RunSnapshot) (cmd : CompleteAttempt) :
    RunOutcome RunSnapshot := do
  ensureNotRecovery snapshot
  tryAcceptCompletion P snapshot cmd
  let attempt ← findAttempt snapshot cmd.attemptId
  if attempt.state = .succeeded then pure snapshot
  else
    applyWinnerSelection { snapshot with
      attempts := snapshot.attempts.insert cmd.attemptId { attempt with
        state := .succeeded
        resultDigest := some cmd.resultDigest
        workspaceVersion := cmd.workspaceVersion } }
      cmd.attemptId attempt.taskId cmd.taskVersion

/-- `if let Some(proof) = &cmd.lease_proof { validate_lease_proof(attempt, proof)?; }`. -/
def validateGivenProof (attempt : AttemptRecord) (proof : Option LeaseProof) : RunOutcome Unit :=
  match proof with
  | some proof => validateLeaseProof attempt proof
  | none => pure ()

def applyFailAttempt (snapshot : RunSnapshot) (cmd : FailAttempt) : RunOutcome RunSnapshot := do
  ensureNotRecovery snapshot
  let attempt ← findAttempt snapshot cmd.attemptId
  validateGivenProof attempt cmd.leaseProof
  refuseIf (attempt.state.inFlight = false)
    (.invalidTransition ("cannot fail attempt from " ++ attempt.state.debug))
  let failureClass := match cmd.timeoutKind with
    | some kind => failureClassForTimeout kind
    | none => cmd.failureClass
  applyFailureWithRetry P { snapshot with
      attempts := snapshot.attempts.insert cmd.attemptId { attempt with
        state := mapAttemptStateForFailure failureClass
        failureClass := some failureClass
        failureReason := some cmd.reason } }
    attempt.taskId failureClass cmd.reason cmd.envelope.timestamp

/-- An in-flight attempt loses its lease; also the body of the recovery loop. -/
def expireAttempt (snapshot : RunSnapshot) (id : AttemptId) (attempt : AttemptRecord)
    (reason : String) (now : UInt64) : RunOutcome RunSnapshot :=
  applyFailureWithRetry P { snapshot with
      attempts := snapshot.attempts.insert id { attempt with
        state := .leaseExpired
        failureClass := some .leaseExpired
        failureReason := some reason } }
    attempt.taskId .leaseExpired reason now

def applyExpireLease (snapshot : RunSnapshot) (cmd : ExpireLease) : RunOutcome RunSnapshot := do
  let attempt ← findAttempt snapshot cmd.attemptId
  if attempt.state.inFlight = false then pure snapshot
  else expireAttempt P snapshot cmd.attemptId attempt "lease expired" cmd.expiredAt

def cancelAttempt (a : AttemptRecord) : AttemptRecord :=
  if a.state.cancelable = true then { a with state := .canceled, failureClass := some .canceled }
  else a

def applyCancelTask (snapshot : RunSnapshot) (cmd : CancelTask) : RunOutcome RunSnapshot := do
  let task ← findTask snapshot cmd.taskId
  refuseIf (task.state = .succeeded) (.invalidTransition "cannot cancel succeeded task")
  pure { snapshot with
    tasks := snapshot.tasks.insert cmd.taskId { task with state := .canceled }
    attempts := snapshot.attempts.map fun _ a =>
      if a.taskId = cmd.taskId then cancelAttempt a else a }

def cancelTaskRecord (t : TaskRecord) : TaskRecord :=
  if taskIsExecutable t.state = true ∨ taskIsLocked t.state = true then
    { t with state := .canceled }
  else t

def applyCancelRun (snapshot : RunSnapshot) (cmd : CancelRun) : RunOutcome RunSnapshot := do
  refuseIf (snapshot.runId ≠ cmd.runId) (.runNotFound cmd.runId)
  if snapshot.state = .succeeded ∨ snapshot.state = .failed ∨ snapshot.state = .canceled then
    pure snapshot
  else do
    refuseIf (snapshot.state = .recoveryRequired
        ∧ cmd.envelope.expectedSequence ≠ some snapshot.sequence)
      .recoveryRequired
    pure { snapshot with
      cancellation := {
        sessionCanceled := snapshot.cancellation.sessionCanceled
        runCanceled := true
        canceledAt := some cmd.envelope.timestamp
        reason := some "run canceled" }
      tasks := snapshot.tasks.map fun _ t => cancelTaskRecord t
      attempts := snapshot.attempts.map fun _ a => cancelAttempt a
      state := .canceled }

def applyAcceptArtifact (snapshot : RunSnapshot) (cmd : AcceptArtifact) :
    RunOutcome RunSnapshot := do
  ensureNotRecovery snapshot
  let attempt ← findAttempt snapshot cmd.attemptId
  refuseIf (attempt.state ≠ .succeeded)
    (.invalidTransition "attempt must succeed before artifact acceptance")
  refuseIf (attempt.taskId ≠ cmd.taskId) (.conflict "task/attempt mismatch")
  let task ← findTask snapshot cmd.taskId
  pure { snapshot with
    tasks := snapshot.tasks.insert cmd.taskId
      { task with acceptedArtifact := some cmd.artifact, state := .succeeded } }

def applyRejectArtifact (snapshot : RunSnapshot) (cmd : RejectArtifact) :
    RunOutcome RunSnapshot := do
  let attempt ← findAttempt snapshot cmd.attemptId
  refuseIf (attempt.state ≠ .succeeded) (.invalidTransition "attempt not succeeded")
  refuseIf (attempt.taskId ≠ cmd.taskId) (.conflict "task/attempt mismatch")
  let task ← findTask snapshot cmd.taskId
  applyFailureWithRetry P { snapshot with
      tasks := snapshot.tasks.insert cmd.taskId
        { task with state := .ready, winningAttempt := none, completedVersion := none }
      attempts := snapshot.attempts.insert cmd.attemptId { attempt with
        state := .failed
        failureClass := some .verificationFailed
        failureReason := some cmd.reason } }
    attempt.taskId .verificationFailed cmd.reason cmd.envelope.timestamp

def applyRecordSideEffectCommit (snapshot : RunSnapshot) (cmd : RecordSideEffectCommit) :
    RunOutcome RunSnapshot :=
  recordSideEffectCommit snapshot cmd.taskId cmd.operationKey cmd.transactionId cmd.committedAt

def RunFinishOutcome.runState : RunFinishOutcome → RunState
  | .succeeded => .succeeded
  | .failed => .failed
  | .canceled => .canceled

def applyFinishRun (snapshot : RunSnapshot) (cmd : FinishRun) : RunOutcome RunSnapshot := do
  refuseIf (snapshot.runId ≠ cmd.runId) (.runNotFound cmd.runId)
  if snapshot.state = .canceled ∧ cmd.outcome = .canceled then pure snapshot
  else do
    refuseIf (¬ (snapshot.state = .active ∨ snapshot.state = .created))
      (.invalidTransition ("cannot finish run from " ++ snapshot.state.debug))
    pure { snapshot with state := cmd.outcome.runState }

def applyAttemptQuiescence (snapshot : RunSnapshot) (cmd : StartAttempt) :
    RunOutcome RunSnapshot := do
  let attempt ← findAttempt snapshot cmd.attemptId
  validateLeaseProof attempt cmd.leaseProof
  refuseIf (isTerminalAttempt attempt.state = false)
    (.invalidTransition "quiescence requires a terminal attempt")
  pure { snapshot with
    attempts := snapshot.attempts.insert cmd.attemptId
      { attempt with executionQuiesced := true } }

def applyCommand (snapshot : RunSnapshot) : RunCommand → RunOutcome RunSnapshot
  | .createRun c => applyCreateRun snapshot c
  | .startRun c => applyStartRun snapshot c
  | .addTask c => addTask snapshot c
  | .addDependency c => applyAddDependency snapshot c
  | .markTaskReady c => applyMarkTaskReady snapshot c
  | .createAttempt c => applyCreateAttempt P snapshot c
  | .leaseAttempt c => applyLeaseAttempt snapshot c
  | .startAttempt c => applyStartAttempt snapshot c
  | .claimExecution c => applyClaimExecution snapshot c
  | .suspendAttempt c => suspend snapshot c
  | .resumeAttempt c => resume snapshot c
  | .recordHeartbeat c => applyRecordHeartbeat snapshot c
  | .claimFinalization c => applyClaimFinalization P snapshot c
  | .completeAttempt c => applyCompleteAttempt P snapshot c
  | .failAttempt c => applyFailAttempt P snapshot c
  | .expireLease c => applyExpireLease P snapshot c
  | .cancelTask c => applyCancelTask snapshot c
  | .cancelRun c => applyCancelRun snapshot c
  | .acceptArtifact c => applyAcceptArtifact snapshot c
  | .rejectArtifact c => applyRejectArtifact P snapshot c
  | .recordSideEffectCommit c => applyRecordSideEffectCommit snapshot c
  | .finishRun c => applyFinishRun snapshot c
  | .recordAttemptQuiescence c => applyAttemptQuiescence snapshot c

def eventTypeFor : RunCommand → String
  | .createRun _ => "run.created"
  | .startRun _ => "run.started"
  | .addTask _ => "task.added"
  | .addDependency _ => "dependency.added"
  | .markTaskReady _ => "task.ready"
  | .createAttempt _ => "attempt.created"
  | .leaseAttempt _ => "attempt.leased"
  | .startAttempt _ => "attempt.started"
  | .claimExecution _ => "attempt.execution_claimed"
  | .suspendAttempt _ => "attempt.suspended"
  | .resumeAttempt _ => "attempt.resumed"
  | .recordHeartbeat _ => "attempt.heartbeat"
  | .claimFinalization _ => "finalization.claimed"
  | .completeAttempt _ => "attempt.completed"
  | .failAttempt _ => "attempt.failed"
  | .expireLease _ => "attempt.lease_expired"
  | .cancelTask _ => "task.canceled"
  | .cancelRun _ => "run.canceled"
  | .acceptArtifact _ => "artifact.accepted"
  | .rejectArtifact _ => "artifact.rejected"
  | .recordSideEffectCommit _ => "side_effect.committed"
  | .finishRun _ => "run.finished"
  | .recordAttemptQuiescence _ => "attempt.quiesced"

def emptySnapshot (runId : RunId) (sessionId : Option SessionId) : RunSnapshot where
  runId
  sessionId
  state := .created
  sequence := 0
  workspaceVersion := none
  tasks := ∅
  attempts := ∅
  dependencies := ∅
  events := []
  deliveryIndex := ∅
  sideEffectCommits := ∅
  deadlines := {}
  cancellation := {}
  speculation := {}
  nextLeaseEpoch := 0
  jobSpec := none

end Tetonic.Run
