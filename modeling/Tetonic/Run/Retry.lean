import Tetonic.Run.Dag
set_option autoImplicit false

/-! Failure classes, retry delays, side-effect keys and input digests (`failure.rs`,
`retry.rs`, `side_effect.rs`, `idempotency.rs`). -/

namespace Tetonic.Run
open Lib

def FailureClass.isRetryableByDefault : FailureClass → Bool
  | .transientTransport | .workerUnavailable | .timedOut | .resourceExhausted => true
  | _ => false

def FailureClass.isNonretryableByDefault : FailureClass → Bool
  | .invalidInput | .policyDenied | .internalInvariantViolation | .sandboxViolation
  | .permanentExecutionFailure | .canceled => true
  | _ => false

def RetryPolicy.shouldRetry (policy : RetryPolicy) (failure : FailureClass) (attemptCount : Nat) :
    Bool :=
  if failure.isNonretryableByDefault then false
  else if attemptCount ≥ policy.maxAttempts then false
  else policy.retryableClasses.contains failure || failure.isRetryableByDefault

def RetryPolicy.nextDelayMs (P : Platform) (policy : RetryPolicy) (attemptCount : Nat) : UInt64 :=
  let capped := P.cappedDelayMs policy.initialDelayMs policy.backoffFactor policy.maxDelayMs
    attemptCount
  if policy.jitter then capped / 2 + capped / 2 * (UInt64.ofNat attemptCount % 2) else capped

def failureClassForTimeout : TimeoutKind → FailureClass
  | .lease => .leaseExpired
  | _ => .timedOut

def mapAttemptStateForFailure : FailureClass → AttemptState
  | .leaseExpired => .leaseExpired
  | .timedOut => .timedOut
  | .canceled => .canceled
  | _ => .failed

def AttemptState.failedEnd : AttemptState → Bool
  | .failed | .leaseExpired | .timedOut | .canceled => true
  | _ => false

theorem mapAttemptStateForFailure_failedEnd (failure : FailureClass) :
    (mapAttemptStateForFailure failure).failedEnd = true := by
  cases failure <;> rfl

def WorkspaceVersion.stateFingerprint (v : WorkspaceVersion) : String :=
  let scheme := match v.versionScheme with
    | .git => "0"
    | .manifest => "1"
  v.repositoryId ++ ":" ++ scheme ++ ":" ++ v.dirtyStateDigest ++ ":" ++ v.trackedStateDigest

def bindingInputDigest (P : Platform) (binding : TaskInputBinding) : String :=
  let h := P.hash <|
    [.word binding.taskDefinitionVersion]
      ++ (match binding.workspaceVersion with
          | some v => [.text v.stateFingerprint]
          | none => [])
      ++ binding.inputArtifacts.map (fun art => .text art.digest)
      ++ [.text binding.dataClass.debug]
  "input:" ++ String.ofList (Nat.toDigits 16 h.toNat)

def inputDigestMatches (P : Platform) (binding : TaskInputBinding) (digest : String) : Bool :=
  bindingInputDigest P binding == digest

def workspaceMatches (binding : TaskInputBinding) (version : Option WorkspaceVersion) : Bool :=
  decide (binding.workspaceVersion = version)

def canRetrySideEffects (snapshot : RunSnapshot) (taskId : TaskId) : Bool :=
  match snapshot.tasks[taskId]? with
  | none => false
  | some task => task.sideEffectKeys.all fun key =>
    match snapshot.sideEffectCommits[key]? with
    | some record => !record.committed
    | none => true

def recordSideEffectCommit (snapshot : RunSnapshot) (taskId : TaskId) (operationKey : String)
    (transactionId : Option TransactionId) (committedAt : UInt64) : RunOutcome RunSnapshot := do
  refuseIf ((snapshot.sideEffectCommits[operationKey]?.any (·.committed)) = true)
    (.sideEffectAlreadyCommitted operationKey)
  pure { snapshot with
    sideEffectCommits := snapshot.sideEffectCommits.insert operationKey
      { operationKey, committed := true, transactionId, committedAt }
    tasks := snapshot.tasks.modify taskId fun task =>
      if task.sideEffectKeys.contains operationKey then task
      else { task with sideEffectKeys := task.sideEffectKeys ++ [operationKey] } }

def applyFailureWithRetry (P : Platform) (snapshot : RunSnapshot) (taskId : TaskId)
    (failureClass : FailureClass) (reason : String) (now : UInt64) : RunOutcome RunSnapshot := do
  let task ← unwrap snapshot.tasks[taskId]?
  let policy := task.binding.retryPolicy
  let attemptCount := task.retry.attemptCount + 1
  let counted := { task with
    retry := {
      attemptCount
      lastFailureClass := some failureClass
      lastFailureReason := some reason
      nextRetryAt := none } }
  let out := { snapshot with tasks := snapshot.tasks.insert taskId counted }
  let sideEffectOk := canRetrySideEffects out taskId
  let verificationRetry := failureClass = .verificationFailed
    ∧ task.binding.verificationPolicy.remediation.retryWithRevisedInput
  if (policy.shouldRetry failureClass attemptCount ∨ verificationRetry) ∧ sideEffectOk then
    let delay := policy.nextDelayMs P attemptCount
    pure <| recomputeBlockedReady { out with
      tasks := out.tasks.insert taskId { counted with
        state := .ready
        activeAttempt := none
        retry := { counted.retry with nextRetryAt := some (now + delay / 1000) } } }
  else
    let failed := { out with
      tasks := out.tasks.insert taskId { counted with state := .failed, activeAttempt := none } }
    pure <| recomputeBlockedReady (applyDependencyFailure failed taskId)

/-- A failure gives up the task's active attempt, makes the task ready again or fails it,
and then moves waiting tasks. -/
theorem applyFailureWithRetry_spec {P : Platform} {s t : RunSnapshot} {taskId : TaskId}
    {failureClass : FailureClass} {reason : String} {now : UInt64}
    (h : applyFailureWithRetry P s taskId failureClass reason now = .ok t) :
    ∃ task retry st, s.tasks[taskId]? = some task ∧ (st = .ready ∨ st = .failed) ∧
      Rescheduled { s with
        tasks := s.tasks.insert taskId
          { task with state := st, activeAttempt := none, retry } } t := by
  simp only [applyFailureWithRetry, bind_eq_ok, unwrap_eq_ok] at h
  obtain ⟨task, htask, h⟩ := h
  split at h
  · simp only [pure_eq_ok, OrdMap.insert_insert] at h
    subst h
    exact ⟨task, _, .ready, htask, .inl rfl, recomputeBlockedReady_rescheduled _⟩
  · simp only [pure_eq_ok, OrdMap.insert_insert] at h
    subst h
    exact ⟨task, _, .failed, htask, .inr rfl,
      (applyDependencyFailure_rescheduled _ _).trans (recomputeBlockedReady_rescheduled _)⟩

theorem applyFailureWithRetry_total (P : Platform) {s : RunSnapshot} {taskId : TaskId}
    {task : TaskRecord} (failureClass : FailureClass) (reason : String) (now : UInt64)
    (h : s.tasks[taskId]? = some task) :
    ∃ t, applyFailureWithRetry P s taskId failureClass reason now = .ok t := by
  simp only [applyFailureWithRetry, h, unwrap, bind_eq_ok]
  simp only [Except.ok.injEq, exists_eq_left']
  split
  all_goals exact ⟨_, rfl⟩

end Tetonic.Run
