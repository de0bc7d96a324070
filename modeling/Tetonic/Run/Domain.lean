import Tetonic.Lib.OrdMap
import Tetonic.Lib.Outcome
set_option autoImplicit false

/-! The durable run, task and attempt records of `tetonic-domain`. Record fields that no
modelled function reads are left out. Timestamps and lease epochs are machine words; the
journal sequence and the attempt counters are naturals. -/

namespace Tetonic.Run
open Lib

abbrev RunId := String
abbrev TaskId := String
abbrev AttemptId := String
abbrev SessionId := String
abbrev LeaseId := String
abbrev TransactionId := String
abbrev CommandId := String
abbrev EventId := String

inductive RunState where
  | created | active | canceling | canceled | failed | succeeded | recoveryRequired
  deriving DecidableEq, Repr

inductive TaskState where
  | created | blocked | ready | leased | running | parked | succeeded | failed | canceled
  | skipped
  deriving DecidableEq, Repr

inductive AttemptState where
  | created | leased | starting | running | suspended | succeeded | failed | timedOut
  | leaseExpired | canceled | superseded
  deriving DecidableEq, Repr

def RunState.debug : RunState → String
  | .created => "Created"
  | .active => "Active"
  | .canceling => "Canceling"
  | .canceled => "Canceled"
  | .failed => "Failed"
  | .succeeded => "Succeeded"
  | .recoveryRequired => "RecoveryRequired"

def TaskState.debug : TaskState → String
  | .created => "Created"
  | .blocked => "Blocked"
  | .ready => "Ready"
  | .leased => "Leased"
  | .running => "Running"
  | .parked => "Parked"
  | .succeeded => "Succeeded"
  | .failed => "Failed"
  | .canceled => "Canceled"
  | .skipped => "Skipped"

def AttemptState.debug : AttemptState → String
  | .created => "Created"
  | .leased => "Leased"
  | .starting => "Starting"
  | .running => "Running"
  | .suspended => "Suspended"
  | .succeeded => "Succeeded"
  | .failed => "Failed"
  | .timedOut => "TimedOut"
  | .leaseExpired => "LeaseExpired"
  | .canceled => "Canceled"
  | .superseded => "Superseded"

inductive DataClass where
  | «public» | repositorySource | sensitiveSource | secret
  deriving DecidableEq, Repr

def DataClass.debug : DataClass → String
  | .public => "Public"
  | .repositorySource => "RepositorySource"
  | .sensitiveSource => "SensitiveSource"
  | .secret => "Secret"

inductive FailureClass where
  | transientTransport | workerUnavailable | leaseExpired | timedOut | resourceExhausted
  | invalidInput | policyDenied | verificationFailed | sandboxViolation | canceled
  | permanentExecutionFailure | internalInvariantViolation
  deriving DecidableEq, Repr

inductive TimeoutKind where
  | queue | lease | attemptExecution | task | run | process | modelRequest
  deriving DecidableEq, Repr

inductive DependencyPolicy where
  | requireSuccess | allowPartial | continueOnFailure
  | fallbackTask (fallback : TaskId)
  deriving DecidableEq, Repr

structure TaskDependency where
  dependsOn : TaskId
  policy : DependencyPolicy
  deriving DecidableEq, Repr

structure ArtifactRef where
  (artifactId digest : String)
  deriving DecidableEq, Repr

inductive ExecutionTargetId where
  | «local»
  | worker (workerId : String)
  deriving DecidableEq, Repr

inductive WorkspaceVersionScheme where
  | git | manifest
  deriving DecidableEq, Repr

structure WorkspaceVersion where
  repositoryId : String
  versionScheme : WorkspaceVersionScheme
  gitHead : Option String
  (dirtyStateDigest trackedStateDigest : String)
  relevantPathDigests : OrdMap String String
  indexGeneration : Option UInt64
  deriving DecidableEq

structure AgentJobSpec where
  (identityId definitionDigest inputDigest : String)
  (capabilityBindings artifactBindings : List String)
  recoveryId : String
  deriving DecidableEq, Repr

structure LeaseProof where
  leaseId : LeaseId
  leaseEpoch : UInt64
  holder : ExecutionTargetId
  deriving DecidableEq, Repr

structure AttemptLease where
  leaseId : LeaseId
  attemptId : AttemptId
  leaseEpoch : UInt64
  holder : ExecutionTargetId
  (issuedAt expiresAt heartbeatIntervalSecs lastHeartbeatSequence : UInt64)
  deriving DecidableEq, Repr

/-- `backoff_factor` is held as the bits of the source's `f64`, which is also how the
source compares two policies. -/
structure RetryPolicy where
  maxAttempts : Nat
  retryableClasses : List FailureClass
  (initialDelayMs backoffFactor maxDelayMs : UInt64)
  jitter : Bool
  deriving DecidableEq, Repr

structure VerificationRemediation where
  retryWithRevisedInput : Bool
  deriving DecidableEq, Repr

structure VerificationPolicy where
  remediation : VerificationRemediation
  deriving DecidableEq, Repr

structure ExecutionScope where
  (principalId organizationId informationContextId : String)
  deriving DecidableEq, Repr

structure ActivationBinding where
  (requestId requestDigest auditSessionId : String)
  deriving DecidableEq, Repr

structure DelegatedTaskBinding where
  parentAttempt : AttemptId
  parentLease : Option LeaseProof
  activation : ActivationBinding
  deriving DecidableEq, Repr

structure TaskInputBinding where
  activation : Option ActivationBinding
  delegation : Option DelegatedTaskBinding
  executionScope : Option ExecutionScope
  executionGrantId : Option String
  jobSpec : Option AgentJobSpec
  jobRole : Option String
  taskDefinitionVersion : UInt64
  workspaceVersion : Option WorkspaceVersion
  inputArtifacts : List ArtifactRef
  dataClass : DataClass
  deadline : Option UInt64
  retryPolicy : RetryPolicy
  verificationPolicy : VerificationPolicy
  deriving DecidableEq

/-- `RetryPolicy::default`; the factor is the bits of `2.0`. -/
def RetryPolicy.default : RetryPolicy where
  maxAttempts := 3
  retryableClasses := [.transientTransport, .workerUnavailable, .leaseExpired, .timedOut]
  initialDelayMs := 1000
  backoffFactor := 0x4000000000000000
  maxDelayMs := 60000
  jitter := true

def TaskInputBinding.default : TaskInputBinding where
  activation := none
  delegation := none
  executionScope := none
  executionGrantId := none
  jobSpec := none
  jobRole := none
  taskDefinitionVersion := 1
  workspaceVersion := none
  inputArtifacts := []
  dataClass := .repositorySource
  deadline := none
  retryPolicy := .default
  verificationPolicy := ⟨⟨false⟩⟩

/-- The source counts in `u32`. The count rises once for each attempt that fails, and every attempt
stays in the run's map, so 2³² of them would be held before it wraps. The limits it is compared with
are never computed with. -/
structure TaskRetryState where
  attemptCount : Nat := 0
  nextRetryAt : Option UInt64 := none
  lastFailureClass : Option FailureClass := none
  lastFailureReason : Option String := none
  deriving DecidableEq, Repr

inductive SuspensionReason where
  | humanInput
  deriving DecidableEq, Repr

structure AttemptSuspension where
  checkpoint : ArtifactRef
  reason : SuspensionReason
  (suspendedAt remainingSeconds : UInt64)
  deriving DecidableEq, Repr

structure TaskRecord where
  taskId : TaskId
  state : TaskState
  binding : TaskInputBinding
  acceptedArtifact : Option ArtifactRef
  (activeAttempt winningAttempt finalizationClaim : Option AttemptId)
  completedVersion : Option UInt64
  retry : TaskRetryState
  sideEffectKeys : List String
  deriving DecidableEq

structure AttemptRecord where
  suspension : Option AttemptSuspension
  (executionQuiesced executionClaimed : Bool)
  attemptId : AttemptId
  taskId : TaskId
  state : AttemptState
  taskVersion : UInt64
  workspaceVersion : Option WorkspaceVersion
  inputDigest : String
  (resultDigest deliveryKey : Option String)
  lease : Option AttemptLease
  failureClass : Option FailureClass
  failureReason : Option String
  attemptNumber : Nat
  deriving DecidableEq

structure CommandEnvelope where
  commandId : CommandId
  expectedSequence : Option Nat
  timestamp : UInt64
  idempotencyKey : Option String
  deriving DecidableEq, Repr

structure SpeculationConfig where
  allowed : Bool := false
  maxSimultaneousAttempts : Nat := 1
  deriving DecidableEq, Repr

structure HeartbeatReport where
  leaseRenewalRequested : Bool
  deriving DecidableEq, Repr

inductive RunFinishOutcome where
  | succeeded | failed | canceled
  deriving DecidableEq, Repr

structure CreateRun where
  envelope : CommandEnvelope
  sessionId : Option SessionId
  runId : RunId
  rootTaskId : TaskId
  rootBinding : TaskInputBinding
  speculation : Option SpeculationConfig
  jobSpec : Option AgentJobSpec
  deriving DecidableEq

structure StartRun where
  envelope : CommandEnvelope
  runId : RunId
  deriving DecidableEq

structure AddTask where
  envelope : CommandEnvelope
  runId : RunId
  taskId : TaskId
  binding : TaskInputBinding
  deriving DecidableEq

structure AddDependency where
  envelope : CommandEnvelope
  runId : RunId
  (taskId dependsOn : TaskId)
  policy : DependencyPolicy
  deriving DecidableEq

structure MarkTaskReady where
  envelope : CommandEnvelope
  runId : RunId
  taskId : TaskId
  deriving DecidableEq

structure CreateAttempt where
  envelope : CommandEnvelope
  runId : RunId
  taskId : TaskId
  attemptId : AttemptId
  deliveryKey : Option String
  deriving DecidableEq

structure LeaseAttempt where
  envelope : CommandEnvelope
  runId : RunId
  attemptId : AttemptId
  leaseId : LeaseId
  leaseEpoch : UInt64
  holder : ExecutionTargetId
  (issuedAt expiresAt heartbeatIntervalSecs : UInt64)
  deriving DecidableEq

/-- Also the body of `ClaimExecution` and `RecordAttemptQuiescence`. -/
structure StartAttempt where
  envelope : CommandEnvelope
  runId : RunId
  attemptId : AttemptId
  leaseProof : LeaseProof
  deriving DecidableEq

structure SuspendAttempt where
  envelope : CommandEnvelope
  runId : RunId
  attemptId : AttemptId
  leaseProof : LeaseProof
  checkpoint : ArtifactRef
  reason : SuspensionReason
  deriving DecidableEq

structure ResumeAttempt where
  envelope : CommandEnvelope
  runId : RunId
  attemptId : AttemptId
  checkpoint : ArtifactRef
  leaseProof : LeaseProof
  holder : ExecutionTargetId
  deriving DecidableEq

structure RecordHeartbeat where
  envelope : CommandEnvelope
  runId : RunId
  attemptId : AttemptId
  leaseProof : LeaseProof
  heartbeatSequence : UInt64
  report : HeartbeatReport
  renewedExpiresAt : Option UInt64
  deriving DecidableEq

structure CompleteAttempt where
  envelope : CommandEnvelope
  runId : RunId
  attemptId : AttemptId
  taskVersion : UInt64
  workspaceVersion : Option WorkspaceVersion
  (inputDigest resultDigest : String)
  leaseProof : LeaseProof
  deriving DecidableEq

structure ClaimFinalization where
  envelope : CommandEnvelope
  runId : RunId
  attemptId : AttemptId
  taskId : TaskId
  taskVersion : UInt64
  inputDigest : String
  leaseProof : LeaseProof
  deriving DecidableEq

structure FailAttempt where
  envelope : CommandEnvelope
  runId : RunId
  attemptId : AttemptId
  failureClass : FailureClass
  reason : String
  leaseProof : Option LeaseProof
  timeoutKind : Option TimeoutKind
  deriving DecidableEq

structure ExpireLease where
  envelope : CommandEnvelope
  runId : RunId
  attemptId : AttemptId
  expiredAt : UInt64
  deriving DecidableEq

structure RecordSideEffectCommit where
  envelope : CommandEnvelope
  runId : RunId
  taskId : TaskId
  operationKey : String
  transactionId : Option TransactionId
  committedAt : UInt64
  deriving DecidableEq

structure CancelTask where
  envelope : CommandEnvelope
  runId : RunId
  taskId : TaskId
  deriving DecidableEq

structure CancelRun where
  envelope : CommandEnvelope
  runId : RunId
  deriving DecidableEq

structure AcceptArtifact where
  envelope : CommandEnvelope
  runId : RunId
  taskId : TaskId
  attemptId : AttemptId
  artifact : ArtifactRef
  deriving DecidableEq

structure RejectArtifact where
  envelope : CommandEnvelope
  runId : RunId
  taskId : TaskId
  attemptId : AttemptId
  (artifactId reason : String)
  deriving DecidableEq

structure FinishRun where
  envelope : CommandEnvelope
  runId : RunId
  outcome : RunFinishOutcome
  deriving DecidableEq

inductive RunCommand where
  | createRun (c : CreateRun)
  | startRun (c : StartRun)
  | addTask (c : AddTask)
  | addDependency (c : AddDependency)
  | markTaskReady (c : MarkTaskReady)
  | createAttempt (c : CreateAttempt)
  | leaseAttempt (c : LeaseAttempt)
  | startAttempt (c : StartAttempt)
  | claimExecution (c : StartAttempt)
  | suspendAttempt (c : SuspendAttempt)
  | resumeAttempt (c : ResumeAttempt)
  | recordHeartbeat (c : RecordHeartbeat)
  | claimFinalization (c : ClaimFinalization)
  | completeAttempt (c : CompleteAttempt)
  | failAttempt (c : FailAttempt)
  | cancelTask (c : CancelTask)
  | cancelRun (c : CancelRun)
  | acceptArtifact (c : AcceptArtifact)
  | rejectArtifact (c : RejectArtifact)
  | recordSideEffectCommit (c : RecordSideEffectCommit)
  | expireLease (c : ExpireLease)
  | finishRun (c : FinishRun)
  | recordAttemptQuiescence (c : StartAttempt)
  deriving DecidableEq

def RunCommand.envelope : RunCommand → CommandEnvelope
  | createRun c => c.envelope
  | startRun c => c.envelope
  | addTask c => c.envelope
  | addDependency c => c.envelope
  | markTaskReady c => c.envelope
  | createAttempt c => c.envelope
  | leaseAttempt c => c.envelope
  | startAttempt c => c.envelope
  | claimExecution c => c.envelope
  | suspendAttempt c => c.envelope
  | resumeAttempt c => c.envelope
  | recordHeartbeat c => c.envelope
  | claimFinalization c => c.envelope
  | completeAttempt c => c.envelope
  | failAttempt c => c.envelope
  | cancelTask c => c.envelope
  | cancelRun c => c.envelope
  | acceptArtifact c => c.envelope
  | rejectArtifact c => c.envelope
  | recordSideEffectCommit c => c.envelope
  | expireLease c => c.envelope
  | finishRun c => c.envelope
  | recordAttemptQuiescence c => c.envelope

/-- `RunCommand::run_id`, which is `Some` for every command. -/
def RunCommand.runId : RunCommand → RunId
  | createRun c => c.runId
  | startRun c => c.runId
  | addTask c => c.runId
  | addDependency c => c.runId
  | markTaskReady c => c.runId
  | createAttempt c => c.runId
  | leaseAttempt c => c.runId
  | startAttempt c => c.runId
  | claimExecution c => c.runId
  | suspendAttempt c => c.runId
  | resumeAttempt c => c.runId
  | recordHeartbeat c => c.runId
  | claimFinalization c => c.runId
  | completeAttempt c => c.runId
  | failAttempt c => c.runId
  | cancelTask c => c.runId
  | cancelRun c => c.runId
  | acceptArtifact c => c.runId
  | rejectArtifact c => c.runId
  | recordSideEffectCommit c => c.runId
  | expireLease c => c.runId
  | finishRun c => c.runId
  | recordAttemptQuiescence c => c.runId

/-- The JSON value of an event payload: the encoding of a command, which decodes to that
command again, or a value that is no command. -/
inductive EventPayload where
  | command (c : RunCommand)
  | other (text : String)
  deriving DecidableEq

structure RunEventEnvelope where
  eventId : EventId
  runId : RunId
  sequence : Nat
  eventType : String
  commandId : Option CommandId
  dataClass : DataClass
  payloadDigest : String
  payload : EventPayload
  deriving DecidableEq

structure SideEffectCommitRecord where
  operationKey : String
  committed : Bool
  transactionId : Option TransactionId
  committedAt : UInt64
  deriving DecidableEq, Repr

structure RunDeadlines where
  runDeadline : Option UInt64 := none
  deriving DecidableEq, Repr

structure CancellationRecord where
  sessionCanceled : Bool := false
  runCanceled : Bool := false
  canceledAt : Option UInt64 := none
  reason : Option String := none
  deriving DecidableEq, Repr

structure RunSnapshot where
  runId : RunId
  sessionId : Option SessionId
  state : RunState
  sequence : Nat
  workspaceVersion : Option WorkspaceVersion
  tasks : OrdMap TaskId TaskRecord
  attempts : OrdMap AttemptId AttemptRecord
  dependencies : OrdMap TaskId (List TaskDependency)
  events : List RunEventEnvelope
  deliveryIndex : OrdMap String AttemptId
  sideEffectCommits : OrdMap String SideEffectCommitRecord
  deadlines : RunDeadlines
  cancellation : CancellationRecord
  speculation : SpeculationConfig
  nextLeaseEpoch : UInt64
  jobSpec : Option AgentJobSpec
  deriving DecidableEq

structure RunCommandResult where
  runId : RunId
  sequence : Nat
  idempotentReplay : Bool
  snapshot : RunSnapshot
  deriving DecidableEq

inductive RunSupervisorError where
  | organizationCapacityExceeded
  | teamCapacityExceeded
  | principalCapacityExceeded
  | executionCapacityExceeded
  | runNotFound (id : String)
  | taskNotFound (id : String)
  | attemptNotFound (id : String)
  | staleSequence (expected actual : Nat)
  | invalidTransition (text : String)
  | cycleDetected
  | dependencyLocked
  | runNotAccepting (state : RunState)
  | recoveryRequired
  | conflict (text : String)
  | staleLeaseEpoch (expected actual : UInt64)
  | staleResult (text : String)
  | duplicateDelivery (text : String)
  | retryLimitExceeded
  | sideEffectAlreadyCommitted (key : String)
  | deadlineExceeded (kind : TimeoutKind)
  | persistence (text : String)
  | corruption (text : String)
  | storageLimitExceeded (text : String)
  deriving DecidableEq, Repr

abbrev RunOutcome (α : Type) := Outcome RunSupervisorError α

inductive HashInput where
  | word (n : UInt64)
  | text (s : String)
  deriving DecidableEq, Repr

/-- What the code takes from its libraries: `DefaultHasher`, the `f64` arithmetic of the
retry delay and of the soft quota, and the text of an event payload (its digest, its length
in bytes, its length in characters and the message when it is no command). -/
structure Platform where
  hash : List HashInput → UInt64
  cappedDelayMs : (initialDelayMs backoffFactor maxDelayMs : UInt64) → Nat → UInt64
  softLimit : UInt64 → UInt64
  payloadDigest : EventPayload → String
  payloadBytes : EventPayload → UInt64
  payloadChars : EventPayload → Nat
  decodeError : EventPayload → String

end Tetonic.Run
