import Tetonic.Lib.Program
import Tetonic.Run.Transition
set_option autoImplicit false

/-! What the calls of `ManagedRunService` are made of: the commands they send to the supervisor,
what they read, and what they ask of the host. A call is a program over these operations, so
that other calls, other instances and the clock can come between any two of them. -/

namespace Tetonic.Run

def TimeoutKind.debug : TimeoutKind → String
  | .queue => "Queue"
  | .lease => "Lease"
  | .attemptExecution => "AttemptExecution"
  | .task => "Task"
  | .run => "Run"
  | .process => "Process"
  | .modelRequest => "ModelRequest"

def RunSupervisorError.text : RunSupervisorError → String
  | .organizationCapacityExceeded =>
    "organization execution capacity is occupied; retry after admitted work quiesces"
  | .teamCapacityExceeded =>
    "team execution capacity is occupied; retry after admitted work quiesces"
  | .principalCapacityExceeded =>
    "initiating principal execution capacity is occupied; retry after admitted work quiesces"
  | .executionCapacityExceeded =>
    "registered agent already has admitted work; retry after it has quiesced"
  | .runNotFound id => "run not found: " ++ id
  | .taskNotFound id => "task not found: " ++ id
  | .attemptNotFound id => "attempt not found: " ++ id
  | .staleSequence expected actual =>
    "stale sequence: expected " ++ toString expected ++ ", actual " ++ toString actual
  | .invalidTransition text => "invalid transition: " ++ text
  | .cycleDetected => "cycle detected in task graph"
  | .dependencyLocked => "dependency change after lease"
  | .runNotAccepting state => "run not accepting commands: " ++ state.debug
  | .recoveryRequired => "recovery required"
  | .conflict text => "conflict: " ++ text
  | .staleLeaseEpoch expected actual =>
    "stale lease epoch: expected " ++ toString expected ++ ", actual " ++ toString actual
  | .staleResult text => "stale result: " ++ text
  | .duplicateDelivery text => "duplicate delivery: " ++ text
  | .retryLimitExceeded => "retry limit exceeded"
  | .sideEffectAlreadyCommitted key => "side effect already committed: " ++ key
  | .deadlineExceeded kind => "deadline exceeded: " ++ kind.debug
  | .persistence text => "persistence error: " ++ text
  | .corruption text => "corruption detected: " ++ text
  | .storageLimitExceeded text => "storage limit exceeded: " ++ text

/-- Store and corruption text stay off employee-visible outcomes. -/
def RunSupervisorError.employeeMessage : RunSupervisorError → String
  | .persistence _ | .corruption _ | .storageLimitExceeded _ => "request failed"
  | e => e.text

end Tetonic.Run

namespace Tetonic.Managed
open Lib Run

inductive ManagedRunError where
  | organizationCapacityExceeded
  | teamCapacityExceeded
  | principalCapacityExceeded
  | executionCapacityExceeded
  | invalidRequest (text : String)
  | persistenceFailed (text : String)
  | internalViolation (text : String)
  deriving DecidableEq, Repr

inductive CandidateOutcome where
  | completed (summary : String)
  | canceled (reason : String)
  | limited (message : String)
  | failed (message : String)
  deriving DecidableEq, Repr

/-- A host's authorization; the authority itself answers `Test.authorized`. -/
structure AuthorizedExecution where
  grantId : Option String
  scope : ExecutionScope
  deriving DecidableEq, Repr

structure ManagedBinding where
  executionScope : Option ExecutionScope
  sessionId : Option SessionId
  runId : RunId
  taskId : TaskId
  attemptId : AttemptId
  jobSpec : AgentJobSpec
  deriving DecidableEq, Repr

structure ActiveAttempt where
  binding : ManagedBinding
  authorization : Option AuthorizedExecution
  parentAttempt : Option AttemptId
  heartbeatSequence : UInt64
  leaseProof : LeaseProof
  deriving DecidableEq, Repr

structure ClockReading where
  deadline : Option UInt64 := none
  suspension : Option AttemptSuspension := none
  elapsed : Bool := false
  deriving DecidableEq, Repr

inductive Test where
  | workScopeEntered | workScopeCanceled | dispatchCanceled | authorized | attemptBound
  | grantDelegated | deadlinePassed | parentLive | storeConfigured
  deriving DecidableEq, Repr

/-- Something the host does that may fail. -/
inductive HostStep where
  | bindEffectIdentity | bindContextArtifact | markAccepted | cancelDispatches
  | grantLookup | legacySession | putIdentity | deadlineInstant | checkDispatch
  deriving DecidableEq, Repr

inductive Op where
  | handle (command : RunCommand)
  | load (runId : RunId)
  | commitWorkspace (taskId : TaskId) (attemptId : AttemptId)
  | runVerify (verifyCmd : String)
  | sealOutput
  | registered (attemptId : AttemptId)
  | actives (runId : RunId)
  | clock
  | unixNow
  | newUuid
  | test (question : Test)
  | perform (step : HostStep)

abbrev Op.Ans : Op → Type
  | handle _ => RunOutcome RunCommandResult
  | load _ => RunOutcome (Option RunSnapshot)
  | commitWorkspace _ _ => Except String (Option TransactionId)
  | runVerify _ => Except String (Except (String × Option String) Unit)
  | sealOutput => Except ManagedRunError ArtifactRef
  | registered _ => Option ActiveAttempt
  | actives _ => List ActiveAttempt
  | clock => ClockReading
  | unixNow => UInt64
  | newUuid => String
  | test _ => Bool
  | perform _ => Except ManagedRunError Unit

/-- The body of a call: it returns, fails, or panics with the supervisor. -/
abbrev Call (α : Type) := Prog Op Op.Ans (Fault ManagedRunError) α

def raise {α : Type} (e : ManagedRunError) : Call α := .stop (.error e)

def orRaise {α : Type} (asError : RunSupervisorError → ManagedRunError) :
    RunOutcome α → Call α
  | .ok a => .done a
  | .error (.error e) => raise (asError e)
  | .error .panicked => .stop .panicked

def orStop {α : Type} (o : Option α) (e : ManagedRunError) : Call α :=
  match o with
  | some a => .done a
  | none => raise e

def handle (command : RunCommand) : Call (RunOutcome RunCommandResult) :=
  Prog.query (Op.handle command)

def load (runId : RunId) : Call (RunOutcome (Option RunSnapshot)) := Prog.query (Op.load runId)

def registered (attemptId : AttemptId) : Call (Option ActiveAttempt) :=
  Prog.query (Op.registered attemptId)

def readClock : Call ClockReading := Prog.query Op.clock

def unixNow : Call UInt64 := Prog.query Op.unixNow

def test (question : Test) : Call Bool := Prog.query (Op.test question)

def performed (step : HostStep) : Call (Except ManagedRunError Unit) :=
  Prog.query (Op.perform step)

def perform (step : HostStep) : Call Unit := do
  match ← performed step with
  | .ok () => pure ()
  | .error e => raise e

def commandEnvelope (commandId : CommandId) (expectedSequence : Option Nat) :
    Call CommandEnvelope := do
  let timestamp ← unixNow
  pure { commandId, expectedSequence, timestamp, idempotencyKey := none }

/-- `handle(…).await.map_err(|e| PersistenceFailed(e.to_string()))?`. -/
def submit (command : RunCommand) : Call RunCommandResult := do
  let result ← handle command
  orRaise (fun e => .persistenceFailed e.text) result

def inspectRun (runId : RunId) : Call RunSnapshot := do
  let loaded ← load runId
  let found ← orRaise (fun e => .invalidRequest e.text) loaded
  orStop found (.invalidRequest (RunSupervisorError.runNotFound runId).text)

def currentSequence (runId : RunId) : Call Nat := do
  match ← load runId with
  | .ok (some snapshot) => pure snapshot.sequence
  | _ => pure 0

def heartbeat (attempt : AttemptId) : Call Unit := do
  let found ← registered attempt
  let active ← orStop found (.invalidRequest "attempt not active")
  let clock ← readClock
  if clock.suspension.isSome = true then pure ()
  else do
    let nextSeq := saturatingAdd active.heartbeatSequence 1
    let now ← unixNow
    let envelope ← commandEnvelope ("heartbeat:" ++ attempt ++ "_"
      ++ toString active.leaseProof.leaseEpoch ++ "_" ++ toString nextSeq) none
    let _ ← submit (.recordHeartbeat {
      envelope
      runId := active.binding.runId
      attemptId := attempt
      leaseProof := active.leaseProof
      heartbeatSequence := nextSeq
      report := ⟨true⟩
      renewedExpiresAt := some (saturatingAdd now 300) })
    pure ()

def recordQuiescence (active : ActiveAttempt) : Call Unit :=
  if active.authorization.isNone = true then pure ()
  else do
    let snapshot ← inspectRun active.binding.runId
    if snapshot.tasks.anyValue (fun t => t.binding.activation.isSome) = false then pure ()
    else do
      let envelope ← commandEnvelope ("quiesced:" ++ active.binding.attemptId) none
      let _ ← submit (.recordAttemptQuiescence {
        envelope
        runId := active.binding.runId
        attemptId := active.binding.attemptId
        leaseProof := active.leaseProof })
      pure ()

/-- The stops recorded by `cancel_run`, up to the first that fails. -/
def recordStops : List ActiveAttempt → Call Unit
  | [] => pure ()
  | active :: rest => do
    recordQuiescence active
    recordStops rest

def cancelRun (runId : RunId) : Call Unit := do
  perform .cancelDispatches
  let envelope ← commandEnvelope ("cancel_run:" ++ runId) none
  let _ ← submit (.cancelRun ⟨envelope, runId⟩)
  let actives : List ActiveAttempt ← Prog.query (Op.actives runId)
  recordStops actives

def failAndFinish (active : ActiveAttempt) (failureClass : FailureClass) (reason : String)
    (finishRun : Bool) : Call Unit := do
  let envelope ← commandEnvelope ("fail_att:" ++ active.binding.attemptId) none
  let _ ← submit (.failAttempt {
    envelope
    runId := active.binding.runId
    attemptId := active.binding.attemptId
    failureClass
    reason
    leaseProof := some active.leaseProof
    timeoutKind := if failureClass = .timedOut then some .task else none })
  if finishRun = true then do
    let envelope ← commandEnvelope ("finish_run:" ++ active.binding.runId) none
    let _ ← submit (.finishRun ⟨envelope, active.binding.runId, .failed⟩)
    pure ()
  else pure ()

def finishDeadlineExceeded (active : ActiveAttempt) (finishRun : Bool) :
    Call CandidateOutcome := do
  failAndFinish active .timedOut "execution deadline exceeded" finishRun
  pure (.failed "execution deadline exceeded")

/-! Operations that neither admit work, nor take a claim, nor touch the workspace. -/

@[simp] def forSpawn (commandId : CommandId) : Bool :=
  "spawn_task_".toList.isPrefixOf commandId.toList

@[simp] def Op.sideline : Op → Prop
  | .handle (.createRun _) | .handle (.addTask _) | .handle (.createAttempt _) => False
  | .handle command => forSpawn command.envelope.commandId = false
  | _ => True

@[simp] def Op.plain : Op → Prop
  | .commitWorkspace _ _ | .handle (.claimFinalization _) => False
  | o => o.sideline

theorem Op.plain.sideline {o : Op} (h : o.plain) : o.sideline := by
  cases o with
  | handle command =>
    cases command with
    | claimFinalization => exact h.elim
    | _ => exact h
  | commitWorkspace => exact h.elim
  | _ => exact h

section Plain

variable {α β : Type}

theorem orRaise_only {ok : Op → Prop} (asError : RunSupervisorError → ManagedRunError)
    (r : RunOutcome α) : (orRaise asError r).Only ok := by
  match r with
  | .ok a => trivial
  | .error (.error e) => trivial
  | .error .panicked => trivial

theorem orStop_only {ok : Op → Prop} (o : Option α) (e : ManagedRunError) :
    (orStop o e).Only ok := by
  cases o <;> trivial

theorem perform_only (step : HostStep) : (perform step).Only Op.plain := by
  refine .ask trivial fun r => ?_
  cases r <;> trivial

theorem submit_only {ok : Op → Prop} {command : RunCommand} (h : ok (.handle command)) :
    (submit command).Only ok :=
  Prog.Only.bind (Prog.only_query.mpr h) fun _ => orRaise_only _ _

section
variable {ok : Op → Prop} {commandId : CommandId} {expectedSequence : Option Nat}

theorem envelope_only {f : CommandEnvelope → Call α} (hclock : ok .unixNow) (hf : ∀ timestamp,
      (f { commandId, expectedSequence, timestamp, idempotencyKey := none }).Only ok) :
    (commandEnvelope commandId expectedSequence >>= f).Only ok := ⟨hclock, hf⟩

theorem send_only {build : CommandEnvelope → RunCommand} {rest : Call α}
    (hrest : rest.Only Op.plain)
    (hbuild : ∀ timestamp, Op.plain (.handle (build
      { commandId, expectedSequence, timestamp, idempotencyKey := none })) := by
        simp [RunCommand.envelope, List.isPrefixOf]) :
    (do let envelope ← commandEnvelope commandId expectedSequence
        let _ ← submit (build envelope)
        rest).Only Op.plain := by
  refine envelope_only trivial fun now => ?_
  exact .bind (submit_only (hbuild now)) fun _ => hrest

end

theorem inspectRun_only (runId : RunId) : (inspectRun runId).Only Op.plain := by
  refine .ask trivial fun r => ?_
  exact .bind (orRaise_only _ _) fun found => orStop_only _ _

theorem currentSequence_only (runId : RunId) : (currentSequence runId).Only Op.plain := by
  refine .ask trivial fun r => ?_
  split <;> trivial

theorem heartbeat_only (attempt : AttemptId) : (heartbeat attempt).Only Op.plain := by
  refine .ask trivial fun found => ?_
  refine .bind (orStop_only _ _) fun active => ?_
  refine .ask trivial fun clock => ?_
  split
  · trivial
  · refine .ask trivial fun now => ?_
    exact send_only trivial

theorem recordQuiescence_only (active : ActiveAttempt) :
    (recordQuiescence active).Only Op.plain := by
  unfold recordQuiescence
  split
  · trivial
  · refine .bind (inspectRun_only _) fun snapshot => ?_
    split
    · trivial
    · exact send_only trivial

theorem recordStops_only (actives : List ActiveAttempt) : (recordStops actives).Only Op.plain := by
  induction actives with
  | nil => trivial
  | cons active rest ih => exact .bind (recordQuiescence_only active) fun _ => ih

theorem cancelRun_only (runId : RunId) : (cancelRun runId).Only Op.plain := by
  refine .bind (perform_only _) fun _ => ?_
  refine send_only ?_
  exact .ask trivial fun actives => recordStops_only actives

theorem failAndFinish_only (active : ActiveAttempt) (failureClass : FailureClass)
    (reason : String) (finishRun : Bool) :
    (failAndFinish active failureClass reason finishRun).Only Op.plain := by
  refine send_only ?_
  split
  · exact send_only trivial
  · trivial

theorem finishDeadlineExceeded_only (active : ActiveAttempt) (finishRun : Bool) :
    (finishDeadlineExceeded active finishRun).Only Op.plain :=
  Prog.Only.bind (failAndFinish_only _ _ _ _) fun _ => trivial

end Plain

end Tetonic.Managed
