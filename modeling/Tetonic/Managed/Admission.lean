import Tetonic.Managed.Finalization
set_option autoImplicit false

/-! Admission of a job (`admission.rs`, `activation.rs`, `delegation.rs`): the checks, the lookup
of an earlier activation, and the commands that create a run or a child task with its attempt.
What the host knows (its registry, its authority, its clocks, the dispatch ticket) is asked for;
barriers of tests, hooks and the heartbeat driver are left out. -/

namespace Tetonic.Managed
open Lib Run Op

structure AdmitJob where
  (identityId boundDefinitionDigest : String)
  jobSpec : AgentJobSpec
  role : Option String
  parentAttempt : Option AttemptId
  deriving DecidableEq, Repr

/-- `delegationParent` is the binding that the parent's handle was issued for. -/
structure AdmissionContext where
  activation : Option ActivationBinding
  delegationParent : Option ManagedBinding
  deadline : Option UInt64
  authorization : Option AuthorizedExecution
  speculation : Option SpeculationConfig
  sessionId : Option SessionId
  taskId : Option TaskId
  deriving DecidableEq, Repr

structure Submission where
  job : AdmitJob
  context : AdmissionContext
  deriving DecidableEq, Repr

structure ActivationReceipt where
  runId : RunId
  taskId : TaskId
  auditSessionId : String
  deriving DecidableEq, Repr

inductive ManagedAdmission where
  | admitted (binding : ManagedBinding)
  | existing (receipt : ActivationReceipt)
  deriving DecidableEq, Repr

/-- The characters that `str::trim` takes off. -/
def whiteSpace (c : Char) : Bool :=
  let n := c.toNat
  decide ((9 ≤ n ∧ n ≤ 13) ∨ n = 32 ∨ n = 133 ∨ n = 160 ∨ n = 5760 ∨ (8192 ≤ n ∧ n ≤ 8202)
    ∨ n = 8232 ∨ n = 8233 ∨ n = 8239 ∨ n = 8287 ∨ n = 12288)

/-- `id.trim().is_empty() || id.len() > 256 || id.contains('\0')`. -/
def unfitId (id : String) : Bool :=
  id.toList.all whiteSpace || decide (id.utf8ByteSize > 256) || id.toList.contains (Char.ofNat 0)

def requestChar (c : Char) : Bool := c.isAlphanum || c == '-' || c == '_' || c == '.'

def hexDigit (c : Char) : Bool :=
  c.isDigit || decide ('a' ≤ c ∧ c ≤ 'f') || decide ('A' ≤ c ∧ c ≤ 'F')

/-- `sha256:` and 64 digits. -/
def isSha256 (digest : String) : Bool :=
  "sha256:".toList.isPrefixOf digest.toList &&
    decide ((digest.toList.drop 7).length = 64) && (digest.toList.drop 7).all hexDigit

-- The digest of serialized fields, in hexadecimal.
variable (sha256 : List String → String)

def activationRunId (scope : ExecutionScope) (requestId : String) : Except ManagedRunError RunId :=
  if requestId.isEmpty = true ∨ requestId.utf8ByteSize > 128
      ∨ requestId.toList.all requestChar = false then
    .error (.invalidRequest "invalid activation request ID")
  else .ok ("run_activation_" ++ sha256 ["tetonic.activation.v1", scope.organizationId,
    scope.principalId, requestId])

def rootTaskId (runId : RunId) : TaskId := "task_root_" ++ runId

def childTaskId (scope : ExecutionScope) (requestId : String) : Except ManagedRunError TaskId :=
  (activationRunId sha256 scope requestId).map fun runId => "task_child_" ++ runId

def validateActivation (context : AdmissionContext) (job : AdmitJob) :
    Except ManagedRunError Unit :=
  match context.activation with
  | none => .ok ()
  | some activation =>
    match context.authorization with
    | none => .error (.invalidRequest "activation requires verified scope")
    | some authorization =>
      if job.parentAttempt.isSome ≠ context.delegationParent.isSome
          ∨ context.sessionId.isSome = true ∨ context.taskId.isSome = true
          ∨ context.speculation.isSome = true then
        .error (.invalidRequest "activation requires a scoped root or live delegated job")
      else do
        let _ ← activationRunId sha256 authorization.scope activation.requestId
        if isSha256 activation.requestDigest = false ∨ unfitId activation.auditSessionId = true then
          .error (.invalidRequest "invalid activation binding")
        else .ok ()

def activationConflict : ManagedRunError :=
  .invalidRequest "activation request conflicts with existing run"

def boundTo (binding : TaskInputBinding) (authorization : AuthorizedExecution)
    (stored activation : ActivationBinding) (job : AgentJobSpec) (role : Option String) : Bool :=
  decide (binding.executionScope = some authorization.scope
    ∧ binding.executionGrantId = authorization.grantId
    ∧ binding.jobSpec = some job ∧ binding.jobRole = role
    ∧ stored.requestId = activation.requestId ∧ stored.requestDigest = activation.requestDigest)

def receiptFromSnapshot (snapshot : RunSnapshot) (authorization : AuthorizedExecution)
    (activation : ActivationBinding) (job : AgentJobSpec) (role : Option String) :
    Except ManagedRunError ActivationReceipt := do
  let runId ← activationRunId sha256 authorization.scope activation.requestId
  match snapshot.tasks[rootTaskId runId]? with
  | none => .error activationConflict
  | some task =>
    match task.binding.activation with
    | none => .error activationConflict
    | some stored =>
      if snapshot.runId ≠ runId
          ∨ boundTo task.binding authorization stored activation job role = false then
        .error activationConflict
      else .ok ⟨runId, rootTaskId runId, stored.auditSessionId⟩

/-- `authorize(…).await.map_err(…)?`. -/
def authorize (denied : String) : Call Unit := do
  if (← test .authorized) = true then pure () else raise (.invalidRequest denied)

def orFailWith {α : Type} (r : Except ManagedRunError α) : Call α :=
  Prog.ofExcept (r.mapError Fault.error)

def lookupActivation (authorization : AuthorizedExecution) (activation : ActivationBinding)
    (job : AgentJobSpec) (role : Option String) : Call (Option ActivationReceipt) := do
  authorize "execution authorization denied"
  if (← test .storeConfigured) = false then
    raise (.invalidRequest "activation requires durable storage")
  else
    let runId ← orFailWith (activationRunId sha256 authorization.scope activation.requestId)
    let loaded ← load runId
    match ← orRaise (fun e => .persistenceFailed e.text) loaded with
    | none =>
      authorize "execution authorization denied"
      pure none
    | some snapshot =>
      let receipt ← orFailWith
        (receiptFromSnapshot sha256 snapshot authorization activation job role)
      authorize "execution authorization denied"
      pure (some receipt)

/-- The parent is this runtime's, live, and the child has a stored grant. -/
def childAuthorization (authorization : AuthorizedExecution) : Call Unit := do
  let deny : ManagedRunError := .invalidRequest
    "delegation requires this runtime's live parent, stored grant and allocation"
  if (← test .parentLive) = false then raise deny
  else if (← test .storeConfigured) = false then raise deny
  else if authorization.grantId.isNone = true then raise deny
  else pure ()

def childDenied : String := "delegated execution authorization denied"

def childReceipt (snapshot : RunSnapshot) (parent : ManagedBinding)
    (authorization : AuthorizedExecution) (activation : ActivationBinding) (job : AgentJobSpec)
    (role : Option String) : Except ManagedRunError (Option ActivationReceipt) := do
  let taskId ← childTaskId sha256 authorization.scope activation.requestId
  match snapshot.tasks[taskId]? with
  | none => .ok none
  | some task =>
    match task.binding.delegation with
    | none => .error (.invalidRequest childDenied)
    | some stored =>
      if stored.parentAttempt ≠ parent.attemptId
          ∨ boundTo task.binding authorization stored.activation activation job role = false then
        .error (.invalidRequest "child activation conflicts with existing task")
      else .ok (some ⟨snapshot.runId, taskId, stored.activation.auditSessionId⟩)

def lookupChildActivation (parent : ManagedBinding) (authorization : AuthorizedExecution)
    (activation : ActivationBinding) (job : AgentJobSpec) (role : Option String) :
    Call (Option ActivationReceipt) := do
  childAuthorization authorization
  authorize childDenied
  let loaded ← load parent.runId
  let found ← orRaise (fun _ => .invalidRequest childDenied) loaded
  let snapshot ← orStop found (.invalidRequest childDenied)
  let receipt ← orFailWith
    (childReceipt sha256 snapshot parent authorization activation job role)
  authorize childDenied
  if (← test .parentLive) = false then raise (.invalidRequest childDenied)
  else pure receipt

def checkDelegation (context : AdmissionContext) (job : AdmitJob) : Call Unit := do
  match context.delegationParent with
  | none => pure ()
  | some parent =>
    if job.parentAttempt ≠ some parent.attemptId then
      raise (.invalidRequest "delegation parent mismatch")
    else
      let authorization ← orStop context.authorization
        (.invalidRequest "delegation requires authorization")
      let _ ← orStop context.activation (.invalidRequest "delegation requires delivery identity")
      childAuthorization authorization

def checkGrant (context : AdmissionContext) (job : AdmitJob) : Call Unit := do
  if job.parentAttempt.isSome = true ∨ (context.authorization.bind (·.grantId)).isNone = true then
    pure ()
  else if (← test .storeConfigured) = false then pure ()
  else
    perform .grantLookup
    if (← test .grantDelegated) = true then
      raise (.invalidRequest "delegated grant requires governed child admission")
    else pure ()

def earlierReceipt (context : AdmissionContext) (job : AdmitJob) :
    Call (Option ActivationReceipt) :=
  match context.activation, context.authorization with
  | some activation, some authorization =>
    match context.delegationParent with
    | some parent =>
      lookupChildActivation sha256 parent authorization activation job.jobSpec job.role
    | none => lookupActivation sha256 authorization activation job.jobSpec job.role
  | _, _ => pure none

def optionMin (a b : Option UInt64) : Option UInt64 :=
  match a, b with
  | some a, some b => some (min a b)
  | a, b => a.or b

/-- The deadline of the job: its own, or the parent's where that is earlier. -/
def jobDeadline (context : AdmissionContext) (job : AdmitJob) : Call (Option UInt64) := do
  match job.parentAttempt with
  | none => pure context.deadline
  | some parent =>
    match ← registered parent with
    | none => pure context.deadline
    | some _ => return optionMin context.deadline (← readClock).deadline

def checkDeadlineAhead (deadline : Option UInt64) : Call Unit :=
  if deadline.isSome = true then perform .deadlineInstant else pure ()

def checkGoverned (context : AdmissionContext) (job : AdmitJob) : Call Unit := do
  match job.parentAttempt with
  | none => pure ()
  | some parent =>
    let found ← registered parent
    if (found.any (·.authorization.isSome) = true ∨ context.authorization.isSome = true)
        ∧ context.delegationParent.isNone = true then
      raise (.invalidRequest "governed delegation is not configured")
    else pure ()

def unfitScope (scope : ExecutionScope) : Bool :=
  [scope.principalId, scope.organizationId, scope.informationContextId].any unfitId

def checkAuthorization (context : AdmissionContext) : Call Unit := do
  let denied := "execution authorization denied"
  match context.authorization with
  | none => pure ()
  | some authorization =>
    if context.sessionId.isSome = true then
      raise (.invalidRequest "governed session activation is not configured")
    else if authorization.grantId.any unfitId = true then raise (.invalidRequest denied)
    else if (← test .storeConfigured) = false then raise (.invalidRequest denied)
    else if unfitScope authorization.scope = true then raise (.invalidRequest denied)
    else authorize denied

def checkSession (context : AdmissionContext) : Call Unit := do
  if context.sessionId.isNone = true then pure ()
  else if (← test .storeConfigured) = true then perform .legacySession
  else pure ()

def storeIdentity : Call Unit := do
  if (← test .storeConfigured) = true then perform .putIdentity else pure ()

def checkDeadlinePassed : Call Unit := do
  if (← test .deadlinePassed) = true then raise (.invalidRequest "execution deadline has elapsed")
  else pure ()

def checkSubmission (sub : Submission) : Call (Option UInt64) := do
  let deadline ← jobDeadline sub.context sub.job
  checkDeadlineAhead deadline
  checkGoverned sub.context sub.job
  checkAuthorization sub.context
  checkSession sub.context
  storeIdentity
  perform .checkDispatch
  checkDeadlinePassed
  pure deadline

def admissionError : RunSupervisorError → ManagedRunError
  | .organizationCapacityExceeded => .organizationCapacityExceeded
  | .teamCapacityExceeded => .teamCapacityExceeded
  | .principalCapacityExceeded => .principalCapacityExceeded
  | .executionCapacityExceeded => .executionCapacityExceeded
  | e => .persistenceFailed e.text

/-- The binding of a root or a child task but for what only one of them has. -/
def admittedBinding (sub : Submission) (deadline : Option UInt64) : TaskInputBinding :=
  { TaskInputBinding.default with
    retryPolicy := { TaskInputBinding.default.retryPolicy with
      maxAttempts := if sub.context.activation.isSome = true then 1
        else TaskInputBinding.default.retryPolicy.maxAttempts }
    deadline
    executionScope := sub.context.authorization.map (·.scope)
    executionGrantId := sub.context.authorization.bind (·.grantId)
    jobSpec := some sub.job.jobSpec
    jobRole := sub.job.role }

/-- Where an admission has arrived: at an earlier one, or at an attempt of its own. -/
inductive Placed where
  | already (binding : ManagedBinding)
  | known (receipt : ActivationReceipt)
  | fresh (runId : RunId) (taskId : TaskId) (attemptId : AttemptId) (leaseProof : LeaseProof)

/-- The lease and the start of a created attempt. The commands of a root each expect the
sequence of the one before. -/
def leaseAndStart (runId : RunId) (attemptId : AttemptId) (leaseCommand startCommand : CommandId)
    (created : Option Nat) : Call LeaseProof := do
  let issuedAt ← unixNow
  let envelope ← commandEnvelope leaseCommand created
  let leased ← submit (.leaseAttempt {
    envelope
    runId
    attemptId
    leaseId := "lease_" ++ attemptId
    leaseEpoch := 0
    holder := .local
    issuedAt
    expiresAt := saturatingAdd issuedAt 300
    heartbeatIntervalSecs := 30 })
  let attempt ← orStop leased.snapshot.attempts[attemptId]?
    (.invalidRequest "attempt missing after lease")
  let lease ← orStop attempt.lease (.invalidRequest "lease missing after lease command")
  let leaseProof : LeaseProof := ⟨lease.leaseId, lease.leaseEpoch, lease.holder⟩
  let envelope ← commandEnvelope startCommand (created.map fun _ => leased.sequence)
  let _ ← submit (.startAttempt { envelope, runId, attemptId, leaseProof })
  pure leaseProof

def newAttemptId : Call AttemptId := do
  let uuid : String ← Prog.query newUuid
  pure ("att_" ++ uuid)

def deliveryKey (runId : RunId) (attemptId : AttemptId) : String :=
  "turn:" ++ runId ++ ":" ++ attemptId

def childTask (sub : Submission) : Call TaskId :=
  match sub.context.activation, sub.context.authorization with
  | some activation, some authorization => do
    authorize childDenied
    orFailWith (childTaskId sha256 authorization.scope activation.requestId)
  | _, _ =>
    match sub.context.taskId with
    | some taskId => pure taskId
    | none => do
      let uuid : String ← Prog.query newUuid
      pure ("task_spawn_" ++ uuid)

/-- The child task exists: only a live attempt of it is handed out. -/
def rejoinChild (sub : Submission) (deadline : Option UInt64) (runId : RunId) (task : TaskRecord)
    (taskId : TaskId) : Call Placed := do
  if task.binding.jobSpec ≠ some sub.job.jobSpec ∨ task.binding.jobRole ≠ sub.job.role
      ∨ task.binding.deadline ≠ deadline then
    raise (.invalidRequest "child task already bound to a different job or role")
  else
    let actives : List ActiveAttempt ← Prog.query (actives runId)
    match actives.find? (fun a => decide (a.binding.runId = runId ∧ a.binding.taskId = taskId)) with
    | some active => pure (.already active.binding)
    | none => raise (.invalidRequest
        "child delivery already admitted; retry requires a new authorized task")

def spawnChild (sub : Submission) (deadline : Option UInt64) (parent : ActiveAttempt)
    (parentAttempt : AttemptId) (taskId : TaskId) : Call Placed := do
  let runId := parent.binding.runId
  let attemptId ← newAttemptId
  let envelope ← commandEnvelope ("spawn_task_" ++ attemptId) none
  let added ← handle (.addTask {
    envelope
    runId
    taskId
    binding := { admittedBinding sub deadline with
      delegation := sub.context.activation.map fun activation =>
        { parentAttempt, parentLease := some parent.leaseProof, activation } } })
  let _ ← orRaise admissionError added
  let envelope ← commandEnvelope ("child_attempt:" ++ attemptId) none
  let _ ← submit (.createAttempt {
    envelope, runId, taskId, attemptId, deliveryKey := some (deliveryKey runId attemptId) })
  let leaseProof ← leaseAndStart runId attemptId ("child_lease:" ++ attemptId)
    ("child_start:" ++ attemptId) none
  pure (.fresh runId taskId attemptId leaseProof)

def checkParentLive (context : AdmissionContext) : Call Unit := do
  if context.delegationParent.isNone = true then pure ()
  else if (← test .parentLive) = true then pure ()
  else raise (.invalidRequest "delegation parent executor changed")

def admitChild (sub : Submission) (deadline : Option UInt64) (parentAttempt : AttemptId) :
    Call Placed := do
  let parent ← orStop (← registered parentAttempt) (.invalidRequest "parent attempt is not active")
  checkParentLive sub.context
  let taskId ← childTask sha256 sub
  let snapshot ← inspectRun parent.binding.runId
  match snapshot.tasks[taskId]? with
  | some task => rejoinChild sub deadline parent.binding.runId task taskId
  | none => spawnChild sub deadline parent parentAttempt taskId

def rootRunId (sub : Submission) : Call RunId :=
  match sub.context.activation, sub.context.authorization with
  | some activation, some authorization =>
    orFailWith (activationRunId sha256 authorization.scope activation.requestId)
  | _, _ => do
    let uuid : String ← Prog.query newUuid
    pure ("run_" ++ uuid)

def rootReceipt (sub : Submission) : Call (Option ActivationReceipt) :=
  match sub.context.activation, sub.context.authorization with
  | some activation, some authorization =>
    lookupActivation sha256 authorization activation sub.job.jobSpec sub.job.role
  | _, _ => pure none

/-- What becomes of a creation that is not this call's own: the receipt of the other, or an
error. -/
def afterLostCreation (sub : Submission) (error : ManagedRunError) : Call Placed := do
  match ← rootReceipt sha256 sub with
  | some receipt => pure (.known receipt)
  | none => raise error

def startRoot (runId : RunId) (attemptId : AttemptId) (created : RunCommandResult) :
    Call Placed := do
  let taskId := rootTaskId runId
  let envelope ← commandEnvelope "turn_start" (some created.sequence)
  let started ← submit (.startRun { envelope, runId })
  let envelope ← commandEnvelope "turn_attempt" (some started.sequence)
  let attempt ← submit (.createAttempt {
    envelope, runId, taskId, attemptId, deliveryKey := some (deliveryKey runId attemptId) })
  let leaseProof ← leaseAndStart runId attemptId "turn_lease" "turn_running" (some attempt.sequence)
  pure (.fresh runId taskId attemptId leaseProof)

/-- A replay never starts an attempt, even if the first owner stopped midway. -/
def afterCreation (sub : Submission) (runId : RunId) (attemptId : AttemptId) :
    RunOutcome RunCommandResult → Call Placed
  | .ok created =>
    if created.idempotentReplay = false then startRoot runId attemptId created
    else afterLostCreation sha256 sub
      (.persistenceFailed "replayed activation is missing its durable binding")
  | .error .panicked => .stop .panicked
  | .error (.error e) => afterLostCreation sha256 sub (admissionError e)

def admitRoot (sub : Submission) (deadline : Option UInt64) : Call Placed := do
  let runId ← rootRunId sha256 sub
  let attemptId ← newAttemptId
  let envelope ← commandEnvelope "turn_create" none
  let created ← handle (.createRun {
    envelope
    sessionId := sub.context.sessionId
    runId
    rootTaskId := rootTaskId runId
    rootBinding := { admittedBinding sub deadline with activation := sub.context.activation }
    speculation := sub.context.speculation
    jobSpec := some sub.job.jobSpec })
  afterCreation sha256 sub runId attemptId created

/-- Registration; a dispatch that was canceled meanwhile ends the attempt. -/
def register (sub : Submission) : Placed → Call ManagedAdmission
  | .already binding => pure (.admitted binding)
  | .known receipt => pure (.existing receipt)
  | .fresh runId taskId attemptId _ => do
    if (← test .dispatchCanceled) = true then
      let finishRun := (← registered attemptId).any (·.parentAttempt.isNone)
      let _ ← finalize ⟨attemptId, .canceled "canceled during admission", none, finishRun⟩
      raise (.invalidRequest "dispatch canceled during admission")
    else pure (.admitted {
      executionScope := sub.context.authorization.map (·.scope)
      sessionId := sub.context.sessionId
      runId
      taskId
      attemptId
      jobSpec := sub.job.jobSpec })

def place (sub : Submission) (deadline : Option UInt64) : Call Placed :=
  match sub.job.parentAttempt with
  | some parentAttempt => admitChild sha256 sub deadline parentAttempt
  | none => admitRoot sha256 sub deadline

def admitOwned (sub : Submission) : Call ManagedAdmission := do
  if sub.job.identityId ≠ sub.job.jobSpec.identityId
      ∨ sub.job.boundDefinitionDigest ≠ sub.job.jobSpec.definitionDigest then
    raise (.invalidRequest "identity and job binding mismatch")
  else
    orFailWith (validateActivation sha256 sub.context sub.job)
    checkDelegation sub.context sub.job
    checkGrant sub.context sub.job
    match ← earlierReceipt sha256 sub.context sub.job with
    | some receipt => pure (.existing receipt)
    | none =>
      let deadline ← checkSubmission sub
      let placed ← place sha256 sub deadline
      register sub placed

theorem authorize_only (denied : String) : (authorize denied).Only sideline :=
  Prog.Only.branch trivial trivial trivial

theorem orFailWith_only {α : Type} {ok : Op → Prop} (r : Except ManagedRunError α) :
    (orFailWith r).Only ok := Prog.only_ofExcept _

theorem performs_only (step : HostStep) : (perform step).Only sideline :=
  (perform_only step).mono fun _ ho => ho.sideline

theorem childAuthorization_only (authorization : AuthorizedExecution) :
    (childAuthorization authorization).Only sideline := by
  refine .branch trivial trivial (.branch trivial trivial ?_)
  split <;> trivial

section
variable (context : AdmissionContext)

theorem checkDelegation_only (job : AdmitJob) : (checkDelegation context job).Only sideline := by
  unfold checkDelegation
  split
  · trivial
  · split
    · trivial
    · refine .bind (orStop_only _ _) fun authorization => ?_
      refine .bind (orStop_only _ _) fun _ => ?_
      exact childAuthorization_only authorization

theorem checkGrant_only (job : AdmitJob) : (checkGrant context job).Only sideline := by
  unfold checkGrant
  split
  · trivial
  · refine .branch trivial trivial ?_
    refine .bind (performs_only _) fun _ => ?_
    exact .branch trivial trivial trivial

theorem jobDeadline_only (job : AdmitJob) : (jobDeadline context job).Only sideline := by
  unfold jobDeadline
  split
  · trivial
  · refine .ask trivial fun found => ?_
    split
    · trivial
    · exact .ask trivial fun _ => trivial

theorem checkGoverned_only (job : AdmitJob) : (checkGoverned context job).Only sideline := by
  unfold checkGoverned
  split
  · trivial
  · exact .branch trivial trivial trivial

theorem checkAuthorization_only : (checkAuthorization context).Only sideline := by
  unfold checkAuthorization
  split
  · trivial
  · split
    · trivial
    · split
      · trivial
      · refine .branch trivial trivial ?_
        split
        · trivial
        · exact authorize_only _

theorem checkSession_only : (checkSession context).Only sideline := by
  unfold checkSession
  split
  · trivial
  · exact .branch trivial (performs_only _) trivial

end

theorem checkSubmission_only (sub : Submission) : (checkSubmission sub).Only sideline := by
  refine .bind (jobDeadline_only _ _) fun deadline => ?_
  refine .bind ?_ fun _ => ?_
  · unfold checkDeadlineAhead
    split
    · exact performs_only _
    · trivial
  refine .bind (checkGoverned_only _ _) fun _ => ?_
  refine .bind (checkAuthorization_only _) fun _ => ?_
  refine .bind (checkSession_only _) fun _ => ?_
  refine .bind (.branch trivial (performs_only _) trivial) fun _ => ?_
  refine .bind (performs_only _) fun _ => ?_
  exact .bind (p := checkDeadlinePassed) (.branch trivial trivial trivial) fun _ => trivial

theorem leaseAndStart_only (runId : RunId) (attemptId : AttemptId)
    (leaseCommand startCommand : CommandId) (created : Option Nat)
    (hlease : forSpawn leaseCommand = false) (hstart : forSpawn startCommand = false) :
    (leaseAndStart runId attemptId leaseCommand startCommand created).Only sideline := by
  refine .ask trivial fun issuedAt => ?_
  refine envelope_only trivial fun now => ?_
  refine .bind (submit_only hlease) fun leased => ?_
  refine .bind (orStop_only _ _) fun attempt => ?_
  refine .bind (orStop_only _ _) fun lease => ?_
  refine envelope_only trivial fun now => ?_
  exact .bind (submit_only hstart) fun _ => trivial

theorem checkParentLive_only (context : AdmissionContext) :
    (checkParentLive context).Only sideline := by
  unfold checkParentLive
  split
  · trivial
  · exact .branch trivial trivial trivial

theorem childTask_only (sub : Submission) : (childTask sha256 sub).Only sideline := by
  unfold childTask
  split
  · exact .bind (authorize_only _) fun _ => orFailWith_only _
  · split
    · trivial
    · exact .ask trivial fun _ => trivial

theorem rootRunId_only (sub : Submission) : (rootRunId sha256 sub).Only sideline := by
  unfold rootRunId
  split
  · exact orFailWith_only _
  · exact .ask trivial fun _ => trivial

end Tetonic.Managed
