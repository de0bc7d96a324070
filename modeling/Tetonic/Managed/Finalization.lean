import Tetonic.Managed.Service
set_option autoImplicit false

/-! Finalization of an attempt (`finalization.rs`): the claim, the verification, the effect on
the workspace, and the commands that publish the result. Waiting for workers, hooks and the
delivery of the terminal result have no answer the call depends on and are left out. -/

namespace Tetonic.Managed
open Lib Run Op

/-- `effectDriver` says whether a driver is configured. -/
structure FinalizationPolicy where
  effectDriver : Bool
  verifyCmd : Option String
  deriving DecidableEq, Repr

structure FinalizeJob where
  attempt : AttemptId
  outcome : CandidateOutcome
  policy : Option FinalizationPolicy
  finishRun : Bool
  deriving DecidableEq, Repr

/-- The stored task carries the authorization and the deadline of the live attempt. -/
def bindingMatches (task : TaskRecord) (active : ActiveAttempt) (deadline : Option UInt64) : Bool :=
  decide (task.binding.executionScope = active.authorization.map (·.scope)
    ∧ task.binding.executionGrantId = active.authorization.bind (·.grantId)
    ∧ task.binding.deadline = deadline)

/-- The deadline once more, then the verdict on the authorization. -/
def denyUnless (active : ActiveAttempt) (finishRun allowed : Bool) :
    Call (Option CandidateOutcome) := do
  if (← readClock).elapsed = true then return some (← finishDeadlineExceeded active finishRun)
  if allowed = true then return none
  let message := "execution authorization denied during finalization"
  failAndFinish active .policyDenied message finishRun
  return some (.failed message)

/-- The outcome of a finalization that is denied, or none where it may go on. -/
def denyRevokedFinalization (active : ActiveAttempt) (finishRun : Bool) :
    Call (Option CandidateOutcome) := do
  if (← readClock).elapsed = true then return some (← finishDeadlineExceeded active finishRun)
  let snapshot ← inspectRun active.binding.runId
  let task ← orStop snapshot.tasks[active.binding.taskId]?
    (.internalViolation "durable task missing")
  let clock ← readClock
  if bindingMatches task active clock.deadline = false then denyUnless active finishRun false
  else if active.authorization.isSome = true then
    let allowed ← test .authorized
    denyUnless active finishRun allowed
  else denyUnless active finishRun true

def claimCommand (active : ActiveAttempt) : Call RunCommand := do
  let attemptId := active.binding.attemptId
  let envelope ← commandEnvelope ("claim_finalization:" ++ attemptId) none
  return .claimFinalization {
    envelope
    runId := active.binding.runId
    attemptId
    taskId := active.binding.taskId
    taskVersion := 1
    inputDigest := active.binding.jobSpec.inputDigest
    leaseProof := active.leaseProof }

/-- A lost claim fails this attempt only; the run stays with the winner. -/
def claimLost (active : ActiveAttempt) (finishRun : Bool) (error : RunSupervisorError) :
    Call CandidateOutcome := do
  if (← readClock).elapsed = true then finishDeadlineExceeded active finishRun
  else do
    let message := "lease lost or competing claim: " ++ error.employeeMessage
    let _ ← currentSequence active.binding.runId
    failAndFinish active .policyDenied message false
    pure (.failed message)

/-- The answer to the claim: an outcome ends the call here. A claim that was made before is not
one to go on with. -/
def afterClaim (active : ActiveAttempt) (finishRun : Bool) :
    RunOutcome RunCommandResult → Call (Option CandidateOutcome)
  | .error .panicked => .stop .panicked
  | .error (.error e) => do return some (← claimLost active finishRun e)
  | .ok claim =>
    if claim.idempotentReplay = true then raise (.invalidRequest "finalization already claimed")
    else pure none

def takeClaim (active : ActiveAttempt) (finishRun : Bool) : Call (Option CandidateOutcome) := do
  let command ← claimCommand active
  afterClaim active finishRun (← handle command)

def enterFinalization (active : ActiveAttempt) (finishRun : Bool) :
    Call (Option CandidateOutcome) := do
  match ← denyRevokedFinalization active finishRun with
  | some denied => return some denied
  | none =>
    heartbeat active.binding.attemptId
    takeClaim active finishRun

/-- How a part of the finalization ends: the call returns, or goes on with a value. -/
inductive Part (α : Type) where
  | returned (outcome : CandidateOutcome)
  | goOn (value : α)

def runVerifier (verifyCmd : String) : Call (Except (String × Option String) Unit) := do
  if (← test .workScopeCanceled) = true then
    pure (.error ("attempt canceled before verification started", none))
  else
    let joined : Except String (Except (String × Option String) Unit) ←
      Prog.query (runVerify verifyCmd)
    Prog.ofExcept (joined.mapError fun e => .error (.internalViolation e))

/-- The verification command, where there is one; its error as text. -/
def verify (job : FinalizeJob) (active : ActiveAttempt) : Call (Part (Option String)) := do
  match job.policy with
  | some ⟨true, some verifyCmd⟩ =>
    perform .bindEffectIdentity
    if (← test .workScopeEntered) = false then
      raise (.invalidRequest "attempt canceled before verification")
    else
      match ← denyRevokedFinalization active job.finishRun with
      | some denied => return .returned denied
      | none =>
        let verified ← runVerifier verifyCmd
        if (← test .workScopeCanceled) = true then
          raise (.invalidRequest "attempt canceled during verification")
        else
          match verified with
          | .ok () => return .goOn none
          | .error (err, out) =>
            return .goOn (some ("verification command failed: " ++ err ++ " " ++ out.getD ""))
  | _ => return .goOn none

def runDriver (active : ActiveAttempt) : Call (Except String (Option TransactionId)) := do
  if (← test .workScopeCanceled) = true then
    pure (.error "attempt canceled before commit started")
  else Prog.query (commitWorkspace active.binding.taskId active.binding.attemptId)

def recordEffect (job : FinalizeJob) (active : ActiveAttempt) :
    Except String (Option TransactionId) → Call (Option CandidateOutcome)
  | .error error => do
    let _ ← currentSequence active.binding.runId
    failAndFinish active .permanentExecutionFailure error job.finishRun
    return some (.failed error)
  | .ok none => return none
  | .ok (some transactionId) => do
    let envelope ← commandEnvelope ("side_effect:" ++ active.binding.attemptId) none
    let committedAt ← unixNow
    let _ ← submit (.recordSideEffectCommit {
      envelope
      runId := active.binding.runId
      taskId := active.binding.taskId
      operationKey := "txn:" ++ transactionId
      transactionId := some transactionId
      committedAt })
    return none

def canceledMeanwhile (snapshot : RunSnapshot) : Call Bool :=
  if snapshot.cancellation.runCanceled = true then pure true else test .dispatchCanceled

def checkEffect (job : FinalizeJob) (active : ActiveAttempt) : Call (Option CandidateOutcome) := do
  heartbeat active.binding.attemptId
  let snapshot ← inspectRun active.binding.runId
  if (← canceledMeanwhile snapshot) = true then
    raise (.invalidRequest "attempt canceled before effects")
  else if (← test .workScopeEntered) = false then
    raise (.invalidRequest "attempt canceled before commit")
  else denyRevokedFinalization active job.finishRun

/-- A verified attempt has bound its identity before the verification. -/
def beforeEffect (job : FinalizeJob) (active : ActiveAttempt) (verifyCmd : Option String) :
    Call (Option CandidateOutcome) := do
  if verifyCmd.isNone = true then
    perform .bindEffectIdentity
    checkEffect job active
  else checkEffect job active

def commitEffects (job : FinalizeJob) (active : ActiveAttempt) :
    Call (Option CandidateOutcome) := do
  match job.policy with
  | some ⟨true, verifyCmd⟩ =>
    match ← beforeEffect job active verifyCmd with
    | some denied => return some denied
    | none =>
      let committed ← runDriver active
      recordEffect job active committed
  | _ => return none

def publish (job : FinalizeJob) (active : ActiveAttempt) (sealedRef : ArtifactRef) :
    Call CandidateOutcome := do
  let binding := active.binding
  let envelope ← commandEnvelope ("complete_att:" ++ binding.attemptId) none
  let _ ← submit (.completeAttempt {
    envelope
    runId := binding.runId
    attemptId := binding.attemptId
    taskVersion := 1
    workspaceVersion := none
    inputDigest := binding.jobSpec.inputDigest
    resultDigest := sealedRef.digest
    leaseProof := active.leaseProof })
  perform .markAccepted
  let envelope ← commandEnvelope ("accept_art:" ++ binding.attemptId) none
  let _ ← submit (.acceptArtifact {
    envelope
    runId := binding.runId
    taskId := binding.taskId
    attemptId := binding.attemptId
    artifact := sealedRef })
  if job.finishRun = true then
    let envelope ← commandEnvelope ("finish_run:" ++ binding.runId) none
    let _ ← submit (.finishRun ⟨envelope, binding.runId, .succeeded⟩)
    return job.outcome
  else return job.outcome

/-- Bind the sealed output to its context, where there is one, and publish. -/
def bindAndPublish (job : FinalizeJob) (active : ActiveAttempt) (sealedRef : ArtifactRef) :
    Call CandidateOutcome := do
  if active.authorization.isNone = true then publish job active sealedRef
  else
    match ← performed .bindContextArtifact with
    | .ok () => publish job active sealedRef
    | .error _ =>
      failAndFinish active .policyDenied "output context binding failed" job.finishRun
      return .failed "output context binding failed"

def attestAndPublish (job : FinalizeJob) (active : ActiveAttempt) : Call CandidateOutcome := do
  match ← denyRevokedFinalization active job.finishRun with
  | some denied => return denied
  | none =>
    let sealedOutput : Except ManagedRunError ArtifactRef ← Prog.query sealOutput
    let sealedRef ← Prog.ofExcept (sealedOutput.mapError Fault.error)
    match ← denyRevokedFinalization active job.finishRun with
    | some denied => return denied
    | none => bindAndPublish job active sealedRef

def finalizeCompleted (job : FinalizeJob) (active : ActiveAttempt) : Call CandidateOutcome := do
  match ← verify job active with
  | .returned denied => return denied
  | .goOn (some message) =>
    failAndFinish active .verificationFailed message job.finishRun
    return .failed message
  | .goOn none =>
    match ← commitEffects job active with
    | some outcome => return outcome
    | none => attestAndPublish job active

def finalizeUnfinished (job : FinalizeJob) (active : ActiveAttempt) : Call CandidateOutcome := do
  match job.outcome with
  | .canceled _ =>
    if job.finishRun = false then
      let _ ← currentSequence active.binding.runId
      failAndFinish active .permanentExecutionFailure "child canceled" false
      return job.outcome
    else
      let envelope ← commandEnvelope ("cancel_run:" ++ active.binding.runId) none
      let _ ← submit (.cancelRun ⟨envelope, active.binding.runId⟩)
      return job.outcome
  | .failed message | .limited message | .completed message =>
    failAndFinish active .permanentExecutionFailure message job.finishRun
    return job.outcome

def CandidateOutcome.isCompleted : CandidateOutcome → Bool
  | .completed _ => true
  | _ => false

def CandidateOutcome.isCanceled : CandidateOutcome → Bool
  | .canceled _ => true
  | _ => false

def finalizeOwned (job : FinalizeJob) (active : ActiveAttempt) : Call CandidateOutcome := do
  if (← readClock).elapsed = true then finishDeadlineExceeded active job.finishRun
  else
    let entered ← test .workScopeEntered
    if entered = false ∧ job.outcome.isCanceled = false then
      raise (.invalidRequest "attempt canceled before finalization")
    else
      let _ ← currentSequence active.binding.runId
      if job.outcome.isCompleted = true then
        match ← enterFinalization active job.finishRun with
        | some outcome => return outcome
        | none => finalizeCompleted job active
      else finalizeUnfinished job active

def unfinishedChild (snapshot : RunSnapshot) (attempt : AttemptId) : Bool :=
  snapshot.tasks.anyValue fun task =>
    task.binding.delegation.any (fun d => decide (d.parentAttempt = attempt))
      && (!decide (task.state = .succeeded ∨ task.state = .failed ∨ task.state = .canceled
            ∨ task.state = .skipped)
        || !snapshot.attempts.anyValue (fun a => decide (a.taskId = task.taskId))
        || snapshot.attempts.anyValue
            (fun a => decide (a.taskId = task.taskId) && !a.executionQuiesced))

/-- A failed finalization at its deadline fails the attempt, unless it had succeeded. -/
def settleDeadline (job : FinalizeJob) (active : ActiveAttempt) :
    Except (Fault ManagedRunError) CandidateOutcome →
      Call (Except (Fault ManagedRunError) CandidateOutcome)
  | .ok outcome => pure (.ok outcome)
  | .error .panicked => .stop .panicked
  | .error e => do
    if (← readClock).elapsed = false then return .error e
    else if (← test .attemptBound) = false then return .error e
    else
      let snapshot ← inspectRun active.binding.runId
      if snapshot.attempts[active.binding.attemptId]?.any (fun a => decide (a.state ≠ .succeeded))
          && !snapshot.cancellation.runCanceled then
        (finishDeadlineExceeded active job.finishRun).attempt
      else return .error e

/-- A failed finalization of a run that was canceled meanwhile is a cancellation. -/
def settleCancellation (active : ActiveAttempt) :
    Except (Fault ManagedRunError) CandidateOutcome → Call CandidateOutcome
  | .ok outcome => pure outcome
  | .error .panicked => .stop .panicked
  | .error e => do
    let snapshot ← inspectRun active.binding.runId
    if snapshot.cancellation.runCanceled && snapshot.attempts[active.binding.attemptId]?.any
        (fun a => decide (a.state = .canceled)) then
      return .canceled "run canceled during finalization"
    else .stop e

/-- The checks of `finalize` before the finalization proper: an outcome ends the call. -/
def beforeFinalization (job : FinalizeJob) (active : ActiveAttempt) :
    Call (Option CandidateOutcome) := do
  let runId := active.binding.runId
  if (← readClock).suspension.isSome = true then
    if (← test .dispatchCanceled) = true then
      cancelRun runId
      return some (.canceled "run canceled")
    else return some (.failed ("This executor could not resume the saved wait; no work was "
      ++ "replayed. Inspect the durable run before retrying."))
  else if active.authorization.isNone = true then return none
  else
    let snapshot ← inspectRun runId
    if unfinishedChild snapshot job.attempt = true then
      cancelRun runId
      return some (.canceled "parent finished before delegated work quiesced")
    else return none

def finalize (job : FinalizeJob) : Call CandidateOutcome := do
  let active ← orStop (← registered job.attempt) (.invalidRequest "no active attempt found")
  if job.finishRun = true ∧ active.parentAttempt.isSome = true then
    raise (.invalidRequest "child finalizer cannot finish the parent run")
  else
    match ← beforeFinalization job active with
    | some outcome => return outcome
    | none =>
      let result ← (finalizeOwned job active).attempt
      let result ← settleDeadline job active result
      let outcome ← settleCancellation active result
      recordQuiescence active
      return outcome

/-! Everything but the claim and the driver is plain. -/

variable (job : FinalizeJob) (active : ActiveAttempt)

theorem denyUnless_only (finishRun allowed : Bool) :
    (denyUnless active finishRun allowed).Only plain := by
  refine .branch trivial (.bind (finishDeadlineExceeded_only _ _) fun _ => trivial) ?_
  split
  · trivial
  · exact .bind (failAndFinish_only _ _ _ _) fun _ => trivial

theorem denyRevokedFinalization_only (finishRun : Bool) :
    (denyRevokedFinalization active finishRun).Only plain := by
  refine .branch trivial (.bind (finishDeadlineExceeded_only _ _) fun _ => trivial) ?_
  refine .bind (inspectRun_only _) fun snapshot => ?_
  refine .bind (orStop_only _ _) fun task => ?_
  refine .branch trivial (denyUnless_only active finishRun false) ?_
  split
  · exact .ask trivial (denyUnless_only active finishRun)
  · exact denyUnless_only active finishRun true

theorem claimLost_only (finishRun : Bool) (error : RunSupervisorError) :
    (claimLost active finishRun error).Only plain := by
  refine .branch trivial (finishDeadlineExceeded_only _ _) ?_
  refine .bind (currentSequence_only _) fun _ => ?_
  exact .bind (failAndFinish_only _ _ _ _) fun _ => trivial

theorem runVerifier_only (verifyCmd : String) : (runVerifier verifyCmd).Only plain := by
  refine .branch trivial trivial ?_
  exact .ask trivial fun joined => Prog.only_ofExcept _

theorem verify_only : (verify job active).Only plain := by
  unfold verify
  split
  · refine .bind (perform_only _) fun _ => ?_
    refine .branch trivial trivial ?_
    refine .bind (denyRevokedFinalization_only _ _) fun denied => ?_
    cases denied with
    | some => trivial
    | none =>
      refine .bind (runVerifier_only _) fun verified => ?_
      refine .branch trivial trivial ?_
      split <;> trivial
  · trivial

theorem recordEffect_only (committed : Except String (Option TransactionId)) :
    (recordEffect job active committed).Only plain := by
  match committed with
  | .error error =>
    refine .bind (currentSequence_only _) fun _ => ?_
    exact .bind (failAndFinish_only _ _ _ _) fun _ => trivial
  | .ok none => trivial
  | .ok (some transactionId) =>
    refine envelope_only trivial fun now => ?_
    refine .ask trivial fun committedAt => ?_
    refine .bind (submit_only ?_) fun _ => trivial
    simp [RunCommand.envelope, List.isPrefixOf]

theorem canceledMeanwhile_only (snapshot : RunSnapshot) :
    (canceledMeanwhile snapshot).Only plain := by
  unfold canceledMeanwhile
  split
  · trivial
  · exact Prog.only_query.mpr trivial

theorem checkEffect_only : (checkEffect job active).Only plain := by
  refine .bind (heartbeat_only _) fun _ => ?_
  refine .bind (inspectRun_only _) fun snapshot => ?_
  refine .bind (canceledMeanwhile_only _) fun canceled => ?_
  split
  · trivial
  · exact .branch trivial trivial (denyRevokedFinalization_only _ _)

theorem beforeEffect_only (verifyCmd : Option String) :
    (beforeEffect job active verifyCmd).Only plain := by
  unfold beforeEffect
  split
  · exact .bind (perform_only _) fun _ => checkEffect_only job active
  · exact checkEffect_only job active

theorem publish_only (sealedRef : ArtifactRef) : (publish job active sealedRef).Only plain := by
  refine send_only ?_
  refine .bind (perform_only _) fun _ => ?_
  refine send_only ?_
  split
  · exact send_only trivial
  · trivial

theorem bindAndPublish_only (sealedRef : ArtifactRef) :
    (bindAndPublish job active sealedRef).Only plain := by
  unfold bindAndPublish
  split
  · exact publish_only job active sealedRef
  · refine .ask trivial fun bound => ?_
    split
    · exact publish_only job active sealedRef
    · exact .bind (failAndFinish_only _ _ _ _) fun _ => trivial

theorem attestAndPublish_only : (attestAndPublish job active).Only plain := by
  refine .bind (denyRevokedFinalization_only _ _) fun denied => ?_
  split
  · trivial
  · refine .ask trivial fun sealedOutput => ?_
    refine .bind (Prog.only_ofExcept _) fun sealedRef => ?_
    refine .bind (denyRevokedFinalization_only _ _) fun denied => ?_
    split
    · trivial
    · exact bindAndPublish_only job active sealedRef

theorem finalizeUnfinished_only : (finalizeUnfinished job active).Only plain := by
  have hfail (message : String) : (do
      failAndFinish active .permanentExecutionFailure message job.finishRun
      return job.outcome : Call CandidateOutcome).Only plain :=
    Prog.Only.bind (failAndFinish_only _ _ _ _) fun _ => trivial
  unfold finalizeUnfinished
  split
  · split
    · refine .bind (currentSequence_only _) fun _ => ?_
      exact .bind (failAndFinish_only _ _ _ _) fun _ => trivial
    · exact send_only trivial
  all_goals exact hfail _

theorem settleDeadline_only (result : Except (Fault ManagedRunError) CandidateOutcome) :
    (settleDeadline job active result).Only plain := by
  match result with
  | .ok outcome => trivial
  | .error .panicked => trivial
  | .error (.error e) =>
    refine .branch trivial trivial (.branch trivial trivial ?_)
    refine .bind (inspectRun_only _) fun snapshot => ?_
    split
    · exact (finishDeadlineExceeded_only active job.finishRun).attempt
    · trivial

theorem settleCancellation_only (result : Except (Fault ManagedRunError) CandidateOutcome) :
    (settleCancellation active result).Only plain := by
  match result with
  | .ok outcome => trivial
  | .error .panicked => trivial
  | .error (.error e) =>
    refine .bind (inspectRun_only _) fun snapshot => ?_
    split <;> trivial

theorem beforeFinalization_only : (beforeFinalization job active).Only plain := by
  refine .branch trivial ?_ ?_
  · exact .branch trivial (.bind (cancelRun_only _) fun _ => trivial) trivial
  · split
    · trivial
    · refine .bind (inspectRun_only _) fun snapshot => ?_
      split
      · exact .bind (cancelRun_only _) fun _ => trivial
      · trivial

/-! A call that has just committed the claim command of its attempt holds a ticket, and invoking
the driver uses it up. -/

def claimId (attemptId : AttemptId) : CommandId := "claim_finalization:" ++ attemptId

/-- The task and attempt whose claim a call has committed and not yet used. -/
abbrev Ticket := Option (TaskId × AttemptId)

def ticketAfter (s : Ticket) : (o : Op) → o.Ans → Ticket
  | .commitWorkspace _ _, _ => none
  | .handle (.claimFinalization c), .ok result =>
    if c.envelope.commandId = claimId c.attemptId ∧ result.idempotentReplay = false then
      some (c.taskId, c.attemptId)
    else s
  | _, _ => s

def effectDiscipline : Discipline Op Op.Ans Ticket where
  allowed
    | s, .commitWorkspace taskId attemptId => s = some (taskId, attemptId)
    | _, _ => True
  after := ticketAfter

/-- A finalization admits no work either. -/
def finalizing : Discipline Op Op.Ans Ticket where
  allowed s o := o.sideline ∧ effectDiscipline.allowed s o
  after := ticketAfter

theorem plain_keeps_ticket (s : Ticket) (o : Op) (ho : o.plain) :
    finalizing.allowed s o ∧ ∀ res, finalizing.after s o res = s := by
  cases o with
  | commitWorkspace => exact ho.elim
  | handle command =>
    cases command with
    | claimFinalization => exact ho.elim
    | _ => exact ⟨⟨ho, trivial⟩, fun _ => rfl⟩
  | _ => exact ⟨⟨ho, trivial⟩, fun _ => rfl⟩

theorem plain_bind {α β : Type} {p : Call α} {f : α → Call β} {s : Ticket}
    {Q : Ticket → Except (Fault ManagedRunError) β → Prop} (hp : p.Only Op.plain)
    (hf : ∀ a, (f a).wp finalizing Q s) (hQ : ∀ e, Q s (.error e)) :
    (p >>= f).wp finalizing Q s := by
  refine Prog.wp_bind (R := fun s' _ => s' = s) (hp.wp (plain_keeps_ticket s) fun _ => rfl) ?_ ?_
  · rintro _ a rfl
    exact hf a
  · rintro _ e rfl
    exact hQ e

theorem plain_obeys {α : Type} {p : Call α} (hp : p.Only Op.plain) (s : Ticket) :
    p.Obeys finalizing s :=
  hp.obeys (plain_keeps_ticket s)

theorem obeys_bind {α β : Type} {p : Call α} {f : α → Call β} {s : Ticket}
    (hp : p.Obeys finalizing s) (hf : ∀ s a, (f a).Obeys finalizing s) :
    (p >>= f).Obeys finalizing s :=
  Prog.wp_bind hp (fun s a _ => hf s a) fun _ _ _ => trivial

section
variable (finishRun : Bool) (s : Ticket)

theorem afterClaim_wp (res : RunOutcome RunCommandResult) (t : Ticket)
    (hs : ∀ claim, res = .ok claim → claim.idempotentReplay = false → s = t) :
    (afterClaim active finishRun res).wp finalizing (fun s' out => out = .ok none → s' = t) s := by
  match res with
  | .error .panicked =>
    intro h
    cases h
  | .error (.error e) =>
    refine plain_bind (claimLost_only active finishRun e) (fun outcome h => ?_) fun e h => ?_
    · cases h
    · cases h
  | .ok claim =>
    simp only [afterClaim]
    split
    · intro h
      cases h
    · rename_i hreplay
      intro _
      exact hs claim rfl (by simpa using hreplay)

theorem takeClaim_wp :
    (takeClaim active finishRun).wp finalizing (fun s' out => out = .ok none →
      s' = some (active.binding.taskId, active.binding.attemptId)) s := by
  -- The clock for the envelope, then the command.
  refine ⟨⟨trivial, trivial⟩, fun now => ⟨⟨?_, trivial⟩, fun res => ?_⟩⟩
  · simp [RunCommand.envelope, List.isPrefixOf]
  · refine afterClaim_wp active finishRun _ res _ fun claim hres hreplay => ?_
    subst hres
    exact if_pos ⟨rfl, hreplay⟩

theorem enterFinalization_wp :
    (enterFinalization active finishRun).wp finalizing (fun s' out => out = .ok none →
      s' = some (active.binding.taskId, active.binding.attemptId)) s := by
  refine plain_bind (denyRevokedFinalization_only _ _) (fun denied => ?_) fun e h => by cases h
  cases denied with
  | some =>
    intro h
    cases h
  | none =>
    refine plain_bind (heartbeat_only _) (fun _ => ?_) fun e h => by cases h
    exact takeClaim_wp active finishRun s

end

theorem commitEffects_obeys :
    (commitEffects job active).Obeys finalizing
      (some (active.binding.taskId, active.binding.attemptId)) := by
  unfold commitEffects
  split
  · refine plain_bind (beforeEffect_only _ _ _) (fun denied => ?_) fun _ => trivial
    cases denied with
    | some => trivial
    | none =>
      have hdriver : (runDriver active).Obeys finalizing
          (some (active.binding.taskId, active.binding.attemptId)) := by
        refine ⟨⟨trivial, trivial⟩, fun canceled => ?_⟩
        show (ite _ _ _ : Call _).Obeys _ _
        split
        · trivial
        · exact ⟨⟨trivial, rfl⟩, fun _ => trivial⟩
      exact obeys_bind hdriver fun s committed => plain_obeys (recordEffect_only _ _ _) s
  · trivial

theorem finalizeCompleted_obeys :
    (finalizeCompleted job active).Obeys finalizing
      (some (active.binding.taskId, active.binding.attemptId)) := by
  refine plain_bind (verify_only _ _) (fun verified => ?_) fun _ => trivial
  match verified with
  | .returned denied => trivial
  | .goOn (some message) =>
    exact plain_bind (failAndFinish_only _ _ _ _) (fun _ => trivial) fun _ => trivial
  | .goOn none =>
    refine obeys_bind (commitEffects_obeys job active) fun s outcome => ?_
    cases outcome with
    | some => trivial
    | none => exact plain_obeys (attestAndPublish_only _ _) s

theorem finalizeOwned_obeys (s : Ticket) : (finalizeOwned job active).Obeys finalizing s := by
  refine plain_bind (Prog.only_query.mpr trivial) (fun clock => ?_) fun _ => trivial
  split
  · exact plain_obeys (finishDeadlineExceeded_only _ _) s
  · refine plain_bind (Prog.only_query.mpr trivial) (fun entered => ?_) fun _ => trivial
    split
    · trivial
    · refine plain_bind (currentSequence_only _) (fun _ => ?_) fun _ => trivial
      split
      · refine Prog.wp_bind (enterFinalization_wp active job.finishRun s) (fun s' out hs' => ?_)
          fun _ _ _ => trivial
        cases out with
        | some => trivial
        | none =>
          rw [hs' rfl]
          exact finalizeCompleted_obeys job active
      · exact plain_obeys (finalizeUnfinished_only _ _) s

theorem finalize_obeys (s : Ticket) : (finalize job).Obeys finalizing s := by
  refine plain_bind (Prog.only_query.mpr trivial) (fun found => ?_) fun _ => trivial
  refine plain_bind (orStop_only _ _) (fun active => ?_) fun _ => trivial
  split
  · trivial
  · refine plain_bind (beforeFinalization_only _ _) (fun outcome => ?_) fun _ => trivial
    cases outcome with
    | some => trivial
    | none =>
      have howned : (finalizeOwned job active).attempt.Obeys finalizing s :=
        Prog.wp_attempt.mpr (finalizeOwned_obeys job active s)
      refine obeys_bind howned fun s result => ?_
      refine plain_bind (settleDeadline_only _ _ _) (fun result => ?_) fun _ => trivial
      refine plain_bind (settleCancellation_only _ _) (fun outcome => ?_) fun _ => trivial
      exact plain_bind (recordQuiescence_only _) (fun _ => trivial) fun _ => trivial

theorem finalize_only : (finalize job).Only sideline :=
  (finalize_obeys job none).only fun _ _ h => h.1

end Tetonic.Managed
