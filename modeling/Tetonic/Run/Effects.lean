import Tetonic.Run.Board
import Tetonic.Run.Passes
set_option autoImplicit false

/-! What an event of a run does to its snapshot, said once. An event is a command, a lease the
recovery pass expires, or the quarantine at its end. -/

namespace Tetonic.Run
open Lib

inductive RunEvent where
  | command (c : RunCommand)
  /-- The recovery pass finds the lease of an attempt in flight expired. -/
  | expire (id : AttemptId) (now : UInt64)
  | quarantine

/-- The attempt an event reports as failed, and the class of the failure. -/
def RunEvent.failure : RunEvent → Option (AttemptId × FailureClass)
  | .command (.failAttempt c) =>
    some (c.attemptId, (c.timeoutKind.map failureClassForTimeout).getD c.failureClass)
  | .command (.expireLease c) => some (c.attemptId, .leaseExpired)
  | .command (.rejectArtifact c) => some (c.attemptId, .verificationFailed)
  | .expire id _ => some (id, .leaseExpired)
  | _ => none

def RunEvent.rejects : RunEvent → Bool
  | .command (.rejectArtifact _) => true
  | _ => false

/-- The event fails the attempt `a`: it is in flight, or it has succeeded and its artifact is
rejected. -/
structure RunEvent.Fails (e : RunEvent) (s : RunSnapshot) (id : AttemptId) (a : AttemptRecord)
    (failure : FailureClass) : Prop where
  event : e.failure = some (id, failure)
  attempt : s.attempts[id]? = some a
  state : if e.rejects then a.state = .succeeded else a.state.inFlight = true

/-- The task as the failure handling finds it: a rejection takes the win back. -/
def RunEvent.failing (e : RunEvent) (task : TaskRecord) : TaskRecord :=
  if e.rejects then { task with winningAttempt := none, completedVersion := none } else task

theorem RunEvent.failing_retry (e : RunEvent) (task : TaskRecord) :
    (e.failing task).binding = task.binding ∧
      (e.failing task).retry.attemptCount = task.retry.attemptCount := by
  unfold RunEvent.failing
  split
  all_goals exact ⟨rfl, rfl⟩

/-- The commits of side effects are as before, or the event adds one under a free key. -/
def CommitStep (s : RunSnapshot) (e : RunEvent) (commits : OrdMap String SideEffectCommitRecord) :
    Prop :=
  commits = s.sideEffectCommits ∨ ∃ c : RecordSideEffectCommit,
    e = .command (.recordSideEffectCommit c) ∧
    s.sideEffectCommits[c.operationKey]?.any (·.committed) = false ∧
    commits = s.sideEffectCommits.insert c.operationKey
      ⟨c.operationKey, true, c.transactionId, c.committedAt⟩

/-- What the failure handling leaves when the attempt `a` fails: its task is to be tried again, or
has failed. -/
inductive FailureHandled (s : RunSnapshot) (e : RunEvent) (id : AttemptId) (a : AttemptRecord)
    (failure : FailureClass) : RunSnapshot → Prop where
  | retry {a' : AttemptRecord} {task : TaskRecord} {reason : String} {retryAt : UInt64}
      (hsame : a'.taskId = a.taskId) (hend : a'.state.failedEnd = true)
      (htask : s.tasks[a.taskId]? = some task) (hretry : willRetry s a.taskId failure = true) :
      FailureHandled s e id a failure (recomputeBlockedReady { s with
        attempts := s.attempts.insert id a'
        tasks := s.tasks.insert a.taskId ((e.failing task).retried failure reason retryAt) })
  | giveUp {a' : AttemptRecord} {task : TaskRecord} {reason : String}
      (hsame : a'.taskId = a.taskId) (hend : a'.state.failedEnd = true)
      (htask : s.tasks[a.taskId]? = some task) (hretry : willRetry s a.taskId failure = false) :
      FailureHandled s e id a failure (recomputeBlockedReady (applyDependencyFailure { s with
        attempts := s.attempts.insert id a'
        tasks := s.tasks.insert a.taskId ((e.failing task).gaveUp failure reason) } a.taskId))

theorem FailureHandled.rescheduled {s t : RunSnapshot} {e : RunEvent} {id : AttemptId}
    {a : AttemptRecord} {failure : FailureClass} (h : FailureHandled s e id a failure t) :
    ∃ attempts new, Rescheduled { s with attempts, tasks := s.tasks.insert a.taskId new } t := by
  cases h with
  | retry => exact ⟨_, _, recomputeBlockedReady_rescheduled _⟩
  | giveUp =>
    exact ⟨_, _, (applyDependencyFailure_rescheduled _ _).trans
      (recomputeBlockedReady_rescheduled _)⟩

inductive Effect (s : RunSnapshot) : RunEvent → RunSnapshot → Prop where
  | still {e : RunEvent} {state : RunState} {commits : OrdMap String SideEffectCommitRecord}
      (hcommits : CommitStep s e commits) :
      Effect s e { s with state, sideEffectCommits := commits }
  | createRun {c : CreateRun} (hempty : s.tasks.isEmpty = true) :
      Effect s (.command (.createRun c)) { s with
        runId := c.runId
        sessionId := c.sessionId
        state := .created
        workspaceVersion := c.rootBinding.workspaceVersion
        deadlines := { s.deadlines with runDeadline := c.rootBinding.deadline }
        tasks := s.tasks.insert c.rootTaskId (newTask c.rootTaskId c.rootBinding)
        speculation := c.speculation.getD s.speculation
        jobSpec := c.jobSpec }
  | startRun {c : StartRun} :
      Effect s (.command (.startRun c)) (recomputeBlockedReady { s with state := .active })
  | addTask {c : AddTask} (hid : s.tasks[c.taskId]? = none) :
      Effect s (.command (.addTask c)) (recomputeBlockedReady { s with
        tasks := s.tasks.insert c.taskId (newTask c.taskId c.binding) })
  | addDependency {c : AddDependency} {task target : TaskRecord}
      (htask : s.tasks[c.taskId]? = some task) (hlocked : taskIsLocked task.state = false)
      (htarget : s.tasks[c.dependsOn]? = some target)
      (hcycle : wouldCreateCycle s.dependencies c.taskId c.dependsOn = false) :
      Effect s (.command (.addDependency c)) (recomputeBlockedReady { s with
        dependencies := s.dependencies.insert c.taskId
          (s.dependencies[c.taskId]?.getD [] ++ [⟨c.dependsOn, c.policy⟩]) })
  | markReady {c : MarkTaskReady} {task : TaskRecord} (htask : s.tasks[c.taskId]? = some task)
      (hstate : task.state = .created ∨ task.state = .blocked)
      (hsat : dependenciesSatisfied s c.taskId = true) :
      Effect s (.command (.markTaskReady c))
        { s with tasks := s.tasks.insert c.taskId { task with state := .ready } }
  | createAttempt {c : CreateAttempt} {a : AttemptRecord} {task : TaskRecord}
      {index : OrdMap String AttemptId} (htask : s.tasks[c.taskId]? = some task)
      (hstate : task.state = .ready ∨ task.state = .leased ∨
        s.speculation.allowed = true ∧ task.state = .running)
      (hcount : task.retry.attemptCount < task.binding.retryPolicy.maxAttempts)
      (hopen : (s.attempts.countValues fun a => decide (a.taskId = c.taskId) && a.state.isOpen) <
        s.speculation.maxSimultaneousAttempts)
      (hid : s.attempts[c.attemptId]? = none) (hnew : a.Fresh c.attemptId c.taskId) :
      Effect s (.command (.createAttempt c)) { s with
        attempts := s.attempts.insert c.attemptId a
        deliveryIndex := index
        tasks := s.tasks.insert c.taskId { task with
          activeAttempt := some c.attemptId
          state := if task.state = .ready then .leased else task.state } }
  | adjust {e : RunEvent} {id : AttemptId} {a a' : AttemptRecord} {epoch : UInt64}
      (ha : s.attempts[id]? = some a) (htask : a'.taskId = a.taskId)
      (hstate : a'.state = a.state ∨ a.state.isOpen = true ∧ a'.state.isOpen = true) :
      Effect s e { s with attempts := s.attempts.insert id a', nextLeaseEpoch := epoch }
  | claimExecution {c : StartAttempt} {a : AttemptRecord} {task : TaskRecord}
      (ha : s.attempts[c.attemptId]? = some a) (hstate : a.state = .starting)
      (htask : s.tasks[a.taskId]? = some task) :
      Effect s (.command (.claimExecution c)) { s with
        attempts := s.attempts.insert c.attemptId
          { a with executionClaimed := true, state := .running }
        tasks := s.tasks.insert a.taskId { task with state := .running } }
  | suspend {c : SuspendAttempt} {a a' : AttemptRecord} {task : TaskRecord}
      (ha : s.attempts[c.attemptId]? = some a) (hstate : a.state = .running)
      (hsame : a'.taskId = a.taskId) (hsuspended : a'.state = .suspended)
      (htask : s.tasks[a.taskId]? = some task) (hrunning : task.state = .running)
      (hothers : s.board.othersSettled c.attemptId) :
      Effect s (.command (.suspendAttempt c)) { s with
        attempts := s.attempts.insert c.attemptId a'
        tasks := s.tasks.insert a.taskId { task with state := .parked } }
  | resume {c : ResumeAttempt} {a a' : AttemptRecord} {task : TaskRecord} {epoch : UInt64}
      {deadline : Option UInt64} {deadlines : RunDeadlines}
      (ha : s.attempts[c.attemptId]? = some a) (hstate : a.state = .suspended)
      (hsame : a'.taskId = a.taskId) (hstarting : a'.state = .starting)
      (htask : s.tasks[a.taskId]? = some task) (hparked : task.state = .parked)
      (hothers : s.board.othersSettled c.attemptId) :
      Effect s (.command (.resumeAttempt c)) { s with
        nextLeaseEpoch := epoch
        attempts := s.attempts.insert c.attemptId a'
        tasks := s.tasks.insert a.taskId
          { task with state := .leased, binding := { task.binding with deadline } }
        deadlines }
  | claimFinalization {c : ClaimFinalization} {task : TaskRecord}
      (htask : s.tasks[c.taskId]? = some task)
      (hclaim : task.finalizationClaim = some c.attemptId ∨ task.finalizationClaim = none ∧
        (∀ w, task.winningAttempt = some w → w = c.attemptId) ∧
        ∃ a, s.attempts[c.attemptId]? = some a ∧ a.taskId = c.taskId ∧ a.state.inFlight = true) :
      Effect s (.command (.claimFinalization c)) { s with
        tasks := s.tasks.insert c.taskId { task with finalizationClaim := some c.attemptId } }
  | complete {c : CompleteAttempt} {a a' : AttemptRecord} {task : TaskRecord}
      {version : Option UInt64} (ha : s.attempts[c.attemptId]? = some a)
      (hfly : a.state.inFlight = true) (hsame : a'.taskId = a.taskId)
      (hsucceeded : a'.state = .succeeded) (htask : s.tasks[a.taskId]? = some task)
      (hcanceled : task.state ≠ .canceled)
      (hwin : ∀ w, task.winningAttempt = some w → w = c.attemptId) :
      Effect s (.command (.completeAttempt c)) { s with
        attempts := (s.attempts.insert c.attemptId a').map (supersede a.taskId c.attemptId)
        tasks := s.tasks.insert a.taskId
          { task with winningAttempt := some c.attemptId, completedVersion := version } }
  | failed {e : RunEvent} {id : AttemptId} {a : AttemptRecord} {failure : FailureClass}
      {t : RunSnapshot} (hfails : e.Fails s id a failure)
      (hhandled : FailureHandled s e id a failure t) : Effect s e t
  | cancelTask {c : CancelTask} {task : TaskRecord} (htask : s.tasks[c.taskId]? = some task)
      (hstate : task.state ≠ .succeeded) :
      Effect s (.command (.cancelTask c)) { s with
        tasks := s.tasks.insert c.taskId { task with state := .canceled }
        attempts := s.attempts.map fun _ a =>
          if a.taskId = c.taskId then cancelAttempt a else a }
  | cancelRun {c : CancelRun} {cancellation : CancellationRecord} :
      Effect s (.command (.cancelRun c)) { s with
        cancellation
        tasks := s.tasks.map fun _ t => cancelTaskRecord t
        attempts := s.attempts.map fun _ a => cancelAttempt a
        state := .canceled }
  | accept {c : AcceptArtifact} {a : AttemptRecord} {task : TaskRecord}
      (ha : s.attempts[c.attemptId]? = some a) (hstate : a.state = .succeeded)
      (hid : a.taskId = c.taskId) (htask : s.tasks[c.taskId]? = some task) :
      Effect s (.command (.acceptArtifact c)) { s with
        tasks := s.tasks.insert c.taskId
          { task with acceptedArtifact := some c.artifact, state := .succeeded } }
  | note {e : RunEvent} {taskId : TaskId} {task : TaskRecord} {keys : List String}
      {commits : OrdMap String SideEffectCommitRecord} (htask : s.tasks[taskId]? = some task)
      (hkeys : ∀ key ∈ task.sideEffectKeys, key ∈ keys) (hcommits : CommitStep s e commits) :
      Effect s e { s with
        sideEffectCommits := commits
        tasks := s.tasks.insert taskId { task with sideEffectKeys := keys } }

variable {id : AttemptId} {a : AttemptRecord}

def RunEvent.leases : RunEvent → Option AttemptId
  | .command (.leaseAttempt c) => some c.attemptId
  | .command (.resumeAttempt c) => some c.attemptId
  | .command (.recordHeartbeat c) => some c.attemptId
  | _ => none

def RunEvent.parks : RunEvent → Option AttemptId
  | .command (.suspendAttempt c) => some c.attemptId
  | .command (.resumeAttempt c) => some c.attemptId
  | _ => none

/-- The events that can end an attempt as one whose lease has expired. -/
def RunEvent.expires (id : AttemptId) : RunEvent → Prop
  | .command (.failAttempt c) => c.attemptId = id
  | .command (.expireLease c) => c.attemptId = id
  | .expire k _ => k = id
  | _ => False

/-- The attempt keeps its lease and its suspension unless the event writes them, and its lease
expires only by an event of that kind. -/
structure AttemptRecord.Held (e : RunEvent) (id : AttemptId) (a a' : AttemptRecord) : Prop where
  lease : e.leases ≠ some id → a'.lease = a.lease
  suspension : e.parks ≠ some id → a'.suspension = a.suspension
  expired : a'.state = .leaseExpired → a.state = .leaseExpired ∨ e.expires id

def Holds (s : RunSnapshot) (e : RunEvent) (t : RunSnapshot) : Prop :=
  ∀ (id : AttemptId) (a : AttemptRecord), s.attempts[id]? = some a →
    ∃ a', t.attempts[id]? = some a' ∧ a.Held e id a'

variable {a' : AttemptRecord}

section
variable {s t : RunSnapshot} {e : RunEvent}

theorem AttemptRecord.Held.refl (a : AttemptRecord) : a.Held e id a :=
  ⟨fun _ => rfl, fun _ => rfl, .inl⟩

theorem Holds.same (h : t.attempts = s.attempts) : Holds s e t := by
  intro id a ha
  exact ⟨a, by rw [h, ha], .refl a⟩

section
variable (h : t.attempts = s.attempts.insert id a')
include h

/-- Only one attempt is written. -/
theorem Holds.insert (hid : ∀ a, s.attempts[id]? = some a → a.Held e id a') : Holds s e t := by
  intro k a ha
  rw [h]
  by_cases hne : id = k
  · subst hne
    exact ⟨a', OrdMap.get_insert_self _ _ _, hid a ha⟩
  · exact ⟨a, by rw [OrdMap.get_insert_ne _ _ hne, ha], .refl a⟩

theorem Holds.one (ha : s.attempts[id]? = some a) (hheld : a.Held e id a') : Holds s e t := by
  refine .insert h ?_
  intro r hr
  rw [ha] at hr
  cases hr
  exact hheld

theorem Holds.work (ha : s.attempts[id]? = some a)
    (hlease : a'.lease = a.lease) (hsuspension : a'.suspension = a.suspension)
    (hexpired : a'.state = .leaseExpired → a.state = .leaseExpired ∨ e.expires id) :
    Holds s e t :=
  .one h ha ⟨fun _ => hlease, fun _ => hsuspension, hexpired⟩

end

theorem Holds.map {f : AttemptId → AttemptRecord → AttemptRecord}
    (h : t.attempts = s.attempts.map f)
    (hf : ∀ (id : AttemptId) (a : AttemptRecord), a.Held e id (f id a)) : Holds s e t := by
  intro id a ha
  exact ⟨f id a, by rw [h, OrdMap.get_map, ha]; rfl, hf id a⟩

theorem Holds.trans {u : RunSnapshot} (hst : Holds s e t) (htu : Holds t e u) : Holds s e u := by
  intro id a ha
  obtain ⟨b, hb, hab⟩ := hst id a ha
  obtain ⟨c, hc, hbc⟩ := htu id b hb
  refine ⟨c, hc, fun hid => (hbc.lease hid).trans (hab.lease hid),
    fun hid => (hbc.suspension hid).trans (hab.suspension hid), ?_⟩
  intro hexpired
  exact (hbc.expired hexpired).elim hab.expired .inr

theorem cancelAttempt_held (a : AttemptRecord) : a.Held e id (cancelAttempt a) := by
  unfold cancelAttempt
  split
  · exact ⟨fun _ => rfl, fun _ => rfl, fun h => by cases h⟩
  · exact .refl a

theorem supersede_held {k : TaskId} {winner : AttemptId} (a : AttemptRecord) :
    a.Held e id (supersede k winner id a) := by
  unfold supersede
  split
  · exact ⟨fun _ => rfl, fun _ => rfl, fun h => by cases h⟩
  · exact .refl a

end

end Tetonic.Run
