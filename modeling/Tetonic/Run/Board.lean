import Tetonic.Run.Transition
set_option autoImplicit false

/-! The abstract run: who may execute, who has won, and which epoch comes next. A `Board`
is the part of a snapshot these questions depend on, and `BoardStep` lists the ways it can
change. Every accepted command is one of them, so an invariant of the steps is an invariant
of the state machine. -/

namespace Tetonic.Run
open Lib

structure Board where
  tasks : OrdMap TaskId TaskRecord
  attempts : OrdMap AttemptId AttemptRecord
  nextLeaseEpoch : UInt64

def RunSnapshot.board (s : RunSnapshot) : Board := ⟨s.tasks, s.attempts, s.nextLeaseEpoch⟩

@[simp] theorem board_tasks (s : RunSnapshot) : s.board.tasks = s.tasks := rfl
/-- A task to which nothing happens but waiting: its binding, its attempts, its winner and its
claim stay, and only a task that was never leased changes its state. -/
structure TaskRecord.Idle (before after : TaskRecord) : Prop where
  taskId : after.taskId = before.taskId
  binding : after.binding = before.binding
  activeAttempt : after.activeAttempt = before.activeAttempt
  winningAttempt : after.winningAttempt = before.winningAttempt
  finalizationClaim : after.finalizationClaim = before.finalizationClaim
  state : after.state = before.state ∨ taskIsExecutable before.state = true ∧
    (after.state = .ready ∨ after.state = .blocked ∨ after.state = .skipped)

theorem TaskRecord.Idle.refl (task : TaskRecord) : task.Idle task :=
  ⟨rfl, rfl, rfl, rfl, rfl, .inl rfl⟩

theorem TaskRecord.rescheduled.idle {a b : TaskRecord} (h : a.rescheduled b) : a.Idle b := by
  rcases h with rfl | ⟨he, st, hst, rfl⟩
  · exact .refl _
  · exact ⟨rfl, rfl, rfl, rfl, rfl, .inr ⟨he, hst⟩⟩

structure TasksIdle (m m' : OrdMap TaskId TaskRecord) : Prop where
  size : m'.size = m.size
  missing : ∀ k : TaskId, m[k]? = none → m'[k]? = none
  present : ∀ (k : TaskId) (task : TaskRecord), m[k]? = some task →
    ∃ task', m'[k]? = some task' ∧ task.Idle task'

theorem TasksIdle.refl (m : OrdMap TaskId TaskRecord) : TasksIdle m m :=
  ⟨rfl, fun _ h => h, fun _ task h => ⟨task, h, .refl task⟩⟩

theorem Rescheduled.tasksIdle {s t : RunSnapshot} (h : Rescheduled s t) :
    TasksIdle s.tasks t.tasks where
  size := h.size
  missing := h.missing
  present k task hk := by
    obtain ⟨task', hk', hr⟩ := h.present k task hk
    exact ⟨task', hk', hr.idle⟩

theorem TasksIdle.before {m m' : OrdMap TaskId TaskRecord} (h : TasksIdle m m') {k : TaskId}
    {task' : TaskRecord} (hk : m'[k]? = some task') : ∃ task, m[k]? = some task ∧ task.Idle task' :=
  OrdMap.get_before h.missing h.present hk

theorem TasksIdle.insert {m : OrdMap TaskId TaskRecord} {k : TaskId} {task task' : TaskRecord}
    (hk : m[k]? = some task) (hi : task.Idle task') : TasksIdle m (m.insert k task') where
  size := OrdMap.size_insert_of_get hk task'
  missing _ := OrdMap.insert_missing hk
  present _ _ := OrdMap.insert_present .refl hk hi

/-- A task as `new_task` makes it, possibly already moved by a graph pass. -/
structure TaskRecord.Fresh (task : TaskRecord) (id : TaskId) : Prop where
  taskId : task.taskId = id
  activeAttempt : task.activeAttempt = none
  winningAttempt : task.winningAttempt = none
  finalizationClaim : task.finalizationClaim = none

/-- An attempt as `apply_create_attempt` makes it. -/
structure AttemptRecord.Fresh (a : AttemptRecord) (id : AttemptId) (taskId : TaskId) : Prop where
  attemptId : a.attemptId = id
  taskId : a.taskId = taskId
  state : a.state = .created
  lease : a.lease = none
  executionClaimed : a.executionClaimed = false
  executionQuiesced : a.executionQuiesced = false
  suspension : a.suspension = none

/-- Every attempt but `id` has ended and its worker has stopped. -/
def Board.othersSettled (b : Board) (id : AttemptId) : Prop :=
  ∀ (k : AttemptId) (other : AttemptRecord), b.attempts[k]? = some other → other.attemptId ≠ id →
    isTerminalAttempt other.state = true ∧ other.executionQuiesced = true

/-- Two leases of one holder's claim: a heartbeat changes neither id, epoch nor holder. -/
structure AttemptLease.SameFence (before after : AttemptLease) : Prop where
  leaseId : after.leaseId = before.leaseId
  leaseEpoch : after.leaseEpoch = before.leaseEpoch
  holder : after.holder = before.holder

inductive BoardStep (b : Board) : Board → Prop where
  | idle {tasks : OrdMap TaskId TaskRecord} (h : TasksIdle b.tasks tasks) :
      BoardStep b { b with tasks }
  | addTask {tasks : OrdMap TaskId TaskRecord} {id : TaskId} {task : TaskRecord}
      (hid : b.tasks[id]? = none) (hnew : task.Fresh id)
      (h : TasksIdle (b.tasks.insert id task) tasks) : BoardStep b { b with tasks }
  | createAttempt {id : AttemptId} {taskId : TaskId} {a : AttemptRecord} {task : TaskRecord}
      {st : TaskState} (htask : b.tasks[taskId]? = some task)
      (hready : task.state = .ready ∨ task.state = .leased ∨ task.state = .running)
      (hst : st = .leased ∨ st = .running) (hid : b.attempts[id]? = none)
      (hnew : a.Fresh id taskId) :
      BoardStep b { b with
        attempts := b.attempts.insert id a
        tasks := b.tasks.insert taskId { task with activeAttempt := some id, state := st } }
  | leaseAttempt {id : AttemptId} {a : AttemptRecord} {lease : AttemptLease}
      (ha : b.attempts[id]? = some a) (hs : a.state = .created) :
      BoardStep b { b with
        attempts := b.attempts.insert id { a with state := .leased, lease := some lease }
        nextLeaseEpoch := lease.leaseEpoch }
  | startAttempt {id : AttemptId} {a : AttemptRecord} (ha : b.attempts[id]? = some a)
      (hs : a.state = .leased) :
      BoardStep b { b with attempts := b.attempts.insert id { a with state := .starting } }
  | heartbeat {id : AttemptId} {a : AttemptRecord} {lease lease' : AttemptLease}
      (ha : b.attempts[id]? = some a) (hs : a.state.inFlight = true)
      (hl : a.lease = some lease) (hf : lease.SameFence lease') :
      BoardStep b { b with attempts := b.attempts.insert id { a with lease := some lease' } }
  | quiesce {id : AttemptId} {a : AttemptRecord} (ha : b.attempts[id]? = some a)
      (hs : isTerminalAttempt a.state = true) :
      BoardStep b { b with attempts := b.attempts.insert id { a with executionQuiesced := true } }
  | claimExecution {id : AttemptId} {a : AttemptRecord} (ha : b.attempts[id]? = some a)
      (hs : a.state = .starting) (hc : a.executionClaimed = false) :
      BoardStep b { b with
        attempts := b.attempts.insert id { a with executionClaimed := true, state := .running }
        tasks := b.tasks.modify a.taskId fun task => { task with state := .running } }
  | suspend {id : AttemptId} {a : AttemptRecord} {task : TaskRecord} {parked : AttemptSuspension}
      (ha : b.attempts[id]? = some a) (hs : a.state = .running) (hc : a.executionClaimed = true)
      (hsize : b.tasks.size = 1) (htask : b.tasks[a.taskId]? = some task)
      (hactive : task.activeAttempt = some id) (hothers : b.othersSettled id) :
      BoardStep b { b with
        attempts := b.attempts.insert id
          { a with state := .suspended, executionQuiesced := true, suspension := some parked }
        tasks := b.tasks.insert a.taskId { task with state := .parked } }
  | resume {id : AttemptId} {a : AttemptRecord} {task : TaskRecord} {lease lease' : AttemptLease}
      {deadline : Option UInt64}
      (ha : b.attempts[id]? = some a) (hs : a.state = .suspended) (hl : a.lease = some lease)
      (hsize : b.tasks.size = 1) (htask : b.tasks[a.taskId]? = some task)
      (hactive : task.activeAttempt = some id) (hothers : b.othersSettled id)
      (hepoch : checkedAdd b.nextLeaseEpoch 1 = some lease'.leaseEpoch) :
      BoardStep b { b with
        attempts := b.attempts.insert id { a with
          state := .starting
          executionClaimed := false
          executionQuiesced := false
          suspension := none
          lease := some lease' }
        tasks := b.tasks.insert a.taskId
          { task with state := .leased, binding := { task.binding with deadline } }
        nextLeaseEpoch := lease'.leaseEpoch }
  | claimFinalization {id : AttemptId} {taskId : TaskId} {task : TaskRecord}
      (htask : b.tasks[taskId]? = some task)
      (hclaim : task.finalizationClaim = none ∨ task.finalizationClaim = some id) :
      BoardStep b { b with
        tasks := b.tasks.insert taskId { task with finalizationClaim := some id } }
  | completeAttempt {id : AttemptId} {a : AttemptRecord} {task : TaskRecord}
      {digest : Option String} {workspace : Option WorkspaceVersion} {version : Option UInt64}
      (ha : b.attempts[id]? = some a) (hs : a.state.inFlight = true)
      (htask : b.tasks[a.taskId]? = some task)
      (hwin : ∀ w, task.winningAttempt = some w → w = id) :
      BoardStep b { b with
        attempts := (b.attempts.insert id { a with
          state := .succeeded
          resultDigest := digest
          workspaceVersion := workspace }).map (supersede a.taskId id)
        tasks := b.tasks.insert a.taskId
          { task with winningAttempt := some id, completedVersion := version } }
  | failAttempt {tasks : OrdMap TaskId TaskRecord} {id : AttemptId} {a : AttemptRecord}
      {task : TaskRecord} {st : AttemptState} {tst : TaskState} {failure : Option FailureClass}
      {reason : Option String} {retry : TaskRetryState}
      (ha : b.attempts[id]? = some a) (hs : a.state.inFlight = true) (hst : st.failedEnd = true)
      (htask : b.tasks[a.taskId]? = some task) (htst : tst = .ready ∨ tst = .failed)
      (h : TasksIdle
        (b.tasks.insert a.taskId { task with state := tst, activeAttempt := none, retry }) tasks) :
      BoardStep b { b with
        attempts := b.attempts.insert id
          { a with state := st, failureClass := failure, failureReason := reason }
        tasks }
  | rejectArtifact {tasks : OrdMap TaskId TaskRecord} {id : AttemptId} {a : AttemptRecord}
      {task : TaskRecord} {tst : TaskState} {failure : Option FailureClass}
      {reason : Option String} {retry : TaskRetryState}
      (ha : b.attempts[id]? = some a) (hs : a.state = .succeeded)
      (htask : b.tasks[a.taskId]? = some task) (htst : tst = .ready ∨ tst = .failed)
      (h : TasksIdle
        (b.tasks.insert a.taskId { task with
          state := tst
          activeAttempt := none
          winningAttempt := none
          completedVersion := none
          retry }) tasks) :
      BoardStep b { b with
        attempts := b.attempts.insert id
          { a with state := .failed, failureClass := failure, failureReason := reason }
        tasks }
  | cancelTask {taskId : TaskId} {task : TaskRecord} (htask : b.tasks[taskId]? = some task) :
      BoardStep b { b with
        tasks := b.tasks.insert taskId { task with state := .canceled }
        attempts := b.attempts.map fun _ a => if a.taskId = taskId then cancelAttempt a else a }
  | cancelRun :
      BoardStep b { b with
        tasks := b.tasks.map fun _ t => cancelTaskRecord t
        attempts := b.attempts.map fun _ a => cancelAttempt a }
  | acceptArtifact {id : AttemptId} {a : AttemptRecord} {task : TaskRecord}
      {artifact : Option ArtifactRef} (ha : b.attempts[id]? = some a) (hs : a.state = .succeeded)
      (htask : b.tasks[a.taskId]? = some task) :
      BoardStep b { b with
        tasks := b.tasks.insert a.taskId
          { task with acceptedArtifact := artifact, state := .succeeded } }

theorem BoardStep.refl (b : Board) : BoardStep b b := .idle (.refl b.tasks)

end Tetonic.Run
