import Tetonic.Run.Effects
set_option autoImplicit false

/-! Every accepted command is a step of the board and has one of the effects. Each handler is taken
apart once, for both. -/

namespace Tetonic.Run
open Lib OrdMap

variable {P : Platform} {s t : RunSnapshot}

/-- The run takes new work: it is neither finished, canceled nor quarantined. -/
def RunSnapshot.Accepts (s : RunSnapshot) : Prop :=
  (s.state = .active ∨ s.state = .created) ∧ s.cancellation.runCanceled = false

variable {u : Unit}

@[simp] theorem ensureNotRecovery_eq_ok :
    ensureNotRecovery s = .ok u ↔ s.state ≠ .recoveryRequired := by
  simp [ensureNotRecovery]

@[simp] theorem ensureRunAcceptsMutations_eq_ok :
    ensureRunAcceptsMutations s = .ok u ↔ s.Accepts := by
  simp only [ensureRunAcceptsMutations, bind_eq_ok, ensureNotRecovery_eq_ok, refuseIf_eq_ok,
    RunSnapshot.Accepts, exists_const, not_not, Bool.not_eq_true]
  constructor
  · rintro ⟨-, hc, hs⟩
    exact ⟨hs, hc⟩
  · rintro ⟨hs, hc⟩
    refine ⟨?_, hc, hs⟩
    rcases hs with hs | hs <;> simp [hs]

variable {task : TaskRecord}

@[simp] theorem findTask_eq_ok {id : TaskId} :
    findTask s id = .ok task ↔ s.tasks[id]? = some task := by
  simp [findTask]

variable {id : AttemptId} {a : AttemptRecord}

@[simp] theorem findAttempt_eq_ok : findAttempt s id = .ok a ↔ s.attempts[id]? = some a := by
  simp [findAttempt]

theorem get_none_of_contains_false {β : Type} {m : OrdMap String β} {k : String}
    (h : ¬ m.contains k = true) : m[k]? = none := by
  simpa using h

variable {s₁ : RunSnapshot}

theorem Rescheduled.board (h : Rescheduled s₁ t) :
    t.board = { s₁.board with tasks := t.tasks } := by
  simp only [RunSnapshot.board]
  rw [h.rest]

/-- An event as the board and as the tasks see it. -/
structure Moves (s : RunSnapshot) (e : RunEvent) (t : RunSnapshot) : Prop where
  board : BoardStep s.board t.board
  effect : Effect s e t
  holds : Holds s e t

variable {e : RunEvent}

theorem Moves.still : Moves s e s := ⟨.refl _, .still (.inl rfl), .same rfl⟩

theorem Rescheduled.attempts (h : Rescheduled s₁ t) : t.attempts = s₁.attempts := by
  rw [h.rest]

theorem applyCreateRun_moves {c : CreateRun} (h : applyCreateRun s c = .ok t) :
    Moves s (.command (.createRun c)) t := by
  simp only [applyCreateRun, bind_eq_ok, refuseIf_eq_ok, pure_eq_ok, exists_const, not_or,
    Bool.not_eq_false] at h
  obtain ⟨⟨hempty, -⟩, rfl⟩ := h
  have hfresh : (newTask c.rootTaskId c.rootBinding).Fresh c.rootTaskId := ⟨rfl, rfl, rfl, rfl⟩
  exact ⟨.addTask (get_eq_none_of_isEmpty _ hempty _) hfresh (.refl _), .createRun hempty,
    .same rfl⟩

theorem applyStartRun_moves {c : StartRun} (h : applyStartRun s c = .ok t) :
    Moves s (.command (.startRun c)) t := by
  simp only [applyStartRun, bind_eq_ok, refuseIf_eq_ok, pure_eq_ok, exists_const] at h
  obtain ⟨-, -, rfl⟩ := h
  have hr := recomputeBlockedReady_rescheduled { s with state := .active }
  refine ⟨?_, .startRun, .same hr.attempts⟩
  rw [hr.board]
  exact .idle hr.tasksIdle

theorem addTask_moves {c : AddTask} (h : addTask s c = .ok t) :
    Moves s (.command (.addTask c)) t := by
  simp only [addTask, bind_eq_ok, ensureRunAcceptsMutations_eq_ok, refuseIf_eq_ok, pure_eq_ok,
    exists_const] at h
  obtain ⟨-, -, -, hid, rfl⟩ := h
  have hnone := get_none_of_contains_false hid
  have hr := recomputeBlockedReady_rescheduled
    { s with tasks := s.tasks.insert c.taskId (newTask c.taskId c.binding) }
  refine ⟨?_, .addTask hnone, .same hr.attempts⟩
  rw [hr.board]
  exact .addTask hnone ⟨rfl, rfl, rfl, rfl⟩ hr.tasksIdle

theorem applyAddDependency_moves {c : AddDependency} (h : applyAddDependency s c = .ok t) :
    Moves s (.command (.addDependency c)) t := by
  simp only [applyAddDependency, bind_eq_ok, ensureRunAcceptsMutations_eq_ok, findTask_eq_ok,
    refuseIf_eq_ok, pure_eq_ok, exists_const, Bool.not_eq_true, Bool.not_eq_false] at h
  obtain ⟨-, task, htask, hlocked, htarget, hcycle, rfl⟩ := h
  rw [Std.ExtTreeMap.contains_eq_isSome_getElem?] at htarget
  obtain ⟨target, htarget⟩ := Option.isSome_iff_exists.mp htarget
  have hr := recomputeBlockedReady_rescheduled { s with
    dependencies := s.dependencies.insert c.taskId
      (s.dependencies[c.taskId]?.getD [] ++ [⟨c.dependsOn, c.policy⟩]) }
  refine ⟨?_, .addDependency htask hlocked htarget hcycle, .same hr.attempts⟩
  rw [hr.board]
  exact .idle hr.tasksIdle

theorem applyMarkTaskReady_moves {c : MarkTaskReady} (h : applyMarkTaskReady s c = .ok t) :
    Moves s (.command (.markTaskReady c)) t := by
  simp only [applyMarkTaskReady, bind_eq_ok, ensureRunAcceptsMutations_eq_ok, findTask_eq_ok,
    exists_const] at h
  obtain ⟨-, task, htask, h⟩ := h
  split at h
  · cases h
    exact .still
  · simp only [bind_eq_ok, refuseIf_eq_ok, pure_eq_ok, exists_const, not_not,
      Bool.not_eq_false] at h
    obtain ⟨hwait, -, hsat, rfl⟩ := h
    refine ⟨.idle (TasksIdle.insert htask ⟨rfl, rfl, rfl, rfl, rfl, .inr ⟨?_, .inl rfl⟩⟩),
      .markReady htask hwait hsat, .same rfl⟩
    rcases hwait with hw | hw <;> simp [hw, taskIsExecutable]

theorem applyCreateAttempt_moves {c : CreateAttempt} (h : applyCreateAttempt P s c = .ok t) :
    Moves s (.command (.createAttempt c)) t := by
  simp only [applyCreateAttempt, bind_eq_ok, ensureRunAcceptsMutations_eq_ok, exists_const] at h
  obtain ⟨-, h⟩ := h
  split at h
  · simp only [bind_eq_ok, refuseIf_eq_ok, pure_eq_ok, exists_const] at h
    obtain ⟨-, rfl⟩ := h
    exact .still
  · simp only [bind_eq_ok, findTask_eq_ok, refuseIf_eq_ok, pure_eq_ok, exists_const, ge_iff_le,
      Nat.not_le] at h
    obtain ⟨task, htask, hst, hcount, hid, hopen, rfl⟩ := h
    have hnone := get_none_of_contains_false hid
    have hready : task.state = .ready ∨ task.state = .leased ∨
        s.speculation.allowed = true ∧ task.state = .running := by
      by_contra hno
      simp only [not_or] at hno
      exact hst hno
    refine ⟨.createAttempt htask (hready.imp_right (Or.imp_right And.right)) ?_ hnone
      ⟨rfl, rfl, rfl, rfl, rfl, rfl, rfl⟩,
      .createAttempt htask hready hcount hopen hnone ⟨rfl, rfl, rfl, rfl, rfl, rfl, rfl⟩,
      .insert rfl fun a ha => by rw [hnone] at ha; cases ha⟩
    rcases hready with hr | hr | ⟨-, hr⟩ <;> simp [hr]

theorem applyLeaseAttempt_moves {c : LeaseAttempt} (h : applyLeaseAttempt s c = .ok t) :
    Moves s (.command (.leaseAttempt c)) t := by
  simp only [applyLeaseAttempt, bind_eq_ok, ensureRunAcceptsMutations_eq_ok, findAttempt_eq_ok,
    refuseIf_eq_ok, pure_eq_ok, exists_const, not_not] at h
  obtain ⟨-, a, ha, hs, rfl⟩ := h
  exact ⟨.leaseAttempt ha hs, .adjust ha rfl (.inr ⟨by rw [hs]; rfl, rfl⟩),
    .one rfl ha ⟨fun h => absurd rfl h, fun _ => rfl, by simp⟩⟩

theorem applyStartAttempt_moves {c : StartAttempt} (h : applyStartAttempt s c = .ok t) :
    Moves s (.command (.startAttempt c)) t := by
  simp only [applyStartAttempt, bind_eq_ok, ensureRunAcceptsMutations_eq_ok, findAttempt_eq_ok,
    refuseIf_eq_ok, pure_eq_ok, exists_const, not_not] at h
  obtain ⟨-, a, ha, hs, -, -, rfl⟩ := h
  exact ⟨.startAttempt ha hs, .adjust ha rfl (.inr ⟨by rw [hs]; rfl, rfl⟩),
    .work rfl ha rfl rfl (by simp)⟩

theorem applyClaimExecution_moves {c : StartAttempt} (h : applyClaimExecution s c = .ok t) :
    Moves s (.command (.claimExecution c)) t := by
  simp only [applyClaimExecution, bind_eq_ok, ensureRunAcceptsMutations_eq_ok, findAttempt_eq_ok,
    refuseIf_eq_ok, pure_eq_ok, exists_const, not_or, not_not, Bool.not_eq_true] at h
  obtain ⟨-, a, ha, ⟨hs, hc⟩, -, -, -, rfl⟩ := h
  refine ⟨.claimExecution ha hs hc, ?_, .work rfl ha rfl rfl (by simp)⟩
  cases htask : s.tasks[a.taskId]? with
  | none =>
    rw [modify_eq_self _ (by simp [htask])]
    exact .adjust ha rfl (.inr ⟨by rw [hs]; rfl, rfl⟩)
  | some =>
    rw [modify_eq_insert _ _ htask]
    exact .claimExecution ha hs htask

theorem othersSettled_of_anyValue
    (h : ¬ s.attempts.anyValue (fun other => decide (other.attemptId ≠ id)
      && (!other.executionQuiesced || !isTerminalAttempt other.state)) = true) :
    s.board.othersSettled id := by
  intro k other hk hne
  rw [Bool.not_eq_true, anyValue_eq_false] at h
  have hother := h k other hk
  simp only [ne_eq, hne, not_false_eq_true, decide_true, Bool.true_and, Bool.or_eq_false_iff,
    Bool.not_eq_false'] at hother
  exact ⟨hother.2, hother.1⟩

/-- What both halves of a suspension ask of the run: its only task is worked on by this attempt
alone, with activation and scope and without delegation, and nobody finalizes it. -/
structure SoleExecutor (s : RunSnapshot) (id : AttemptId) (a : AttemptRecord) (task : TaskRecord) :
    Prop where
  attemptAt : s.attempts[id]? = some a
  taskAt : s.tasks[a.taskId]? = some task
  accepts : s.Accepts
  single : s.tasks.size = 1
  active : task.activeAttempt = some id
  settled : s.board.othersSettled id
  activation : task.binding.activation.isNone = false
  delegation : task.binding.delegation.isSome = false
  scope : task.binding.executionScope.isNone = false
  claimed : a.executionClaimed = true
  unclaimed : task.finalizationClaim = none

structure Suspends (s : RunSnapshot) (c : SuspendAttempt) (a : AttemptRecord) (task : TaskRecord)
    (lease : AttemptLease) (deadline : UInt64) (t : RunSnapshot) : Prop
    extends SoleExecutor s c.attemptId a task where
  leaseAt : a.lease = some lease
  running : a.state = .running
  taskRunning : task.state = .running
  artifact : byteLength c.checkpoint.artifactId ≠ 0
  digest : byteLength c.checkpoint.digest ≠ 0
  deadlineAt : task.binding.deadline = some deadline
  unspent : c.envelope.timestamp < deadline
  result : t = { s with
    attempts := s.attempts.insert c.attemptId { a with
      state := .suspended
      executionQuiesced := true
      suspension := some {
        checkpoint := c.checkpoint
        reason := c.reason
        suspendedAt := c.envelope.timestamp
        remainingSeconds := deadline - c.envelope.timestamp } }
    tasks := s.tasks.insert a.taskId { task with state := .parked } }

theorem suspend_spec {c : SuspendAttempt} (h : suspend s c = .ok t) :
    ∃ a task lease deadline, Suspends s c a task lease deadline t := by
  simp only [suspend, bind_eq_ok, ensureRunAcceptsMutations_eq_ok, findAttempt_eq_ok,
    validateLeaseProof_eq_ok, findTask_eq_ok, refuseIf_eq_ok, orFail_eq_ok, pure_eq_ok,
    exists_const, not_or, not_not, Bool.not_eq_true, Bool.not_eq_false] at h
  obtain ⟨haccepts, a, ha, ⟨lease, hl, -⟩, task, htask, hguard, remaining, hremaining, rfl⟩ := h
  obtain ⟨hsize, hactive, hothers, hactivation, hdelegation, hscope, hs, hclaimed, -, -, hrunning,
    hfinal, -, hartifact, -, hdigest, -⟩ := hguard
  obtain ⟨deadline, hdeadline, hunspent, rfl⟩ : ∃ deadline, task.binding.deadline = some deadline ∧
      c.envelope.timestamp < deadline ∧ remaining = deadline - c.envelope.timestamp := by
    cases hdeadline : task.binding.deadline with
    | none => simp [hdeadline] at hremaining
    | some deadline =>
      simp only [hdeadline, Option.bind_some, checkedSub] at hremaining
      split at hremaining
      · rename_i hle
        obtain ⟨hsome, hpos⟩ := Option.filter_eq_some_iff.mp hremaining
        cases hsome
        refine ⟨deadline, rfl, ?_, rfl⟩
        have hpos := of_decide_eq_true hpos
        rw [gt_iff_lt, UInt64.lt_iff_toNat_lt, UInt64.toNat_sub_of_le _ _ hle] at hpos
        rw [UInt64.lt_iff_toNat_lt]
        exact Nat.lt_of_sub_pos hpos
      · cases hremaining
  exact ⟨a, task, lease, deadline, {
    attemptAt := ha
    taskAt := htask
    accepts := haccepts
    single := hsize
    active := hactive
    settled := othersSettled_of_anyValue (by rw [hothers]; simp)
    activation := hactivation
    delegation := hdelegation
    scope := hscope
    claimed := hclaimed
    unclaimed := Option.isNone_iff_eq_none.mp (by simpa using hfinal)
    leaseAt := hl
    running := hs
    taskRunning := hrunning
    artifact := hartifact
    digest := hdigest
    deadlineAt := hdeadline
    unspent := hunspent
    result := rfl }⟩

theorem suspend_moves {c : SuspendAttempt} (h : suspend s c = .ok t) :
    Moves s (.command (.suspendAttempt c)) t := by
  obtain ⟨a, task, lease, deadline, hspec⟩ := suspend_spec h
  rw [hspec.result]
  exact ⟨.suspend hspec.attemptAt hspec.running hspec.claimed hspec.single hspec.taskAt hspec.active
    hspec.settled,
    .suspend hspec.attemptAt hspec.running rfl rfl hspec.taskAt hspec.taskRunning hspec.settled,
    .one rfl hspec.attemptAt ⟨fun _ => rfl, fun h => absurd rfl h, by simp⟩⟩

structure Resumes (s : RunSnapshot) (c : ResumeAttempt) (a : AttemptRecord) (task : TaskRecord)
    (lease : AttemptLease) (parked : AttemptSuspension) (deadline epoch : UInt64)
    (t : RunSnapshot) : Prop extends SoleExecutor s c.attemptId a task where
  leaseAt : a.lease = some lease
  parkedAt : a.suspension = some parked
  suspended : a.state = .suspended
  taskParked : task.state = .parked
  later : parked.suspendedAt ≤ c.envelope.timestamp
  deadlineAt : checkedAdd c.envelope.timestamp parked.remainingSeconds = some deadline
  epochAt : checkedAdd s.nextLeaseEpoch 1 = some epoch
  result : t = { s with
    nextLeaseEpoch := epoch
    attempts := s.attempts.insert c.attemptId { a with
      state := .starting
      executionClaimed := false
      executionQuiesced := false
      suspension := none
      lease := some { lease with
        leaseEpoch := epoch
        holder := c.holder
        issuedAt := c.envelope.timestamp
        expiresAt := saturatingAdd c.envelope.timestamp 300
        lastHeartbeatSequence := 0 } }
    tasks := s.tasks.insert a.taskId { task with
      state := .leased
      binding := { task.binding with deadline := some deadline } }
    deadlines := if task.binding.activation.isSome = true then
        { s.deadlines with runDeadline := some deadline }
      else s.deadlines }

theorem resume_spec {c : ResumeAttempt} (h : resume s c = .ok t) :
    ∃ a task lease parked deadline epoch, Resumes s c a task lease parked deadline epoch t := by
  simp only [resume, bind_eq_ok, ensureRunAcceptsMutations_eq_ok, findAttempt_eq_ok,
    findTask_eq_ok, refuseIf_eq_ok, orFail_eq_ok, unwrap_eq_ok, pure_eq_ok, exists_const,
    not_or, not_not, Bool.not_eq_true, Bool.not_eq_false] at h
  obtain ⟨haccepts, a, ha, -, -, parked, hparked, task, htask, hguard, deadline, hdeadline, epoch,
    hepoch, lease, hl, rfl⟩ := h
  obtain ⟨hsize, hactive, hclaimed, hfinal, hothers, hactivation, hdelegation, hscope, hs, -,
    htaskParked, -, hlater, -⟩ := hguard
  exact ⟨a, task, lease, parked, deadline, epoch, {
    attemptAt := ha
    taskAt := htask
    accepts := haccepts
    single := hsize
    active := hactive
    settled := othersSettled_of_anyValue (by rw [hothers]; simp)
    activation := hactivation
    delegation := hdelegation
    scope := hscope
    claimed := hclaimed
    unclaimed := Option.isNone_iff_eq_none.mp (by simpa using hfinal)
    leaseAt := hl
    parkedAt := hparked
    suspended := hs
    taskParked := htaskParked
    later := UInt64.not_lt.mp hlater
    deadlineAt := hdeadline
    epochAt := hepoch
    result := rfl }⟩

theorem resume_moves {c : ResumeAttempt} (h : resume s c = .ok t) :
    Moves s (.command (.resumeAttempt c)) t := by
  obtain ⟨a, task, lease, parked, deadline, epoch, hspec⟩ := resume_spec h
  rw [hspec.result]
  exact ⟨.resume hspec.attemptAt hspec.suspended hspec.leaseAt hspec.single hspec.taskAt
    hspec.active
    hspec.settled hspec.epochAt,
    .resume hspec.attemptAt hspec.suspended rfl rfl hspec.taskAt hspec.taskParked hspec.settled,
    .one rfl hspec.attemptAt ⟨fun h => absurd rfl h, fun h => absurd rfl h, by simp⟩⟩

theorem heartbeatLease_sameFence (c : RecordHeartbeat) (lease : AttemptLease) :
    lease.SameFence (heartbeatLease c lease) := by
  unfold heartbeatLease
  split
  · split
    all_goals exact ⟨rfl, rfl, rfl⟩
  · exact ⟨rfl, rfl, rfl⟩

section
variable {c : RecordHeartbeat} (h : applyRecordHeartbeat s c = .ok t)
include h

/-- An accepted heartbeat names the lease of an attempt in flight and is newer than the last one the
lease has recorded. -/
theorem applyRecordHeartbeat_spec :
    ∃ a lease, s.attempts[c.attemptId]? = some a ∧ a.state.inFlight = true ∧
      a.lease = some lease ∧ c.leaseProof.names lease ∧
      lease.lastHeartbeatSequence < c.heartbeatSequence ∧
      t = { s with
        attempts := s.attempts.insert c.attemptId
          { a with lease := some (heartbeatLease c lease) } } := by
  simp only [applyRecordHeartbeat, bind_eq_ok, findAttempt_eq_ok, validateLeaseProof_eq_ok,
    refuseIf_eq_ok, pure_eq_ok, exists_const, Bool.not_eq_false] at h
  obtain ⟨a, ha, hs, ⟨lease, hl, hnames⟩, hnewer, -, rfl⟩ := h
  refine ⟨a, lease, ha, hs, hl, hnames, ?_, by rw [hl]; rfl⟩
  simpa [hl] using hnewer

theorem applyRecordHeartbeat_moves : Moves s (.command (.recordHeartbeat c)) t := by
  obtain ⟨a, lease, ha, hs, hl, -, -, rfl⟩ := applyRecordHeartbeat_spec h
  exact ⟨.heartbeat ha hs hl (heartbeatLease_sameFence c lease), .adjust ha rfl (.inl rfl),
    .one rfl ha ⟨fun h => absurd rfl h, fun _ => rfl, .inl⟩⟩

end

theorem tryClaimFinalization_guard {c : ClaimFinalization} (h : tryClaimFinalization P s c = .ok u)
    (htask : s.tasks[c.taskId]? = some task) :
    task.finalizationClaim = some c.attemptId ∨ task.finalizationClaim = none ∧
      (∀ w, task.winningAttempt = some w → w = c.attemptId) ∧
      ∃ a, s.attempts[c.attemptId]? = some a ∧ a.taskId = c.taskId ∧ a.state.inFlight = true := by
  simp only [tryClaimFinalization, bind_eq_ok, findTask_eq_ok, refuseIf_eq_ok, exists_const,
    htask, Option.some.injEq, exists_eq_left'] at h
  obtain ⟨-, -, h⟩ := h
  split at h
  · exact .inl ‹_›
  · simp only [bind_eq_ok, refuseIf_eq_ok, findAttempt_eq_ok, exists_const, not_not,
      Bool.not_eq_false] at h
    obtain ⟨hclaim, hwin, -, a, ha, hk, -, -, hcurrent, -⟩ := h
    refine .inr ⟨by simpa using hclaim, ?_, a, ha, hk, isLeaseCurrent_inFlight hcurrent⟩
    intro w hw
    simpa [hw] using hwin

theorem applyClaimFinalization_moves {c : ClaimFinalization}
    (h : applyClaimFinalization P s c = .ok t) : Moves s (.command (.claimFinalization c)) t := by
  simp only [applyClaimFinalization, bind_eq_ok, ensureNotRecovery_eq_ok, findTask_eq_ok,
    pure_eq_ok, exists_const] at h
  obtain ⟨-, u, htry, task, htask, rfl⟩ := h
  have hguard := tryClaimFinalization_guard htry htask
  exact ⟨.claimFinalization htask (hguard.symm.imp_left And.left), .claimFinalization htask hguard,
    .same rfl⟩

/-- An accepted result of an attempt that has not won yet comes from an attempt in flight,
and nobody else has won its task. -/
theorem tryAcceptCompletion_inFlight {c : CompleteAttempt} (h : tryAcceptCompletion P s c = .ok u)
    (ha : s.attempts[c.attemptId]? = some a) (hs : a.state ≠ .succeeded) :
    a.state.inFlight = true ∧ ∃ task, s.tasks[a.taskId]? = some task ∧ task.state ≠ .canceled ∧
      ∀ w, task.winningAttempt = some w → w = c.attemptId := by
  simp only [tryAcceptCompletion, bind_eq_ok, findAttempt_eq_ok, refuseIf_eq_ok, exists_const,
    ha, Option.some.injEq, exists_eq_left', hs, false_and, if_false] at h
  obtain ⟨-, hfly, -, -, -, -, task, htask, hcanceled, -, -, -, hwin, -⟩ := h
  refine ⟨by simpa [isResultAcceptableState] using hfly, task, by simpa using htask, hcanceled, ?_⟩
  intro w hw
  simpa [hw] using hwin

theorem applyCompleteAttempt_moves {c : CompleteAttempt} (h : applyCompleteAttempt P s c = .ok t) :
    Moves s (.command (.completeAttempt c)) t := by
  simp only [applyCompleteAttempt, bind_eq_ok, ensureNotRecovery_eq_ok, findAttempt_eq_ok,
    exists_const] at h
  obtain ⟨-, u, htry, a, ha, h⟩ := h
  split at h
  · cases h
    exact .still
  · rename_i hs
    obtain ⟨hfly, task, htask, hcanceled, hwin⟩ := tryAcceptCompletion_inFlight htry ha hs
    simp only [applyWinnerSelection, bind_eq_ok, unwrap_eq_ok, htask, Option.some.injEq,
      exists_eq_left', pure_eq_ok] at h
    subst h
    exact ⟨.completeAttempt ha hfly htask hwin, .complete ha hfly rfl rfl htask hcanceled hwin,
      Holds.trans (t := { s with
        attempts := s.attempts.insert c.attemptId { a with
          state := .succeeded
          resultDigest := some c.resultDigest
          workspaceVersion := c.workspaceVersion } })
        (.work rfl ha rfl rfl (by simp)) (.map rfl fun _ a => supersede_held a)⟩

variable {now : UInt64} {failure : FailureClass} {reason : String}

theorem failure_step {st : AttemptState} {text : String} (ha : s.attempts[id]? = some a)
    (hs : a.state.inFlight = true) (hst : st.failedEnd = true) (h : applyFailureWithRetry P { s with
        attempts := s.attempts.insert id
          { a with state := st, failureClass := some failure, failureReason := some text } }
      a.taskId failure reason now = .ok t) : BoardStep s.board t.board := by
  obtain ⟨task, retry, tst, htask, htst, hr⟩ := applyFailureWithRetry_spec h
  rw [hr.board]
  exact .failAttempt ha hs hst htask htst hr.tasksIdle

variable {a' : AttemptRecord}

theorem applyFailureWithRetry_handled (hrejects : e.rejects = false) (hsame : a'.taskId = a.taskId)
    (hend : a'.state.failedEnd = true)
    (h : applyFailureWithRetry P { s with attempts := s.attempts.insert id a' } a.taskId failure
      reason now = .ok t) : FailureHandled s e id a failure t := by
  obtain ⟨task, htask, hcases⟩ := applyFailureWithRetry_cases h
  have hfailing : e.failing task = task := by
    unfold RunEvent.failing
    rw [hrejects]
    rfl
  obtain ⟨hretry, retryAt, rfl⟩ | ⟨hretry, rfl⟩ := hcases
  · have htaken : task.retried failure reason retryAt =
        (e.failing task).retried failure reason retryAt := by rw [hfailing]
    rw [htaken]
    exact .retry hsame hend htask hretry
  · have htaken : task.gaveUp failure reason = (e.failing task).gaveUp failure reason := by
      rw [hfailing]
    rw [htaken]
    exact .giveUp hsame hend htask hretry

/-- Where `failure_step` is about the board, this is about the leases. -/
theorem failure_holds {k : TaskId} (h : applyFailureWithRetry P s₁ k failure reason now = .ok t)
    (ha : s.attempts[id]? = some a) (hwrote : s₁.attempts = s.attempts.insert id a')
    (hlease : a'.lease = a.lease) (hsuspension : a'.suspension = a.suspension)
    (hexpired : a'.state = .leaseExpired → a.state = .leaseExpired ∨ e.expires id) :
    Holds s e t := by
  obtain ⟨task, retry, st, -, -, hr⟩ := applyFailureWithRetry_spec h
  exact .work (hr.attempts.trans hwrote) ha hlease hsuspension hexpired

theorem applyFailAttempt_handled {c : FailAttempt} (h : applyFailAttempt P s c = .ok t) :
    BoardStep s.board t.board ∧ Holds s (.command (.failAttempt c)) t ∧
      ∃ a failure, RunEvent.Fails (.command (.failAttempt c)) s c.attemptId a failure ∧
        FailureHandled s (.command (.failAttempt c)) c.attemptId a failure t := by
  simp only [applyFailAttempt, bind_eq_ok, ensureNotRecovery_eq_ok, findAttempt_eq_ok,
    refuseIf_eq_ok, exists_const, Bool.not_eq_false] at h
  obtain ⟨-, a, ha, -, -, hs, h⟩ := h
  refine ⟨failure_step ha hs (mapAttemptStateForFailure_failedEnd _) h,
    failure_holds h ha rfl rfl rfl fun _ => .inr rfl, a,
    (c.timeoutKind.map failureClassForTimeout).getD c.failureClass, ⟨rfl, ha, hs⟩, ?_⟩
  cases hkind : c.timeoutKind with
  | none | some =>
    rw [hkind] at h
    exact applyFailureWithRetry_handled rfl (by rfl) (mapAttemptStateForFailure_failedEnd _) h

theorem expireAttempt_handled (hrejects : e.rejects = false)
    (h : expireAttempt P s id a reason now = .ok t) :
    FailureHandled s e id a .leaseExpired t := by
  unfold expireAttempt at h
  refine applyFailureWithRetry_handled hrejects ?_ ?_ h
  · rfl
  · rfl

theorem expireAttempt_moves (hevent : e.failure = some (id, .leaseExpired))
    (hexpires : e.expires id) (hrejects : e.rejects = false) (ha : s.attempts[id]? = some a)
    (hfly : a.state.inFlight = true) (h : expireAttempt P s id a reason now = .ok t) :
    Moves s e t := by
  refine ⟨failure_step ha hfly rfl h, .failed ⟨hevent, ha, ?_⟩ (expireAttempt_handled hrejects h),
    failure_holds h ha rfl rfl rfl fun _ => .inr hexpires⟩
  rw [hrejects]
  exact hfly

theorem applyExpireLease_moves {c : ExpireLease} (h : applyExpireLease P s c = .ok t) :
    Moves s (.command (.expireLease c)) t := by
  simp only [applyExpireLease, bind_eq_ok, findAttempt_eq_ok] at h
  obtain ⟨a, ha, h⟩ := h
  split at h
  · cases h
    exact .still
  · rename_i hs
    have hfly : a.state.inFlight = true := by simpa using hs
    exact expireAttempt_moves rfl rfl rfl ha hfly h

theorem applyCancelTask_moves {c : CancelTask} (h : applyCancelTask s c = .ok t) :
    Moves s (.command (.cancelTask c)) t := by
  simp only [applyCancelTask, bind_eq_ok, findTask_eq_ok, refuseIf_eq_ok, pure_eq_ok,
    exists_const] at h
  obtain ⟨task, htask, hstate, rfl⟩ := h
  refine ⟨.cancelTask htask, .cancelTask htask hstate, .map rfl fun id a => ?_⟩
  split
  · exact cancelAttempt_held a
  · exact .refl a

theorem applyCancelRun_moves {c : CancelRun} (h : applyCancelRun s c = .ok t) :
    Moves s (.command (.cancelRun c)) t := by
  simp only [applyCancelRun, bind_eq_ok, refuseIf_eq_ok, exists_const] at h
  obtain ⟨-, h⟩ := h
  split at h
  · cases h
    exact .still
  · simp only [bind_eq_ok, refuseIf_eq_ok, pure_eq_ok, exists_const] at h
    obtain ⟨-, rfl⟩ := h
    exact ⟨.cancelRun, .cancelRun, .map rfl fun _ a => cancelAttempt_held a⟩

theorem applyAcceptArtifact_moves {c : AcceptArtifact} (h : applyAcceptArtifact s c = .ok t) :
    Moves s (.command (.acceptArtifact c)) t := by
  simp only [applyAcceptArtifact, bind_eq_ok, ensureNotRecovery_eq_ok, findAttempt_eq_ok,
    findTask_eq_ok, refuseIf_eq_ok, pure_eq_ok, exists_const, not_not] at h
  obtain ⟨-, a, ha, hs, hid, task, htask, rfl⟩ := h
  refine ⟨?_, .accept ha hs hid htask, .same rfl⟩
  rw [← hid] at htask ⊢
  exact .acceptArtifact ha hs htask

theorem applyRejectArtifact_handled {c : RejectArtifact} (h : applyRejectArtifact P s c = .ok t) :
    BoardStep s.board t.board ∧ Holds s (.command (.rejectArtifact c)) t ∧
      ∃ a, RunEvent.Fails (.command (.rejectArtifact c)) s c.attemptId a .verificationFailed ∧
        FailureHandled s (.command (.rejectArtifact c)) c.attemptId a .verificationFailed t := by
  simp only [applyRejectArtifact, bind_eq_ok, findAttempt_eq_ok, findTask_eq_ok, refuseIf_eq_ok,
    exists_const, not_not] at h
  obtain ⟨a, ha, hs, hid, task, htask, h⟩ := h
  rw [← hid] at htask h
  refine ⟨?_, failure_holds h ha rfl rfl rfl (by simp), ?_⟩
  · obtain ⟨task', retry, tst, htask', htst, hr⟩ := applyFailureWithRetry_spec h
    simp only [get_insert_self, Option.some.injEq] at htask'
    subst htask'
    rw [hr.board]
    have hidle := hr.tasksIdle
    simp only [insert_insert] at hidle
    exact .rejectArtifact ha hs htask htst hidle
  · refine ⟨a, ⟨rfl, ha, hs⟩, ?_⟩
    obtain ⟨task', htask', hcases⟩ := applyFailureWithRetry_cases h
    simp only [get_insert_self, Option.some.injEq] at htask'
    subst htask'
    -- What the rejection clears first plays no part in the decision to retry.
    have hwill : ∀ b : Bool, (willRetry { s with
        tasks := s.tasks.insert a.taskId
          { task with state := .ready, winningAttempt := none, completedVersion := none }
        attempts := s.attempts.insert c.attemptId { a with
          state := .failed
          failureClass := some .verificationFailed
          failureReason := some c.reason } } a.taskId .verificationFailed = b) →
        willRetry s a.taskId .verificationFailed = b := by
      intro b hb
      simpa [willRetry, canRetrySideEffects, htask] using hb
    obtain ⟨hretry, retryAt, rfl⟩ | ⟨hretry, rfl⟩ := hcases
    · rw [insert_insert]
      exact .retry rfl rfl htask (hwill _ hretry)
    · rw [insert_insert]
      exact .giveUp rfl rfl htask (hwill _ hretry)

theorem applyRecordSideEffectCommit_moves {c : RecordSideEffectCommit}
    (h : applyRecordSideEffectCommit s c = .ok t) :
    Moves s (.command (.recordSideEffectCommit c)) t := by
  simp only [applyRecordSideEffectCommit, recordSideEffectCommit, bind_eq_ok, refuseIf_eq_ok,
    pure_eq_ok, exists_const] at h
  obtain ⟨hfree, rfl⟩ := h
  have hcommits : CommitStep s (.command (.recordSideEffectCommit c)) _ :=
    .inr ⟨c, rfl, Bool.eq_false_iff.mpr hfree, rfl⟩
  cases htask : s.tasks[c.taskId]? with
  | none =>
    rw [modify_eq_self _ (by simp [htask])]
    exact ⟨.refl _, .still hcommits, .same rfl⟩
  | some task =>
    rw [modify_eq_insert _ _ htask]
    split
    · exact ⟨.idle (TasksIdle.insert htask (.refl _)),
        @Effect.note s _ c.taskId task task.sideEffectKeys _ htask (fun _ h => h) hcommits,
        .same rfl⟩
    · exact ⟨.idle (TasksIdle.insert htask ⟨rfl, rfl, rfl, rfl, rfl, .inl rfl⟩),
        .note htask (fun _ h => List.mem_append_left _ h) hcommits, .same rfl⟩

theorem applyFinishRun_moves {c : FinishRun} (h : applyFinishRun s c = .ok t) :
    Moves s (.command (.finishRun c)) t := by
  simp only [applyFinishRun, bind_eq_ok, refuseIf_eq_ok, exists_const] at h
  obtain ⟨-, h⟩ := h
  split at h
  · cases h
    exact .still
  · simp only [bind_eq_ok, refuseIf_eq_ok, pure_eq_ok, exists_const] at h
    obtain ⟨-, rfl⟩ := h
    exact ⟨.refl _, .still (.inl rfl), .same rfl⟩

theorem applyAttemptQuiescence_moves {c : StartAttempt} (h : applyAttemptQuiescence s c = .ok t) :
    Moves s (.command (.recordAttemptQuiescence c)) t := by
  simp only [applyAttemptQuiescence, bind_eq_ok, findAttempt_eq_ok, refuseIf_eq_ok, pure_eq_ok,
    exists_const, Bool.not_eq_false] at h
  obtain ⟨a, ha, -, -, hs, rfl⟩ := h
  exact ⟨.quiesce ha hs, .adjust ha rfl (.inl rfl), .work rfl ha rfl rfl .inl⟩

theorem applyCommand_moves {c : RunCommand} (h : applyCommand P s c = .ok t) :
    Moves s (.command c) t := by
  cases c with
  | createRun => exact applyCreateRun_moves h
  | startRun => exact applyStartRun_moves h
  | addTask => exact addTask_moves h
  | addDependency => exact applyAddDependency_moves h
  | markTaskReady => exact applyMarkTaskReady_moves h
  | createAttempt => exact applyCreateAttempt_moves h
  | leaseAttempt => exact applyLeaseAttempt_moves h
  | startAttempt => exact applyStartAttempt_moves h
  | claimExecution => exact applyClaimExecution_moves h
  | suspendAttempt => exact suspend_moves h
  | resumeAttempt => exact resume_moves h
  | recordHeartbeat => exact applyRecordHeartbeat_moves h
  | claimFinalization => exact applyClaimFinalization_moves h
  | completeAttempt => exact applyCompleteAttempt_moves h
  | failAttempt =>
    obtain ⟨hstep, hholds, a, failure, hfails, hhandled⟩ := applyFailAttempt_handled h
    exact ⟨hstep, .failed hfails hhandled, hholds⟩
  | expireLease => exact applyExpireLease_moves h
  | cancelTask => exact applyCancelTask_moves h
  | cancelRun => exact applyCancelRun_moves h
  | acceptArtifact => exact applyAcceptArtifact_moves h
  | rejectArtifact =>
    obtain ⟨hstep, hholds, a, hfails, hhandled⟩ := applyRejectArtifact_handled h
    exact ⟨hstep, .failed hfails hhandled, hholds⟩
  | recordSideEffectCommit => exact applyRecordSideEffectCommit_moves h
  | finishRun => exact applyFinishRun_moves h
  | recordAttemptQuiescence => exact applyAttemptQuiescence_moves h

theorem applyCommand_step {c : RunCommand} (h : applyCommand P s c = .ok t) :
    BoardStep s.board t.board :=
  (applyCommand_moves h).board

end Tetonic.Run
