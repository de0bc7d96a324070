import Tetonic.Run.Events
set_option autoImplicit false

/-! The life of one task. A run is projected to one task and the attempts made at it: whatever an
event does to the rest, for this task it is one step of `TaskStep`. -/

namespace Tetonic.Run
open Lib OrdMap

variable {s t : RunSnapshot} {k : TaskId} {e : RunEvent} {a : AttemptRecord} {id : AttemptId}

/-- One task, its attempts, and how many of them may be made at a time. -/
structure TaskView where
  task : TaskRecord
  attempts : OrdMap AttemptId AttemptRecord
  speculation : SpeculationConfig

def AttemptRecord.isOf (k : TaskId) (a : AttemptRecord) : Bool := decide (a.taskId = k)

def attemptsOf (m : OrdMap AttemptId AttemptRecord) (k : TaskId) : OrdMap AttemptId AttemptRecord :=
  m.filter fun _ a => a.isOf k

def RunSnapshot.view (s : RunSnapshot) (k : TaskId) : Option TaskView :=
  s.tasks[k]?.map fun task => ⟨task, attemptsOf s.attempts k, s.speculation⟩

theorem attemptsOf_get {m : OrdMap AttemptId AttemptRecord} :
    (attemptsOf m k)[id]? = some a ↔ m[id]? = some a ∧ a.taskId = k := by
  unfold attemptsOf
  rw [get_filter_value]
  unfold AttemptRecord.isOf
  rw [decide_eq_true_eq]

variable {v : TaskView}

theorem view_eq :
    s.view k = some v ↔
      ∃ task, s.tasks[k]? = some task ∧ v = ⟨task, attemptsOf s.attempts k, s.speculation⟩ := by
  unfold RunSnapshot.view
  rw [Option.map_eq_some_iff]
  constructor
  all_goals
    intro h
    obtain ⟨task, htask, hv⟩ := h
    exact ⟨task, htask, hv.symm⟩

def TaskView.New (v : TaskView) (k : TaskId) : Prop :=
  (∃ binding, (newTask k binding).rescheduled v.task) ∧ v.attempts = ∅

/-- What the event `e` in the snapshot `s` can do to the task `k`. -/
inductive TaskStep (s : RunSnapshot) (e : RunEvent) (k : TaskId) (v : TaskView) :
    TaskView → Prop where
  | wait {task : TaskRecord} (h : v.task.rescheduled task) : TaskStep s e k v { v with task }
  | note {keys : List String} (hkeys : ∀ key ∈ v.task.sideEffectKeys, key ∈ keys) :
      TaskStep s e k v { v with task := { v.task with sideEffectKeys := keys } }
  | create {c : CreateAttempt} {a : AttemptRecord} (he : e = .command (.createAttempt c))
      (hstate : v.task.state = .ready ∨ v.task.state = .leased ∨
        v.speculation.allowed = true ∧ v.task.state = .running)
      (hcount : v.task.retry.attemptCount < v.task.binding.retryPolicy.maxAttempts)
      (hopen : 1 < v.speculation.maxSimultaneousAttempts ∨
        ∀ (id : AttemptId) (a : AttemptRecord), v.attempts[id]? = some a → a.state.isOpen = false)
      (hid : v.attempts[c.attemptId]? = none) (hnew : a.Fresh c.attemptId k) :
      TaskStep s e k v { v with
        attempts := v.attempts.insert c.attemptId a
        task := { v.task with
          activeAttempt := some c.attemptId
          state := if v.task.state = .ready then .leased else v.task.state } }
  | adjust {id : AttemptId} {a a' : AttemptRecord} (ha : v.attempts[id]? = some a)
      (hstate : a'.state = a.state ∨ a.state.isOpen = true ∧ a'.state.isOpen = true) :
      TaskStep s e k v { v with attempts := v.attempts.insert id a' }
  | claimExecution {c : StartAttempt} {a a' : AttemptRecord}
      (he : e = .command (.claimExecution c)) (ha : v.attempts[c.attemptId]? = some a)
      (hstate : a.state = .starting) (hrunning : a'.state = .running) :
      TaskStep s e k v { v with
        attempts := v.attempts.insert c.attemptId a'
        task := { v.task with state := .running } }
  | suspend {id : AttemptId} {a a' : AttemptRecord} (ha : v.attempts[id]? = some a)
      (hstate : a.state = .running) (hsuspended : a'.state = .suspended)
      (hrunning : v.task.state = .running)
      (hothers : ∀ (j : AttemptId) (r : AttemptRecord), v.attempts[j]? = some r → j ≠ id →
        isTerminalAttempt r.state = true)
      (he : ∃ c, e = .command (.suspendAttempt c)) :
      TaskStep s e k v { v with
        attempts := v.attempts.insert id a'
        task := { v.task with state := .parked } }
  | resume {id : AttemptId} {a a' : AttemptRecord} {deadline : Option UInt64}
      (ha : v.attempts[id]? = some a) (hstate : a.state = .suspended)
      (hstarting : a'.state = .starting) (hparked : v.task.state = .parked)
      (hothers : ∀ (j : AttemptId) (r : AttemptRecord), v.attempts[j]? = some r → j ≠ id →
        isTerminalAttempt r.state = true) :
      TaskStep s e k v { v with
        attempts := v.attempts.insert id a'
        task := { v.task with state := .leased, binding := { v.task.binding with deadline } } }
  | claimFinalization {c : ClaimFinalization} (he : e = .command (.claimFinalization c))
      (hclaim : v.task.finalizationClaim = some c.attemptId ∨ v.task.finalizationClaim = none ∧
        (∀ w, v.task.winningAttempt = some w → w = c.attemptId) ∧
        ∃ a, v.attempts[c.attemptId]? = some a ∧ a.state.inFlight = true) :
      TaskStep s e k v
        { v with task := { v.task with finalizationClaim := some c.attemptId } }
  | complete {c : CompleteAttempt} {a a' : AttemptRecord} {version : Option UInt64}
      (he : e = .command (.completeAttempt c)) (ha : v.attempts[c.attemptId]? = some a)
      (hfly : a.state.inFlight = true) (hsucceeded : a'.state = .succeeded)
      (hcanceled : v.task.state ≠ .canceled)
      (hwin : ∀ w, v.task.winningAttempt = some w → w = c.attemptId) :
      TaskStep s e k v { v with
        attempts := (v.attempts.insert c.attemptId a').map (supersede k c.attemptId)
        task := { v.task with
          winningAttempt := some c.attemptId
          completedVersion := version } }
  | retry {id : AttemptId} {a a' : AttemptRecord} {failure : FailureClass} {task : TaskRecord}
      {reason : String} {retryAt : UInt64} (hfails : e.Fails s id a failure)
      (ha : v.attempts[id]? = some a) (hend : a'.state.failedEnd = true)
      (hretry : willRetry s k failure = true)
      (h : ((e.failing v.task).retried failure reason retryAt).rescheduled task) :
      TaskStep s e k v { v with attempts := v.attempts.insert id a', task }
  | giveUp {id : AttemptId} {a a' : AttemptRecord} {failure : FailureClass} {reason : String}
      (hfails : e.Fails s id a failure) (ha : v.attempts[id]? = some a)
      (hend : a'.state.failedEnd = true) (hretry : willRetry s k failure = false) :
      TaskStep s e k v { v with
        attempts := v.attempts.insert id a'
        task := (e.failing v.task).gaveUp failure reason }
  | cancelTask {c : CancelTask} (he : e = .command (.cancelTask c)) (hid : c.taskId = k)
      (hstate : v.task.state ≠ .succeeded) :
      TaskStep s e k v { v with
        attempts := v.attempts.map fun _ a => cancelAttempt a
        task := { v.task with state := .canceled } }
  | cancelRun :
      TaskStep s e k v { v with
        attempts := v.attempts.map fun _ a => cancelAttempt a
        task := cancelTaskRecord v.task }
  | accept {c : AcceptArtifact} {a : AttemptRecord} (he : e = .command (.acceptArtifact c))
      (ha : v.attempts[c.attemptId]? = some a) (hstate : a.state = .succeeded) :
      TaskStep s e k v { v with
        task := { v.task with acceptedArtifact := some c.artifact, state := .succeeded } }

theorem TaskStep.refl (v : TaskView) :
    TaskStep s e k v v := .wait (.inl rfl)

theorem supersede_taskId (taskId : TaskId) (winner k : AttemptId) (a : AttemptRecord) :
    (supersede taskId winner k a).taskId = a.taskId := by
  unfold supersede
  split <;> rfl

theorem cancelAttempt_taskId (a : AttemptRecord) : (cancelAttempt a).taskId = a.taskId :=
  (cancelAttempt_move a).ids.2

variable {f : AttemptId → AttemptRecord → AttemptRecord}

section
variable {m : OrdMap AttemptId AttemptRecord} {a' : AttemptRecord}

theorem attemptsOf_insert_self (hk : a.taskId = k) :
    attemptsOf (m.insert id a) k = (attemptsOf m k).insert id a :=
  filter_insert_of_pos (p := AttemptRecord.isOf k) _ (decide_eq_true hk)

theorem attemptsOf_insert_other (hk : a.taskId ≠ k) (hold : ∀ r, m[id]? = some r → r.taskId ≠ k) :
    attemptsOf (m.insert id a) k = attemptsOf m k := by
  refine filter_insert_of_neg (p := AttemptRecord.isOf k) _ (decide_eq_false hk) ?_
  intro r hr
  exact decide_eq_false (hold r hr)

theorem attemptsOf_update_other (ha : m[id]? = some a) (hsame : a'.taskId = a.taskId)
    (hk : k ≠ a.taskId) : attemptsOf (m.insert id a') k = attemptsOf m k := by
  refine attemptsOf_insert_other (hsame ▸ Ne.symm hk) ?_
  intro r hr
  rw [ha] at hr
  cases hr
  exact Ne.symm hk

theorem attemptsOf_map (hf : ∀ id a, (f id a).taskId = a.taskId) :
    attemptsOf (m.map f) k = (attemptsOf m k).map f := by
  refine filter_map_value (p := AttemptRecord.isOf k) _ f ?_
  intro id a
  unfold AttemptRecord.isOf
  rw [hf]

theorem attemptsOf_map_same (hf : ∀ id a, (f id a).taskId = a.taskId)
    (hsame : ∀ id a, a.taskId = k → f id a = a) :
    attemptsOf (m.map f) k = attemptsOf m k := by
  rw [attemptsOf_map hf]
  refine Std.ExtTreeMap.ext_getElem? fun id => ?_
  rw [get_map]
  cases hget : (attemptsOf m k)[id]? with
  | none => rfl
  | some a => exact congrArg some (hsame id a (attemptsOf_get.mp hget).2)

theorem attemptsOf_supersede_other {j : TaskId} {winner : AttemptId} (hk : k ≠ j) :
    attemptsOf (m.map (supersede j winner)) k = attemptsOf m k := by
  refine attemptsOf_map_same (supersede_taskId _ _) ?_
  intro id r hr
  unfold supersede
  rw [if_neg]
  intro hlost
  exact hk (hr.symm.trans hlost.1)

theorem cancelOf_taskId (j : TaskId) (a : AttemptRecord) :
    (if a.taskId = j then cancelAttempt a else a).taskId = a.taskId := by
  split
  · exact cancelAttempt_taskId a
  · rfl

theorem attemptsOf_cancelTask_other {j : TaskId} (hk : k ≠ j) :
    attemptsOf (m.map fun _ a => if a.taskId = j then cancelAttempt a else a) k =
      attemptsOf m k := by
  refine attemptsOf_map_same (fun _ => cancelOf_taskId j) ?_
  intro id a ha
  rw [if_neg (by rw [ha]; exact hk)]

theorem attemptsOf_cancelTask_self :
    attemptsOf (m.map fun _ a => if a.taskId = k then cancelAttempt a else a) k =
      (attemptsOf m k).map fun _ a => cancelAttempt a := by
  rw [attemptsOf_map fun _ => cancelOf_taskId k]
  refine Std.ExtTreeMap.ext_getElem? fun id => ?_
  rw [get_map, get_map]
  cases hget : (attemptsOf m k)[id]? with
  | none => rfl
  | some => simp [(attemptsOf_get.mp hget).2]

end

theorem view_of_rescheduled {u : RunSnapshot} (h : Rescheduled u t) {v' : TaskView}
    (hv : t.view k = some v') :
    ∃ v, u.view k = some v ∧ v.task.rescheduled v'.task ∧ v' = { v with task := v'.task } := by
  obtain ⟨task', htask', rfl⟩ := view_eq.mp hv
  have hrest : t.attempts = u.attempts ∧ t.speculation = u.speculation := by
    rw [h.rest]
    exact ⟨rfl, rfl⟩
  obtain ⟨task, hu, hresched⟩ := h.before htask'
  refine ⟨_, view_eq.mpr ⟨task, hu, rfl⟩, hresched, ?_⟩
  dsimp only
  rw [hrest.1, hrest.2]

variable {j : TaskId} {task' : TaskRecord}

theorem view_of_update {u : RunSnapshot} {v' : TaskView} (hv : u.view k = some v')
    (htasks : u.tasks = s.tasks.insert j task') (hspec : u.speculation = s.speculation)
    (hattempts : ∀ k, k ≠ j → attemptsOf u.attempts k = attemptsOf s.attempts k) :
    k = j ∧ v' = ⟨task', attemptsOf u.attempts j, s.speculation⟩ ∨ k ≠ j ∧ s.view k = some v' := by
  obtain ⟨task, htask, rfl⟩ := view_eq.mp hv
  rw [htasks] at htask
  obtain ⟨rfl, rfl⟩ | ⟨hne, htask⟩ := get_insert_cases htask
  · exact .inl ⟨rfl, by rw [hspec]⟩
  · refine .inr ⟨Ne.symm hne, view_eq.mpr ⟨task, htask, ?_⟩⟩
    rw [hattempts k (Ne.symm hne), hspec]

theorem attemptsOf_eq_empty (hsound : s.board.Sound) (hk : s.tasks[k]? = none) :
    attemptsOf s.attempts k = ∅ := by
  refine Std.ExtTreeMap.ext_getElem? fun id => ?_
  cases hget : (attemptsOf s.attempts k)[id]? with
  | none => simp
  | some a =>
    obtain ⟨ha, rfl⟩ := attemptsOf_get.mp hget
    obtain ⟨task, htask⟩ := hsound.attemptTask id a ha
    rw [board_tasks, hk] at htask
    cases htask

/-- What becomes of the task `k`: it takes a step, or it is new. -/
def Projects (s : RunSnapshot) (e : RunEvent) (k : TaskId) (v' : TaskView) : Prop :=
  (∃ v, s.view k = some v ∧ TaskStep s e k v v') ∨ s.tasks[k]? = none ∧ v'.New k

section
variable {u : RunSnapshot}  {v' : TaskView}

theorem Projects.kept (h : s.view k = some v') : Projects s e k v' := .inl ⟨v', h, .refl v'⟩

theorem Projects.update (hv : u.view k = some v') {task : TaskRecord}
    (htask : s.tasks[j]? = some task) (htasks : u.tasks = s.tasks.insert j task')
    (hspec : u.speculation = s.speculation)
    (hattempts : ∀ k, k ≠ j → attemptsOf u.attempts k = attemptsOf s.attempts k)
    (hstep : TaskStep s e j ⟨task, attemptsOf s.attempts j, s.speculation⟩
      ⟨task', attemptsOf u.attempts j, s.speculation⟩) : Projects s e k v' := by
  obtain ⟨rfl, rfl⟩ | ⟨-, hv⟩ := view_of_update hv htasks hspec hattempts
  · exact .inl ⟨_, view_eq.mpr ⟨task, htask, rfl⟩, hstep⟩
  · exact .kept hv

section
variable {a a' : AttemptRecord} {task : TaskRecord}

/-- One attempt changes, and its task. -/
theorem Projects.attempt (hv : u.view k = some v') (ha : s.attempts[id]? = some a)
    (htask : s.tasks[a.taskId]? = some task)
    (htasks : u.tasks = s.tasks.insert a.taskId task') (hspec : u.speculation = s.speculation)
    (hattempts : u.attempts = s.attempts.insert id a') (hsame : a'.taskId = a.taskId)
    (hstep : (attemptsOf s.attempts a.taskId)[id]? = some a →
      TaskStep s e a.taskId ⟨task, attemptsOf s.attempts a.taskId, s.speculation⟩
        ⟨task', (attemptsOf s.attempts a.taskId).insert id a', s.speculation⟩) :
    Projects s e k v' := by
  refine .update hv htask htasks hspec ?_ ?_
  · intro k hk
    rw [hattempts]
    exact attemptsOf_update_other ha hsame hk
  · rw [hattempts, attemptsOf_insert_self hsame]
    exact hstep (attemptsOf_get.mpr ⟨ha, rfl⟩)

/-- One attempt changes, and its task, and then the passes over all tasks follow. -/
theorem Projects.failure (hr : Rescheduled u t) (hv : t.view k = some v')
    (ha : s.attempts[id]? = some a) (htask : s.tasks[a.taskId]? = some task)
    (htasks : u.tasks = s.tasks.insert a.taskId task') (hspec : u.speculation = s.speculation)
    (hattempts : u.attempts = s.attempts.insert id a') (hsame : a'.taskId = a.taskId)
    (hstep : (attemptsOf s.attempts a.taskId)[id]? = some a → ∀ after, task'.rescheduled after →
      TaskStep s e a.taskId ⟨task, attemptsOf s.attempts a.taskId, s.speculation⟩
        ⟨after, (attemptsOf s.attempts a.taskId).insert id a', s.speculation⟩) :
    Projects s e k v' := by
  obtain ⟨v, hv, hresched, heq⟩ := view_of_rescheduled hr hv
  rw [heq]
  obtain ⟨rfl, rfl⟩ | ⟨-, hv⟩ := view_of_update hv htasks hspec fun k hk =>
    hattempts ▸ attemptsOf_update_other ha hsame hk
  · refine .inl ⟨_, view_eq.mpr ⟨task, htask, rfl⟩, ?_⟩
    dsimp only
    rw [hattempts, attemptsOf_insert_self hsame]
    exact hstep (attemptsOf_get.mpr ⟨ha, rfl⟩) _ hresched
  · exact .inl ⟨v, hv, .wait hresched⟩

end

theorem Projects.pass (hv : t.view k = some v') (h : Rescheduled u t)
    (hu : ∀ k, u.view k = s.view k) : Projects s e k v' := by
  obtain ⟨v, hv, hresched, heq⟩ := view_of_rescheduled h hv
  rw [hu] at hv
  rw [heq]
  exact .inl ⟨v, hv, .wait hresched⟩

theorem Projects.fresh (hv : t.view k = some v') (h : Rescheduled u t) {binding : TaskInputBinding}
    (hsound : s.board.Sound) (hj : s.tasks[j]? = none)
    (htasks : u.tasks = s.tasks.insert j (newTask j binding)) (hattempts : u.attempts = s.attempts)
    (hspec : u.speculation = s.speculation ∨ s.tasks.isEmpty = true) : Projects s e k v' := by
  obtain ⟨v, hv, hresched, heq⟩ := view_of_rescheduled h hv
  obtain ⟨task, htask, rfl⟩ := view_eq.mp hv
  rw [htasks] at htask
  obtain ⟨rfl, rfl⟩ | ⟨hne, htask⟩ := get_insert_cases htask
  · refine .inr ⟨hj, ⟨binding, hresched⟩, ?_⟩
    rw [heq]
    dsimp only
    rw [hattempts]
    exact attemptsOf_eq_empty hsound hj
  · obtain hspec | hempty := hspec
    · refine .inl ⟨⟨task, attemptsOf s.attempts k, s.speculation⟩, view_eq.mpr
        ⟨task, htask, rfl⟩, ?_⟩
      rw [heq, hattempts, hspec]
      exact .wait hresched
    · rw [get_eq_none_of_isEmpty _ hempty] at htask
      cases htask

end

theorem open_of_count {bound : Nat}
    (h : (s.attempts.countValues fun a => decide (a.taskId = k) && a.state.isOpen) < bound) :
    1 < bound ∨ ∀ (id : AttemptId) (a : AttemptRecord), (attemptsOf s.attempts k)[id]? = some a →
      a.state.isOpen = false := by
  by_cases hbound : 1 < bound
  · exact .inl hbound
  · refine .inr ?_
    intro id a hget
    obtain ⟨ha, hk⟩ := attemptsOf_get.mp hget
    have hzero : (s.attempts.countValues fun a => decide (a.taskId = k) && a.state.isOpen) = 0 := by
      omega
    have hclosed := (countValues_eq_zero _ _).mp hzero id a ha
    simpa [hk] using hclosed

theorem othersSettled_of (hsound : s.board.Sound) (h : s.board.othersSettled id) (j : AttemptId)
    (r : AttemptRecord) (hj : (attemptsOf s.attempts k)[j]? = some r) (hne : j ≠ id) :
    isTerminalAttempt r.state = true := by
  obtain ⟨hr, -⟩ := attemptsOf_get.mp hj
  have hkey := hsound.attemptKey j r hr
  exact (h j r hr (by rw [hkey]; exact hne)).1

theorem Effect.view (hsound : s.board.Sound) (h : Effect s e t) {v' : TaskView}
    (hv : t.view k = some v') :
    Projects s e k v' := by
  cases h with
  | still => exact .kept hv
  | @createRun c hempty =>
    exact .fresh hv (.refl _) hsound (get_eq_none_of_isEmpty _ hempty _) rfl rfl (.inr hempty)
  | startRun | addDependency => exact .pass hv (recomputeBlockedReady_rescheduled _) (fun _ => rfl)
  | addTask hid =>
    exact .fresh hv (recomputeBlockedReady_rescheduled _) hsound hid rfl rfl (.inl rfl)
  | @markReady c task htask hstate =>
    refine .update hv htask rfl rfl (fun _ _ => rfl) (.wait (.inr ⟨?_, .ready, .inl rfl, rfl⟩))
    obtain hstate | hstate := hstate
    all_goals
      rw [hstate]
      rfl
  | @createAttempt c a task index htask hstate hcount hopen hid hnew =>
    have hfree : (attemptsOf s.attempts c.taskId)[c.attemptId]? = none := by
      cases hget : (attemptsOf s.attempts c.taskId)[c.attemptId]? with
      | none => rfl
      | some =>
        rw [(attemptsOf_get.mp hget).1] at hid
        cases hid
    refine .update hv htask rfl rfl (fun k hk => ?_) ?_
    · exact attemptsOf_insert_other (hnew.taskId ▸ Ne.symm hk) (by simp [hid])
    · rw [attemptsOf_insert_self hnew.taskId]
      exact .create rfl hstate hcount (open_of_count hopen) hfree hnew
  | @adjust _ id a a' epoch ha hsame hstate =>
    obtain ⟨task, htask⟩ := hsound.attemptTask id a ha
    exact .attempt hv ha htask (insert_eq_self _ htask).symm rfl rfl hsame (.adjust · hstate)
  | @claimExecution c a task ha hstate htask =>
    exact .attempt hv ha htask rfl rfl rfl rfl (.claimExecution rfl · hstate rfl)
  | @suspend c a a' task ha hstate hsame hsuspended htask hrunning hothers =>
    exact .attempt hv ha htask rfl rfl rfl hsame (.suspend · hstate hsuspended hrunning
      (othersSettled_of hsound hothers) ⟨c, rfl⟩)
  | @resume c a a' task epoch deadline deadlines ha hstate hsame hstarting htask hparked hothers =>
    exact .attempt hv ha htask rfl rfl rfl hsame (.resume · hstate hstarting hparked
      (othersSettled_of hsound hothers))
  | claimFinalization htask hclaim =>
    refine .update hv htask rfl rfl (fun _ _ => rfl) (.claimFinalization rfl (hclaim.imp_right ?_))
    intro hfree
    obtain ⟨hnone, hwin, a, ha, hk, hfly⟩ := hfree
    exact ⟨hnone, hwin, a, attemptsOf_get.mpr ⟨ha, hk⟩, hfly⟩
  | @complete c a a' task version ha hfly hsame hsucceeded htask hcanceled hwin =>
    refine .update hv htask rfl rfl (fun k hk => ?_) ?_
    · exact (attemptsOf_supersede_other hk).trans (attemptsOf_update_other ha hsame hk)
    · rw [attemptsOf_map (supersede_taskId _ _), attemptsOf_insert_self hsame]
      exact .complete rfl (attemptsOf_get.mpr ⟨ha, rfl⟩) hfly hsucceeded hcanceled hwin
  | failed hfails hhandled =>
    cases hhandled with
    | retry hsame hend htask hretry =>
      exact .failure (recomputeBlockedReady_rescheduled _) hv hfails.attempt htask rfl rfl rfl hsame
        fun ha _ hresched => .retry hfails ha hend hretry hresched
    | giveUp hsame hend htask hretry =>
      refine .failure
        ((applyDependencyFailure_rescheduled _ _).trans (recomputeBlockedReady_rescheduled _)) hv
        hfails.attempt htask rfl rfl rfl hsame fun ha after hresched => ?_
      -- A failed task is not waiting, and the passes leave it.
      obtain rfl | ⟨hwaiting, -⟩ := hresched
      · exact .giveUp hfails ha hend hretry
      · cases hwaiting
  | @cancelTask c task htask hstate =>
    refine .update hv htask rfl rfl (fun k hk => attemptsOf_cancelTask_other hk) ?_
    rw [attemptsOf_cancelTask_self]
    exact .cancelTask rfl rfl hstate
  | cancelRun =>
    obtain ⟨task', htask', rfl⟩ := view_eq.mp hv
    dsimp only at htask'
    rw [get_map, Option.map_eq_some_iff] at htask'
    obtain ⟨task, htask, rfl⟩ := htask'
    refine .inl ⟨_, view_eq.mpr ⟨task, htask, rfl⟩, ?_⟩
    dsimp only
    rw [attemptsOf_map fun _ a => cancelAttempt_taskId a]
    exact .cancelRun
  | @accept c a task ha hstate hid htask =>
    exact .update hv htask rfl rfl (fun _ _ => rfl)
      (.accept rfl (attemptsOf_get.mpr ⟨ha, hid⟩) hstate)
  | note htask hkeys => exact .update hv htask rfl rfl (fun _ _ => rfl) (.note hkeys)

variable {I : TaskView → Prop} {C : RunSnapshot → RunEvent → Prop} {P : Platform}

theorem ReachableWhere.task_invariant (hnew : ∀ k v, TaskView.New v k → I v)
    (hstep : ∀ {s : RunSnapshot} {e : RunEvent} {k : TaskId} {v v' : TaskView},
      ReachableWhere P C s → C s e → s.view k = some v → I v → TaskStep s e k v v' → I v')
    (h : ReachableWhere P C s) (hv : s.view k = some v) : I v := by
  refine h.invariant (I := fun s => ∀ k v, s.view k = some v → I v) ?_ ?_ ?_ k v hv
  · intro runId session k v hv
    obtain ⟨task, htask, -⟩ := view_eq.mp hv
    simp [emptySnapshot] at htask
  · intro u sequence events hu k v hv
    exact hu k v hv
  · intro s u e hs hc hI heffect k v' hv'
    obtain ⟨v, hv, hts⟩ | ⟨-, hn⟩ := heffect.view hs.sound hv'
    · exact hstep hs hc hv (hI k v hv) hts
    · exact hnew k v' hn

theorem Occurs.view (hsound : s.board.Sound) (h : Occurs P s e t) (hv : s.view k = some v) :
    ∃ v', t.view k = some v' ∧ TaskStep s e k v v' := by
  obtain ⟨u, sequence, events, ⟨-, heffect⟩, rfl⟩ := h.moves
  obtain ⟨task, htask, -⟩ := view_eq.mp hv
  have hkept : u.tasks[k]?.isSome = true := heffect.task_kept (by rw [htask]; rfl)
  obtain ⟨task', htask'⟩ := Option.isSome_iff_exists.mp hkept
  have hv' : u.view k = some ⟨task', attemptsOf u.attempts k, u.speculation⟩ :=
    view_eq.mpr ⟨task', htask', rfl⟩
  obtain ⟨w, hw, hstep⟩ | ⟨hnone, -⟩ := heffect.view hsound hv'
  · rw [hv] at hw
    cases hw
    exact ⟨_, hv', hstep⟩
  · rw [htask] at hnone
    cases hnone

theorem task_onwards (hstep : ∀ {s : RunSnapshot} {e : RunEvent} {k : TaskId} {v v' : TaskView},
      I v → TaskStep s e k v v' → I v') (hsound : s.board.Sound)
    (h : Relation.ReflTransGen (StepWhere P C) s t) (hv : s.view k = some v) (hI : I v) :
    ∃ v', t.view k = some v' ∧ I v' := by
  have hall : t.board.Sound ∧ ∃ v', t.view k = some v' ∧ I v' := by
    induction h with
    | refl => exact ⟨hsound, v, hv, hI⟩
    | tail _ hs ih =>
      obtain ⟨hsound', w, hw, hIw⟩ := ih
      obtain ⟨e, -, ho⟩ := hs
      obtain ⟨w', hw', hts⟩ := ho.view hsound' hw
      exact ⟨ho.board_step.sound hsound', w', hw', hstep hIw hts⟩
  exact hall.2

/-- Nothing can win the task any more: no attempt is open and none has succeeded. -/
structure TaskView.Settled (v : TaskView) : Prop where
  winner : v.task.winningAttempt = none
  closed : ∀ (id : AttemptId) (a : AttemptRecord), v.attempts[id]? = some a →
    a.state.isOpen = false ∧ a.state ≠ .succeeded

theorem cancelAttempt_closed (h : a.state.isOpen = false ∧ a.state ≠ .succeeded) :
    (cancelAttempt a).state.isOpen = false ∧ (cancelAttempt a).state ≠ .succeeded := by
  unfold cancelAttempt
  split
  · exact ⟨rfl, by simp⟩
  · exact h

theorem TaskView.Settled.fails (h : v.Settled) {failure : FailureClass}
    (hfails : e.Fails s id a failure) (ha : v.attempts[id]? = some a) : False := by
  have hclosed := h.closed id a ha
  have hstate := hfails.state
  split at hstate
  · exact hclosed.2 hstate
  · rw [AttemptState.inFlight_open hstate] at hclosed
    cases hclosed.1

def TaskView.Over (v : TaskView) : Prop :=
  (v.task.state = .failed ∨ v.task.state = .canceled) ∧ v.Settled

theorem TaskStep.over {v' : TaskView} (hover : v.Over) (h : TaskStep s e k v v') :
    v'.Over ∧ (v.task.state = .canceled → v'.task.state = .canceled) := by
  obtain ⟨hstate, hsettled⟩ := hover
  have hne : ∀ st : TaskState, st ≠ .failed → st ≠ .canceled → v.task.state ≠ st := by
    intro st hfailed hcanceled heq
    rw [heq] at hstate
    obtain hstate | hstate := hstate
    · exact hfailed hstate
    · exact hcanceled hstate
  cases h with
  | @wait task h =>
    obtain rfl | ⟨hwaiting, -⟩ := h
    · exact ⟨⟨hstate, hsettled⟩, fun hc => hc⟩
    · obtain hstate | hstate := hstate
      all_goals
        rw [hstate] at hwaiting
        cases hwaiting
  | note | claimFinalization => exact ⟨⟨hstate, hsettled.winner, hsettled.closed⟩, fun hc => hc⟩
  | create he hready =>
    obtain hready | hready | ⟨-, hready⟩ := hready
    all_goals exact absurd hready (hne _ (by simp) (by simp))
  | @adjust id a a' ha hopen =>
    refine ⟨⟨hstate, hsettled.winner, ?_⟩, fun hc => hc⟩
    intro j r hr
    obtain ⟨-, rfl⟩ | ⟨-, hr⟩ := get_insert_cases hr
    · have hclosed := hsettled.closed id a ha
      obtain hsame | ⟨hopen, -⟩ := hopen
      · rw [hsame]
        exact hclosed
      · rw [hopen] at hclosed
        cases hclosed.1
    · exact hsettled.closed j r hr
  | claimExecution he ha hstarting =>
    have hclosed := hsettled.closed _ _ ha
    rw [hstarting] at hclosed
    cases hclosed.1
  | suspend ha hrun hsuspended hrunning => exact absurd hrunning (hne _ (by simp) (by simp))
  | resume ha hsusp hstarting hparked => exact absurd hparked (hne _ (by simp) (by simp))
  | complete he ha hfly =>
    have hclosed := hsettled.closed _ _ ha
    rw [AttemptState.inFlight_open hfly] at hclosed
    cases hclosed.1
  | retry hfails ha | giveUp hfails ha => exact (hsettled.fails hfails ha).elim
  | cancelTask =>
    refine ⟨⟨.inr rfl, hsettled.winner, ?_⟩, fun _ => rfl⟩
    intro j r hr
    dsimp only at hr
    rw [get_map, Option.map_eq_some_iff] at hr
    obtain ⟨a, ha, rfl⟩ := hr
    exact cancelAttempt_closed (hsettled.closed j a ha)
  | cancelRun =>
    have hkept : cancelTaskRecord v.task = v.task := by
      unfold cancelTaskRecord
      obtain hstate | hstate := hstate
      all_goals simp [hstate, taskIsExecutable, taskIsLocked]
    rw [hkept]
    refine ⟨⟨hstate, hsettled.winner, ?_⟩, fun hc => hc⟩
    intro j r hr
    dsimp only at hr
    rw [get_map, Option.map_eq_some_iff] at hr
    obtain ⟨a, ha, rfl⟩ := hr
    exact cancelAttempt_closed (hsettled.closed j a ha)
  | accept he ha hsucceeded => exact absurd hsucceeded (hsettled.closed _ _ ha).2

end Tetonic.Run
