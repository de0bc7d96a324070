import Tetonic.Run.Reachable
set_option autoImplicit false

/-! Execution fencing. An explicit `lease_epoch` can lower `next_lease_epoch`, so epochs do
not grow along a run in general. They do grow for each attempt, because an attempt is only
resumed while it is the last attempt created on the only task and every other attempt has
ended; then no lease has been issued since its own. -/

namespace Tetonic.Run
open Lib OrdMap Demo AttemptState

variable {a' : AttemptRecord} {k : AttemptId} {proof : LeaseProof} {l : AttemptLease}
variable {a : AttemptRecord} {id : AttemptId} {b b' : Board} {task : TaskRecord}
  {cs : List RunCommand} {e : UInt64} {c : RunCommand}

/-- The states in which a task can be given an attempt, or be made ready for one. -/
def taskIsDispatchable (st : TaskState) : Bool :=
  taskIsExecutable st || decide (st = .leased) || decide (st = .running)

def Board.rival (b : Board) (id : AttemptId) : Prop :=
  ∃ (k : AttemptId) (r : AttemptRecord), k ≠ id ∧ b.attempts[k]? = some r ∧
    isTerminalAttempt r.state = false

/-- What being a task's active attempt means in a run of one task: a suspended one is the only
attempt left and its task waits for it, and one that has not ended holds the last lease issued
unless another is still live. -/
structure Board.ActiveFence (b : Board) (task : TaskRecord) (id : AttemptId)
    (a : AttemptRecord) : Prop where
  alone : a.state = .suspended → ¬ b.rival id ∧ taskIsDispatchable task.state = false
  last : isTerminalAttempt a.state = false → ∀ l, a.lease = some l →
    l.leaseEpoch = b.nextLeaseEpoch ∨ b.rival id

def Board.Fenced (b : Board) : Prop :=
  b.tasks.size ≤ 1 → ∀ (taskId : TaskId) (task : TaskRecord) (id : AttemptId) (a : AttemptRecord),
    b.tasks[taskId]? = some task → task.activeAttempt = some id → b.attempts[id]? = some a →
      b.ActiveFence task id a

theorem Board.ActiveFence.of_terminal (h : isTerminalAttempt a.state = true) :
    b.ActiveFence task id a where
  alone hs := by rw [hs] at h; cases h
  last ht := by rw [h] at ht; cases ht

theorem BoardStep.size_le (h : BoardStep b b') : b.tasks.size ≤ b'.tasks.size := by
  have hins : ∀ {m : OrdMap TaskId TaskRecord} {k : TaskId} {task : TaskRecord},
      m.size ≤ (m.insert k task).size := Std.ExtTreeMap.size_le_size_insert
  cases h with
  | idle h => exact Nat.le_of_eq h.size.symm
  | addTask hid hnew h | failAttempt ha hs hst htask htst h | rejectArtifact ha hs htask htst h =>
    exact Nat.le_trans hins (Nat.le_of_eq h.size.symm)
  | createAttempt | suspend | resume | claimFinalization | completeAttempt | cancelTask
  | acceptArtifact => exact hins
  | leaseAttempt | startAttempt | heartbeat | quiesce => exact Nat.le_refl _
  | claimExecution => exact Nat.le_of_eq Std.ExtTreeMap.size_modify.symm
  | cancelRun => exact Nat.le_of_eq Std.ExtTreeMap.size_map.symm

theorem Board.Sound.only_task (hb : b.Sound) (hsize : b.tasks.size ≤ 1) {taskId : TaskId}
    (htask : b.tasks[taskId]? = some task) (ha : b.attempts[id]? = some a) :
    a.taskId = taskId := by
  obtain ⟨task', htask'⟩ := hb.attemptTask id a ha
  exact key_unique _ hsize htask' htask

/-- A move that neither ends, parks nor re-leases an attempt. -/
structure AttemptRecord.SameLife (a a' : AttemptRecord) : Prop where
  terminal : isTerminalAttempt a'.state = isTerminalAttempt a.state
  suspended : a'.state = .suspended → a.state = .suspended
  epoch : a'.lease.map (·.leaseEpoch) = a.lease.map (·.leaseEpoch)

def SameLives (m m' : OrdMap AttemptId AttemptRecord) : Prop :=
  ∀ k : AttemptId, (m[k]? = none ∧ m'[k]? = none) ∨
    ∃ a a', m[k]? = some a ∧ m'[k]? = some a' ∧ a.SameLife a'

theorem SameLives.refl (m : OrdMap AttemptId AttemptRecord) : SameLives m m := by
  intro k
  cases h : m[k]? with
  | none => exact .inl ⟨rfl, rfl⟩
  | some a => exact .inr ⟨a, a, rfl, rfl, rfl, fun hs => hs, rfl⟩

theorem SameLives.insert {m : OrdMap AttemptId AttemptRecord} (ha : m[id]? = some a)
    (hs : a.SameLife a') :
    SameLives m (m.insert id a') := by
  intro k
  by_cases hk : id = k
  · subst hk
    exact .inr ⟨a, a', ha, get_insert_self m id a', hs⟩
  · rw [get_insert_ne m a' hk]
    exact SameLives.refl m k

/-- The tasks keep their active attempts, and none becomes dispatchable. -/
def SameDispatch (m m' : OrdMap TaskId TaskRecord) : Prop :=
  ∀ (k : TaskId) (task' : TaskRecord), m'[k]? = some task' →
    ∃ task, m[k]? = some task ∧ task'.activeAttempt = task.activeAttempt ∧
      (taskIsDispatchable task.state = false → taskIsDispatchable task'.state = false)

theorem SameDispatch.refl (m : OrdMap TaskId TaskRecord) : SameDispatch m m :=
  fun _ task' h => ⟨task', h, rfl, fun hd => hd⟩

theorem SameDispatch.insert {m : OrdMap TaskId TaskRecord} {k : TaskId} {task' : TaskRecord}
    (hk : m[k]? = some task) (ha : task'.activeAttempt = task.activeAttempt)
    (hd : taskIsDispatchable task.state = false → taskIsDispatchable task'.state = false) :
    SameDispatch m (m.insert k task') := by
  intro j after hj
  rw [get_insert] at hj
  split at hj
  · subst_vars
    cases hj
    exact ⟨task, hk, ha, hd⟩
  · exact ⟨after, hj, rfl, fun hd => hd⟩

theorem TasksIdle.sameDispatch {m m' : OrdMap TaskId TaskRecord} (h : TasksIdle m m') :
    SameDispatch m m' := by
  intro k task' hk
  obtain ⟨task, htask, hidle⟩ := h.before hk
  refine ⟨task, htask, hidle.activeAttempt, fun hd => ?_⟩
  rcases hidle.state with hst | ⟨hex, -⟩
  · rw [hst]
    exact hd
  · simp [taskIsDispatchable, hex] at hd

theorem SameLives.rival_iff (h : SameLives b.attempts b'.attempts) (id : AttemptId) :
    b'.rival id ↔ b.rival id := by
  constructor
  · rintro ⟨k, r, hk, hr, ht⟩
    rcases h k with ⟨-, hn⟩ | ⟨a, a', ha, ha', hlife⟩
    · rw [hr] at hn
      cases hn
    · rw [hr] at ha'
      cases ha'
      exact ⟨k, a, hk, ha, hlife.terminal.symm.trans ht⟩
  · rintro ⟨k, r, hk, hr, ht⟩
    rcases h k with ⟨hn, -⟩ | ⟨a, a', ha, ha', hlife⟩
    · rw [hr] at hn
      cases hn
    · rw [hr] at ha
      cases ha
      exact ⟨k, a', hk, ha', hlife.terminal.trans ht⟩

/-- No attempt is ended, parked or leased, and the task of a suspended one goes on waiting. -/
theorem Board.Fenced.of_lives (hf : b.Fenced) (hsize : b.tasks.size ≤ b'.tasks.size)
    (htasks : ∀ (k : TaskId) (task' : TaskRecord), b'.tasks[k]? = some task' →
      ∃ task, b.tasks[k]? = some task ∧ task'.activeAttempt = task.activeAttempt ∧
        ∀ id a, b.attempts[id]? = some a → b.ActiveFence task id a → a.state = .suspended →
          taskIsDispatchable task'.state = false)
    (hepoch : b'.nextLeaseEpoch = b.nextLeaseEpoch) (hlives : SameLives b.attempts b'.attempts) :
    b'.Fenced := by
  intro hle k task' id a' hk hact ha'
  obtain ⟨task, htask, hactive, hstate⟩ := htasks k task' hk
  obtain ⟨a, ha, hlife⟩ : ∃ a, b.attempts[id]? = some a ∧ a.SameLife a' := by
    rcases hlives id with ⟨-, hn⟩ | ⟨a, a'', ha, ha'', hlife⟩
    · rw [ha'] at hn
      cases hn
    · rw [ha'] at ha''
      cases ha''
      exact ⟨a, ha, hlife⟩
  have hfence := hf (Nat.le_trans hsize hle) k task id a htask (hactive ▸ hact) ha
  refine ⟨fun hs => ?_, fun ht l hl => ?_⟩
  · have hs := hlife.suspended hs
    exact ⟨fun hr => (hfence.alone hs).1 ((hlives.rival_iff id).mp hr), hstate id a ha hfence hs⟩
  · have hlease := hlife.epoch
    cases hla : a.lease with
    | none => simp [hl, hla] at hlease
    | some l₀ =>
      simp only [hl, hla, Option.map_some, Option.some.injEq] at hlease
      rw [hepoch, hlease, hlives.rival_iff]
      exact hfence.last (hlife.terminal.symm.trans ht) l₀ hla

theorem Board.Fenced.of_same (hf : b.Fenced) (hsize : b.tasks.size ≤ b'.tasks.size)
    (htasks : SameDispatch b.tasks b'.tasks) (hepoch : b'.nextLeaseEpoch = b.nextLeaseEpoch)
    (hlives : SameLives b.attempts b'.attempts) : b'.Fenced := by
  refine hf.of_lives hsize (fun k task' hk => ?_) hepoch hlives
  obtain ⟨task, htask, hactive, hstate⟩ := htasks k task' hk
  exact ⟨task, htask, hactive, fun _ _ _ hfence hs => hstate (hfence.alone hs).2⟩

/-- The active attempt of the only task is all there is to look at. -/
theorem Board.Fenced.of_active {tasks : OrdMap TaskId TaskRecord} {k₀ : TaskId}
    {attempts : OrdMap AttemptId AttemptRecord} {epoch : UInt64}
    (hactive : task.activeAttempt = some id) (hid : attempts[id]? = some a')
    (h : Board.ActiveFence ⟨tasks.insert k₀ task, attempts, epoch⟩ task id a') :
    Board.Fenced ⟨tasks.insert k₀ task, attempts, epoch⟩ := by
  intro hle k task' i a hk hact ha
  have hkey : k = k₀ := key_unique _ hle hk (get_insert_self _ _ _)
  subst hkey
  rw [get_insert_self] at hk
  cases hk
  rw [hactive] at hact
  cases hact
  rw [hid] at ha
  cases ha
  exact h

theorem Board.Fenced.of_inactive
    (h : b'.tasks.size ≤ 1 → ∀ (k : TaskId) (task' : TaskRecord), b'.tasks[k]? = some task' →
      task'.activeAttempt = none) : b'.Fenced := by
  intro hle k task' id a' hk hact
  rw [h hle k task' hk] at hact
  cases hact

theorem Board.Fenced.of_ended
    (h : b'.tasks.size ≤ 1 → ∀ (k : AttemptId) (a' : AttemptRecord), b'.attempts[k]? = some a' →
      isTerminalAttempt a'.state = true) : b'.Fenced :=
  fun hle _ _ id a' _ _ ha' => .of_terminal (h hle id a' ha')

theorem cancelAttempt_terminal (a : AttemptRecord) :
    isTerminalAttempt (cancelAttempt a).state = true := by
  unfold cancelAttempt
  split
  · rfl
  · rename_i hc
    simpa [cancelable_eq_not_terminal] using hc

theorem inactive_of_insert {tasks : OrdMap TaskId TaskRecord} {k₀ : TaskId} {task₀ : TaskRecord}
    (hnone : task₀.activeAttempt = none)
    (h : TasksIdle (b.tasks.insert k₀ task₀) tasks) (hle : tasks.size ≤ 1) (k : TaskId)
    (task' : TaskRecord) (hk : tasks[k]? = some task') :
    task'.activeAttempt = none := by
  obtain ⟨before, hbefore, hidle⟩ := h.before hk
  obtain ⟨after, hafter, -⟩ := h.present k₀ task₀ (get_insert_self _ _ _)
  have heq : k = k₀ := key_unique _ hle hk hafter
  subst heq
  rw [get_insert_self] at hbefore
  cases hbefore
  exact hidle.activeAttempt.trans hnone

theorem Board.ActiveFence.no_rival {r : AttemptRecord} (h : b.ActiveFence task id a)
    (hs : a.state = .suspended) (hr : b.attempts[k]? = some r)
    (ht : isTerminalAttempt r.state = false) : k = id := by
  by_contra hne
  exact (h.alone hs).1 ⟨k, r, hne, hr, ht⟩

theorem leaseAttempt_fenced {lease : AttemptLease} (hf : b.Fenced) (ha : b.attempts[id]? = some a)
    (hs : a.state = .created) :
    Board.Fenced { b with
      attempts := b.attempts.insert id { a with state := .leased, lease := some lease }
      nextLeaseEpoch := lease.leaseEpoch } := by
  intro hle k task i a' hk hact ha'
  rw [get_insert] at ha'
  split at ha'
  · cases ha'
    exact ⟨(fun h => by cases h), fun _ l hl => .inl (by cases hl; rfl)⟩
  · rename_i hne
    have hfence := hf hle k task i a' hk hact ha'
    refine ⟨fun hsusp => ?_, fun _ _ _ => .inr ⟨id, _, hne, get_insert_self _ _ _, rfl⟩⟩
    exact absurd (hfence.no_rival hsusp ha (by rw [hs]; rfl)) hne

theorem claimExecution_fenced (hf : b.Fenced) (ha : b.attempts[id]? = some a)
    (hs : a.state = .starting) (htask : b.tasks[a.taskId]? = some task) :
    Board.Fenced { b with
      attempts := b.attempts.insert id { a with executionClaimed := true, state := .running }
      tasks := b.tasks.insert a.taskId { task with state := .running } } := by
  have hlives : SameLives b.attempts
      (b.attempts.insert id { a with executionClaimed := true, state := .running }) :=
    .insert ha ⟨by rw [hs]; rfl, (fun h => by cases h), rfl⟩
  refine hf.of_lives Std.ExtTreeMap.size_le_size_insert (fun k task' hk => ?_) rfl hlives
  obtain ⟨task₀, htask₀, hactive⟩ :
      ∃ task₀, b.tasks[k]? = some task₀ ∧ task'.activeAttempt = task₀.activeAttempt := by
    rw [get_insert] at hk
    split at hk
    · cases hk
      subst_vars
      exact ⟨task, htask, rfl⟩
    · exact ⟨task', hk, rfl⟩
  refine ⟨task₀, htask₀, hactive, fun i a₀ ha₀ hfence hsusp => ?_⟩
  -- The attempt that starts would be a rival of the suspended one.
  have hi := hfence.no_rival hsusp ha (by rw [hs]; rfl)
  subst hi
  rw [ha] at ha₀
  cases ha₀
  rw [hs] at hsusp
  cases hsusp

/-- Parking requires that every other attempt has ended, so the parked attempt's lease is the
last one issued. -/
theorem suspend_fenced {parked : AttemptSuspension} (hb : b.Sound) (hf : b.Fenced)
    (ha : b.attempts[id]? = some a) (hs : a.state = .running) (hsize : b.tasks.size = 1)
    (htask : b.tasks[a.taskId]? = some task) (hactive : task.activeAttempt = some id)
    (hothers : b.othersSettled id) :
    Board.Fenced { b with
      attempts := b.attempts.insert id
        { a with state := .suspended, executionQuiesced := true, suspension := some parked }
      tasks := b.tasks.insert a.taskId { task with state := .parked } } := by
  have hno : ¬ b.rival id := by
    rintro ⟨k, r, hk, hr, ht⟩
    have hkey := hb.attemptKey k r hr
    have hend := (hothers k r hr (by rw [hkey]; exact hk)).1
    rw [ht] at hend
    cases hend
  have hno' : ∀ {m : OrdMap TaskId TaskRecord} {a'' : AttemptRecord} {epoch : UInt64},
      ¬ Board.rival ⟨m, b.attempts.insert id a'', epoch⟩ id := by
    rintro m a'' epoch ⟨k, r, hk, hr, ht⟩
    rw [get_insert_ne _ _ (Ne.symm hk)] at hr
    exact hno ⟨k, r, hk, hr, ht⟩
  have hfence := hf (Nat.le_of_eq hsize) a.taskId task id a htask hactive ha
  refine .of_active hactive (get_insert_self _ _ _) ⟨fun _ => ⟨hno', rfl⟩, fun _ l hl => .inl ?_⟩
  rcases hfence.last (by rw [hs]; rfl) l hl with he | hr
  · exact he
  · exact absurd hr hno

theorem completeAttempt_fenced {digest : Option String} {workspace : Option WorkspaceVersion}
    {version : Option UInt64} (hb : b.Sound) (hf : b.Fenced) (ha : b.attempts[id]? = some a)
    (hs : a.state.inFlight = true) (htask : b.tasks[a.taskId]? = some task) :
    Board.Fenced { b with
      attempts := (b.attempts.insert id { a with
        state := .succeeded
        resultDigest := digest
        workspaceVersion := workspace }).map (supersede a.taskId id)
      tasks := b.tasks.insert a.taskId
        { task with winningAttempt := some id, completedVersion := version } } := by
  intro hle k task' i a' hk hact ha'
  have hsize : b.tasks.size ≤ 1 := Nat.le_trans Std.ExtTreeMap.size_le_size_insert hle
  have hkey : k = a.taskId := key_unique _ hle hk (get_insert_self _ _ _)
  subst hkey
  rw [get_insert_self] at hk
  cases hk
  rw [get_map, get_insert] at ha'
  refine .of_terminal ?_
  split at ha'
  · rename_i hid
    subst hid
    simp only [Option.map_some, Option.some.injEq] at ha'
    subst ha'
    simp [supersede, isTerminalAttempt]
  · rename_i hne
    cases hr : b.attempts[i]? with
    | none => simp [hr] at ha'
    | some r =>
      simp only [hr, Option.map_some, Option.some.injEq] at ha'
      subst ha'
      have hrt : r.taskId = a.taskId := hb.only_task hsize htask hr
      have hfence := hf hsize a.taskId task i r htask hact hr
      unfold supersede
      split
      · rfl
      · rename_i hclosed
        by_contra hlive
        have hopen : r.state.isOpen = false := by
          by_contra ho
          exact hclosed ⟨hrt, fun h => hne h.symm, by simpa using ho⟩
        have hsusp := suspended_of_not_open (by simpa using hlive) hopen
        exact hne (hfence.no_rival hsusp ha (inFlight_not_terminal hs))

theorem BoardStep.fenced (h : BoardStep b b') (hb : b.Sound) (hf : b.Fenced) : b'.Fenced := by
  have hsize := h.size_le
  cases h with
  | idle h => exact hf.of_same hsize h.sameDispatch rfl (.refl _)
  | addTask hid hnew h =>
    -- A run of one task that was just added had none before.
    exact .of_inactive fun hle => inactive_of_insert hnew.activeAttempt h hle
  | @createAttempt id taskId a task st htask hready hst hid hnew =>
    refine .of_active rfl (get_insert_self _ _ _) ⟨fun hs => ?_, fun _ l hl => ?_⟩
    · rw [hnew.state] at hs
      cases hs
    · rw [hnew.lease] at hl
      cases hl
  | leaseAttempt ha hs => exact leaseAttempt_fenced hf ha hs
  | startAttempt ha hs =>
    refine hf.of_same hsize (.refl _) rfl (.insert ha ⟨?_, (fun h => by cases h), rfl⟩)
    rw [hs]
    rfl
  | @heartbeat id a lease lease' ha hs hl hfence =>
    refine hf.of_same hsize (.refl _) rfl (.insert ha ⟨rfl, fun h => h, ?_⟩)
    rw [hl]
    exact congrArg some hfence.leaseEpoch
  | quiesce ha => exact hf.of_same hsize (.refl _) rfl (.insert ha ⟨rfl, fun h => h, rfl⟩)
  | @claimExecution id a ha hs =>
    obtain ⟨task, htask⟩ := hb.attemptTask id a ha
    rw [modify_eq_insert _ _ htask]
    exact claimExecution_fenced hf ha hs htask
  | suspend ha hs hc hone htask hactive hothers =>
    exact suspend_fenced hb hf ha hs hone htask hactive hothers
  | resume ha hs hl hone htask hactive =>
    exact .of_active hactive (get_insert_self _ _ _)
      ⟨(fun h => by cases h), fun _ l hl => .inl (by cases hl; rfl)⟩
  | claimFinalization htask =>
    exact hf.of_same hsize (.insert htask rfl fun h => h) rfl (.refl _)
  | completeAttempt ha hs htask => exact completeAttempt_fenced hb hf ha hs htask
  | failAttempt ha hs hst htask htst h | rejectArtifact ha hs htask htst h =>
    exact .of_inactive fun hle => inactive_of_insert rfl h hle
  | @cancelTask taskId task htask =>
    refine .of_ended fun hle k a' ha' => ?_
    rw [get_map] at ha'
    cases hr : b.attempts[k]? with
    | none => simp [hr] at ha'
    | some r =>
      have hrt : r.taskId = taskId := hb.only_task (Nat.le_trans hsize hle) htask hr
      simp only [hr, Option.map_some, hrt, if_true, Option.some.injEq] at ha'
      subst ha'
      exact cancelAttempt_terminal r
  | cancelRun =>
    refine .of_ended fun hle k a' ha' => ?_
    rw [get_map] at ha'
    cases hr : b.attempts[k]? with
    | none => simp [hr] at ha'
    | some r =>
      simp only [hr, Option.map_some, Option.some.injEq] at ha'
      subst ha'
      exact cancelAttempt_terminal r
  | acceptArtifact ha hs htask =>
    exact hf.of_same hsize (.insert htask rfl fun _ => rfl) rfl (.refl _)

theorem ReachableWhere.fenced {P : Platform} {C : RunSnapshot → RunEvent → Prop} {s : RunSnapshot}
    (h : ReachableWhere P C s) : s.board.Fenced := by
  refine (h.board_invariant (I := fun b => b.Sound ∧ b.Fenced) ⟨.empty, ?_⟩
    (fun _ _ hb hs => ⟨hs.sound hb.1, hs.fenced hb.1 hb.2⟩)).2
  intro _ k task id a hk
  simp at hk

theorem BoardStep.resume_of_wake (h : BoardStep b b') (ha : b.attempts[k]? = some a)
    (ha' : b'.attempts[k]? = some a') (hs : a.state = .suspended) (hs' : a'.state = .starting) :
    ∃ task l, b.tasks.size = 1 ∧ b.tasks[a.taskId]? = some task ∧ task.activeAttempt = some k ∧
      a'.lease = some l ∧ checkedAdd b.nextLeaseEpoch 1 = some l.leaseEpoch := by
  cases h
  all_goals simp only [get_insert, get_map] at ha'
  all_goals grind [cancelAttempt, supersede, inFlight, isTerminalAttempt,
    AttemptRecord.Fresh, failedEnd]

theorem BoardStep.wake_grows (h : BoardStep b b') (hf : b.Fenced) (ha : b.attempts[k]? = some a)
    (ha' : b'.attempts[k]? = some a') (hs : a.state = .suspended) (hs' : a'.state = .starting)
    (hl : a.lease = some l) : ∃ l', a'.lease = some l' ∧ l.leaseEpoch < l'.leaseEpoch := by
  obtain ⟨task, l', hsize, htask, hactive, hl', hepoch⟩ := h.resume_of_wake ha ha' hs hs'
  have hfence := hf (Nat.le_of_eq hsize) a.taskId task k a htask hactive ha
  refine ⟨l', hl', ?_⟩
  rcases hfence.last (by rw [hs]; rfl) l hl with he | hr
  · rw [he]
    exact lt_of_checkedAdd_one hepoch
  · exact absurd hr (hfence.alone hs).1

theorem BoardStep.epoch_grows (h : BoardStep b b') (hb : b.Sound) (hf : b.Fenced)
    (ha : b.attempts[k]? = some a) (hl : a.lease = some l) :
    ∃ a' l', b'.attempts[k]? = some a' ∧ a'.lease = some l' ∧
      ((l'.leaseEpoch = l.leaseEpoch ∧ (a.executionClaimed = true → a'.executionClaimed = true)) ∨
        l.leaseEpoch < l'.leaseEpoch) := by
  obtain ⟨a', ha', hm⟩ := h.attempt_after ha
  cases hm with
  | lease hs =>
    rw [(hb.attempt k a ha).unleased hs] at hl
    cases hl
  | @beat l₀ l₀' hs hl₀ hfence =>
    rw [hl₀] at hl
    cases hl
    exact ⟨_, _, ha', rfl, .inl ⟨hfence.leaseEpoch, fun hc => hc⟩⟩
  | claim => exact ⟨_, l, ha', hl, .inl ⟨rfl, fun _ => rfl⟩⟩
  | wake hs =>
    obtain ⟨l', hl', hlt⟩ := h.wake_grows hf ha ha' hs rfl hl
    exact ⟨_, l', ha', hl', .inr hlt⟩
  | stay | start | quiesce | park | win | lose | fail | reject | cancel =>
    exact ⟨_, l, ha', hl, .inl ⟨rfl, fun hc => hc⟩⟩

variable {P : Platform} {s t u : RunSnapshot}

def RunSnapshot.leaseEpochOf (s : RunSnapshot) (id : AttemptId) : Option UInt64 :=
  s.attempts[id]?.bind fun a => a.lease.map (·.leaseEpoch)

theorem leaseEpochOf_eq_some :
    s.leaseEpochOf id = some e ↔
      ∃ a l, s.attempts[id]? = some a ∧ a.lease = some l ∧ l.leaseEpoch = e := by
  unfold RunSnapshot.leaseEpochOf
  cases h : s.attempts[id]? with
  | none => simp
  | some a =>
    cases hl : a.lease with
    | none | some => simp [hl]

theorem Accepted.epoch_le (h : Accepted P s cs t) (hs : Reachable P s)
    (he : s.leaseEpochOf id = some e) :
    ∃ e', t.leaseEpochOf id = some e' ∧ e ≤ e' := by
  induction h generalizing e with
  | nil => exact ⟨e, he, UInt64.le_refl e⟩
  | @cons s u t c cs n ev hc hcs ih =>
    obtain ⟨a, l, ha, hl, rfl⟩ := leaseEpochOf_eq_some.mp he
    obtain ⟨a', l', ha', hl', hgrow⟩ := (applyCommand_step hc).epoch_grows hs.sound
      hs.events.fenced ha hl
    have hu : Reachable P { u with sequence := n, events := ev } := hs.accepted (.cons hc (.nil _))
    obtain ⟨e', he', hle⟩ := ih hu (leaseEpochOf_eq_some.mpr ⟨a', l', ha', hl', rfl⟩)
    refine ⟨e', he', ?_⟩
    rcases hgrow with ⟨heq, -⟩ | hlt
    · rw [← heq]
      exact hle
    · exact UInt64.le_trans (UInt64.le_of_lt hlt) hle

/-- The command presents `proof` for the attempt `id`. -/
def RunCommand.carries (id : AttemptId) (proof : LeaseProof) : RunCommand → Prop
  | .startAttempt c | .claimExecution c | .recordAttemptQuiescence c =>
    c.attemptId = id ∧ c.leaseProof = proof
  | .suspendAttempt c => c.attemptId = id ∧ c.leaseProof = proof
  | .resumeAttempt c => c.attemptId = id ∧ c.leaseProof = proof
  | .recordHeartbeat c => c.attemptId = id ∧ c.leaseProof = proof
  | .completeAttempt c => c.attemptId = id ∧ c.leaseProof = proof
  | .claimFinalization c => c.attemptId = id ∧ c.leaseProof = proof
  | .failAttempt c => c.attemptId = id ∧ c.leaseProof = some proof
  | .addTask c => ∃ d, c.binding.delegation = some d ∧ d.parentAttempt = id ∧
      d.parentLease = some proof
  | _ => False

theorem validateLeaseProof_stale {u : Unit}
    (hne : ∀ l, a.lease = some l → l.leaseEpoch ≠ proof.leaseEpoch) :
    validateLeaseProof a proof ≠ .ok u := by
  intro h
  obtain ⟨l, hl, hnames⟩ := validateLeaseProof_eq_ok.mp h
  exact hne l hl hnames.2.1

theorem stale_proof_rejected (ha : s.attempts[id]? = some a)
    (hne : ∀ l, a.lease = some l → l.leaseEpoch ≠ proof.leaseEpoch) (hc : c.carries id proof)
    (h : applyCommand P s c = .ok t) : t = s := by
  have stale : ∀ {u : Unit}, validateLeaseProof a proof ≠ .ok u := validateLeaseProof_stale hne
  cases c with
  | startAttempt | claimExecution =>
    obtain ⟨rfl, rfl⟩ := hc
    simp only [applyCommand, applyStartAttempt, applyClaimExecution, bind_eq_ok, findAttempt_eq_ok,
      ha, Option.some.injEq, exists_eq_left'] at h
    obtain ⟨-, -, -, -, u, hv, -⟩ := h
    exact absurd hv stale
  | recordAttemptQuiescence =>
    obtain ⟨rfl, rfl⟩ := hc
    simp only [applyCommand, applyAttemptQuiescence, bind_eq_ok, findAttempt_eq_ok, ha,
      Option.some.injEq, exists_eq_left'] at h
    obtain ⟨u, hv, -⟩ := h
    exact absurd hv stale
  | suspendAttempt | resumeAttempt | recordHeartbeat =>
    obtain ⟨rfl, rfl⟩ := hc
    simp only [applyCommand, suspend, resume, applyRecordHeartbeat, bind_eq_ok, findAttempt_eq_ok,
      ha, Option.some.injEq, exists_eq_left'] at h
    obtain ⟨-, -, u, hv, -⟩ := h
    exact absurd hv stale
  | failAttempt =>
    obtain ⟨rfl, hp⟩ := hc
    simp only [applyCommand, applyFailAttempt, bind_eq_ok, findAttempt_eq_ok, ha,
      Option.some.injEq, exists_eq_left', hp, validateGivenProof] at h
    obtain ⟨-, -, u, hv, -⟩ := h
    exact absurd hv stale
  | addTask =>
    obtain ⟨d, hd, rfl, hp⟩ := hc
    simp only [applyCommand, addTask, checkDelegation, hd, Option.bind_some, hp, Option.map_some,
      bind_eq_ok, findAttempt_eq_ok, ha, Option.some.injEq, exists_eq_left'] at h
    obtain ⟨-, -, -, ⟨u, hv, -⟩, -⟩ := h
    exact absurd hv stale
  | completeAttempt c =>
    obtain ⟨rfl, rfl⟩ := hc
    simp only [applyCommand, applyCompleteAttempt, bind_eq_ok, findAttempt_eq_ok, ha,
      Option.some.injEq, exists_eq_left'] at h
    obtain ⟨-, -, v, htry, h⟩ := h
    split at h
    · cases h
      rfl
    · rename_i hs
      simp only [tryAcceptCompletion, bind_eq_ok, findAttempt_eq_ok, ha, Option.some.injEq,
        exists_eq_left', hs, false_and, if_false] at htry
      obtain ⟨-, -, -, -, u, hv, -⟩ := htry
      exact absurd hv stale
  | claimFinalization c =>
    obtain ⟨rfl, rfl⟩ := hc
    simp only [applyCommand, applyClaimFinalization, bind_eq_ok, findTask_eq_ok, pure_eq_ok] at h
    obtain ⟨-, -, v, htry, task, htask, rfl⟩ := h
    simp only [tryClaimFinalization, bind_eq_ok, findTask_eq_ok, htask, Option.some.injEq,
      exists_eq_left'] at htry
    obtain ⟨-, -, -, -, htry⟩ := htry
    split at htry
    · rename_i hclaim
      rw [← hclaim, insert_eq_self s.tasks htask]
    · simp only [bind_eq_ok, findAttempt_eq_ok, ha, Option.some.injEq, exists_eq_left'] at htry
      obtain ⟨-, -, -, -, -, -, -, -, u, hv, -⟩ := htry
      exact absurd hv stale
  | _ => exact hc.elim

/-- The attempts and lease epochs for which the commands claim execution, in order. -/
def claimedEpochs (cs : List RunCommand) : List (AttemptId × UInt64) :=
  cs.filterMap fun
    | .claimExecution c => some (c.attemptId, c.leaseProof.leaseEpoch)
    | _ => none

theorem mem_claimedEpochs_cons (h : (id, e) ∈ claimedEpochs (c :: cs)) :
    (∃ d, c = .claimExecution d ∧ d.attemptId = id ∧ d.leaseProof.leaseEpoch = e) ∨
      (id, e) ∈ claimedEpochs cs := by
  simp only [claimedEpochs, List.mem_filterMap, List.mem_cons] at h ⊢
  obtain ⟨d, hd, hmatch⟩ := h
  rcases hd with rfl | hd
  · refine .inl ?_
    split at hmatch
    · simp only [Option.some.injEq, Prod.mk.injEq] at hmatch
      exact ⟨_, rfl, hmatch.1, hmatch.2⟩
    · cases hmatch
  · exact .inr ⟨d, hd, hmatch⟩

theorem applyClaimExecution_inv {c : StartAttempt} (h : applyClaimExecution s c = .ok t) :
    ∃ a l, s.attempts[c.attemptId]? = some a ∧ a.lease = some l ∧
      l.leaseEpoch = c.leaseProof.leaseEpoch ∧ a.executionClaimed = false ∧
      t.attempts[c.attemptId]? = some { a with executionClaimed := true, state := .running } := by
  simp only [applyClaimExecution, bind_eq_ok, findAttempt_eq_ok, refuseIf_eq_ok, pure_eq_ok,
    validateLeaseProof_eq_ok] at h
  obtain ⟨-, -, a, ha, -, hs, -, ⟨l, hl, hnames⟩, -, -, rfl⟩ := h
  refine ⟨a, l, ha, hl, hnames.2.1, ?_, ?_⟩
  · rw [not_or] at hs
    exact Bool.eq_false_iff.mpr hs.2
  · exact get_insert_self s.attempts _ _

theorem suspend_inv {c : SuspendAttempt} (h : suspend s c = .ok t) :
    ∃ e, s.leaseEpochOf c.attemptId = some e := by
  obtain ⟨a, task, lease, deadline, hspec⟩ := suspend_spec h
  exact ⟨_, leaseEpochOf_eq_some.mpr ⟨a, lease, hspec.attemptAt, hspec.leaseAt, rfl⟩⟩

theorem resume_inv {c : ResumeAttempt} (h : resume s c = .ok t) :
    ∃ a a' l, s.attempts[c.attemptId]? = some a ∧ a.lease = some l ∧ a.state = .suspended ∧
      t.attempts[c.attemptId]? = some a' ∧ a'.state = .starting := by
  obtain ⟨a, task, lease, parked, deadline, epoch, hspec⟩ := resume_spec h
  rw [hspec.result]
  exact ⟨a, _, lease, hspec.attemptAt, hspec.leaseAt, hspec.suspended,
    get_insert_self s.attempts _ _, rfl⟩

theorem Accepted.claim_above (h : Accepted P s cs t) (hs : Reachable P s)
    (ha : s.attempts[id]? = some a) (hl : a.lease = some l) (he : (id, e) ∈ claimedEpochs cs) :
    l.leaseEpoch ≤ e ∧ (a.executionClaimed = true → l.leaseEpoch < e) := by
  induction h generalizing a l with
  | nil => simp [claimedEpochs] at he
  | @cons s u t c cs n ev hc hcs ih =>
    rcases mem_claimedEpochs_cons he with ⟨d, rfl, rfl, rfl⟩ | he
    · obtain ⟨a₀, l₀, ha₀, hl₀, hepoch, hfree, -⟩ := applyClaimExecution_inv hc
      rw [ha] at ha₀
      cases ha₀
      rw [hl] at hl₀
      cases hl₀
      rw [hepoch, hfree]
      exact ⟨UInt64.le_refl _, fun hclaimed => by cases hclaimed⟩
    · obtain ⟨a', l', ha', hl', hgrow⟩ :=
        (applyCommand_step hc).epoch_grows hs.sound hs.events.fenced ha hl
      obtain ⟨hle, hlt⟩ := ih (hs.accepted (.cons hc (.nil _))) ha' hl' he
      rcases hgrow with ⟨heq, hkeep⟩ | hgreater
      · rw [← heq]
        exact ⟨hle, fun hclaimed => hlt (hkeep hclaimed)⟩
      · have hlt' := UInt64.lt_of_lt_of_le hgreater hle
        exact ⟨UInt64.le_of_lt hlt', fun _ => hlt'⟩

theorem Accepted.claims_nodup (h : Accepted P s cs t) (hs : Reachable P s) :
    (claimedEpochs cs).Nodup := by
  induction h with
  | nil => exact List.nodup_nil
  | @cons s u t c cs n ev hc hcs ih =>
    have hu : Reachable P { u with sequence := n, events := ev } := hs.accepted (.cons hc (.nil _))
    have hrest := ih hu
    cases c with
    | claimExecution =>
      obtain ⟨a, l, -, hl, hepoch, -, ha'⟩ := applyClaimExecution_inv hc
      refine List.nodup_cons.mpr ⟨fun hmem => ?_, hrest⟩
      have hlt := (hcs.claim_above hu ha' hl hmem).2 rfl
      rw [hepoch] at hlt
      exact UInt64.lt_irrefl _ hlt
    | _ => exact hrest

theorem Accepted.cons_inv (h : Accepted P s (c :: cs) t) :
    ∃ u, Accepted P s [c] u ∧ Accepted P u cs t := by
  cases h with
  | cons hc hcs => exact ⟨_, .cons hc (.nil _), hcs⟩

theorem Accepted.resume_grows {c : ResumeAttempt} (h : Accepted P s [.resumeAttempt c] t)
    (hs : Reachable P s) :
    ∃ e e', s.leaseEpochOf c.attemptId = some e ∧ t.leaseEpochOf c.attemptId = some e' ∧
      e < e' := by
  cases h with
  | cons hc hcs =>
    cases hcs with
    | nil =>
      obtain ⟨a, a', l, ha, hl, hsus, ha', hstart⟩ := resume_inv hc
      obtain ⟨l', hl', hlt⟩ :=
        (applyCommand_step hc).wake_grows hs.events.fenced ha ha' hsus hstart hl
      exact ⟨_, _, leaseEpochOf_eq_some.mpr ⟨a, l, ha, hl, rfl⟩,
        leaseEpochOf_eq_some.mpr ⟨a', l', ha', hl', rfl⟩, hlt⟩

theorem old_epoch_inert {e' : UInt64} (he : t.leaseEpochOf id = some e') (hlt : e < e')
    (hc : c.carries id proof) (hproof : proof.leaseEpoch ≤ e) (h : applyCommand P t c = .ok u)
    : u = t := by
  obtain ⟨a, l, ha, hl, rfl⟩ := leaseEpochOf_eq_some.mp he
  refine stale_proof_rejected ha (fun l₀ hl₀ heq => ?_) hc h
  rw [hl] at hl₀
  cases hl₀
  rw [← heq] at hproof
  exact UInt64.lt_irrefl _ (UInt64.lt_of_lt_of_le hlt hproof)

/-- Execution is claimed at most once for an attempt and an epoch. A resumption gives its attempt
an epoch greater than the one it had at any earlier suspension, and from then on a command with a
proof from before is rejected or changes nothing. -/
theorem execution_fencing {runId : RunId} {session : Option SessionId} {cs : List RunCommand}
    (h : Accepted P (emptySnapshot runId session) cs t) :
    (claimedEpochs cs).Nodup ∧ ∀ before c after, cs = before ++ .resumeAttempt c :: after →
      ∃ s u e e', Accepted P (emptySnapshot runId session) before s ∧
        Accepted P s [.resumeAttempt c] u ∧ Accepted P u after t ∧
        s.leaseEpochOf c.attemptId = some e ∧ u.leaseEpochOf c.attemptId = some e' ∧ e < e' ∧
        (∀ earlier d between, before = earlier ++ .suspendAttempt d :: between →
          d.attemptId = c.attemptId → ∃ r e₀, Accepted P (emptySnapshot runId session) earlier r ∧
            Accepted P r (.suspendAttempt d :: between) s ∧
            r.leaseEpochOf c.attemptId = some e₀ ∧ e₀ ≤ e) ∧
        ∀ d proof v, d.carries c.attemptId proof → proof.leaseEpoch ≤ e →
          applyCommand P t d = .ok v → v = t := by
  have hempty : Reachable P (emptySnapshot runId session) := (Accepted.nil _).reachable
  refine ⟨h.claims_nodup hempty, ?_⟩
  rintro before c after rfl
  obtain ⟨s, hbefore, hrest⟩ := Accepted.append_iff.mp h
  obtain ⟨u, hresume, hafter⟩ := hrest.cons_inv
  have hs : Reachable P s := hbefore.reachable
  obtain ⟨e, e', he, he', hlt⟩ := hresume.resume_grows hs
  refine ⟨s, u, e, e', hbefore, hresume, hafter, he, he', hlt, ?_, ?_⟩
  · rintro earlier d between rfl hid
    obtain ⟨r, hearlier, hsuspended⟩ := Accepted.append_iff.mp hbefore
    obtain ⟨e₀, he₀⟩ : ∃ e₀, r.leaseEpochOf c.attemptId = some e₀ := by
      cases hsuspended with
      | cons hd => exact hid ▸ suspend_inv hd
    obtain ⟨e₁, he₁, hle⟩ := hsuspended.epoch_le hearlier.reachable he₀
    rw [he] at he₁
    cases he₁
    exact ⟨r, e₀, hearlier, hsuspended, he₀, hle⟩
  · intro d proof v hd hproof hv
    obtain ⟨e₂, he₂, hle⟩ := hafter.epoch_le (hs.accepted hresume) he'
    exact old_epoch_inert he₂ (UInt64.lt_of_lt_of_le hlt hle) hd hproof hv

/-- A claimed attempt is parked and resumed: it claims again under the next epoch, and the first
proof is dead. -/
theorem execution_fencing_parked :
    ∃ t e e', Accepted platform (emptySnapshot "run" none)
        ([createRun, startRun, createAttempt "a", leaseAttempt "a" 0 100,
          startAttempt "a" 1, claimExecution "a" 1, suspendAttempt "a" 1] ++
          resumeAttempt "a" 1 :: [claimExecution "a" 2]) t ∧
      e < e' ∧ ∀ d proof v, d.carries "a" proof → proof.leaseEpoch ≤ e →
        applyCommand platform t d = .ok v → v = t := by
  have ht := ran_accepted ([createRun, startRun, createAttempt "a", leaseAttempt "a" 0 100,
    startAttempt "a" 1, claimExecution "a" 1, suspendAttempt "a" 1] ++
    resumeAttempt "a" 1 :: [claimExecution "a" 2]) rfl
  obtain ⟨s, u, e, e', -, -, -, -, -, hlt, -, hinert⟩ := (execution_fencing ht).2 _ _ _ rfl
  exact ⟨_, e, e', ht, hlt, hinert⟩

end Tetonic.Run
