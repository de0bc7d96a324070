import Tetonic.Run.Refinement
import Mathlib.Logic.Relation
set_option autoImplicit false

/-! The life of an attempt. Whatever a board step does, each attempt stays or takes one
move of `AttemptMove`, and a new attempt starts fresh; tasks are never removed and a
finalization claim is never given up. -/

namespace Tetonic.Run
open Lib OrdMap

inductive AttemptMove (a : AttemptRecord) : AttemptRecord → Prop where
  | stay : AttemptMove a a
  | lease {l : AttemptLease} (hs : a.state = .created) :
      AttemptMove a { a with state := .leased, lease := some l }
  | start (hs : a.state = .leased) : AttemptMove a { a with state := .starting }
  | beat {l l' : AttemptLease} (hs : a.state.inFlight = true) (hl : a.lease = some l)
      (hf : l.SameFence l') : AttemptMove a { a with lease := some l' }
  | quiesce (hs : isTerminalAttempt a.state = true) :
      AttemptMove a { a with executionQuiesced := true }
  | claim (hs : a.state = .starting) (hc : a.executionClaimed = false) :
      AttemptMove a { a with executionClaimed := true, state := .running }
  | park {p : AttemptSuspension} (hs : a.state = .running) (hc : a.executionClaimed = true) :
      AttemptMove a
        { a with state := .suspended, executionQuiesced := true, suspension := some p }
  | wake {l l' : AttemptLease} (hs : a.state = .suspended) (hl : a.lease = some l) :
      AttemptMove a { a with
        state := .starting
        executionClaimed := false
        executionQuiesced := false
        suspension := none
        lease := some l' }
  | win {digest : Option String} {workspace : Option WorkspaceVersion}
      (hs : a.state.inFlight = true) :
      AttemptMove a
        { a with state := .succeeded, resultDigest := digest, workspaceVersion := workspace }
  | lose (hs : a.state.isOpen = true) : AttemptMove a { a with state := .superseded }
  | fail {st : AttemptState} {failure : Option FailureClass} {reason : Option String}
      (hs : a.state.inFlight = true) (hst : st.failedEnd = true) :
      AttemptMove a { a with state := st, failureClass := failure, failureReason := reason }
  | reject {failure : Option FailureClass} {reason : Option String} (hs : a.state = .succeeded) :
      AttemptMove a { a with state := .failed, failureClass := failure, failureReason := reason }
  | cancel (hs : a.state.cancelable = true) :
      AttemptMove a { a with state := .canceled, failureClass := some .canceled }

/-- The same attempts, each after at most one move. -/
structure AttemptsMove (m m' : OrdMap AttemptId AttemptRecord) : Prop where
  missing : ∀ k : AttemptId, m[k]? = none → m'[k]? = none
  present : ∀ (k : AttemptId) (a : AttemptRecord), m[k]? = some a →
    ∃ a', m'[k]? = some a' ∧ AttemptMove a a'

theorem AttemptsMove.refl (m : OrdMap AttemptId AttemptRecord) : AttemptsMove m m :=
  ⟨fun _ h => h, fun _ a h => ⟨a, h, .stay⟩⟩

variable {id : AttemptId} {m : OrdMap AttemptId AttemptRecord} {a' a : AttemptRecord}

theorem AttemptsMove.insert (ha : m[id]? = some a) (hm : AttemptMove a a') :
    AttemptsMove m (m.insert id a') where
  missing _ := insert_missing ha
  present _ _ := insert_present (fun _ => .stay) ha hm

theorem AttemptsMove.map (f : AttemptId → AttemptRecord → AttemptRecord)
    (hf : ∀ k a, AttemptMove a (f k a)) :
    AttemptsMove m (m.map f) where
  missing k hk := by rw [get_map, hk]; rfl
  present k a hk := ⟨f k a, by rw [get_map, hk]; rfl, hf k a⟩

variable {k : AttemptId}

theorem AttemptsMove.before {m' : OrdMap AttemptId AttemptRecord} (h : AttemptsMove m m')
    (hk : m'[k]? = some a') :
    ∃ a, m[k]? = some a ∧ AttemptMove a a' :=
  get_before h.missing h.present hk

theorem cancelAttempt_move (a : AttemptRecord) : AttemptMove a (cancelAttempt a) := by
  unfold cancelAttempt
  split
  · exact .cancel ‹_›
  · exact .stay

theorem completeAttempt_moves {digest : Option String} {workspace : Option WorkspaceVersion}
    (ha : m[id]? = some a) (hs : a.state.inFlight = true) :
    AttemptsMove m ((m.insert id { a with
      state := .succeeded
      resultDigest := digest
      workspaceVersion := workspace }).map (supersede a.taskId id)) where
  missing k hk := by
    rw [get_map, insert_missing ha hk]
    rfl
  present k r hk := by
    by_cases hid : id = k
    · subst hid
      rw [ha] at hk
      cases hk
      refine ⟨_, by rw [get_map, get_insert_self]; rfl, ?_⟩
      simp only [supersede, ne_eq, not_true_eq_false, false_and, and_false, if_false]
      exact .win hs
    · refine ⟨_, by rw [get_map, get_insert_ne m _ hid, hk]; rfl, ?_⟩
      unfold supersede
      split
      · rename_i hopen
        exact .lose hopen.2.2
      · exact .stay

variable {b b' : Board}

theorem BoardStep.attempts_move (h : BoardStep b b') :
    AttemptsMove b.attempts b'.attempts ∨
      ∃ (id : AttemptId) (taskId : TaskId) (a : AttemptRecord) (task : TaskRecord),
        b.attempts[id]? = none ∧ b.tasks[taskId]? = some task ∧ a.Fresh id taskId ∧
          b'.attempts = b.attempts.insert id a := by
  cases h with
  | idle | addTask | claimFinalization | acceptArtifact => exact .inl (.refl _)
  | createAttempt htask hready hst hid hnew => exact .inr ⟨_, _, _, _, hid, htask, hnew, rfl⟩
  | leaseAttempt ha hs => exact .inl (.insert ha (.lease hs))
  | startAttempt ha hs => exact .inl (.insert ha (.start hs))
  | heartbeat ha hs hl hf => exact .inl (.insert ha (.beat hs hl hf))
  | quiesce ha hs => exact .inl (.insert ha (.quiesce hs))
  | claimExecution ha hs hc => exact .inl (.insert ha (.claim hs hc))
  | suspend ha hs hc => exact .inl (.insert ha (.park hs hc))
  | resume ha hs hl => exact .inl (.insert ha (.wake hs hl))
  | completeAttempt ha hs => exact .inl (completeAttempt_moves ha hs)
  | failAttempt ha hs hst => exact .inl (.insert ha (.fail hs hst))
  | rejectArtifact ha hs => exact .inl (.insert ha (.reject hs))
  | cancelTask =>
    refine .inl (.map _ fun k a => ?_)
    split
    · exact cancelAttempt_move a
    · exact .stay
  | cancelRun => exact .inl (.map _ fun _ a => cancelAttempt_move a)

/-- A binding but for its deadline, which a resumed attempt moves. -/
def TaskInputBinding.undated (b : TaskInputBinding) : TaskInputBinding :=
  { b with deadline := none }

/-- What no step takes from a task: its name, its binding, and a finalization claim once made. -/
structure TaskRecord.Keeps (before after : TaskRecord) : Prop where
  taskId : after.taskId = before.taskId
  binding : after.binding.undated = before.binding.undated
  claim : ∀ a, before.finalizationClaim = some a → after.finalizationClaim = some a

variable {after : TaskRecord}

theorem TaskRecord.Idle.keeps {before : TaskRecord} (h : before.Idle after) : before.Keeps after :=
  ⟨h.taskId, congrArg _ h.binding, fun _ ha => h.finalizationClaim.trans ha⟩

theorem TaskRecord.Keeps.trans {a b c : TaskRecord} (hab : a.Keeps b) (hbc : b.Keeps c) :
    a.Keeps c :=
  ⟨hbc.taskId.trans hab.taskId, hbc.binding.trans hab.binding,
    fun _ h => hbc.claim _ (hab.claim _ h)⟩

theorem TaskRecord.Fresh.idle {id : TaskId} {before : TaskRecord} (h : before.Fresh id)
    (hi : before.Idle after) : after.Fresh id :=
  ⟨hi.taskId.trans h.taskId, hi.activeAttempt.trans h.activeAttempt,
    hi.winningAttempt.trans h.winningAttempt, hi.finalizationClaim.trans h.finalizationClaim⟩

/-- The tasks of `m` go on in `m'`, and the others of `m'` are new. -/
structure TasksKeep (m m' : OrdMap TaskId TaskRecord) : Prop where
  present : ∀ (k : TaskId) (task : TaskRecord), m[k]? = some task →
    ∃ task', m'[k]? = some task' ∧ task.Keeps task'
  fresh : ∀ (k : TaskId) (task' : TaskRecord), m[k]? = none → m'[k]? = some task' → task'.Fresh k

theorem TasksKeep.refl (m : OrdMap TaskId TaskRecord) : TasksKeep m m where
  present _ task h := ⟨task, h, ⟨rfl, rfl, fun _ ha => ha⟩⟩
  fresh _ _ hn hs := by rw [hn] at hs; cases hs

variable {task : TaskRecord}

section
variable {m : OrdMap TaskId TaskRecord}

theorem TasksKeep.insert {k : TaskId} {task' : TaskRecord}
    (hk : m[k]? = some task) (hkeep : task.Keeps task') : TasksKeep m (m.insert k task') where
  present _ _ := insert_present (fun _ => ⟨rfl, rfl, fun _ h => h⟩) hk hkeep
  fresh a after hn hs := by
    rw [insert_missing hk hn] at hs
    cases hs

theorem TasksKeep.add {k : TaskId} (hk : m[k]? = none)
    (hnew : task.Fresh k) : TasksKeep m (m.insert k task) where
  present a before ha := by
    rw [get_insert_ne m task (ne_of_get ha hk).symm]
    exact ⟨before, ha, ⟨rfl, rfl, fun _ h => h⟩⟩
  fresh a after hn hs := by
    by_cases hka : k = a
    · subst hka
      rw [get_insert_self] at hs
      cases hs
      exact hnew
    · rw [get_insert_ne m task hka, hn] at hs
      cases hs

theorem TasksKeep.map (f : TaskRecord → TaskRecord)
    (hf : ∀ task : TaskRecord, task.Keeps (f task)) : TasksKeep m (m.map fun _ t => f t) where
  present k task hk := ⟨f task, by rw [get_map, hk]; rfl, hf task⟩
  fresh k task' hn hs := by
    rw [get_map, hn] at hs
    cases hs

end

theorem TasksKeep.idle {m m₁ m' : OrdMap TaskId TaskRecord} (h : TasksKeep m m₁)
    (hi : TasksIdle m₁ m') : TasksKeep m m' where
  present k task hk := by
    obtain ⟨task₁, hk₁, hkeep⟩ := h.present k task hk
    obtain ⟨task', hk', hidle⟩ := hi.present k task₁ hk₁
    exact ⟨task', hk', hkeep.trans hidle.keeps⟩
  fresh k task' hn hs := by
    obtain ⟨task₁, hk₁, hidle⟩ := hi.before hs
    exact (h.fresh k task₁ hn hk₁).idle hidle

theorem cancelTaskRecord_keeps (task : TaskRecord) : task.Keeps (cancelTaskRecord task) := by
  unfold cancelTaskRecord
  split
  all_goals exact ⟨rfl, rfl, fun _ h => h⟩

theorem BoardStep.tasks_keep (h : BoardStep b b') : TasksKeep b.tasks b'.tasks := by
  cases h with
  | idle h => exact (TasksKeep.refl _).idle h
  | addTask hid hnew h => exact (TasksKeep.add hid hnew).idle h
  | createAttempt htask | suspend ha hs hc hsize htask | resume ha hs hl hsize htask
  | completeAttempt ha hs htask | cancelTask htask | acceptArtifact ha hs htask =>
    exact .insert htask ⟨rfl, rfl, fun _ h => h⟩
  | leaseAttempt | startAttempt | heartbeat | quiesce => exact .refl _
  | @claimExecution id a =>
    cases htask : b.tasks[a.taskId]? with
    | none =>
      refine ⟨fun k task hk => ⟨task, ?_, ⟨rfl, rfl, fun _ h => h⟩⟩, fun k task' hn hs => ?_⟩
      · simp [get_modify, (ne_of_get hk htask).symm, hk]
      · simp [get_modify, hn] at hs
    | some =>
      simp only [modify_eq_insert _ _ htask]
      exact .insert htask ⟨rfl, rfl, fun _ h => h⟩
  | claimFinalization htask hclaim =>
    refine .insert htask ⟨rfl, rfl, fun a ha => ?_⟩
    rcases hclaim with hc | hc
    · rw [hc] at ha
      cases ha
    · exact hc.symm.trans ha
  | failAttempt ha hs hst htask htst h | rejectArtifact ha hs htask htst h =>
    refine TasksKeep.idle (.insert htask ?_) h
    exact ⟨rfl, rfl, fun _ h => h⟩
  | cancelRun => exact .map _ cancelTaskRecord_keeps

/-- An open attempt's worker has not reported that it stopped, an open attempt holds a lease exactly
when it is in flight, and it has no saved suspension. -/
structure AttemptRecord.Sound (a : AttemptRecord) : Prop where
  notQuiesced : a.state.isOpen = true → a.executionQuiesced = false
  leased : a.state.inFlight = true → a.lease.isSome = true
  unleased : a.state = .created → a.lease = none
  awake : a.state.isOpen = true → a.suspension = none

theorem AttemptRecord.Fresh.sound {taskId : TaskId} (h : a.Fresh id taskId) : a.Sound :=
  ⟨fun _ => h.executionQuiesced, (fun hs => by rw [h.state] at hs; cases hs), fun _ => h.lease,
    fun _ => h.suspension⟩

theorem AttemptState.isOpen_of_failedEnd {st : AttemptState} (h : st.failedEnd = true) :
    st.isOpen = false := by
  revert h
  cases st <;> decide

theorem AttemptMove.sound (h : AttemptMove a a') (hs : a.Sound) : a'.Sound := by
  have closed : ∀ {r : AttemptRecord}, r.state.isOpen = false → r.Sound := by
    intro r hr
    refine ⟨fun ho => ?_, fun hf => ?_, fun hc => ?_, fun ho => ?_⟩
    · rw [hr] at ho
      cases ho
    · rw [AttemptState.inFlight_open hf] at hr
      cases hr
    · rw [hc] at hr
      cases hr
    · rw [hr] at ho
      cases ho
  have flying : ∀ {r : AttemptRecord}, r.state.inFlight = true → r.executionQuiesced = false →
      r.lease.isSome = true → r.suspension = none → r.Sound := by
    intro r hf hq hl hn
    refine ⟨fun _ => hq, fun _ => hl, fun hc => ?_, fun _ => hn⟩
    rw [hc] at hf
    cases hf
  cases h with
  | stay => exact hs
  | lease hst =>
    exact flying rfl (hs.notQuiesced (by rw [hst]; rfl)) rfl (hs.awake (by rw [hst]; rfl))
  | start hst | claim hst =>
    exact flying rfl (hs.notQuiesced (by rw [hst]; rfl)) (hs.leased (by rw [hst]; rfl))
      (hs.awake (by rw [hst]; rfl))
  | beat hst =>
    have hopen := AttemptState.inFlight_open hst
    exact flying hst (hs.notQuiesced hopen) rfl (hs.awake hopen)
  | quiesce hst =>
    refine closed ?_
    by_contra ho
    rw [AttemptState.isOpen_not_terminal (by simpa using ho)] at hst
    cases hst
  | park | win | lose | reject | cancel => exact closed rfl
  | wake => exact flying rfl rfl rfl rfl
  | fail hst hend => exact closed (AttemptState.isOpen_of_failedEnd hend)

theorem AttemptMove.ids (h : AttemptMove a a') :
    a'.attemptId = a.attemptId ∧ a'.taskId = a.taskId := by
  cases h <;> exact ⟨rfl, rfl⟩

structure Board.Sound (b : Board) : Prop where
  taskKey : ∀ (k : TaskId) (task : TaskRecord), b.tasks[k]? = some task → task.taskId = k
  attemptKey : ∀ (k : AttemptId) (a : AttemptRecord), b.attempts[k]? = some a → a.attemptId = k
  attemptTask : ∀ (k : AttemptId) (a : AttemptRecord), b.attempts[k]? = some a →
    ∃ task, b.tasks[a.taskId]? = some task
  attempt : ∀ (k : AttemptId) (a : AttemptRecord), b.attempts[k]? = some a → a.Sound

theorem Board.Sound.empty : Board.Sound ⟨∅, ∅, 0⟩ := by
  refine ⟨?_, ?_, ?_, ?_⟩
  all_goals
    intro k r hr
    simp at hr

theorem BoardStep.attempt_before (h : BoardStep b b') (hk : b'.attempts[k]? = some a') :
    (∃ a, b.attempts[k]? = some a ∧ AttemptMove a a') ∨
      b.attempts[k]? = none ∧ a'.Fresh k a'.taskId ∧ ∃ task, b.tasks[a'.taskId]? = some task := by
  rcases h.attempts_move with hm | ⟨id, taskId, a, task, hid, htask, hnew, heq⟩
  · exact .inl (hm.before hk)
  · rw [heq, get_insert] at hk
    split at hk
    · rename_i hik
      subst hik
      cases hk
      have ht := hnew.taskId
      rw [ht]
      exact .inr ⟨hid, hnew, task, htask⟩
    · exact .inl ⟨a', hk, .stay⟩

theorem BoardStep.attempt_after (h : BoardStep b b') (hk : b.attempts[k]? = some a) :
    ∃ a', b'.attempts[k]? = some a' ∧ AttemptMove a a' := by
  rcases h.attempts_move with hm | ⟨id, taskId, r, task, hid, htask, hnew, heq⟩
  · exact hm.present k a hk
  · exact ⟨a, by rw [heq, get_insert_ne _ _ (ne_of_get hk hid).symm, hk], .stay⟩

theorem BoardStep.sound (h : BoardStep b b') (hb : b.Sound) : b'.Sound where
  taskKey k task' hk := by
    cases hm : b.tasks[k]? with
    | none => exact (h.tasks_keep.fresh k task' hm hk).taskId
    | some task =>
      obtain ⟨task'', hk', hkeep⟩ := h.tasks_keep.present k task hm
      rw [hk] at hk'
      cases hk'
      exact hkeep.taskId.trans (hb.taskKey k task hm)
  attemptKey k a' hk := by
    rcases h.attempt_before hk with ⟨a, ha, hm⟩ | ⟨-, hnew, -⟩
    · exact hm.ids.1.trans (hb.attemptKey k a ha)
    · exact hnew.attemptId
  attemptTask k a' hk := by
    have hbefore : ∃ task, b.tasks[a'.taskId]? = some task := by
      rcases h.attempt_before hk with ⟨a, ha, hm⟩ | ⟨-, -, htask⟩
      · rw [hm.ids.2]
        exact hb.attemptTask k a ha
      · exact htask
    obtain ⟨task, htask⟩ := hbefore
    obtain ⟨task', htask', -⟩ := h.tasks_keep.present _ task htask
    exact ⟨task', htask'⟩
  attempt k a' hk := by
    rcases h.attempt_before hk with ⟨a, ha, hm⟩ | ⟨-, hnew, -⟩
    · exact hm.sound (hb.attempt k a ha)
    · exact hnew.sound

end Tetonic.Run
