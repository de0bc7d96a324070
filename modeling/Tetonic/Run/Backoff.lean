import Tetonic.Run.TaskLife
set_option autoImplicit false

/-! The time before which a failed task is not to be tried again. The failure handling writes it
and makes the task ready at once; `MarkTaskReady` reads it, and `CreateAttempt` does not. -/

namespace Tetonic.Run
open Lib

variable {P : Platform} {s t : RunSnapshot} {e : RunEvent} {k : TaskId}

/-- A `CreateAttempt` is stamped no earlier than the time its task is to be tried again. -/
def OnTime (s : RunSnapshot) (e : RunEvent) : Prop :=
  ∀ (c : CreateAttempt) (task : TaskRecord) (n : UInt64), e = .command (.createAttempt c) →
    s.tasks[c.taskId]? = some task → task.retry.nextRetryAt = some n → n ≤ c.envelope.timestamp

def RunEvent.FailsTask (e : RunEvent) (s : RunSnapshot) (k : TaskId) : Prop :=
  ∃ id a failure, e.Fails s id a failure ∧ a.taskId = k

theorem TaskStep.retry_eq {v v' : TaskView} (h : TaskStep s e k v v')
    (hfails : ∀ id a failure, e.Fails s id a failure → v.attempts[id]? ≠ some a) :
    v'.task.retry = v.task.retry := by
  cases h with
  | wait h =>
    obtain ⟨state, rfl⟩ := h.eq
    rfl
  | retry h ha | giveUp h ha => exact absurd ha (hfails _ _ _ h)
  | cancelRun =>
    simp only [cancelTaskRecord]
    split <;> rfl
  | _ => rfl

theorem Occurs.retry_eq (hsound : s.board.Sound) (h : Occurs P s e t) (hfails : ¬ e.FailsTask s k)
    {task : TaskRecord} (hk : s.tasks[k]? = some task) :
    ∃ task', t.tasks[k]? = some task' ∧ task'.retry = task.retry := by
  obtain ⟨u, sequence, events, hmoves, rfl⟩ := h.moves
  have hkept := hmoves.effect.task_kept (k := k) (by rw [hk]; rfl)
  obtain ⟨task', hk'⟩ := Option.isSome_iff_exists.mp hkept
  refine ⟨task', hk', ?_⟩
  obtain ⟨v, hv, hstep⟩ | ⟨hnone, -⟩ := hmoves.effect.view hsound (view_eq.mpr ⟨task', hk', rfl⟩)
  · obtain ⟨old, hold, rfl⟩ := view_eq.mp hv
    rw [hk] at hold
    cases hold
    refine hstep.retry_eq fun id a failure hf ha => hfails ⟨id, a, failure, hf, ?_⟩
    exact (attemptsOf_get.mp ha).2
  · rw [hk] at hnone
    cases hnone

section
variable {C : RunSnapshot → RunEvent → Prop} {es : List RunEvent}

/-- Until the task fails again, the time stands in it. -/
theorem Trace.retry_eq (hs : ReachableWhere P C s)
    (h : Trace P (fun u e => C u e ∧ ¬ e.FailsTask u k) s es t) {task : TaskRecord}
    (hk : s.tasks[k]? = some task) :
    ReachableWhere P C t ∧
      ∃ task', t.tasks[k]? = some task' ∧ task'.retry = task.retry := by
  induction h with
  | nil => exact ⟨hs, task, hk, rfl⟩
  | snoc _ hc ho ih =>
    obtain ⟨hreach, old, hold, hsame⟩ := ih
    obtain ⟨task', hk', hretry⟩ := ho.retry_eq hreach.sound hc.2 hold
    exact ⟨hreach.step hc.1 ho, task', hk', hretry.trans hsame⟩

end

variable {runId : RunId} {session : Option SessionId} {es : List RunEvent} {n : UInt64}

/-- Where every `CreateAttempt` is on time in the snapshot it meets, the time a failure wrote is
kept by all attempts made until the task fails again. -/
theorem backoff_kept (h : Trace P OnTime (emptySnapshot runId session) es s) {task : TaskRecord}
    (hk : s.tasks[k]? = some task) (hn : task.retry.nextRetryAt = some n) :
    ∀ (later : List RunEvent) (c : CreateAttempt) (t : RunSnapshot), c.taskId = k →
      Trace P (fun u e => OnTime u e ∧ ¬ e.FailsTask u k) s
        (later ++ [.command (.createAttempt c)]) t → n ≤ c.envelope.timestamp := by
  intro later c t hc hlater
  generalize hall : later ++ [RunEvent.command (.createAttempt c)] = all at hlater
  cases hlater with
  | nil => simp at hall
  | snoc hbefore htime ho =>
    obtain ⟨rfl, he⟩ := List.append_inj' hall rfl
    cases he
    obtain ⟨-, task', hk', hretry⟩ := hbefore.retry_eq h.reachable hk
    refine htime.1 c task' n rfl (hc ▸ hk') ?_
    rw [hretry, hn]

namespace Demo

def createAttemptAt (id : AttemptId) (now : UInt64) : CreateAttempt :=
  ⟨envelope ("attempt:" ++ id) now, "run", "task", id, none⟩

def failedOnce : List RunCommand :=
  [createRun, startRun, createAttempt "a", leaseAttempt "a" 1 500,
    failAttempt "a" .transientTransport]

def onTimeTest (s : RunSnapshot) : RunCommand → Bool
  | .createAttempt c => (s.tasks[c.taskId]?.bind (·.retry.nextRetryAt)).all fun n =>
      decide (n ≤ c.envelope.timestamp)
  | _ => true

theorem onTimeTest_onTime (s : RunSnapshot) (c : RunCommand) (h : onTimeTest s c = true) :
    OnTime s (.command c) := by
  intro c' task n hc htask hn
  cases hc
  simpa [onTimeTest, htask, hn] using h

def unfailingTest (s : RunSnapshot) (c : RunCommand) : Bool :=
  onTimeTest s c && (RunEvent.command c).failure.isNone

theorem unfailingTest_onTime (k : TaskId) (s : RunSnapshot) (c : RunCommand)
    (h : unfailingTest s c = true) :
    OnTime s (.command c) ∧ ¬ (RunEvent.command c).FailsTask s k := by
  obtain ⟨htime, hnone⟩ := Bool.and_eq_true_iff.mp h
  refine ⟨onTimeTest_onTime s c htime, ?_⟩
  rintro ⟨id, a, failure, hfails, -⟩
  rw [hfails.event] at hnone
  cases hnone

def failedRun : RunSnapshot := (ran failedOnce).toOption.get rfl

def retries : List RunCommand := [Demo.addTask "other", .createAttempt (createAttemptAt "b" 9)]

def retriedRun : RunSnapshot := (runCommands platform failedRun retries).toOption.get rfl

end Demo
open Demo

theorem backoff_kept_default :
    ∃ es s task c t, Trace platform OnTime (emptySnapshot "run" none) es s ∧
      s.tasks["task"]? = some task ∧ task.retry.nextRetryAt = some 8 ∧
      Trace platform (fun u e => OnTime u e ∧ ¬ e.FailsTask u "task") s
        [.command (Demo.addTask "other"), .command (.createAttempt c)] t ∧
      8 ≤ c.envelope.timestamp := by
  have hs : Trace platform OnTime _ _ failedRun :=
    ran_trace onTimeTest_onTime failedOnce (by decide +kernel) rfl
  have hmeets : meets platform unfailingTest failedRun retries = true := by decide +kernel
  have ht : Trace platform (fun u e => OnTime u e ∧ ¬ e.FailsTask u "task") failedRun
      [.command (Demo.addTask "other"), .command (.createAttempt (createAttemptAt "b" 9))]
      retriedRun :=
    meets_trace (unfailingTest_onTime "task") hmeets rfl
  exact ⟨_, failedRun, _, _, retriedRun, hs, rfl, rfl, ht,
    backoff_kept hs rfl rfl [_] (createAttemptAt "b" 9) retriedRun rfl ht⟩

/-- The failure at 7 puts the next attempt off to 8, and the next attempt is created at 7. -/
theorem backoff_ignored :
    ∃ s task t, Accepted platform (emptySnapshot "run" none) failedOnce s ∧
      s.tasks["task"]? = some task ∧ task.retry.nextRetryAt = some 8 ∧
      applyCommand platform s (.createAttempt (createAttemptAt "b" 7)) = .ok t ∧
      ¬ 8 ≤ (createAttemptAt "b" 7).envelope.timestamp := by
  exact ⟨_, _, _, ran_accepted failedOnce rfl, rfl, rfl, rfl, by decide⟩

end Tetonic.Run
