import Tetonic.Run.TaskLife
set_option autoImplicit false

/-! The winner of a task: its one succeeded attempt. -/

namespace Tetonic.Run
open Lib OrdMap Demo

variable {s : RunSnapshot} {e : RunEvent} {k : TaskId} {v v' : TaskView} {id : AttemptId}
  {a a' : AttemptRecord} {task : TaskRecord}

/-- The winner is the attempt that has succeeded. -/
def TaskView.WinnerAgrees (v : TaskView) : Prop :=
  ∀ id, v.task.winningAttempt = some id ↔ ∃ a, v.attempts[id]? = some a ∧ a.state = .succeeded

theorem TaskView.WinnerAgrees.insert (h : v.WinnerAgrees)
    (hs : a'.state = .succeeded ↔ ∃ a, v.attempts[id]? = some a ∧ a.state = .succeeded)
    (hw : task.winningAttempt = v.task.winningAttempt) :
    TaskView.WinnerAgrees { v with attempts := v.attempts.insert id a', task } := by
  intro j
  rw [hw, h j]
  by_cases hj : id = j
  · subst hj
    simp [hs]
  · simp [get_insert_ne _ _ hj]

theorem TaskView.WinnerAgrees.map (h : v.WinnerAgrees)
    (f : AttemptId → AttemptRecord → AttemptRecord)
    (hs : ∀ k a, (f k a).state = .succeeded ↔ a.state = .succeeded)
    (hw : task.winningAttempt = v.task.winningAttempt) :
    TaskView.WinnerAgrees { v with attempts := v.attempts.map f, task } := by
  intro j
  rw [hw, h j]
  cases hj : v.attempts[j]? with
  | none => simp [hj]
  | some => simp [hj, hs]

theorem supersede_succeeded (taskId : TaskId) (winner k : AttemptId) (a : AttemptRecord) :
    (supersede taskId winner k a).state = .succeeded ↔ a.state = .succeeded := by
  unfold supersede
  split
  · rename_i hopen
    refine ⟨(fun h => by cases h), fun h => ?_⟩
    rw [h] at hopen
    cases hopen.2.2
  · exact Iff.rfl

theorem cancelAttempt_succeeded (a : AttemptRecord) :
    (cancelAttempt a).state = .succeeded ↔ a.state = .succeeded := by
  unfold cancelAttempt
  split
  · rename_i hc
    refine ⟨(fun h => by cases h), fun h => ?_⟩
    rw [h] at hc
    cases hc
  · exact Iff.rfl

theorem TaskView.WinnerAgrees.complete (h : v.WinnerAgrees) (hsucceeded : a'.state = .succeeded)
    (hwin : ∀ w, v.task.winningAttempt = some w → w = id) (hw : task.winningAttempt = some id) :
    TaskView.WinnerAgrees { v with attempts := v.attempts.insert id a', task } := by
  intro j
  rw [hw]
  by_cases hj : id = j
  · subst hj
    simp [hsucceeded]
  · -- Nobody else had succeeded.
    simp only [Option.some.injEq, hj, false_iff, get_insert_ne _ _ hj]
    intro hsucc
    exact hj (hwin j ((h j).mpr hsucc)).symm

theorem TaskView.WinnerAgrees.fails (h : v.WinnerAgrees) {failure : FailureClass}
    (hfails : e.Fails s id a failure) (ha : v.attempts[id]? = some a)
    (hend : a'.state.failedEnd = true)
    (hw : task.winningAttempt = (e.failing v.task).winningAttempt) :
    TaskView.WinnerAgrees { v with attempts := v.attempts.insert id a', task } := by
  have hne : a'.state ≠ .succeeded := by
    intro hsucceeded
    rw [hsucceeded] at hend
    cases hend
  have hstate := hfails.state
  unfold RunEvent.failing at hw
  split at hstate
  · rename_i hrejects
    rw [if_pos hrejects] at hw
    have hid := (h id).mpr ⟨a, ha, hstate⟩
    intro j
    rw [hw]
    by_cases hj : id = j
    · subst hj
      simp [hne]
    · simp only [reduceCtorEq, false_iff, get_insert_ne _ _ hj]
      intro hsucc
      have hwj := (h j).mpr hsucc
      rw [hid] at hwj
      exact hj (Option.some.inj hwj)
  · rename_i hrejects
    rw [if_neg hrejects] at hw
    refine h.insert ⟨fun hs => absurd hs hne, ?_⟩ hw
    rintro ⟨r, hr, hs⟩
    rw [ha] at hr
    cases hr
    rw [hs] at hstate
    cases hstate

theorem TaskStep.winnerAgrees (hw : v.WinnerAgrees) (h : TaskStep s e k v v') :
    v'.WinnerAgrees := by
  cases h with
  | wait h =>
    intro j
    rw [h.idle.winningAttempt]
    exact hw j
  | note | claimFinalization | accept => exact hw
  | create he hstate hcount hopen hid hnew => exact hw.insert (by simp [hid, hnew.state]) rfl
  | adjust ha hstate =>
    refine hw.insert ?_ rfl
    obtain hsame | ⟨hopen, hopen'⟩ := hstate
    · simp [ha, hsame]
    · rw [ha]
      constructor
      · intro hs
        rw [hs] at hopen'
        cases hopen'
      · rintro ⟨r, hr, hs⟩
        cases hr
        rw [hs] at hopen
        cases hopen
  | claimExecution he ha hs hs' | suspend ha hs hs' | resume ha hs hs' =>
    exact hw.insert (by simp [ha, hs, hs']) rfl
  | complete he ha hfly hsucceeded hcanceled hwin =>
    exact (hw.complete hsucceeded hwin rfl).map _ (supersede_succeeded _ _) rfl
  | retry hfails ha hend hretry h => exact hw.fails hfails ha hend h.idle.winningAttempt
  | giveUp hfails ha hend => exact hw.fails hfails ha hend rfl
  | cancelTask => exact hw.map _ (fun _ => cancelAttempt_succeeded) rfl
  | cancelRun =>
    refine hw.map _ (fun _ => cancelAttempt_succeeded) ?_
    unfold cancelTaskRecord
    split <;> rfl

theorem ReachableWhere.winnerAgrees {P : Platform} {C : RunSnapshot → RunEvent → Prop}
    (h : ReachableWhere P C s) (hv : s.view k = some v) : v.WinnerAgrees := by
  refine h.task_invariant ?_ (fun _ _ _ hI hstep => hstep.winnerAgrees hI) hv
  intro k v hn
  obtain ⟨⟨binding, hnew⟩, hnone⟩ := hn
  intro id
  rw [hnew.idle.winningAttempt, hnone]
  simp [newTask]

/-- At every moment of every run, a task has at most one succeeded attempt, and its winner is
that attempt. -/
theorem winner_iff_succeeded {P : Platform} {s : RunSnapshot} (h : Reachable P s) {taskId : TaskId}
    {task : TaskRecord} (htask : s.tasks[taskId]? = some task) :
    (∀ (i j : AttemptId) (a b : AttemptRecord), s.attempts[i]? = some a → s.attempts[j]? = some b →
      a.taskId = taskId → b.taskId = taskId → a.state = .succeeded → b.state = .succeeded → i = j) ∧
    ∀ id, task.winningAttempt = some id ↔
      ∃ a, s.attempts[id]? = some a ∧ a.taskId = taskId ∧ a.state = .succeeded := by
  have hw : ∀ id, task.winningAttempt = some id ↔
      ∃ a, s.attempts[id]? = some a ∧ a.taskId = taskId ∧ a.state = .succeeded := by
    intro id
    rw [h.events.winnerAgrees (view_eq.mpr ⟨task, htask, rfl⟩) id]
    simp only [attemptsOf_get, and_assoc]
  refine ⟨fun i j a b ha hb hat hbt has hbs => ?_, hw⟩
  have hi := (hw i).mpr ⟨a, ha, hat, has⟩
  have hj := (hw j).mpr ⟨b, hb, hbt, hbs⟩
  rw [hi] at hj
  exact Option.some.inj hj

/-- Two attempts race, and the one that completes has won. -/
theorem winner_iff_succeeded_race :
    ∃ s task, Reachable platform s ∧ s.tasks["task"]? = some task ∧ task.winningAttempt = some "a" ∧
      ∃ a, s.attempts["a"]? = some a ∧ a.taskId = "task" ∧ a.state = .succeeded := by
  have hs := ran_reachable [createRun, startRun, createAttempt "a", createAttempt "b",
    leaseAttempt "a" 0 100, leaseAttempt "b" 0 100, startAttempt "a" 1, claimExecution "a" 1,
    completeAttempt "a" 1] rfl
  exact ⟨_, _, hs, rfl, rfl, ((winner_iff_succeeded hs rfl).2 "a").mp rfl⟩

end Tetonic.Run
