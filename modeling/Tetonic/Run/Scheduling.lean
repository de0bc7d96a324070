import Tetonic.Run.Events
set_option autoImplicit false

/-! Scheduling safety of the task graph. `recompute_blocked_ready` makes every ready task one whose
dependencies are satisfied, but not every command that changes the state of a task runs it:
`ClaimExecution` makes the task of the attempt running, finished or not, and `CancelTask` takes a
failed task to `Canceled`, which satisfies no fallback edge. -/

namespace Tetonic.Run
open Lib

variable {P : Platform}

def RunSnapshot.ReadySatisfied (s : RunSnapshot) : Prop :=
  ∀ (k : TaskId) (task : TaskRecord), s.tasks[k]? = some task → task.state = .ready →
    dependenciesSatisfied s k = true

/-- A ready task depends on `d` by the policy `p`. -/
def ReadyDependent (s : RunSnapshot) (d : TaskId) (p : DependencyPolicy) : Prop :=
  ∃ (k : TaskId) (task : TaskRecord), s.tasks[k]? = some task ∧ task.state = .ready ∧
    ⟨d, p⟩ ∈ s.dependencies[k]?.getD []

theorem recomputeBlockedReady_readySatisfied (s : RunSnapshot) :
    (recomputeBlockedReady s).ReadySatisfied := by
  intro k task hk hready
  rw [recomputeBlockedReady_satisfied]
  rw [recomputeBlockedReady_get, Option.map_eq_some_iff] at hk
  obtain ⟨old, -, rfl⟩ := hk
  unfold TaskRecord.recomputed at hready
  split at hready
  · cases hsat : dependenciesSatisfied s k with
    | true => rfl
    | false =>
      rw [hsat] at hready
      cases hready
  · rename_i hidle
    rw [hready] at hidle
    exact absurd rfl hidle

section
variable {s t : RunSnapshot} {d : TaskId} {old new : TaskRecord}

theorem dependenciesSatisfied_update (hdeps : t.dependencies = s.dependencies)
    (htasks : t.tasks = s.tasks.insert d new) (hold : s.tasks[d]? = some old) {k : TaskId}
    (hsat : dependenciesSatisfied s k = true)
    (hkeep : ∀ p, ⟨d, p⟩ ∈ s.dependencies[k]?.getD [] → policySatisfied p old.state = true →
      policySatisfied p new.state = true) : dependenciesSatisfied t k = true := by
  rw [dependenciesSatisfied_iff] at hsat ⊢
  intro dep hdep
  rw [hdeps] at hdep
  have hbefore := hsat dep hdep
  rw [dependencySatisfied_eq] at hbefore ⊢
  rw [htasks, OrdMap.get_insert]
  split
  · rename_i hd
    subst hd
    rw [hold] at hbefore
    exact hkeep dep.policy hdep hbefore
  · exact hbefore

theorem RunSnapshot.ReadySatisfied.update (hs : s.ReadySatisfied)
    (hold : s.tasks[d]? = some old) (hdeps : t.dependencies = s.dependencies)
    (htasks : t.tasks = s.tasks.insert d new) (hnew : new.state = .ready → old.state = .ready)
    (hkeep : ∀ p, ReadyDependent s d p → policySatisfied p old.state = true →
      policySatisfied p new.state = true) : t.ReadySatisfied := by
  intro k task hk hready
  have hwas : ∃ r, s.tasks[k]? = some r ∧ r.state = .ready := by
    rw [htasks] at hk
    obtain ⟨rfl, rfl⟩ | ⟨-, hk⟩ := OrdMap.get_insert_cases hk
    · exact ⟨old, hold, hnew hready⟩
    · exact ⟨task, hk, hready⟩
  obtain ⟨r, hr, hrready⟩ := hwas
  refine dependenciesSatisfied_update hdeps htasks hold (hs k r hr hrready) ?_
  intro p hp
  exact hkeep p ⟨k, r, hr, hrready, hp⟩

end

/-- No ready task depends on the task whose execution is claimed, and none falls back on the
failure of a task that is canceled. -/
structure ReadyUndisturbed (s : RunSnapshot) (e : RunEvent) : Prop where
  claim : ∀ (c : StartAttempt) (a : AttemptRecord), e = .command (.claimExecution c) →
    s.attempts[c.attemptId]? = some a → ∀ p, ¬ ReadyDependent s a.taskId p
  cancel : ∀ (c : CancelTask) (task : TaskRecord), e = .command (.cancelTask c) →
    s.tasks[c.taskId]? = some task → task.state = .failed →
    ∀ f, ¬ ReadyDependent s c.taskId (.fallbackTask f)

theorem policySatisfied_of_locked {state : TaskState} (h : taskIsLocked state = true)
    (p : DependencyPolicy) : policySatisfied p state = false := by
  revert h
  cases state <;> cases p <;> simp [taskIsLocked, policySatisfied]

theorem policySatisfied_succeeded (p : DependencyPolicy) : policySatisfied p .succeeded = true := by
  cases p <;> rfl

theorem policySatisfied_canceled {state : TaskState} {p : DependencyPolicy}
    (hstate : state ≠ .succeeded) (h : policySatisfied p state = true)
    (hfall : ∀ f, p = .fallbackTask f → state ≠ .failed) :
    policySatisfied p .canceled = true := by
  cases p with
  | requireSuccess => exact absurd (of_decide_eq_true h) hstate
  | allowPartial | continueOnFailure => rfl
  | fallbackTask f =>
    obtain hsucc | hfailed := of_decide_eq_true h
    · exact absurd hsucc hstate
    · exact absurd hfailed (hfall f rfl)

theorem Effect.readySatisfied {s t : RunSnapshot} {e : RunEvent} (h : Effect s e t)
    (hc : ReadyUndisturbed s e) (hs : s.ReadySatisfied) : t.ReadySatisfied := by
  cases h with
  | still | adjust => exact hs
  | createRun hempty =>
    intro k task hk hready
    obtain ⟨rfl, rfl⟩ | ⟨-, hk⟩ := OrdMap.get_insert_cases hk
    · cases hready
    · rw [OrdMap.get_eq_none_of_isEmpty _ hempty] at hk
      cases hk
  | startRun | addTask | addDependency => exact recomputeBlockedReady_readySatisfied _
  | failed _ hhandled => cases hhandled <;> exact recomputeBlockedReady_readySatisfied _
  | @markReady c task htask hstate hsat =>
    have hnone : ∀ p, policySatisfied p task.state = false := by
      obtain hstate | hstate := hstate
      all_goals
        rw [hstate]
        exact policySatisfied_of_executable rfl
    intro k r hk hready
    have hwas : dependenciesSatisfied s k = true := by
      obtain ⟨rfl, rfl⟩ | ⟨-, hk⟩ := OrdMap.get_insert_cases hk
      · exact hsat
      · exact hs k r hk hready
    refine dependenciesSatisfied_update (by rfl) (by rfl) htask hwas ?_
    intro p _ hp
    rw [hnone p] at hp
    cases hp
  | @createAttempt c a task index htask hstate =>
    refine hs.update htask rfl rfl ?_ ?_
    · dsimp only
      split
      · intro hleased
        cases hleased
      · exact id
    · intro p _ hp
      have hnone : policySatisfied p task.state = false := by
        obtain hstate | hstate | ⟨-, hstate⟩ := hstate
        all_goals rw [hstate]
        · exact policySatisfied_of_executable rfl p
        · exact policySatisfied_of_locked rfl p
        · exact policySatisfied_of_locked rfl p
      rw [hnone] at hp
      cases hp
  | @claimExecution c a task ha hstate htask =>
    refine hs.update htask rfl rfl (by simp) ?_
    intro p hdep
    exact absurd hdep (hc.claim c a rfl ha p)
  | @suspend c a a' task ha hstate hsame hsuspended htask hrunning =>
    refine hs.update htask rfl rfl (by simp) ?_
    intro p _ hp
    rw [hrunning, policySatisfied_of_locked rfl] at hp
    cases hp
  | @resume c a a' task epoch deadline deadlines ha hstate hsame hstarting htask hparked =>
    refine hs.update htask rfl rfl (by simp) ?_
    intro p _ hp
    rw [hparked, policySatisfied_of_locked rfl] at hp
    cases hp
  | claimFinalization htask | complete ha hfly hsame hsucceeded htask | note htask =>
    exact hs.update htask rfl rfl id (fun _ _ hp => hp)
  | @cancelTask c task htask hstate =>
    refine hs.update htask rfl rfl (by simp) ?_
    intro p hdep hp
    refine policySatisfied_canceled hstate hp ?_
    intro f hf hfailed
    rw [hf] at hdep
    exact hc.cancel c task rfl htask hfailed f hdep
  | cancelRun =>
    intro k task hk hready
    dsimp only at hk
    rw [OrdMap.get_map, Option.map_eq_some_iff] at hk
    obtain ⟨old, -, rfl⟩ := hk
    have hidle := cancelTaskRecord_executable old
    rw [hready] at hidle
    cases hidle
  | accept ha hstate hid htask =>
    exact hs.update htask rfl rfl (by simp) (fun p _ _ => policySatisfied_succeeded p)

theorem ReachableWhere.readySatisfied {s : RunSnapshot}
    (h : ReachableWhere P ReadyUndisturbed s) : s.ReadySatisfied := by
  refine h.invariant (I := RunSnapshot.ReadySatisfied) ?_ ?_ ?_
  · intro runId session k task hk
    simp [emptySnapshot] at hk
  · intro u sequence events hu
    exact hu
  · intro s u e _ hc hs heffect
    exact heffect.readySatisfied hc hs

/-- In a run whose ready tasks are left undisturbed, a task is ready only with its dependencies
satisfied, and so no attempt of a ready task is created without them. -/
theorem ready_dependencies_satisfied (P : Platform) {s : RunSnapshot}
    (h : ReachableWhere P ReadyUndisturbed s) :
    (∀ (k : TaskId) (task : TaskRecord), s.tasks[k]? = some task → task.state = .ready →
      dependenciesSatisfied s k = true) ∧
    ∀ (c : CreateAttempt) (t : RunSnapshot) (task : TaskRecord),
      applyCommand P s (.createAttempt c) = .ok t → s.tasks[c.taskId]? = some task →
      task.state = .ready → dependenciesSatisfied s c.taskId = true := by
  refine ⟨h.readySatisfied, ?_⟩
  intro c t task _ htask hready
  exact h.readySatisfied c.taskId task htask hready

namespace Demo

/-- No task is ready when an execution is claimed, and no task is canceled. -/
def readyTest (s : RunSnapshot) : RunCommand → Bool
  | .claimExecution _ => !(s.tasks.anyValue fun task => decide (task.state = .ready))
  | .cancelTask _ => false
  | _ => true

theorem readyTest_undisturbed (s : RunSnapshot) (c : RunCommand) (h : readyTest s c = true) :
    ReadyUndisturbed s (.command c) := by
  refine ⟨?_, ?_⟩
  · intro c' a he ha p hdep
    cases he
    obtain ⟨k, task, hk, hready, -⟩ := hdep
    simp only [readyTest, Bool.not_eq_true', OrdMap.anyValue_eq_false] at h
    exact of_decide_eq_false (h k task hk) hready
  · intro c' task he
    cases he
    cases h

def createAttemptOf (task : TaskId) (id : AttemptId) : RunCommand :=
  .createAttempt ⟨envelope ("attempt:" ++ id) 9, "run", task, id, none⟩

def markTaskReady (task : TaskId) : RunCommand :=
  .markTaskReady ⟨envelope ("ready:" ++ task) 9, "run", task⟩

end Demo
open Demo

theorem ready_dependencies_satisfied_second :
    ∃ s, ReachableWhere platform ReadyUndisturbed s ∧
      s.dependencies["second"]? = some [⟨"task", .requireSuccess⟩] ∧
      dependenciesSatisfied s "second" = true := by
  have hs := ran_reachableWhere readyTest_undisturbed [createRun, Demo.addTask "second",
    addDependency "second" "task" .requireSuccess, startRun, createAttempt "a",
    leaseAttempt "a" 1 500, startAttempt "a" 1, claimExecution "a" 1, completeAttempt "a" 1,
    acceptArtifact "task" "a", markTaskReady "second"] (by decide +kernel) rfl
  exact ⟨_, hs, rfl, (ready_dependencies_satisfied platform hs).1 "second" _ rfl rfl⟩

/-- One attempt of the first task fails for good, which makes the dependent task ready; then its
sibling claims the execution, and the first task runs again. -/
theorem ready_before_dependency :
    ∃ s task, Reachable platform s ∧ s.state = .active ∧
      s.tasks["second"]? = some task ∧ task.state = .ready ∧
      dependenciesSatisfied s "second" = false ∧
      ∃ t, applyCommand platform s (createAttemptOf "second" "c") = .ok t := by
  have hs := ran_reachable [createRun, Demo.addTask "second",
    addDependency "second" "task" .allowPartial, startRun, createAttempt "a", createAttempt "b",
    leaseAttempt "a" 1 500, leaseAttempt "b" 2 500, startAttempt "b" 2,
    failAttempt "a" .permanentExecutionFailure, claimExecution "b" 2] rfl
  exact ⟨_, _, hs, rfl, rfl, rfl, rfl, _, rfl⟩

end Tetonic.Run
