import Tetonic.Run.Retry
set_option autoImplicit false

/-! What the graph passes and the failure handling leave, exactly. The pass over waiting tasks is
one map: whether the dependencies of a task are satisfied does not change while it goes on, because
a waiting task satisfies no dependency in either state. -/

namespace Tetonic.Run
open Lib OrdMap

/-- What a dependency policy asks of the state of the task it points to. -/
def policySatisfied (policy : DependencyPolicy) (state : TaskState) : Bool :=
  match policy with
  | .requireSuccess => decide (state = .succeeded)
  | .allowPartial | .continueOnFailure => !(taskIsExecutable state || taskIsLocked state)
  | .fallbackTask _ => decide (state = .succeeded ∨ state = .failed)

theorem dependencySatisfied_eq (s : RunSnapshot) (dep : TaskDependency) :
    dependencySatisfied s dep =
      s.tasks[dep.dependsOn]?.any fun t => policySatisfied dep.policy t.state := by
  unfold dependencySatisfied policySatisfied
  cases s.tasks[dep.dependsOn]? with
  | none => rfl
  | some => cases dep.policy <;> rfl

theorem dependenciesSatisfied_iff (s : RunSnapshot) (k : TaskId) :
    dependenciesSatisfied s k = true ↔
      ∀ dep ∈ s.dependencies[k]?.getD [], dependencySatisfied s dep = true := by
  unfold dependenciesSatisfied
  cases s.dependencies[k]? with
  | none | some => simp

theorem dependenciesSatisfied_congr {s t : RunSnapshot} (hdeps : t.dependencies = s.dependencies)
    (htasks : ∀ (d : TaskId) (p : DependencyPolicy),
      (t.tasks[d]?.any fun r => policySatisfied p r.state) =
        s.tasks[d]?.any fun r => policySatisfied p r.state) (k : TaskId) :
    dependenciesSatisfied t k = dependenciesSatisfied s k := by
  have hdep : dependencySatisfied t = dependencySatisfied s := by
    funext dep
    rw [dependencySatisfied_eq, dependencySatisfied_eq]
    exact htasks dep.dependsOn dep.policy
  unfold dependenciesSatisfied
  rw [hdeps, hdep]

/-- A task after the pass: a waiting task is ready or blocked, another stays. -/
def TaskRecord.recomputed (ok : Bool) (task : TaskRecord) : TaskRecord :=
  if taskIsExecutable task.state then { task with state := if ok then .ready else .blocked }
  else task

theorem TaskRecord.recomputed_of_not_executable {ok : Bool} {task : TaskRecord}
    (h : taskIsExecutable task.state = false) : task.recomputed ok = task := by
  unfold TaskRecord.recomputed
  rw [h]
  rfl

theorem policySatisfied_of_executable {state : TaskState} (h : taskIsExecutable state = true)
    (p : DependencyPolicy) : policySatisfied p state = false := by
  revert h
  cases state <;> cases p <;> simp [taskIsExecutable, policySatisfied]

theorem policySatisfied_recomputed (p : DependencyPolicy) (ok : Bool) (task : TaskRecord) :
    policySatisfied p (task.recomputed ok).state = policySatisfied p task.state := by
  unfold TaskRecord.recomputed
  split
  · rename_i he
    rw [policySatisfied_of_executable he]
    cases ok with
    | true | false => exact policySatisfied_of_executable rfl p
  · rfl

theorem TaskRecord.recomputed_recomputed (ok : Bool) (task : TaskRecord) :
    (task.recomputed ok).recomputed ok = task.recomputed ok := by
  unfold TaskRecord.recomputed
  cases h : taskIsExecutable task.state with
  | true => cases ok <;> rfl
  | false => simp [h]

theorem recomputeTask_eq (s : RunSnapshot) (k : TaskId) :
    recomputeTask s k = { s with
      tasks := s.tasks.modify k fun task => task.recomputed (dependenciesSatisfied s k) } := by
  unfold recomputeTask setTaskState
  split
  · obtain ⟨task, hk, he⟩ := taskIs_iff.mp ‹_›
    have hrec : ∀ (ok : Bool) (r : TaskRecord), s.tasks[k]? = some r →
        { r with state := if ok then .ready else .blocked } = r.recomputed ok := by
      intro ok r hr
      rw [hk] at hr
      cases hr
      unfold TaskRecord.recomputed
      rw [if_pos he]
    split
    · rename_i hsat
      rw [hsat]
      congr 1
      exact modify_congr _ (hrec true)
    · rename_i hsat
      rw [Bool.not_eq_true] at hsat
      rw [hsat]
      congr 1
      exact modify_congr _ (hrec false)
  · rename_i hidle
    have hsame : ∀ task, s.tasks[k]? = some task →
        task.recomputed (dependenciesSatisfied s k) = task := by
      intro task hk
      refine TaskRecord.recomputed_of_not_executable ?_
      by_contra hexec
      rw [Bool.not_eq_false] at hexec
      exact hidle (taskIs_iff.mpr ⟨task, hk, hexec⟩)
    rw [modify_eq_self _ hsame]

theorem recomputeTask_satisfied (s : RunSnapshot) (k j : TaskId) :
    dependenciesSatisfied (recomputeTask s k) j = dependenciesSatisfied s j := by
  refine dependenciesSatisfied_congr (by rw [recomputeTask_eq]) ?_ j
  intro d p
  rw [recomputeTask_eq]
  dsimp only
  rw [get_modify]
  split
  · cases s.tasks[d]? with
    | none => rfl
    | some task => exact policySatisfied_recomputed p _ task
  · rfl

theorem foldl_recomputeTask (l : List TaskId) (s : RunSnapshot) :
    l.foldl recomputeTask s = { s with
      tasks := s.tasks.map fun k task =>
        if k ∈ l then task.recomputed (dependenciesSatisfied s k) else task } := by
  induction l generalizing s with
  | nil =>
    have hmap : (s.tasks.map fun k task =>
        if k ∈ ([] : List TaskId) then task.recomputed (dependenciesSatisfied s k) else task) =
          s.tasks := by
      refine Std.ExtTreeMap.ext_getElem? fun a => ?_
      rw [get_map]
      simp
    rw [hmap]
    rfl
  | cons k rest ih =>
    rw [List.foldl_cons, ih (recomputeTask s k)]
    simp only [recomputeTask_satisfied]
    rw [recomputeTask_eq]
    congr 1
    refine Std.ExtTreeMap.ext_getElem? fun a => ?_
    rw [get_map, get_map, get_modify]
    cases s.tasks[a]? with
    | none => simp
    | some =>
      by_cases hka : k = a
      · subst hka
        by_cases hk : k ∈ rest
        · simp [hk, TaskRecord.recomputed_recomputed]
        · simp [hk]
      · simp [hka, Ne.symm hka]

theorem recomputeBlockedReady_eq (s : RunSnapshot) :
    recomputeBlockedReady s = { s with
      tasks := s.tasks.map fun k task => task.recomputed (dependenciesSatisfied s k) } := by
  unfold recomputeBlockedReady
  rw [foldl_recomputeTask]
  congr 1
  refine Std.ExtTreeMap.ext_getElem? fun a => ?_
  rw [get_map, get_map]
  cases ha : s.tasks[a]? with
  | none => rfl
  | some =>
    have hmem : a ∈ s.tasks.keys := by
      refine Std.ExtTreeMap.mem_keys.mpr (Std.ExtTreeMap.mem_iff_isSome_getElem?.mpr ?_)
      rw [ha]
      rfl
    simp [hmem]

theorem recomputeBlockedReady_get (s : RunSnapshot) (k : TaskId) :
    (recomputeBlockedReady s).tasks[k]? =
      s.tasks[k]?.map fun task => task.recomputed (dependenciesSatisfied s k) := by
  rw [recomputeBlockedReady_eq]
  exact get_map _ _ _

theorem recomputeBlockedReady_satisfied (s : RunSnapshot) (k : TaskId) :
    dependenciesSatisfied (recomputeBlockedReady s) k = dependenciesSatisfied s k := by
  refine dependenciesSatisfied_congr ?_ ?_ k
  · rw [recomputeBlockedReady_eq]
  · intro d p
    rw [recomputeBlockedReady_get]
    cases s.tasks[d]? with
    | none => rfl
    | some task => exact policySatisfied_recomputed p _ task

/-- The decision of `apply_failure_with_retry`: the policy grants another attempt, or the failure
is one of verification that is to be tried again with revised input, and no side effect of the
task is committed. -/
def willRetry (s : RunSnapshot) (taskId : TaskId) (failure : FailureClass) : Bool :=
  s.tasks[taskId]?.any fun task =>
    (task.binding.retryPolicy.shouldRetry failure (task.retry.attemptCount + 1)
      || (decide (failure = .verificationFailed)
        && task.binding.verificationPolicy.remediation.retryWithRevisedInput))
    && canRetrySideEffects s taskId

def TaskRecord.retried (task : TaskRecord) (failure : FailureClass) (reason : String)
    (retryAt : UInt64) : TaskRecord :=
  { task with
    state := .ready
    activeAttempt := none
    retry := {
      attemptCount := task.retry.attemptCount + 1
      lastFailureClass := some failure
      lastFailureReason := some reason
      nextRetryAt := some retryAt } }

def TaskRecord.gaveUp (task : TaskRecord) (failure : FailureClass) (reason : String) : TaskRecord :=
  { task with
    state := .failed
    activeAttempt := none
    retry := {
      attemptCount := task.retry.attemptCount + 1
      lastFailureClass := some failure
      lastFailureReason := some reason
      nextRetryAt := none } }

theorem applyFailureWithRetry_cases {P : Platform} {s t : RunSnapshot} {taskId : TaskId}
    {failure : FailureClass} {reason : String} {now : UInt64}
    (h : applyFailureWithRetry P s taskId failure reason now = .ok t) :
    ∃ task, s.tasks[taskId]? = some task ∧
      ((willRetry s taskId failure = true ∧ ∃ retryAt, t = recomputeBlockedReady { s with
          tasks := s.tasks.insert taskId (task.retried failure reason retryAt) }) ∨
        (willRetry s taskId failure = false ∧ t = recomputeBlockedReady (applyDependencyFailure
          { s with tasks := s.tasks.insert taskId (task.gaveUp failure reason) } taskId))) := by
  simp only [applyFailureWithRetry, bind_eq_ok, unwrap_eq_ok] at h
  obtain ⟨task, htask, h⟩ := h
  refine ⟨task, htask, ?_⟩
  unfold willRetry canRetrySideEffects
  simp only [canRetrySideEffects, get_insert_self] at h
  rw [htask]
  simp only [Option.any_some, Bool.and_eq_true, Bool.or_eq_true, decide_eq_true_eq]
  split at h
  · rename_i hgrant
    simp only [pure_eq_ok, insert_insert] at h
    exact .inl ⟨by simpa using hgrant, _, h.symm⟩
  · rename_i hdeny
    simp only [pure_eq_ok, insert_insert] at h
    refine .inr ⟨?_, h.symm⟩
    rw [Bool.eq_false_iff]
    intro hgrant
    exact hdeny (by simpa using hgrant)

end Tetonic.Run
