import Tetonic.Run.Cycles
set_option autoImplicit false

/-! The limit on attempts, as the failure handling and `CreateAttempt` see it. `should_retry` stops
at `max_attempts`, but a failed verification that is to be tried again with revised input does not
ask it: then the task can be ready for an attempt that `CreateAttempt` refuses. -/

namespace Tetonic.Run
open Lib Demo

variable {P : Platform}

variable {failure : FailureClass}

theorem RetryPolicy.shouldRetry_lt {policy : RetryPolicy} {n : Nat}
    (h : policy.shouldRetry failure n = true) : n < policy.maxAttempts := by
  unfold RetryPolicy.shouldRetry at h
  split at h
  · cases h
  · split at h
    · cases h
    · omega

variable {s : RunSnapshot} {k : TaskId}

theorem willRetry_iff {task : TaskRecord} (htask : s.tasks[k]? = some task)
    (failure : FailureClass) :
    willRetry s k failure = true ↔
      (task.binding.retryPolicy.shouldRetry failure (task.retry.attemptCount + 1) = true ∨
        failure = .verificationFailed ∧
          task.binding.verificationPolicy.remediation.retryWithRevisedInput = true) ∧
      canRetrySideEffects s k = true := by
  simp [willRetry, htask]

variable {t : RunSnapshot}

theorem dependenciesSatisfied_own {new : TaskRecord} (hself : ¬ DependsOn s.dependencies k k)
    (hdeps : t.dependencies = s.dependencies) (htasks : t.tasks = s.tasks.insert k new) :
    dependenciesSatisfied t k = dependenciesSatisfied s k := by
  rw [Bool.eq_iff_iff, dependenciesSatisfied_iff, dependenciesSatisfied_iff, hdeps]
  refine forall_congr' fun dep => forall_congr' fun hdep => ?_
  have hne : k ≠ dep.dependsOn := fun heq => hself ⟨dep, hdep, heq.symm⟩
  rw [dependencySatisfied_eq, dependencySatisfied_eq, htasks, OrdMap.get_insert_ne _ _ hne]

variable {id : AttemptId} {e : RunEvent} {a : AttemptRecord}

theorem FailureHandled.task (h : FailureHandled s e id a failure t) (hgraph : s.GraphSound) :
    ∃ old new, s.tasks[a.taskId]? = some old ∧ t.tasks[a.taskId]? = some new ∧
      new.binding = old.binding ∧ new.retry.attemptCount = old.retry.attemptCount + 1 ∧
      (taskIsExecutable new.state = true ↔ willRetry s a.taskId failure = true) ∧
      (new.state = .ready ↔
        willRetry s a.taskId failure = true ∧ dependenciesSatisfied s a.taskId = true) := by
  have hself : ¬ DependsOn s.dependencies a.taskId a.taskId := by
    intro hedge
    exact hgraph.acyclic ⟨a.taskId, .single hedge⟩
  cases h with
  | @retry a' task reason retryAt hsame hend htask hretry =>
    obtain ⟨hbinding, hcount⟩ := e.failing_retry task
    refine ⟨task, ((e.failing task).retried failure reason retryAt).recomputed
      (dependenciesSatisfied s a.taskId), htask, ?_, hbinding, ?_, ?_, ?_⟩
    · rw [recomputeBlockedReady_get, OrdMap.get_insert_self, Option.map_some]
      rw [dependenciesSatisfied_own hself (by rfl) (by rfl)]
    · show (e.failing task).retry.attemptCount + 1 = task.retry.attemptCount + 1
      rw [hcount]
    all_goals
      rw [hretry]
      cases dependenciesSatisfied s a.taskId <;>
        simp [TaskRecord.recomputed, TaskRecord.retried, taskIsExecutable]
  | @giveUp a' task reason hsame hend htask hretry =>
    obtain ⟨hbinding, hcount⟩ := e.failing_retry task
    refine ⟨task, (e.failing task).gaveUp failure reason, htask, ?_, hbinding, ?_, ?_, ?_⟩
    · have hfailed : taskIsExecutable ((e.failing task).gaveUp failure reason).state = false := rfl
      obtain ⟨after, hafter, hmove⟩ := (applyDependencyFailure_rescheduled { s with
        attempts := s.attempts.insert id a'
        tasks := s.tasks.insert a.taskId ((e.failing task).gaveUp failure reason) }
        a.taskId).present a.taskId _ (OrdMap.get_insert_self _ _ _)
      obtain rfl | ⟨hexec, -⟩ := hmove
      · rw [recomputeBlockedReady_get, hafter, Option.map_some,
          TaskRecord.recomputed_of_not_executable hfailed]
      · rw [hfailed] at hexec
        cases hexec
    · dsimp only [TaskRecord.gaveUp]
      rw [hcount]
    · rw [hretry]
      simp [TaskRecord.gaveUp, taskIsExecutable]
    · rw [hretry]
      simp [TaskRecord.gaveUp]

theorem applyCreateAttempt_overLimit {c : CreateAttempt}
    (h : applyCreateAttempt P s c = .error (.error .retryLimitExceeded)) :
    ∃ task, s.tasks[c.taskId]? = some task ∧
      task.binding.retryPolicy.maxAttempts ≤ task.retry.attemptCount := by
  unfold applyCreateAttempt at h
  cases hkey : c.deliveryKey.bind (s.deliveryIndex[·]?) with
  | some =>
    simp only [hkey, ensureRunAcceptsMutations, ensureNotRecovery, bind_eq_error,
      refuseIf_eq_error, pure_ne_error, Fault.error.injEq, reduceCtorEq, and_false, false_or,
      exists_false] at h
  | none =>
    simp only [hkey, ensureRunAcceptsMutations, ensureNotRecovery, findTask, bind_eq_error,
      refuseIf_eq_error, orFail_eq_error, pure_ne_error, Fault.error.injEq, reduceCtorEq,
      and_false, and_true, false_or, or_false, exists_false, refuseIf_eq_ok, orFail_eq_ok,
      exists_const, bind_eq_ok, ge_iff_le] at h
    obtain ⟨-, task, htask, -, hlimit⟩ := h
    exact ⟨task, htask, hlimit⟩

/-- If the task is ready, its count is below its limit, and an attempt is not refused for it. -/
def RetryUsable (P : Platform) (s : RunSnapshot) (k : TaskId) : Prop :=
  ∀ task, s.tasks[k]? = some task → task.state = .ready →
    task.retry.attemptCount < task.binding.retryPolicy.maxAttempts ∧
    ∀ c : CreateAttempt, c.taskId = k →
      applyCommand P s (.createAttempt c) ≠ .error (.error .retryLimitExceeded)

/-- The failure is one of verification that is to be tried again with revised input, nothing else
stands against the retry, and it uses up the last attempt. -/
def GrantedPastLimit (s : RunSnapshot) (k : TaskId) (task : TaskRecord) (failure : FailureClass) :
    Prop :=
  failure = .verificationFailed ∧
    task.binding.verificationPolicy.remediation.retryWithRevisedInput = true ∧
    task.binding.retryPolicy.maxAttempts ≤ task.retry.attemptCount + 1 ∧
    canRetrySideEffects s k = true ∧ dependenciesSatisfied s k = true

theorem retryUsable_of_lt (h : ∀ task, s.tasks[k]? = some task → task.state = .ready →
      task.retry.attemptCount < task.binding.retryPolicy.maxAttempts) : RetryUsable P s k := by
  intro task htask hready
  refine ⟨h task htask hready, ?_⟩
  intro c hc hrefused
  obtain ⟨task', htask', hlimit⟩ := applyCreateAttempt_overLimit hrefused
  rw [hc, htask] at htask'
  cases htask'
  exact absurd (h task htask hready) (Nat.not_lt.mpr hlimit)

theorem FailureHandled.usable_iff (h : FailureHandled s e id a failure t) (hgraph : s.GraphSound)
    {task : TaskRecord} (htask : s.tasks[a.taskId]? = some task) (sequence : Nat)
    (events : List RunEventEnvelope) :
    RetryUsable P { t with sequence, events } a.taskId ↔
      ¬ GrantedPastLimit s a.taskId task failure := by
  obtain ⟨old, new, hold, hnew, hbinding, hcount, -, hready⟩ := h.task hgraph
  rw [htask] at hold
  cases hold
  refine ⟨?_, ?_⟩
  · intro husable hpast
    obtain ⟨hclass, hremedy, hlimit, hside, hsat⟩ := hpast
    have hretry := (willRetry_iff htask failure).mpr ⟨.inr ⟨hclass, hremedy⟩, hside⟩
    have hbelow := (husable new hnew (hready.mpr ⟨hretry, hsat⟩)).1
    rw [hbinding, hcount] at hbelow
    omega
  · intro hpast
    refine retryUsable_of_lt ?_
    intro task' htask' hstate
    rw [show t.tasks[a.taskId]? = some task' from htask'] at hnew
    cases hnew
    obtain ⟨hretry, hsat⟩ := hready.mp hstate
    rw [hbinding, hcount]
    obtain ⟨hshould | ⟨hclass, hremedy⟩, hside⟩ := (willRetry_iff htask failure).mp hretry
    · exact RetryPolicy.shouldRetry_lt hshould
    · by_contra hlimit
      exact hpast ⟨hclass, hremedy, Nat.not_lt.mp hlimit, hside, hsat⟩

def WithinLimit (s : RunSnapshot) (k : TaskId) : Prop :=
  ∀ task, s.tasks[k]? = some task → taskIsExecutable task.state = true →
    task.retry.attemptCount < task.binding.retryPolicy.maxAttempts

theorem FailureHandled.withinLimit (h : FailureHandled s e id a .leaseExpired t)
    (hgraph : s.GraphSound) (hk : a.taskId = k ∨ WithinLimit s k) : WithinLimit t k := by
  intro task htask hexec
  by_cases hown : a.taskId = k
  · subst hown
    obtain ⟨old, new, hold, hnew, hbinding, hcount, hwaits, -⟩ := h.task hgraph
    rw [htask] at hnew
    cases hnew
    obtain ⟨hshould | ⟨hclass, -⟩, -⟩ := (willRetry_iff hold _).mp (hwaits.mp hexec)
    · rw [hbinding, hcount]
      exact RetryPolicy.shouldRetry_lt hshould
    · cases hclass
  · obtain ⟨attempts, new, hresched⟩ := h.rescheduled
    obtain ⟨before, hbefore, hmove⟩ := hresched.before htask
    dsimp only at hbefore
    rw [OrdMap.get_insert_ne _ _ hown] at hbefore
    have hwithin := hk.resolve_left hown before hbefore
    obtain rfl | ⟨hwas, st, -, rfl⟩ := hmove
    · exact hwithin hexec
    · exact hwithin hwas

variable {now : UInt64}

theorem recoverAttempts_withinLimit {ids : List AttemptId}
    (hreach : ReachableWhere P (fun _ _ => True) s) (hnd : ids.Nodup)
    (hexp : ∀ id ∈ ids, ∃ a, s.attempts[id]? = some a ∧ a.expiredAt now = true)
    (h : ids.foldlM (recoverAttempt P now) s = .ok t)
    (hk : WithinLimit s k ∨ ∃ id ∈ ids, ∃ a, s.attempts[id]? = some a ∧ a.taskId = k) :
    WithinLimit t k := by
  induction ids generalizing s with
  | nil =>
    cases h
    obtain hk | ⟨id, hid, -⟩ := hk
    · exact hk
    · cases hid
  | cons id rest ih =>
    simp only [List.foldlM_cons, bind_eq_ok] at h
    obtain ⟨s₁, hs₁, h⟩ := h
    obtain ⟨a, ha, hexpired⟩ := hexp id List.mem_cons_self
    simp only [recoverAttempt, bind_eq_ok, unwrap_eq_ok, ha, Option.some.injEq,
      exists_eq_left'] at hs₁
    have hothers : ∀ j ∈ rest, s₁.attempts[j]? = s.attempts[j]? := by
      intro j hj
      refine expireAttempt_others hs₁ ?_
      intro heq
      rw [heq] at hnd
      exact (List.nodup_cons.mp hnd).1 hj
    have ho : Occurs P s (.expire id now) s₁ := .expire ha hexpired hs₁
    have hhandled : FailureHandled s (.expire id now) id a .leaseExpired s₁ :=
      expireAttempt_handled rfl hs₁
    refine ih (hreach.step trivial ho) hnd.of_cons ?_ h ?_
    · intro j hj
      obtain ⟨r, hr, hrexp⟩ := hexp j (List.mem_cons_of_mem id hj)
      exact ⟨r, (hothers j hj).trans hr, hrexp⟩
    · obtain hk | ⟨j, hj, r, hr, hk⟩ := hk
      · exact .inl (hhandled.withinLimit hreach.graphSound (.inr hk))
      · obtain rfl | hj := List.mem_cons.mp hj
        · rw [ha] at hr
          cases hr
          exact .inl (hhandled.withinLimit hreach.graphSound (.inl hk))
        · exact .inr ⟨j, hj, r, (hothers j hj).trans hr, hk⟩

theorem startupPass_withinLimit (hreach : Reachable P s) (h : startupPass P s now = .ok t)
    (ha : s.attempts[id]? = some a) (hexp : a.expiredAt now = true) :
    WithinLimit t a.taskId := by
  simp only [startupPass, bind_eq_ok] at h
  obtain ⟨snap, hsnap, h⟩ := h
  have hwithin : WithinLimit snap a.taskId := by
    refine recoverAttempts_withinLimit hreach.events (OrdMap.nodup_keysWhere _ _) ?_ hsnap
      (.inr ⟨id, (OrdMap.mem_keysWhere _ _ _).mpr ⟨a, ha, hexp⟩, a, ha, rfl⟩)
    intro j hj
    obtain ⟨r, hr, hrexp⟩ := (OrdMap.mem_keysWhere _ _ _).mp hj
    exact ⟨r, hr, hrexp⟩
  split at h
  all_goals
    cases h
    exact hwithin

/-- A retry that the failure handling grants is usable, unless a failed verification is tried again
past the limit. The recovery pass only reports lost leases, and leaves no task ready past it. -/
theorem retry_usable_iff (P : Platform) {s : RunSnapshot} (h : Reachable P s) :
    (∀ (e : RunEvent) (t : RunSnapshot) (id : AttemptId) (a : AttemptRecord)
      (failure : FailureClass) (task : TaskRecord), e.Fails s id a failure → Occurs P s e t →
      s.tasks[a.taskId]? = some task →
      (RetryUsable P t a.taskId ↔ ¬ GrantedPastLimit s a.taskId task failure)) ∧
    ∀ (now : UInt64) (t : RunSnapshot), startupPass P s now = .ok t →
      ∀ (id : AttemptId) (a : AttemptRecord), s.attempts[id]? = some a →
        a.expiredAt now = true → RetryUsable P t a.taskId := by
  refine ⟨?_, ?_⟩
  · intro e t id a failure task hfails ho htask
    obtain ⟨u, sequence, events, hhandled, rfl⟩ := ho.handled hfails
    exact hhandled.usable_iff h.events.graphSound htask sequence events
  · intro now t hpass id a ha hexp
    refine retryUsable_of_lt ?_
    intro task htask hready
    exact startupPass_withinLimit h hpass ha hexp task htask (by rw [hready]; rfl)

theorem retry_usable_iff_transient :
    ∃ s t u task, Reachable platform s ∧
      Occurs platform s (.command (failAttempt "a" .transientTransport)) t ∧
      t.tasks["task"]? = some task ∧ task.state = .ready ∧ RetryUsable platform t "task" ∧
      startupPass platform s 600 = .ok u ∧ RetryUsable platform u "task" := by
  have hs := ran_reachable leasedUntil rfl
  obtain ⟨happlies, hpasses⟩ := retry_usable_iff platform hs
  exact ⟨_, _, _, _, hs, occurs _ rfl, rfl, rfl,
    (happlies (.command (failAttempt "a" .transientTransport)) _ "a" _ .transientTransport _
      ⟨rfl, rfl, rfl⟩ (occurs _ rfl) rfl).mpr (by simp [GrantedPastLimit]),
    rfl, hpasses 600 _ rfl "a" _ rfl rfl⟩

namespace Demo

/-- A task whose first failed verification is to be tried again, with one attempt in all. -/
def onceRevised : RunCommand := .createRun {
  envelope := envelope "create" 1
  sessionId := none
  runId := "run"
  rootTaskId := "task"
  rootBinding := { binding with
    retryPolicy := { RetryPolicy.default with maxAttempts := 1 }
    verificationPolicy := ⟨⟨true⟩⟩ }
  speculation := some ⟨true, 3⟩
  jobSpec := none }

end Demo

/-- The rejected task is ready, and a new attempt of it is refused. -/
theorem revised_past_limit :
    ∃ s task, Reachable platform s ∧ s.tasks["task"]? = some task ∧ task.state = .ready ∧
      task.binding.retryPolicy.maxAttempts ≤ task.retry.attemptCount ∧
      applyCommand platform s (createAttempt "b") = .error (.error .retryLimitExceeded) := by
  have hs := ran_reachable [onceRevised, startRun, createAttempt "a", leaseAttempt "a" 1 500,
    completeAttempt "a" 1, rejectArtifact "task" "a"] rfl
  exact ⟨_, _, hs, rfl, rfl, by decide, rfl⟩

end Tetonic.Run
