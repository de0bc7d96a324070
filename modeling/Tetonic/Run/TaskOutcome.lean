import Tetonic.Run.Winner
set_option autoImplicit false

/-! What a task ends with. A failure that is final is applied to the whole task, although siblings
of the attempt may go on, and no failure clears an artifact that was accepted before. -/

namespace Tetonic.Run
open Lib TaskRecord

/-- An attempt whose failure is final is the last that could win its task: no other attempt of the
task is open, and none has won. -/
def LastStanding (s : RunSnapshot) (e : RunEvent) : Prop :=
  ∀ (id : AttemptId) (a : AttemptRecord) (failure : FailureClass), e.Fails s id a failure →
    willRetry s a.taskId failure = false →
    (∀ (j : AttemptId) (r : AttemptRecord), s.attempts[j]? = some r → r.taskId = a.taskId →
      j ≠ id → r.state.isOpen = false) ∧
    (e.rejects = false → ∀ task, s.tasks[a.taskId]? = some task → task.winningAttempt = none)

theorem AttemptState.failedEnd_ne_succeeded {st : AttemptState} (h : st.failedEnd = true) :
    st ≠ .succeeded := by
  intro heq
  rw [heq] at h
  cases h

variable {after before : TaskRecord}

theorem TaskRecord.rescheduled_state (h : before.rescheduled after) :
    after = before ∨ taskIsExecutable before.state = true ∧
      (after.state = .ready ∨ after.state = .blocked ∨ after.state = .skipped) := by
  obtain rfl | ⟨hwaiting, st, hst, rfl⟩ := h
  · exact .inl rfl
  · exact .inr ⟨hwaiting, hst⟩

variable {C : RunSnapshot → RunEvent → Prop} {e : RunEvent} {P : Platform} {k : TaskId}
  {v : TaskView} {s : RunSnapshot}

theorem giveUp_settled (hs : ReachableWhere P C s) (hc : LastStanding s e) (hv : s.view k = some v)
    {id : AttemptId} {a a' : AttemptRecord} {failure : FailureClass} {reason : String}
    (hfails : e.Fails s id a failure) (ha : v.attempts[id]? = some a)
    (hend : a'.state.failedEnd = true) (hretry : willRetry s k failure = false) :
    TaskView.Settled { v with
      attempts := v.attempts.insert id a'
      task := (e.failing v.task).gaveUp failure reason } := by
  have hwinner : ∀ (j : AttemptId) (r : AttemptRecord), v.attempts[j]? = some r →
      r.state = .succeeded → v.task.winningAttempt = some j := by
    intro j r hr hstate
    exact (hs.winnerAgrees hv j).mpr ⟨r, hr, hstate⟩
  obtain ⟨task, htask, rfl⟩ := view_eq.mp hv
  obtain ⟨hget, rfl⟩ := attemptsOf_get.mp ha
  obtain ⟨hothers, hwin⟩ := hc id a failure hfails hretry
  -- The attempts other than this one are neither open nor succeeded.
  have hclosed : ∀ (j : AttemptId) (r : AttemptRecord),
      (attemptsOf s.attempts a.taskId)[j]? = some r → j ≠ id →
      r.state.isOpen = false ∧ r.state ≠ .succeeded := by
    intro j r hr hne
    obtain ⟨hrget, hrtask⟩ := attemptsOf_get.mp hr
    refine ⟨hothers j r hrget hrtask hne, ?_⟩
    intro hsucceeded
    have hj : task.winningAttempt = some j := hwinner j r hr hsucceeded
    cases hrejects : e.rejects with
    | false =>
      rw [hwin hrejects task htask] at hj
      cases hj
    | true =>
      have hstate := hfails.state
      rw [hrejects] at hstate
      have hid : task.winningAttempt = some id := hwinner id a ha hstate
      rw [hj] at hid
      cases hid
      exact hne rfl
  refine ⟨?_, ?_⟩
  · cases hrejects : e.rejects with
    | false =>
      have hfailing : e.failing task = task := by
        unfold RunEvent.failing
        rw [hrejects]
        rfl
      dsimp only
      rw [hfailing]
      exact hwin hrejects task htask
    | true =>
      dsimp only [gaveUp]
      unfold RunEvent.failing
      rw [hrejects]
      rfl
  · intro j r hr
    obtain ⟨-, rfl⟩ | ⟨hne, hr⟩ := OrdMap.get_insert_cases hr
    · exact ⟨AttemptState.isOpen_of_failedEnd hend, AttemptState.failedEnd_ne_succeeded hend⟩
    · exact hclosed j r hr (Ne.symm hne)

variable {v' : TaskView}

theorem TaskStep.failed_settled (hs : ReachableWhere P C s) (hc : LastStanding s e)
    (hv : s.view k = some v) (hI : v.task.state = .failed → v.Settled) (h : TaskStep s e k v v')
    (hfailed : v'.task.state = .failed) : v'.Settled := by
  -- A task that was failed before is over, and stays so; else only a final failure leads here.
  by_cases hbefore : v.task.state = .failed
  · exact (h.over ⟨.inl hbefore, hI hbefore⟩).1.2
  · cases h with
    | wait h =>
      obtain rfl | ⟨-, hstate⟩ := rescheduled_state h
      · exact absurd hfailed hbefore
      · rw [hfailed] at hstate
        simp at hstate
    | create =>
      dsimp only at hfailed
      split at hfailed
      · cases hfailed
      · exact absurd hfailed hbefore
    | claimExecution | suspend | resume | cancelTask | accept => cases hfailed
    | retry hfails ha hend hretry h =>
      obtain rfl | ⟨-, hstate⟩ := rescheduled_state h
      · cases hfailed
      · rw [hfailed] at hstate
        simp at hstate
    | giveUp hfails ha hend hretry => exact giveUp_settled hs hc hv hfails ha hend hretry
    | cancelRun =>
      dsimp only [cancelTaskRecord] at hfailed
      split at hfailed
      · cases hfailed
      · exact absurd hfailed hbefore
    | _ => exact absurd hfailed hbefore

/-- In a run in which only a last attempt fails a task, a failed task has no winner and no open
attempt, and it never succeeds later. -/
theorem failedTask_settled (P : Platform) {s : RunSnapshot} (h : ReachableWhere P LastStanding s)
    {k : TaskId} {task : TaskRecord} (htask : s.tasks[k]? = some task)
    (hfailed : task.state = .failed) :
    task.winningAttempt = none ∧
    (∀ (id : AttemptId) (a : AttemptRecord), s.attempts[id]? = some a → a.taskId = k →
      a.state ≠ .created ∧ a.state ≠ .leased ∧ a.state ≠ .starting ∧ a.state ≠ .running) ∧
    ∀ t, Relation.ReflTransGen (RunStep P) s t → ∀ task', t.tasks[k]? = some task' →
      task'.state ≠ .succeeded := by
  have hview : s.view k = some ⟨task, attemptsOf s.attempts k, s.speculation⟩ :=
    view_eq.mpr ⟨task, htask, rfl⟩
  have hsettled := h.task_invariant (I := fun v => v.task.state = .failed → v.Settled) ?_ ?_ hview
    hfailed
  · refine ⟨hsettled.winner, ?_, ?_⟩
    · intro id a ha hk
      have hclosed := (hsettled.closed id a (attemptsOf_get.mpr ⟨ha, hk⟩)).1
      revert hclosed
      cases a.state <;> simp [AttemptState.isOpen]
    · intro t hst task' htask' hsucceeded
      have hsteps := runSteps_events hst
      obtain ⟨v', hv', hover⟩ := task_onwards (I := TaskView.Over)
        (fun hover hstep => (hstep.over hover).1) h.sound hsteps hview ⟨.inl hfailed, hsettled⟩
      obtain ⟨task'', htask'', rfl⟩ := view_eq.mp hv'
      rw [htask'] at htask''
      cases htask''
      obtain hstate | hstate := hover.1
      all_goals
        rw [hsucceeded] at hstate
        cases hstate
  · intro k v hnew hstate
    obtain ⟨⟨binding, hresched⟩, -⟩ := hnew
    obtain heq | ⟨-, hstates⟩ := rescheduled_state hresched
    · rw [heq] at hstate
      cases hstate
    · rw [hstate] at hstates
      simp at hstates
  · intro s e k v v' hs hc hv hI hstep hstate
    exact hstep.failed_settled hs hc hv hI hstate

namespace Demo

/-- A test that passes a failure only if nobody has won, and it is retried or the last one. -/
def lastStandingTest (s : RunSnapshot) : RunCommand → Bool
  | .failAttempt c =>
    (s.tasks.allValues fun task => task.winningAttempt.isNone) &&
      (s.attempts[c.attemptId]?.all (fun a => willRetry s a.taskId
          ((c.timeoutKind.map failureClassForTimeout).getD c.failureClass)) ||
        s.attempts.toList.all fun x => decide (x.1 = c.attemptId) || !x.2.state.isOpen)
  | .expireLease _ => false
  | .rejectArtifact _ => false
  | _ => true

theorem lastStandingTest_holds (s : RunSnapshot) (c : RunCommand)
    (h : lastStandingTest s c = true) : LastStanding s (.command c) := by
  intro id a failure hfails hfinal
  have hevent := hfails.event
  cases c with
  | failAttempt =>
    cases hevent
    simp only [lastStandingTest, Bool.and_eq_true, Bool.or_eq_true, OrdMap.allValues_iff,
      Option.isNone_iff_eq_none, hfails.attempt, Option.all_some, List.all_eq_true] at h
    refine ⟨?_, fun _ task htask => h.1 a.taskId task htask⟩
    intro j r hr _ hne
    have hclosed := h.2.resolve_left (by simp [hfinal]) (j, r)
      (Std.ExtTreeMap.mem_toList_iff_getElem?_eq_some.mpr hr)
    simpa [hne] using hclosed
  | expireLease | rejectArtifact => cases h
  | _ => cases hevent

end Demo
open Demo

/-- One of two attempts fails with a retry, then the other for good. -/
theorem failedTask_settled_last :
    ∃ s task, ReachableWhere platform LastStanding s ∧ s.tasks["task"]? = some task ∧
      task.state = .failed ∧ task.winningAttempt = none := by
  have hs := ran_reachableWhere lastStandingTest_holds [createRun, startRun, createAttempt "a",
    createAttempt "b", leaseAttempt "a" 1 500, leaseAttempt "b" 2 500,
    failAttempt "b" .transientTransport, failAttempt "a" .permanentExecutionFailure]
    (by decide +kernel) rfl
  exact ⟨_, _, hs, rfl, rfl, (failedTask_settled platform hs (k := "task") rfl rfl).1⟩

/-- One of two attempts fails for good: the task is failed while the other still holds its lease,
hands in its result, and makes the task succeed. -/
theorem failedTask_succeeds :
    ∃ s task a, Reachable platform s ∧ s.tasks["task"]? = some task ∧
      task.state = .failed ∧ s.attempts["b"]? = some a ∧ a.taskId = "task" ∧ a.state = .leased ∧
      ∃ t task', Accepted platform s [completeAttempt "b" 2, acceptArtifact "task" "b"] t ∧
        t.tasks["task"]? = some task' ∧ task'.state = .succeeded := by
  have hs := ran_reachable [createRun, startRun, createAttempt "a", createAttempt "b",
    leaseAttempt "a" 1 500, leaseAttempt "b" 2 500, failAttempt "a" .permanentExecutionFailure] rfl
  exact ⟨_, _, _, hs, rfl, rfl, rfl, rfl, rfl, _, _, runCommands_accepted rfl, rfl, rfl⟩

/-- No event that sends a task back to work or fails it meets a task with an accepted artifact. -/
def AcceptedUntouched (s : RunSnapshot) (e : RunEvent) : Prop :=
  ∀ (id : AttemptId) (a : AttemptRecord) (task : TaskRecord), s.attempts[id]? = some a →
    s.tasks[a.taskId]? = some task →
    ((∃ failure, e.Fails s id a failure) ∨
      ∃ c : StartAttempt, e = .command (.claimExecution c) ∧ c.attemptId = id) →
    task.acceptedArtifact = none

/-- The artifact is accepted exactly on a task that has succeeded, and such a task has a winner. -/
structure TaskView.ArtifactMatches (v : TaskView) : Prop where
  accepted : v.task.acceptedArtifact.isSome = true ↔ v.task.state = .succeeded
  winner : v.task.state = .succeeded → v.task.winningAttempt.isSome = true

theorem TaskView.ArtifactMatches.none (haccepted : v.task.acceptedArtifact = none)
    (hstate : v.task.state ≠ .succeeded) : v.ArtifactMatches := by
  refine ⟨?_, fun h => absurd h hstate⟩
  rw [haccepted]
  simp [hstate]

theorem TaskView.ArtifactMatches.artifact_none (h : v.ArtifactMatches)
    (hstate : v.task.state ≠ .succeeded) : v.task.acceptedArtifact = Option.none := by
  cases hartifact : v.task.acceptedArtifact with
  | none => rfl
  | some =>
    exact absurd (h.accepted.mp (by rw [hartifact]; rfl)) hstate

theorem TaskRecord.rescheduled_artifact (h : before.rescheduled after) :
    after.acceptedArtifact = before.acceptedArtifact := by
  obtain rfl | ⟨-, st, -, rfl⟩ := h
  · rfl
  · rfl

theorem RunEvent.failing_artifact (e : RunEvent) (task : TaskRecord) :
    (e.failing task).acceptedArtifact = task.acceptedArtifact := by
  unfold RunEvent.failing
  split
  · rfl
  · rfl

theorem TaskStep.artifactMatches (hs : ReachableWhere P C s) (hc : AcceptedUntouched s e)
    (hv : s.view k = some v) (hI : v.ArtifactMatches) (h : TaskStep s e k v v') :
    v'.ArtifactMatches := by
  -- The events the condition speaks of meet a task without an artifact.
  have huntouched : ∀ (id : AttemptId) (a : AttemptRecord), v.attempts[id]? = some a →
      ((∃ failure, e.Fails s id a failure) ∨
        ∃ c : StartAttempt, e = .command (.claimExecution c) ∧ c.attemptId = id) →
      v.task.acceptedArtifact = none := by
    intro id a ha hevent
    obtain ⟨task, htask, rfl⟩ := view_eq.mp hv
    obtain ⟨hget, rfl⟩ := attemptsOf_get.mp ha
    exact hc id a task hget htask hevent
  have hnone : v.task.state ≠ .succeeded → v.task.acceptedArtifact = none := hI.artifact_none
  cases h with
  | @wait task h =>
    obtain rfl | ⟨hwaiting, hstate⟩ := rescheduled_state h
    · exact hI
    · refine .none ?_ ?_
      · refine (rescheduled_artifact h).trans (hnone ?_)
        intro hsucceeded
        rw [hsucceeded] at hwaiting
        cases hwaiting
      · intro hsucceeded
        rw [hsucceeded] at hstate
        simp at hstate
  | note | adjust | claimFinalization => exact ⟨hI.accepted, hI.winner⟩
  | create he hready =>
    refine .none (hnone ?_) ?_
    · intro hsucceeded
      rw [hsucceeded] at hready
      simp at hready
    · dsimp only
      split
      · simp
      · intro hsucceeded
        rw [hsucceeded] at hready
        simp at hready
  | claimExecution he ha =>
    exact .none (huntouched _ _ ha (.inr ⟨_, he, rfl⟩)) (by simp)
  | suspend ha hrun hsuspended hrunning =>
    exact .none (hnone (by simp [hrunning])) (by simp)
  | resume ha hsusp hstarting hparked =>
    exact .none (hnone (by simp [hparked])) (by simp)
  | complete => exact ⟨hI.accepted, fun _ => rfl⟩
  | retry hfails ha hend hretry h =>
    refine .none ?_ ?_
    · refine (rescheduled_artifact h).trans ?_
      exact (e.failing_artifact v.task).trans (huntouched _ _ ha (.inl ⟨_, hfails⟩))
    · obtain heq | ⟨-, hstate⟩ := rescheduled_state h
      · dsimp only
        rw [heq]
        simp [retried]
      · intro hsucceeded
        rw [hsucceeded] at hstate
        simp at hstate
  | giveUp hfails ha =>
    refine .none ?_ (by simp [gaveUp])
    exact (e.failing_artifact v.task).trans (huntouched _ _ ha (.inl ⟨_, hfails⟩))
  | cancelTask he hid hstate => exact .none (hnone hstate) (by simp)
  | cancelRun =>
    unfold cancelTaskRecord
    split
    · rename_i hgoing
      refine .none (hnone ?_) (by simp)
      intro hsucceeded
      rw [hsucceeded] at hgoing
      simp [taskIsExecutable, taskIsLocked] at hgoing
    · exact ⟨hI.accepted, hI.winner⟩
  | accept he ha hstate =>
    refine ⟨by simp, fun _ => ?_⟩
    dsimp only
    rw [(hs.winnerAgrees hv _).mpr ⟨_, ha, hstate⟩]
    rfl

/-- In a run in which no failure, rejection or dispatch meets an accepted artifact, an artifact is
accepted exactly on the tasks that have succeeded with a winner. -/
theorem acceptedArtifact_iff (P : Platform) {s : RunSnapshot}
    (h : ReachableWhere P AcceptedUntouched s) {k : TaskId} {task : TaskRecord}
    (htask : s.tasks[k]? = some task) :
    task.acceptedArtifact.isSome = true ↔
      task.state = .succeeded ∧ task.winningAttempt.isSome = true := by
  have hmatches := h.task_invariant (I := TaskView.ArtifactMatches) ?_ ?_
    (view_eq.mpr ⟨task, htask, rfl⟩)
  · constructor
    · intro haccepted
      have hstate := hmatches.accepted.mp haccepted
      exact ⟨hstate, hmatches.winner hstate⟩
    · intro hboth
      exact hmatches.accepted.mpr hboth.1
  · intro k v hnew
    obtain ⟨⟨binding, hresched⟩, -⟩ := hnew
    refine .none (rescheduled_artifact hresched) ?_
    obtain heq | ⟨-, hstate⟩ := rescheduled_state hresched
    · rw [heq]
      simp [newTask]
    · intro hsucceeded
      rw [hsucceeded] at hstate
      simp at hstate
  · intro s e k v v' hs hc hv hI hstep
    exact hstep.artifactMatches hs hc hv hI

namespace Demo

def untouchedTest (_ : RunSnapshot) : RunCommand → Bool
  | .failAttempt _ => false
  | .expireLease _ => false
  | .rejectArtifact _ => false
  | .claimExecution _ => false
  | _ => true

theorem untouchedTest_holds (s : RunSnapshot) (c : RunCommand) (h : untouchedTest s c = true) :
    AcceptedUntouched s (.command c) := by
  intro id a task _ _ hevent
  obtain ⟨failure, hfails⟩ | ⟨c', hclaim, -⟩ := hevent
  · have hnone := hfails.event
    cases c with
    | failAttempt | expireLease | rejectArtifact => cases h
    | _ => cases hnone
  · cases hclaim
    cases h

end Demo

theorem acceptedArtifact_iff_once :
    ∃ s task, ReachableWhere platform AcceptedUntouched s ∧ s.tasks["task"]? = some task ∧
      task.acceptedArtifact.isSome = true ∧ task.state = .succeeded := by
  have hs := ran_reachableWhere untouchedTest_holds (leasedUntil ++
    [completeAttempt "a" 1, acceptArtifact "task" "a"]) (by decide +kernel) rfl
  exact ⟨_, _, hs, rfl, rfl, ((acceptedArtifact_iff platform hs (k := "task") rfl).mp rfl).1⟩

/-- The artifact is accepted, and then rejected: the task fails and keeps it. -/
theorem acceptedArtifact_stale :
    ∃ s task, Reachable platform s ∧ s.tasks["task"]? = some task ∧
      task.acceptedArtifact = some artifact ∧ task.state = .failed ∧
      task.winningAttempt = none := by
  have hs := ran_reachable (leasedUntil ++
    [completeAttempt "a" 1, acceptArtifact "task" "a", rejectArtifact "task" "a"]) rfl
  exact ⟨_, _, hs, rfl, rfl, rfl, rfl⟩

end Tetonic.Run
