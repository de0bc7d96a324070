import Tetonic.Run.TaskLife
set_option autoImplicit false

/-! Who may finalize a task (`acceptance.rs`). A dead attempt never gains the claim. The claim and
the winner agree as long as no attempt completes past the claim of another: `try_accept_completion`
does not look at the claim. -/

namespace Tetonic.Run
open Lib

variable {P : Platform}

def AttemptState.dead : AttemptState → Bool
  | .failed | .timedOut | .leaseExpired | .superseded | .canceled => true
  | _ => false

theorem AttemptState.dead_not_inFlight {st : AttemptState} (h : st.dead = true) :
    st.inFlight = false := by
  revert h
  cases st <;> decide

theorem AttemptMove.dead {a a' : AttemptRecord} (h : AttemptMove a a')
    (hdead : a.state.dead = true) : a'.state.dead = true := by
  have hfly := AttemptState.dead_not_inFlight hdead
  cases h with
  | stay | beat | quiesce => exact hdead
  | lease hs | start hs | claim hs | park hs | wake hs =>
    rw [hs] at hdead
    cases hdead
  | win hs | fail hs =>
    rw [hs] at hfly
    cases hfly
  | lose | reject | cancel => rfl

theorem RunStep.dead {s t : RunSnapshot} (h : Relation.ReflTransGen (RunStep P) s t)
    {id : AttemptId} {a : AttemptRecord} (ha : s.attempts[id]? = some a)
    (hdead : a.state.dead = true) : ∃ a', t.attempts[id]? = some a' ∧ a'.state.dead = true := by
  replace h := runSteps_events h
  induction h with
  | refl => exact ⟨a, ha, hdead⟩
  | tail _ hstep ih =>
    obtain ⟨r, hr, hrdead⟩ := ih
    obtain ⟨e, -, ho⟩ := hstep
    obtain ⟨r', hr', hmove⟩ := ho.board_step.attempt_after hr
    exact ⟨r', hr', hmove.dead hrdead⟩

theorem applyClaimFinalization_inFlight {s t : RunSnapshot} {c : ClaimFinalization}
    (h : applyClaimFinalization P s c = .ok t)
    (hnew : ∀ task, s.tasks[c.taskId]? = some task → task.finalizationClaim ≠ some c.attemptId) :
    ∃ a, s.attempts[c.attemptId]? = some a ∧ a.state.inFlight = true := by
  simp only [applyClaimFinalization, bind_eq_ok, ensureNotRecovery_eq_ok, findTask_eq_ok,
    exists_const] at h
  obtain ⟨-, u, htry, task, htask, -⟩ := h
  obtain hclaim | ⟨-, -, a, ha, -, hfly⟩ := tryClaimFinalization_guard htry htask
  · exact absurd hclaim (hnew task htask)
  · exact ⟨a, ha, hfly⟩

/-- An attempt that failed, timed out, lost its lease or was superseded never gains the claim,
whatever lease proof it shows and however long its lease would still last. This needs nothing of
the snapshot `s`, reachable or not. -/
theorem deadAttempt_claims_nothing (P : Platform) (s : RunSnapshot) :
    (∀ (c : ClaimFinalization) (t : RunSnapshot), applyCommand P s (.claimFinalization c) = .ok t →
      (∀ task, s.tasks[c.taskId]? = some task → task.finalizationClaim ≠ some c.attemptId) →
      ∃ a, s.attempts[c.attemptId]? = some a ∧
        (a.state = .leased ∨ a.state = .starting ∨ a.state = .running ∨ a.state = .succeeded)) ∧
    ∀ (id : AttemptId) (a : AttemptRecord), s.attempts[id]? = some a →
      (a.state = .failed ∨ a.state = .timedOut ∨ a.state = .superseded ∨ a.state = .leaseExpired) →
      ∀ t, Relation.ReflTransGen (RunStep P) s t → ∀ c : ClaimFinalization, c.attemptId = id →
        (∀ task, t.tasks[c.taskId]? = some task → task.finalizationClaim ≠ some id) →
        ∃ error, applyCommand P t (.claimFinalization c) = .error error := by
  refine ⟨?_, ?_⟩
  · intro c t h hnew
    obtain ⟨a, ha, hfly⟩ := applyClaimFinalization_inFlight h hnew
    refine ⟨a, ha, ?_⟩
    revert hfly
    cases a.state <;> simp [AttemptState.inFlight]
  · intro id a ha hended t hst c hid hnew
    have hdead : a.state.dead = true := by
      obtain hended | hended | hended | hended := hended
      all_goals
        rw [hended]
        rfl
    obtain ⟨r, hr, hrdead⟩ := RunStep.dead hst ha hdead
    cases hclaim : applyCommand P t (.claimFinalization c) with
    | error error => exact ⟨error, rfl⟩
    | ok =>
      subst hid
      obtain ⟨r', hr', hfly⟩ := applyClaimFinalization_inFlight hclaim hnew
      rw [hr] at hr'
      cases hr'
      rw [AttemptState.dead_not_inFlight hrdead] at hfly
      cases hfly

namespace Demo

def claimFinalization (id : AttemptId) (epoch : UInt64) : RunCommand := .claimFinalization {
  envelope := envelope ("finalize:" ++ id) 7
  runId := "run"
  attemptId := id
  taskId := "task"
  taskVersion := 1
  inputDigest := "input:7"
  leaseProof := proof epoch }

end Demo
open Demo

theorem deadAttempt_claims_nothing_failed :
    ∃ s, Reachable platform s ∧
      ∃ error, applyCommand platform s (claimFinalization "a" 1) = .error error := by
  have hs := ran_reachable (leasedUntil ++ [failAttempt "a" .transientTransport]) rfl
  refine ⟨_, hs, (deadAttempt_claims_nothing platform _).2 "a" _ rfl (.inl rfl) _ .refl _ rfl ?_⟩
  intro task htask hclaim
  cases htask
  cases hclaim

/-- A new result is only handed in while the claim on its task is free, or by the attempt that
holds it. -/
def ClaimRespected (s : RunSnapshot) (e : RunEvent) : Prop :=
  ∀ (c : CompleteAttempt) (a : AttemptRecord) (task : TaskRecord),
    e = .command (.completeAttempt c) → s.attempts[c.attemptId]? = some a →
    a.state ≠ .succeeded → s.tasks[a.taskId]? = some task →
    task.finalizationClaim = none ∨ task.finalizationClaim = some c.attemptId

def TaskView.ClaimAgrees (v : TaskView) : Prop :=
  ∀ a b, v.task.finalizationClaim = some a → v.task.winningAttempt = some b → a = b

theorem RunEvent.failing_claim (e : RunEvent) (task : TaskRecord) :
    (e.failing task).finalizationClaim = task.finalizationClaim ∧
      ((e.failing task).winningAttempt = none ∨
        (e.failing task).winningAttempt = task.winningAttempt) := by
  unfold RunEvent.failing
  split
  · exact ⟨rfl, .inl rfl⟩
  · exact ⟨rfl, .inr rfl⟩

theorem TaskView.ClaimAgrees.mono {v v' : TaskView} (h : v.ClaimAgrees)
    (hclaim : v'.task.finalizationClaim = v.task.finalizationClaim)
    (hwin : v'.task.winningAttempt = none ∨ v'.task.winningAttempt = v.task.winningAttempt) :
    v'.ClaimAgrees := by
  intro a b ha hb
  rw [hclaim] at ha
  obtain hwin | hwin := hwin
  · rw [hwin] at hb
    cases hb
  · rw [hwin] at hb
    exact h a b ha hb

theorem cancelTaskRecord_idle (task : TaskRecord) :
    (cancelTaskRecord task).finalizationClaim = task.finalizationClaim ∧
      (cancelTaskRecord task).winningAttempt = task.winningAttempt := by
  unfold cancelTaskRecord
  split
  all_goals exact ⟨rfl, rfl⟩

theorem TaskStep.claimAgrees {s : RunSnapshot} {e : RunEvent} {k : TaskId} {v v' : TaskView}
    (hc : ClaimRespected s e) (hv : s.view k = some v) (hI : v.ClaimAgrees)
    (h : TaskStep s e k v v') : v'.ClaimAgrees := by
  cases h with
  | wait h => exact hI.mono h.idle.finalizationClaim (.inr h.idle.winningAttempt)
  | claimFinalization he hclaim =>
    intro a b ha hb
    cases ha
    obtain hclaim | ⟨-, hwin, -⟩ := hclaim
    · exact hI _ b hclaim hb
    · exact (hwin b hb).symm
  | @complete c r r' version he hr hfly =>
    obtain ⟨task, htask, rfl⟩ := view_eq.mp hv
    obtain ⟨hget, rfl⟩ := attemptsOf_get.mp hr
    intro a b ha hb
    cases hb
    have hopen : r.state ≠ .succeeded := by
      intro hstate
      rw [hstate] at hfly
      cases hfly
    obtain hnone | hown := hc c r task he hget hopen htask
    · rw [show task.finalizationClaim = some a from ha] at hnone
      cases hnone
    · rw [show task.finalizationClaim = some a from ha] at hown
      cases hown
      rfl
  | retry hfails ha hend hretry h =>
    obtain ⟨hclaim, hwin⟩ := e.failing_claim v.task
    refine hI.mono (h.idle.finalizationClaim.trans hclaim) ?_
    rw [h.idle.winningAttempt]
    exact hwin
  | giveUp =>
    obtain ⟨hclaim, hwin⟩ := e.failing_claim v.task
    exact hI.mono hclaim hwin
  | cancelRun =>
    obtain ⟨hclaim, hwin⟩ := cancelTaskRecord_idle v.task
    exact hI.mono hclaim (.inr hwin)
  | _ => exact hI.mono rfl (.inr rfl)

/-- In a run that respects the claims, the holder of a claim and the winner are one attempt. -/
theorem finalizationClaim_eq_winner (P : Platform) {s : RunSnapshot}
    (h : ReachableWhere P ClaimRespected s) {k : TaskId} {task : TaskRecord}
    (htask : s.tasks[k]? = some task) {a b : AttemptId} (ha : task.finalizationClaim = some a)
    (hb : task.winningAttempt = some b) : a = b := by
  have hagrees := h.task_invariant (I := TaskView.ClaimAgrees) ?_ ?_
    (view_eq.mpr ⟨task, htask, rfl⟩)
  · exact hagrees a b ha hb
  · intro k v hnew a b hclaim _
    obtain ⟨⟨binding, hresched⟩, -⟩ := hnew
    rw [hresched.idle.finalizationClaim] at hclaim
    cases hclaim
  · intro s e k v v' _ hc hv hI hstep
    exact hstep.claimAgrees hc hv hI

namespace Demo

def claimTest (s : RunSnapshot) : RunCommand → Bool
  | .completeAttempt c =>
    (s.attempts[c.attemptId]?.bind fun a => s.tasks[a.taskId]?).all fun task =>
      task.finalizationClaim.all (· = c.attemptId)
  | _ => true

theorem claimTest_respected (s : RunSnapshot) (c : RunCommand) (h : claimTest s c = true) :
    ClaimRespected s (.command c) := by
  intro c' a task he ha _ htask
  cases he
  simp only [claimTest, ha, Option.bind_some, htask, Option.all_some] at h
  cases hclaim : task.finalizationClaim with
  | none => exact .inl rfl
  | some =>
    rw [hclaim] at h
    exact .inr (congrArg some (by simpa using h))

end Demo

/-- The attempt that has claimed the finalization wins, beside a sibling. -/
theorem finalizationClaim_eq_winner_beside :
    ∃ s, ReachableWhere platform ClaimRespected s ∧ s.attempts["b"]?.isSome = true ∧
      ∃ task a b, s.tasks["task"]? = some task ∧ task.finalizationClaim = some a ∧
        task.winningAttempt = some b ∧ a = b := by
  have hs := ran_reachableWhere claimTest_respected [createRun, startRun, createAttempt "a",
    createAttempt "b", leaseAttempt "a" 1 500, leaseAttempt "b" 2 500, claimFinalization "a" 1,
    completeAttempt "a" 1] (by decide +kernel) rfl
  exact ⟨_, hs, rfl, _, _, _, rfl, rfl, rfl,
    finalizationClaim_eq_winner platform hs (k := "task") rfl rfl rfl⟩

/-- One attempt claims the finalization, and its sibling hands in its result and wins. -/
theorem completion_past_claim :
    ∃ s task, Reachable platform s ∧ s.tasks["task"]? = some task ∧
      task.finalizationClaim = some "a" ∧ task.winningAttempt = some "b" := by
  have hs := ran_reachable [createRun, startRun, createAttempt "a", createAttempt "b",
    leaseAttempt "a" 1 500, leaseAttempt "b" 2 500, claimFinalization "a" 1,
      completeAttempt "b" 2] rfl
  exact ⟨_, _, hs, rfl, rfl, rfl⟩

end Tetonic.Run
