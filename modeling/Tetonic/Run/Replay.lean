import Tetonic.Lib.Journal
import Tetonic.Run.Refinement
set_option autoImplicit false

/-! Rebuilding a projection from the journal (`replay.rs`). -/

namespace Tetonic.Run
open Lib

variable (P : Platform)

def EventPayload.decode : EventPayload → Option RunCommand
  | .command c => some c
  | .other _ => none

def replayEvent (snap : RunSnapshot) (event : RunEventEnvelope) : RunOutcome RunSnapshot := do
  let command ← orFail event.payload.decode (.persistence (P.decodeError event.payload))
  refuseIf (event.sequence ≠ snap.sequence + 1)
    (.corruption ("Sequence gap in replay: expected " ++ toString (snap.sequence + 1)
      ++ ", got " ++ toString event.sequence))
  let next ← applyCommand P snap command
  pure { next with sequence := event.sequence }

def replayFromEvents (base : RunSnapshot) (events : List RunEventEnvelope) :
    RunOutcome RunSnapshot := do
  let snap ← replay (replayEvent P) { base with events := [] } events
  pure { snap with events }

/-! No transition reads the event list, and none changes it. -/

def RunSnapshot.withEvents (s : RunSnapshot) (events : List RunEventEnvelope) : RunSnapshot :=
  { s with events }

theorem RunSnapshot.withEvents_eq_self {s : RunSnapshot} {ev : List RunEventEnvelope}
    (h : s.events = ev) : s.withEvents ev = s := by
  subst h
  rfl

section WithEvents

variable (s : RunSnapshot) (ev : List RunEventEnvelope)

theorem taskIs_withEvents (id : TaskId) (p : TaskState → Bool) :
    taskIs (s.withEvents ev) id p = taskIs s id p := rfl

theorem dependenciesSatisfied_withEvents (id : TaskId) :
    dependenciesSatisfied (s.withEvents ev) id = dependenciesSatisfied s id := rfl

theorem setTaskState_withEvents (id : TaskId) (st : TaskState) :
    setTaskState (s.withEvents ev) id st = (setTaskState s id st).withEvents ev := rfl

theorem dependencyFailureEdge_withEvents (failedTask taskId : TaskId) (dep : TaskDependency) :
    dependencyFailureEdge failedTask taskId (s.withEvents ev) dep =
      (dependencyFailureEdge failedTask taskId s dep).withEvents ev := by
  unfold dependencyFailureEdge
  cases dep.policy with
  | allowPartial | continueOnFailure | requireSuccess =>
    simp only [taskIs_withEvents, dependenciesSatisfied_withEvents, setTaskState_withEvents,
      apply_ite (RunSnapshot.withEvents · ev)]
    rfl
  | fallbackTask =>
    simp only [taskIs_withEvents, setTaskState_withEvents, apply_ite (RunSnapshot.withEvents · ev)]
    rfl

theorem recomputeTask_withEvents (id : TaskId) :
    recomputeTask (s.withEvents ev) id = (recomputeTask s id).withEvents ev := by
  simp only [recomputeTask, taskIs_withEvents, dependenciesSatisfied_withEvents,
    setTaskState_withEvents, apply_ite (RunSnapshot.withEvents · ev)]
  rfl

theorem foldl_withEvents {α : Type} (f : RunSnapshot → α → RunSnapshot)
    (hf : ∀ s a, f (s.withEvents ev) a = (f s a).withEvents ev) (as : List α) :
    as.foldl f (s.withEvents ev) = (as.foldl f s).withEvents ev := by
  induction as generalizing s with
  | nil => rfl
  | cons a as ih => rw [List.foldl_cons, List.foldl_cons, hf, ih]

theorem recomputeBlockedReady_withEvents :
    recomputeBlockedReady (s.withEvents ev) = (recomputeBlockedReady s).withEvents ev :=
  foldl_withEvents s ev recomputeTask (fun s => recomputeTask_withEvents s ev) s.tasks.keys

theorem applyDependencyFailure_withEvents (failedTask : TaskId) :
    applyDependencyFailure (s.withEvents ev) failedTask =
      (applyDependencyFailure s failedTask).withEvents ev :=
  foldl_withEvents s ev _ (fun s e => foldl_withEvents s ev _
    (fun s => dependencyFailureEdge_withEvents s ev failedTask e.1) e.2) s.dependencies.toList

theorem applyFailureWithRetry_withEvents (taskId : TaskId) (failureClass : FailureClass)
    (reason : String) (now : UInt64) :
    applyFailureWithRetry P (s.withEvents ev) taskId failureClass reason now =
      (applyFailureWithRetry P s taskId failureClass reason now).map (·.withEvents ev) := by
  simp only [applyFailureWithRetry, map_bind_outcome, apply_ite (Except.map _), map_pure_outcome,
    ← recomputeBlockedReady_withEvents, ← applyDependencyFailure_withEvents]
  rfl

theorem applyCommand_withEvents (c : RunCommand) :
    applyCommand P (s.withEvents ev) c = (applyCommand P s c).map (·.withEvents ev) := by
  cases c with
  | createRun | leaseAttempt | startAttempt | claimExecution | suspendAttempt | resumeAttempt
  | recordHeartbeat | claimFinalization | acceptArtifact | cancelTask | recordAttemptQuiescence =>
    simp only [applyCommand, applyCreateRun, applyLeaseAttempt, applyStartAttempt,
      applyClaimExecution, suspend, resume, applyRecordHeartbeat, applyClaimFinalization,
      applyAcceptArtifact, applyCancelTask, applyAttemptQuiescence, map_bind_outcome,
      map_pure_outcome]
    rfl
  | startRun | addTask | addDependency =>
    simp only [applyCommand, applyStartRun, addTask, applyAddDependency, map_bind_outcome,
      map_pure_outcome, ← recomputeBlockedReady_withEvents]
    rfl
  | markTaskReady | cancelRun | finishRun | completeAttempt | recordSideEffectCommit =>
    simp only [applyCommand, applyMarkTaskReady, applyCancelRun, applyFinishRun,
      applyCompleteAttempt, applyWinnerSelection, applyRecordSideEffectCommit,
      Run.recordSideEffectCommit, map_bind_outcome, map_pure_outcome, apply_ite (Except.map _)]
    rfl
  | failAttempt | rejectArtifact | expireLease =>
    simp only [applyCommand, applyFailAttempt, applyRejectArtifact, applyExpireLease, expireAttempt,
      map_bind_outcome, map_pure_outcome, apply_ite (Except.map _),
      ← applyFailureWithRetry_withEvents]
    rfl
  | createAttempt c =>
    simp only [applyCommand, applyCreateAttempt, map_bind_outcome]
    have hfind : (c.deliveryKey.bind fun key => (s.withEvents ev).deliveryIndex[key]?) =
      c.deliveryKey.bind fun key => s.deliveryIndex[key]? := rfl
    rw [hfind]
    cases c.deliveryKey.bind fun key => s.deliveryIndex[key]? with
    | none | some =>
      simp only [map_bind_outcome, map_pure_outcome]
      rfl

end WithEvents

section Identity

variable {P} {s t : RunSnapshot}

theorem Effect.runId {c : RunCommand} (h : Effect s (.command c) t) (hid : s.runId = c.runId) :
    t.runId = c.runId := by
  cases h with
  | createRun => rfl
  | startRun | addTask | addDependency =>
    rw [(recomputeBlockedReady_rescheduled _).rest]
    exact hid
  | failed _ hhandled =>
    obtain ⟨_, _, hr⟩ := hhandled.rescheduled
    rw [hr.rest]
    exact hid
  | _ => exact hid

theorem applyCommand_runId {c : RunCommand} (h : applyCommand P s c = .ok t)
    (hid : s.runId = c.runId) : t.runId = c.runId :=
  (applyCommand_moves h).effect.runId hid

theorem applyCommand_events {c : RunCommand} (h : applyCommand P s c = .ok t) :
    t.events = s.events := by
  have hcongr := applyCommand_withEvents P s s.events c
  have hself : s.withEvents s.events = s := rfl
  rw [hself, h] at hcongr
  rw [Except.ok.inj hcongr]
  rfl

end Identity

section Journal

variable {P} {s t : RunSnapshot}

theorem replayEvent_eq_ok {e : RunEventEnvelope} :
    replayEvent P s e = .ok t ↔ ∃ c u, e.payload = .command c ∧ e.sequence = s.sequence + 1 ∧
      applyCommand P s c = .ok u ∧ { u with sequence := e.sequence } = t := by
  have hdecode : ∀ c, e.payload.decode = some c ↔ e.payload = .command c := by
    intro c
    cases e.payload with
    | command | other => simp [EventPayload.decode]
  simp only [replayEvent, bind_eq_ok, orFail_eq_ok, refuseIf_eq_ok, pure_eq_ok, hdecode, ne_eq,
    not_not, exists_const]
  constructor
  · rintro ⟨c, hc, hseq, u, hu, rfl⟩
    exact ⟨c, u, hc, hseq, hu, rfl⟩
  · rintro ⟨c, u, hc, hseq, hu, rfl⟩
    exact ⟨c, hc, hseq, u, hu, rfl⟩

section
variable {es : List RunEventEnvelope} (h : replay (replayEvent P) s es = .ok t)
include h

theorem replay_numbered :
    Consecutive RunEventEnvelope.sequence s.sequence es ∧ t.sequence = s.sequence + es.length := by
  induction es generalizing s with
  | nil =>
    cases h
    exact ⟨trivial, rfl⟩
  | cons e es ih =>
    obtain ⟨m, he, h⟩ := bind_eq_ok.mp h
    obtain ⟨c, u, -, hseq, -, rfl⟩ := replayEvent_eq_ok.mp he
    obtain ⟨hcons, hlast⟩ := ih h
    simp only [hseq] at hcons hlast
    refine ⟨⟨hseq, hcons⟩, ?_⟩
    rw [hlast, List.length_cons]
    omega

theorem replay_events : t.events = s.events := by
  refine replay_invariant (I := fun u => u.events = s.events) ?_ rfl h
  intro u e v hu hv
  obtain ⟨c, w, -, -, hw, rfl⟩ := replayEvent_eq_ok.mp hv
  exact (applyCommand_events hw).trans hu

end

def StartsRun (events : List RunEventEnvelope) : Prop :=
  ∃ c, events.head?.map (·.payload) = some (.command (.createRun c))

theorem replay_session {runId : RunId} {es : List RunEventEnvelope} (h : StartsRun es)
    (x y : Option SessionId) :
    replay (replayEvent P) (emptySnapshot runId x) es =
      replay (replayEvent P) (emptySnapshot runId y) es := by
  obtain ⟨c, hc⟩ := h
  cases es with
  | nil => simp at hc
  | cons e es =>
    have hpayload : e.payload = .command (.createRun c) := by simpa using hc
    have hfirst : replayEvent P (emptySnapshot runId x) e =
        replayEvent P (emptySnapshot runId y) e := by
      unfold replayEvent
      rw [hpayload]
      rfl
    show (replayEvent P (emptySnapshot runId x) e >>= fun m => replay (replayEvent P) m es) =
      (replayEvent P (emptySnapshot runId y) e >>= fun m => replay (replayEvent P) m es)
    rw [hfirst]

end Journal

end Tetonic.Run
