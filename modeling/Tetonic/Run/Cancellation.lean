import Tetonic.Run.Projection
import Tetonic.Run.Winner
set_option autoImplicit false

/-! The cancellation of a task. It ends the attempts that are still open, but not one that has
completed: the artifact of such an attempt can be accepted or rejected afterwards, and either takes
the task out of `Canceled` again. -/

namespace Tetonic.Run
open Lib

variable {p : RunSnapshot} {a : AttemptRecord}
variable {P : Platform}

theorem LifeStep.runSteps {w w' : World} (h : LifeStep P w w') (hw : w.Traced P) {r : RunId}
    (hp : w.projection r = some p) :
    ∃ q, w'.projection r = some q ∧ Relation.ReflTransGen (RunStep P) p q := by
  cases h with
  | live h =>
    have hstep := h.projection hw.named r
    rw [hp] at hstep
    generalize w'.projection r = after at hstep
    cases hstep with
    | same => exact ⟨p, rfl, .refl⟩
    | commit hr hbase guarded accepted =>
      obtain ⟨c, -, hnone, -⟩ | ⟨hsome, -⟩ := baseSnapshot_eq_ok.mp hbase
      · cases hnone
      · cases hsome
        exact ⟨_, rfl, .single (.command accepted)⟩
  | restart env hstore =>
    obtain ⟨store, hstore⟩ := Option.isSome_iff_exists.mp hstore
    obtain ⟨hnone, -⟩ | ⟨p₀, q, hp₀, hq, hsteps⟩ := restart_projection (P := P) hstore env r
    · rw [hp] at hnone
      cases hnone
    · rw [hp] at hp₀
      cases hp₀
      refine ⟨q, hq, ?_⟩
      have htraced := hw r p hp
      clear hq hp
      suffices hall : Traced P r q ∧ Relation.ReflTransGen (RunStep P) p q from hall.2
      induction hsteps with
      | refl => exact ⟨htraced, .refl⟩
      | tail _ hpass ih => exact ⟨hpass.traced ih.1, ih.2.tail (hpass.runStep ih.1).1⟩

theorem lifeSteps_runSteps {w w' : World} (h : Relation.ReflTransGen (LifeStep P) w w')
    (hw : w.Traced P) {r : RunId} (hp : w.projection r = some p) :
    ∃ q, w'.projection r = some q ∧ Relation.ReflTransGen (RunStep P) p q := by
  suffices hall : w'.Traced P ∧
      ∃ q, w'.projection r = some q ∧ Relation.ReflTransGen (RunStep P) p q from hall.2
  induction h with
  | refl => exact ⟨hw, p, hp, .refl⟩
  | tail _ hstep ih =>
    obtain ⟨htraced, q, hq, hsteps⟩ := ih
    obtain ⟨q', hq', hmore⟩ := hstep.runSteps htraced hq
    exact ⟨hstep.traced htraced, q', hq', hsteps.trans hmore⟩

/-- Whatever is sent, and however often the process ends: no stored task or attempt is lost, and a
task keeps its finalization claim, and its binding but for the deadline. -/
theorem stored_kept {w w' : World} (hw : Lifetime P w)
    (h : Relation.ReflTransGen (LifeStep P) w w') {r : RunId} (hp : w.projection r = some p) :
    ∃ q, w'.projection r = some q ∧
      (∀ (k : TaskId) task, p.tasks[k]? = some task →
        ∃ task', q.tasks[k]? = some task' ∧ task.Keeps task') ∧
      ∀ (id : AttemptId) a, p.attempts[id]? = some a →
        ∃ a', q.attempts[id]? = some a' ∧ a'.taskId = a.taskId := by
  obtain ⟨q, hq, hsteps⟩ := lifeSteps_runSteps h hw.traced hp
  refine ⟨q, hq, ?_⟩
  have hevents := runSteps_events hsteps
  clear hq hsteps
  induction hevents with
  | refl => exact ⟨(TasksKeep.refl _).present, fun _ a ha => ⟨a, ha, rfl⟩⟩
  | tail _ hs ih =>
    obtain ⟨e, -, ho⟩ := hs
    constructor
    · intro k task hk
      obtain ⟨task₁, hk₁, hkeep⟩ := ih.1 k task hk
      obtain ⟨task', hk', hnext⟩ := ho.board_step.tasks_keep.present k task₁ hk₁
      exact ⟨task', hk', hkeep.trans hnext⟩
    · intro id a ha
      obtain ⟨a₁, ha₁, hid⟩ := ih.2 id a ha
      obtain ⟨a', ha', hmove⟩ := ho.board_step.attempt_after ha₁
      exact ⟨a', ha', hmove.ids.2.trans hid⟩

theorem stored_kept_restart : ∃ q task,
    (((World.start true 1000).handleAll Demo.platform 0 [Demo.createRun]).restart Demo.platform
      { now := 9, runIds := ["run"], globalQuotaBytes := 1000 }).projection "run" = some q ∧
      q.tasks["task"]? = some task := by
  obtain ⟨q, hq, hkept, -⟩ := stored_kept (P := Demo.platform) (r := "run")
    ((Live.start true 1000).handleAll 0 [Demo.createRun]).lifetime (.single (.restart _ _ rfl)) rfl
  obtain ⟨task, htask, -⟩ := hkept "task" _ rfl
  exact ⟨q, task, hq, htask⟩

/-- However a run came to be stored, its records fit together: each is under its own id, attempts
are of tasks that exist, and an open one holds a lease just if it is in flight. -/
theorem stored_sound {w : World} (hw : Lifetime P w) {r : RunId} (hp : w.projection r = some p) :
    p.board.Sound :=
  (hw.traced r p hp).reachable.sound

theorem stored_sound_leased : ∃ p, ((World.start true 1000).handleAll Demo.platform 0
    Demo.leasedUntil).projection "run" = some p ∧
      p.attempts["a"]?.map (·.state) = some .leased ∧ p.board.Sound :=
  ⟨_, rfl, by decide +kernel, stored_sound (P := Demo.platform) (r := "run")
    ((Live.start true 1000).handleAll 0 Demo.leasedUntil).lifetime rfl⟩

theorem handle_commits {w : World} (hw : w.Traced P) {env : CallEnv} {command : RunCommand}
    {result : RunCommandResult} (hok : (w.sup.handle P env command).2 = .ok result)
    (hnew : result.idempotentReplay = false) (hp : w.projection command.runId = some p) :
    ∃ applied, applyCommand P p command = .ok applied ∧
      (w.handle P env command).projection command.runId =
        some { applied with sequence := p.sequence + 1, events := [] } := by
  have hh := handle_handled (P := P) w.sup env command
  have hsup : (w.handle P env command).sup = (w.sup.handle P env command).1 := rfl
  rw [hok] at hh
  generalize (w.sup.handle P env command).1 = sup' at hh hsup
  generalize hout : (Except.ok result : RunOutcome RunCommandResult) = out at hh
  cases hh with
  | refused | overQuota => cases hout
  | replayed _ _ hhit =>
    cases hout
    obtain hhit | hhit := hhit
    · rw [checkCommandId_asReplay hhit] at hnew
      cases hnew
    · rw [checkIdempotency_asReplay hhit] at hnew
      cases hnew
  | committed hc =>
    obtain ⟨-, ⟨base, applied, hbase, -, -, haccepted, hafter⟩, -⟩ := hc.projections hw.named hsup
    rw [hp] at hbase
    obtain ⟨c, -, hnone, -⟩ | ⟨hsome, -⟩ := baseSnapshot_eq_ok.mp hbase
    · cases hnone
    · cases hsome
      exact ⟨applied, haccepted, hafter⟩

def NoneCompleted (p : RunSnapshot) (k : TaskId) : Prop :=
  ∀ (id : AttemptId) (a : AttemptRecord), p.attempts[id]? = some a → a.taskId = k →
    a.state ≠ .succeeded

theorem cancelAttempt_ended (h : a.state ≠ .succeeded) :
    (cancelAttempt a).state.isOpen = false ∧ (cancelAttempt a).state ≠ .succeeded := by
  unfold cancelAttempt
  split
  · exact ⟨rfl, by simp⟩
  · rename_i hkept
    refine ⟨?_, h⟩
    revert hkept
    cases a.state <;> simp [AttemptState.cancelable, AttemptState.isOpen]

theorem applyCancelTask_over {t : RunSnapshot} {c : CancelTask}
    (hp : ∀ v, p.view c.taskId = some v → v.WinnerAgrees)
    (h : applyCancelTask p c = .ok t) (hnone : NoneCompleted p c.taskId) :
    ∃ v, t.view c.taskId = some v ∧ v.Over ∧ v.task.state = .canceled := by
  simp only [applyCancelTask, bind_eq_ok, findTask_eq_ok, refuseIf_eq_ok, pure_eq_ok,
    exists_const] at h
  obtain ⟨task, htask, -, rfl⟩ := h
  refine ⟨_, view_eq.mpr ⟨{ task with state := .canceled }, OrdMap.get_insert_self _ _ _, rfl⟩, ?_,
    rfl⟩
  refine ⟨.inr rfl, ?_, ?_⟩
  · dsimp only
    cases hwin : task.winningAttempt with
    | none => rfl
    | some id =>
      obtain ⟨a, ha, hstate⟩ := (hp _ (view_eq.mpr ⟨task, htask, rfl⟩) id).mp hwin
      obtain ⟨ha, hk⟩ := attemptsOf_get.mp ha
      exact absurd hstate (hnone id a ha hk)
  · intro id r hr
    obtain ⟨hget, hk⟩ := attemptsOf_get.mp hr
    dsimp only at hget
    rw [OrdMap.get_map, Option.map_eq_some_iff] at hget
    obtain ⟨a, ha, rfl⟩ := hget
    have htaskId : a.taskId = c.taskId := by
      split at hk
      · rename_i heq
        exact heq
      · exact hk
    rw [if_pos htaskId]
    exact cancelAttempt_ended (hnone id a ha htaskId)

theorem applyAcceptArtifact_ok {s : RunSnapshot} {c : AcceptArtifact} {task : TaskRecord}
    (hrun : s.state ≠ .recoveryRequired) (ha : s.attempts[c.attemptId]? = some a)
    (hstate : a.state = .succeeded) (hid : a.taskId = c.taskId)
    (htask : s.tasks[c.taskId]? = some task) :
    applyAcceptArtifact s c = .ok { s with
      tasks := s.tasks.insert c.taskId
        { task with acceptedArtifact := some c.artifact, state := .succeeded } } := by
  simp only [applyAcceptArtifact, bind_eq_ok, ensureNotRecovery_eq_ok, findAttempt_eq_ok,
    findTask_eq_ok, refuseIf_eq_ok, pure_eq_ok, exists_const, not_not]
  exact ⟨hrun, a, ha, hstate, hid, task, htask, rfl⟩

theorem applyAcceptArtifact_canceled {t : RunSnapshot} {c : CancelTask}
    (h : applyCancelTask p c = .ok t) (hactive : p.state = .active) {id : AttemptId}
    (ha : p.attempts[id]? = some a) (hk : a.taskId = c.taskId) (hstate : a.state = .succeeded)
    {envelope : CommandEnvelope} (henvelope : envelope.expectedSequence = none)
    (artifact : ArtifactRef) (sequence : Nat) (events : List RunEventEnvelope) :
    checkBase { t with sequence, events }
        (.acceptArtifact ⟨envelope, c.runId, c.taskId, id, artifact⟩) = .ok () ∧
      ∃ u task, applyAcceptArtifact { t with sequence, events }
          ⟨envelope, c.runId, c.taskId, id, artifact⟩ = .ok u ∧
        u.tasks[c.taskId]? = some task ∧ task.state = .succeeded := by
  simp only [applyCancelTask, bind_eq_ok, findTask_eq_ok, refuseIf_eq_ok, pure_eq_ok,
    exists_const] at h
  obtain ⟨task, htask, -, rfl⟩ := h
  have hkept : cancelAttempt a = a := by
    unfold cancelAttempt
    rw [hstate]
    rfl
  refine ⟨?_, ?_⟩
  · simp [checkBase, checkExpectedSequence, RunCommand.envelope, henvelope, hactive,
      RunState.terminal]
  · refine ⟨_, _, applyAcceptArtifact_ok ?_ ?_ hstate hk (OrdMap.get_insert_self _ _ _),
      OrdMap.get_insert_self _ _ _, rfl⟩
    · dsimp only
      rw [hactive]
      simp
    · dsimp only
      rw [OrdMap.get_map, ha]
      simp [hk, hkept]

/-- A canceled task of which no attempt had completed stays canceled, whatever calls, compactions
and restarts follow. If one had, the next acceptance of its artifact passes every check. -/
theorem cancelTask_final {w : World} (h : Lifetime P w) {env : CallEnv} {c : CancelTask}
    {result : RunCommandResult} (hok : (w.sup.handle P env (.cancelTask c)).2 = .ok result)
    (hnew : result.idempotentReplay = false) {p : RunSnapshot}
    (hp : w.projection c.runId = some p) :
    (NoneCompleted p c.taskId →
      ∀ w', Relation.ReflTransGen (LifeStep P) (w.handle P env (.cancelTask c)) w' →
        ∃ q task, w'.projection c.runId = some q ∧ q.tasks[c.taskId]? = some task ∧
          task.state = .canceled) ∧ (p.state = .active → ¬ NoneCompleted p c.taskId →
      ∃ (q : RunSnapshot) (id : AttemptId),
        (w.handle P env (.cancelTask c)).projection c.runId = some q ∧
        ∀ (envelope : CommandEnvelope) (artifact : ArtifactRef), envelope.expectedSequence = none →
          checkBase q (.acceptArtifact ⟨envelope, c.runId, c.taskId, id, artifact⟩) = .ok () ∧
          ∃ t task, applyCommand P q
              (.acceptArtifact ⟨envelope, c.runId, c.taskId, id, artifact⟩) = .ok t ∧
            t.tasks[c.taskId]? = some task ∧ task.state = .succeeded) := by
  have htraced := h.traced
  obtain ⟨applied, happlied, hafter⟩ := handle_commits htraced hok hnew hp
  refine ⟨?_, ?_⟩
  · intro hnone w' hsteps
    have hreach := (htraced c.runId p hp).reachable
    obtain ⟨v, hv, hover, hcanceled⟩ := applyCancelTask_over
      (fun _ => hreach.events.winnerAgrees) happlied hnone
    obtain ⟨q, hq, hrun⟩ := lifeSteps_runSteps hsteps (h.handle env _).traced hafter
    have hsound := ((h.handle env _).traced c.runId _ hafter).reachable.sound
    obtain ⟨v', hv', -, hstate⟩ := task_onwards
      (I := fun v => v.Over ∧ v.task.state = .canceled)
      (fun hI hstep => ⟨(hstep.over hI.1).1, (hstep.over hI.1).2 hI.2⟩) hsound
      (runSteps_events hrun) hv ⟨hover, hcanceled⟩
    obtain ⟨task, htask, rfl⟩ := view_eq.mp hv'
    exact ⟨q, task, hq, htask, hstate⟩
  · intro hactive hsome
    simp only [NoneCompleted, not_forall, not_not] at hsome
    obtain ⟨id, a, ha, hk, hstate⟩ := hsome
    refine ⟨_, id, hafter, ?_⟩
    intro envelope artifact henvelope
    exact applyAcceptArtifact_canceled happlied hactive ha hk hstate henvelope artifact _ _

namespace Demo

def leasedTask : World :=
  (World.start true 1000).handleAll platform 0
    [createRun, startRun, createAttempt "a", leaseAttempt "a" 0 100]

def cancelCommand : CancelTask := ⟨envelope "cancel:task" 8, "run", "task"⟩

/-- The task is canceled after its attempt handed in a result nobody has looked at. -/
def canceledLate : World :=
  (World.start true 1000).handleAll platform 0
    [createRun, startRun, createAttempt "a", leaseAttempt "a" 0 100, completeAttempt "a" 1,
      .cancelTask cancelCommand]

def cancelEnv : CallEnv := { eventId := "cancel" }

def isNew (out : RunOutcome RunCommandResult) : Bool :=
  out.toOption.any fun result => !result.idempotentReplay

end Demo
open Demo

theorem cancelTask_final_leased :
    isNew (leasedTask.sup.handle platform cancelEnv (.cancelTask cancelCommand)).2 = true ∧
      ∀ w', Relation.ReflTransGen (LifeStep platform)
          (leasedTask.handle platform cancelEnv (.cancelTask cancelCommand)) w' →
        ∃ q task, w'.projection "run" = some q ∧ q.tasks["task"]? = some task ∧
          task.state = .canceled := by
  have hlife : Lifetime platform leasedTask := ((Live.start true 1000).handleAll 0 _).lifetime
  refine ⟨rfl, (cancelTask_final hlife rfl rfl rfl).1 ?_⟩
  intro id a ha _ hstate
  have hopen := (OrdMap.anyValue_eq_false _ fun a => decide (a.state = .succeeded)).mp rfl id a ha
  exact of_decide_eq_false hopen hstate

/-- The task is canceled after its attempt completed, and accepting the artifact then makes it
succeed. -/
theorem canceledTask_revived :
    ∃ p task q task',
      Lifetime platform canceledLate ∧
      canceledLate.projection "run" = some p ∧ p.state = .active ∧
      p.tasks["task"]? = some task ∧ task.state = .canceled ∧
      (canceledLate.handle platform { eventId := "accept" }
        (acceptArtifact "task" "a")).projection "run" = some q ∧
      q.tasks["task"]? = some task' ∧ task'.state = .succeeded := by
  exact ⟨_, _, _, _, ((Live.start true 1000).handleAll 0 _).lifetime, rfl, rfl, rfl, rfl, rfl,
    rfl, rfl⟩

end Tetonic.Run
