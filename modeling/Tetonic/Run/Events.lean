import Tetonic.Run.Reachable
set_option autoImplicit false

/-! What the events of a run leave as it is, and the invariants that follow from their effects. -/

namespace Tetonic.Run
open Lib

variable {s t : RunSnapshot} {C : RunSnapshot → RunEvent → Prop} {e : RunEvent} {P : Platform}
  {a : AttemptRecord} {id : AttemptId}

theorem Effect.task_kept (h : Effect s e t) {k : TaskId} (hk : s.tasks[k]?.isSome = true) :
    t.tasks[k]?.isSome = true := by
  have hinsert : ∀ (j : TaskId) (r : TaskRecord), (s.tasks.insert j r)[k]?.isSome = true := by
    intro j r
    rw [OrdMap.get_insert]
    split
    · rfl
    · exact hk
  have hpass : ∀ {u v : RunSnapshot}, Rescheduled u v → u.tasks[k]?.isSome = true →
      v.tasks[k]?.isSome = true := by
    intro u v huv hu
    obtain ⟨task, hu⟩ := Option.isSome_iff_exists.mp hu
    obtain ⟨task', hv, -⟩ := huv.present k task hu
    rw [hv]
    rfl
  cases h with
  | still | adjust => exact hk
  | createRun | markReady | createAttempt | claimExecution | suspend | resume | claimFinalization
  | complete | cancelTask | accept | note => exact hinsert _ _
  | startRun | addDependency => exact hpass (recomputeBlockedReady_rescheduled _) hk
  | addTask => exact hpass (recomputeBlockedReady_rescheduled _) (hinsert _ _)
  | failed _ hhandled =>
    obtain ⟨_, _, hr⟩ := hhandled.rescheduled
    exact hpass hr (hinsert _ _)
  | cancelRun =>
    dsimp only
    rw [OrdMap.get_map, Option.isSome_map]
    exact hk

theorem cancelTaskRecord_executable (task : TaskRecord) :
    taskIsExecutable (cancelTaskRecord task).state = false := by
  unfold cancelTaskRecord
  split
  · rfl
  · rename_i hkept
    rw [← Bool.not_eq_true]
    exact fun hexec => hkept (.inl hexec)

theorem Effect.dependencies (h : Effect s e t) :
    t.dependencies = s.dependencies ∨ ∃ c : AddDependency, s.tasks[c.taskId]?.isSome = true ∧
        s.tasks[c.dependsOn]?.isSome = true ∧
        wouldCreateCycle s.dependencies c.taskId c.dependsOn = false ∧
        t.dependencies = s.dependencies.insert c.taskId
          (s.dependencies[c.taskId]?.getD [] ++ [⟨c.dependsOn, c.policy⟩]) := by
  cases h with
  | @addDependency c task target htask hlocked htarget hcycle =>
    refine .inr ⟨c, by rw [htask]; rfl, by rw [htarget]; rfl, hcycle, ?_⟩
    rw [recomputeBlockedReady_eq]
  | startRun | addTask => exact .inl (by rw [recomputeBlockedReady_eq])
  | failed _ hhandled =>
    obtain ⟨_, _, hr⟩ := hhandled.rescheduled
    exact .inl (by rw [hr.rest])
  | _ => exact .inl rfl

variable {failure : FailureClass}

theorem RunEvent.Fails.unique {id' : AttemptId} {a' : AttemptRecord} {failure' : FailureClass}
    (h : e.Fails s id a failure) (h' : e.Fails s id' a' failure') :
    id = id' ∧ a = a' ∧ failure = failure' := by
  have hevent := h.event.symm.trans h'.event
  cases hevent
  have hattempt := h.attempt.symm.trans h'.attempt
  cases hattempt
  exact ⟨rfl, rfl, rfl⟩

theorem Occurs.handled (h : Occurs P s e t) (hfails : e.Fails s id a failure) :
    ∃ u sequence events, FailureHandled s e id a failure u ∧ t = { u with sequence, events } := by
  have hevent := hfails.event
  cases h with
  | @command c u sequence events h =>
    refine ⟨u, sequence, events, ?_, rfl⟩
    cases c with
    | failAttempt =>
      obtain ⟨-, -, a', failure', hfails', hhandled⟩ := applyFailAttempt_handled h
      obtain ⟨rfl, rfl, rfl⟩ := hfails.unique hfails'
      exact hhandled
    | rejectArtifact =>
      obtain ⟨-, -, a', hfails', hhandled⟩ := applyRejectArtifact_handled h
      obtain ⟨rfl, rfl, rfl⟩ := hfails.unique hfails'
      exact hhandled
    | expireLease c =>
      have hfly : a.state.inFlight = true := hfails.state
      have ha := hfails.attempt
      cases hevent
      replace h : applyExpireLease P s c = .ok u := h
      simp only [applyExpireLease, bind_eq_ok, findAttempt_eq_ok, ha, Option.some.injEq,
        exists_eq_left', hfly, Bool.true_eq_false, if_false] at h
      exact expireAttempt_handled rfl h
    | _ => cases hevent
  | @expire id' a' now t ha hexp h =>
    cases hevent
    have hsame := hfails.attempt.symm.trans ha
    cases hsame
    exact ⟨t, t.sequence, t.events, expireAttempt_handled rfl h, rfl⟩
  | quarantine => cases hevent

/-- What holds of the empty snapshot, does not read the stamp, and is kept by each effect of an
event that meets the condition, holds in every snapshot that such events reach. -/
theorem ReachableWhere.invariant {I : RunSnapshot → Prop}
    (h0 : ∀ runId session, I (emptySnapshot runId session))
    (hstamp : ∀ (u : RunSnapshot) (sequence : Nat) (events : List RunEventEnvelope), I u →
      I { u with sequence, events })
    (hstep : ∀ {s u : RunSnapshot} {e : RunEvent}, ReachableWhere P C s → C s e → I s →
      Effect s e u → I u) (h : ReachableWhere P C s) : I s := by
  obtain ⟨runId, session, hr⟩ := h
  induction hr with
  | refl => exact h0 runId session
  | @tail s t hr hs ih =>
    have hreach : ReachableWhere P C s := ⟨runId, session, hr⟩
    obtain ⟨e, hc, ho⟩ := hs
    obtain ⟨u, sequence, events, hmoves, rfl⟩ := ho.moves
    exact hstamp u sequence events (hstep hreach hc ih hmoves.effect)

/-- Each command passes the test in the snapshot it meets, and is accepted. -/
def meets (P : Platform) (test : RunSnapshot → RunCommand → Bool) :
    RunSnapshot → List RunCommand → Bool
  | _, [] => true
  | s, c :: cs =>
    test s c && (applyCommand P s c).toOption.any fun t =>
      meets P test { t with sequence := s.sequence + 1 } cs

variable {cs : List RunCommand} {test : RunSnapshot → RunCommand → Bool}

theorem meets_trace (htest : ∀ s c, test s c = true → C s (.command c))
    (hmeets : meets P test s cs = true) (hrun : runCommands P s cs = .ok t) :
    Trace P C s (cs.map .command) t := by
  induction cs generalizing s with
  | nil =>
    cases hrun
    exact .nil
  | cons c cs ih =>
    unfold runCommands at hrun
    simp only [meets, Bool.and_eq_true] at hmeets
    obtain ⟨hc, hrest⟩ := hmeets
    cases happly : applyCommand P s c with
    | error =>
      rw [happly] at hrun
      cases hrun
    | ok =>
      rw [happly] at hrun hrest
      exact .cons (htest s c hc) (.command happly) (ih hrest hrun)

theorem Accepted.trace {cs : List RunCommand} (h : Accepted P s cs t) :
    Trace P (fun _ _ => True) s (cs.map .command) t := by
  induction h with
  | nil => exact .nil
  | cons h _ ih => exact .cons trivial (.command h) ih

namespace Demo

theorem occurs (c : RunCommand) (h : applyCommand platform s c = .ok t) :
    Occurs platform s (.command c) t := .command h

section
variable (htest : ∀ s c, test s c = true → C s (.command c)) (cs : List RunCommand)
  (hmeets : meets platform test (emptySnapshot "run" none) cs = true) (hrun : ran cs = .ok s)
include htest hmeets hrun

theorem ran_trace : Trace platform C (emptySnapshot "run" none) (cs.map .command) s :=
  meets_trace htest hmeets hrun

theorem ran_reachableWhere : ReachableWhere platform C s :=
  (ran_trace htest cs hmeets hrun).reachable

end

def taskHas (id : TaskId) (p : TaskRecord → Bool) (s : RunSnapshot) : Bool := s.tasks[id]?.any p

theorem taskHas_iff {id : TaskId} {p : TaskRecord → Bool} :
    taskHas id p s = true ↔ ∃ task, s.tasks[id]? = some task ∧ p task = true := by
  unfold taskHas
  cases s.tasks[id]? with
  | none | some => simp

def addTask (id : TaskId) : RunCommand := .addTask ⟨envelope ("add:" ++ id) 3, "run", id, .default⟩

def addDependency (id dependsOn : TaskId) (policy : DependencyPolicy) : RunCommand :=
  .addDependency ⟨envelope ("edge:" ++ id) 3, "run", id, dependsOn, policy⟩

def failAttempt (id : AttemptId) (failure : FailureClass) : RunCommand := .failAttempt {
  envelope := envelope ("fail:" ++ id) 7
  runId := "run"
  attemptId := id
  failureClass := failure
  reason := "it failed"
  leaseProof := none
  timeoutKind := none }

def artifact : ArtifactRef := ⟨"artifact", "digest"⟩

def acceptArtifact (task : TaskId) (id : AttemptId) : RunCommand :=
  .acceptArtifact ⟨envelope ("accept:" ++ id) 8, "run", task, id, artifact⟩

def rejectArtifact (task : TaskId) (id : AttemptId) : RunCommand :=
  .rejectArtifact ⟨envelope ("reject:" ++ id) 8, "run", task, id, "artifact", "not good enough"⟩

end Demo

end Tetonic.Run
