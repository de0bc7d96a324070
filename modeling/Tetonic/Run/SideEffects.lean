import Tetonic.Run.Leases
import Tetonic.Run.RetryLimit
import Tetonic.Run.TaskLife
set_option autoImplicit false

/-! Committed side effects. An operation key is committed once in a run and for good, and a task
with a committed key is not tried again. -/

namespace Tetonic.Run
open Lib RunEvent

variable {P : Platform} {C : RunSnapshot → RunEvent → Prop} {s t : RunSnapshot} {e : RunEvent}
  {es : List RunEvent}

def RunEvent.commitKey : RunEvent → Option String
  | .command (.recordSideEffectCommit c) => some c.operationKey
  | _ => none

theorem Effect.commits (h : Effect s e t) : CommitStep s e t.sideEffectCommits := by
  cases h with
  | still hcommits | note _ _ hcommits => exact hcommits
  | startRun | addTask | addDependency =>
    rw [(recomputeBlockedReady_rescheduled _).rest]
    exact .inl rfl
  | failed _ hhandled =>
    obtain ⟨_, _, hr⟩ := hhandled.rescheduled
    rw [hr.rest]
    exact .inl rfl
  | _ => exact .inl rfl

theorem Occurs.commit (h : Occurs P s e t) {key : String} (hkey : e.commitKey = some key) :
    s.sideEffectCommits[key]?.any (·.committed) = false ∧
      ∃ r, t.sideEffectCommits[key]? = some r := by
  cases h with
  | @command c u n events h =>
    cases c with
    | recordSideEffectCommit =>
      cases hkey
      simp only [applyCommand, applyRecordSideEffectCommit, recordSideEffectCommit, bind_eq_ok,
        refuseIf_eq_ok, pure_eq_ok, exists_const] at h
      obtain ⟨hfree, rfl⟩ := h
      exact ⟨Bool.eq_false_iff.mpr hfree, _, OrdMap.get_insert_self _ _ _⟩
    | _ => cases hkey
  | expire | quarantine => cases hkey

def RunSnapshot.AllCommitted (s : RunSnapshot) : Prop :=
  ∀ (key : String) (r : SideEffectCommitRecord),
    s.sideEffectCommits[key]? = some r → r.committed = true

theorem Occurs.commits_kept (h : Occurs P s e t) (hall : s.AllCommitted) :
    t.AllCommitted ∧ ∀ (key : String) (r : SideEffectCommitRecord),
      s.sideEffectCommits[key]? = some r → t.sideEffectCommits[key]? = some r := by
  obtain ⟨u, n, events, hmoves, rfl⟩ := h.moves
  show u.AllCommitted ∧ ∀ key r, _ → u.sideEffectCommits[key]? = some r
  rcases hmoves.effect.commits with heq | hnew
  · unfold RunSnapshot.AllCommitted
    rw [heq]
    exact ⟨hall, fun key r hr => hr⟩
  · obtain ⟨c, -, hfree, heq⟩ := hnew
    unfold RunSnapshot.AllCommitted
    rw [heq]
    constructor
    · intro key r hr
      obtain ⟨-, rfl⟩ | ⟨-, hr⟩ := OrdMap.get_insert_cases hr
      · rfl
      · exact hall key r hr
    · intro key r hr
      have hne : c.operationKey ≠ key := by
        intro h
        rw [h, hr, Option.any_some, hall key r hr] at hfree
        cases hfree
      rw [OrdMap.get_insert_ne _ _ hne, hr]

theorem Trace.commits_kept (h : Trace P C s es t) (hall : s.AllCommitted) :
    t.AllCommitted ∧ ∀ (key : String) (r : SideEffectCommitRecord),
      s.sideEffectCommits[key]? = some r → t.sideEffectCommits[key]? = some r := by
  induction h with
  | nil => exact ⟨hall, fun key r hr => hr⟩
  | snoc _ _ ho ih =>
    obtain ⟨hall', hkept⟩ := ho.commits_kept ih.1
    exact ⟨hall', fun key r hr => hkept key r (ih.2 key r hr)⟩

theorem Trace.commits_once {runId : RunId} {session : Option SessionId}
    (h : Trace P C (emptySnapshot runId session) es s) :
    s.AllCommitted ∧ (es.filterMap commitKey).Nodup ∧
      ∀ key ∈ es.filterMap commitKey, ∃ r, s.sideEffectCommits[key]? = some r := by
  induction h with
  | nil => exact ⟨fun key r hr => by simp [emptySnapshot] at hr, by simp, by simp⟩
  | @snoc es e s t htrace _ ho ih =>
    obtain ⟨hall, hnodup, hpresent⟩ := ih
    obtain ⟨hall', hkept⟩ := ho.commits_kept hall
    refine ⟨hall', ?_⟩
    have hstill : ∀ key ∈ es.filterMap commitKey, ∃ r, t.sideEffectCommits[key]? = some r := by
      intro key hkey
      obtain ⟨r, hr⟩ := hpresent key hkey
      exact ⟨r, hkept key r hr⟩
    cases hkey : e.commitKey with
    | none =>
      rw [List.filterMap_append, List.filterMap_cons_none hkey, List.filterMap_nil, List.append_nil]
      exact ⟨hnodup, hstill⟩
    | some =>
      obtain ⟨hfree, hr⟩ := ho.commit hkey
      rw [List.filterMap_append, List.filterMap_cons_some hkey, List.filterMap_nil]
      constructor
      · refine List.nodup_append.mpr ⟨hnodup, by simp, ?_⟩
        intro key' hmem key'' hkey'' heq
        rw [List.mem_singleton.mp hkey''] at heq
        subst heq
        obtain ⟨r, hr⟩ := hpresent _ hmem
        rw [hr, Option.any_some, hall _ r hr] at hfree
        cases hfree
      · intro key' hmem
        rcases List.mem_append.mp hmem with hmem | hmem
        · exact hstill key' hmem
        · rw [List.mem_singleton.mp hmem]
          exact hr

theorem RunEvent.failing_keys (e : RunEvent) (task : TaskRecord) :
    (e.failing task).sideEffectKeys = task.sideEffectKeys := by
  unfold failing
  split
  · rfl
  · rfl

theorem TaskStep.keys {k : TaskId} {v v' : TaskView} (h : TaskStep s e k v v') :
    ∀ key ∈ v.task.sideEffectKeys, key ∈ v'.task.sideEffectKeys := by
  intro key hkey
  cases h with
  | wait h =>
    obtain ⟨state, rfl⟩ := h.eq
    exact hkey
  | note hkeys => exact hkeys key hkey
  | retry _ _ _ _ h =>
    obtain ⟨state, rfl⟩ := h.eq
    exact (e.failing_keys v.task).symm ▸ hkey
  | giveUp => exact (e.failing_keys v.task).symm ▸ hkey
  | cancelRun =>
    dsimp only
    unfold cancelTaskRecord
    split
    all_goals exact hkey
  | _ => exact hkey

theorem canRetrySideEffects_false {k : TaskId} {task : TaskRecord} {key : String}
    {r : SideEffectCommitRecord} (htask : s.tasks[k]? = some task)
    (hkey : key ∈ task.sideEffectKeys) (hr : s.sideEffectCommits[key]? = some r)
    (hcommitted : r.committed = true) : canRetrySideEffects s k = false := by
  simp only [canRetrySideEffects, htask, List.all_eq_false]
  exact ⟨key, hkey, by simp [hr, hcommitted]⟩

/-- An event that reports an attempt as failed fails it, an `ExpireLease` of an attempt that is not
in flight apart. -/
theorem Occurs.fails (h : Occurs P s e t) {id : AttemptId} {a : AttemptRecord}
    {failure : FailureClass} (hevent : e.failure = some (id, failure))
    (ha : s.attempts[id]? = some a)
    (hfly : ∀ c, e = .command (.expireLease c) → a.state.inFlight = true) :
    e.Fails s id a failure := by
  refine ⟨hevent, ha, ?_⟩
  cases h with
  | @command c u n events h =>
    cases c with
    | failAttempt =>
      obtain ⟨-, -, b, failure', hfails, -⟩ := applyFailAttempt_handled h
      cases hevent
      have hb := hfails.attempt
      rw [ha] at hb
      cases hb
      exact hfails.state
    | rejectArtifact =>
      obtain ⟨-, -, b, hfails, -⟩ := applyRejectArtifact_handled h
      cases hevent
      have hb := hfails.attempt
      rw [ha] at hb
      cases hb
      exact hfails.state
    | expireLease c => exact hfly c rfl
    | _ => cases hevent
  | expire hb hexp =>
    cases hevent
    rw [ha] at hb
    cases hb
    simp only [AttemptRecord.expiredAt, Bool.and_eq_true] at hexp
    exact hexp.1
  | quarantine => cases hevent

/-- An operation key is committed at most once in a run, and its record stays as it is. Once a task
has a committed key, no failure of an attempt at it leaves it ready. -/
theorem commits_final (P : Platform) {runId : RunId} {session : Option SessionId}
    {es : List RunEvent} {s : RunSnapshot}
    (h : Trace P (fun _ _ => True) (emptySnapshot runId session) es s) :
    (es.filterMap commitKey).Nodup ∧ ∀ later t, Trace P (fun _ _ => True) s later t →
      (∀ (key : String) (r : SideEffectCommitRecord), s.sideEffectCommits[key]? = some r →
        t.sideEffectCommits[key]? = some r) ∧
      ∀ (k : TaskId) (task : TaskRecord) (key : String) (r : SideEffectCommitRecord),
        s.tasks[k]? = some task → key ∈ task.sideEffectKeys →
        s.sideEffectCommits[key]? = some r → r.committed = true →
        ∀ (e : RunEvent) (u : RunSnapshot) (id : AttemptId) (a : AttemptRecord)
          (failure : FailureClass), Occurs P t e u → e.failure = some (id, failure) →
          t.attempts[id]? = some a → a.taskId = k →
          (∀ c, e = .command (.expireLease c) → a.state.inFlight = true) →
          ∃ task', u.tasks[k]? = some task' ∧ task'.state ≠ .ready := by
  obtain ⟨hall, hnodup, -⟩ := h.commits_once
  refine ⟨hnodup, ?_⟩
  intro later t hlater
  obtain ⟨-, hkept⟩ := hlater.commits_kept hall
  refine ⟨hkept, ?_⟩
  intro k task key r htask hkey hr hcommitted e u id a failure ho hevent ha hk hfly
  subst hk
  have ht := h.reachable.trace hlater
  -- the task still has the key
  obtain ⟨v, hv, hkeyv⟩ := task_onwards (I := fun v => key ∈ v.task.sideEffectKeys)
    (fun hI hstep => hstep.keys key hI) h.reachable.sound hlater.steps
    (view_eq.mpr ⟨task, htask, rfl⟩) hkey
  obtain ⟨now, hnow, rfl⟩ := view_eq.mp hv
  obtain ⟨w, n, events, hhandled, rfl⟩ := ho.handled (ho.fails hevent ha hfly)
  obtain ⟨old, new, hold, hnew, -, -, -, hready⟩ := hhandled.task ht.graphSound
  refine ⟨new, hnew, ?_⟩
  intro hstate
  have hno := canRetrySideEffects_false hnow hkeyv (hkept key r hr) hcommitted
  have hyes := ((willRetry_iff hnow failure).mp (hready.mp hstate).1).2
  rw [hno] at hyes
  cases hyes

namespace Demo

def recordSideEffectCommit (key : String) : RunCommand :=
  .recordSideEffectCommit ⟨envelope ("commit:" ++ key) 7, "run", "task", key, none, 7⟩

end Demo
open Demo

theorem commits_final_failed :
    ∃ es s t task', Trace platform (fun _ _ => True) (emptySnapshot "run" none) es s ∧
      es.filterMap commitKey = ["key"] ∧ (es.filterMap commitKey).Nodup ∧
      Occurs platform s (.command (failAttempt "a" .transientTransport)) t ∧
      t.tasks["task"]? = some task' ∧ task'.state ≠ .ready := by
  have hs := (ran_accepted (leasedUntil ++ [Demo.recordSideEffectCommit "key"]) rfl).trace
  obtain ⟨hnodup, hfinal⟩ := commits_final platform hs
  obtain ⟨task', htask', hready⟩ := (hfinal [] _ .nil).2 "task" _ "key" _ rfl
    (List.mem_singleton_self _) rfl rfl (.command (failAttempt "a" .transientTransport)) _ "a" _
    .transientTransport (occurs _ rfl) rfl rfl rfl (fun c h => by cases h)
  exact ⟨_, _, _, task', hs, by decide, hnodup, occurs _ rfl, htask', hready⟩

/-- A key is committed for a task that is ready again after a failure. `ExpireLease` of the failed
attempt is accepted, changes nothing and leaves the task ready. -/
theorem expiry_leaves_ready :
    ∃ s t task a task', Reachable platform s ∧ s.tasks["task"]? = some task ∧
      "key" ∈ task.sideEffectKeys ∧
      (∃ r, s.sideEffectCommits["key"]? = some r ∧ r.committed = true) ∧
      s.attempts["a"]? = some a ∧ a.taskId = "task" ∧ Accepted platform s [expireLease "a" 600] t ∧
      t.tasks["task"]? = some task' ∧ task'.state = .ready := by
  have hs := ran_reachable (leasedUntil ++
    [failAttempt "a" .transientTransport, Demo.recordSideEffectCommit "key"]) rfl
  exact ⟨_, _, _, _, _, hs, rfl, List.mem_singleton_self _, ⟨_, rfl, rfl⟩, rfl, rfl,
    runCommands_accepted rfl, rfl, rfl⟩

end Tetonic.Run
