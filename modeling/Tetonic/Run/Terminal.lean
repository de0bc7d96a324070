import Tetonic.Run.Projection
set_option autoImplicit false

/-! Finished runs. The command path refuses to change them; the recovery path has no such guard,
and leaves them alone only when it finds nothing to do. -/

namespace Tetonic.Run
open Lib AttemptRecord

variable {P : Platform}

def AttemptRecord.stilled (a : AttemptRecord) : AttemptRecord :=
  { a with executionQuiesced := true }

variable {b : AttemptRecord}

theorem AttemptRecord.stilled_fields {a : AttemptRecord} (h : b.stilled = a.stilled) :
    b.state = a.state ∧ b.lease = a.lease := by
  have hstate := congrArg state h
  have hlease := congrArg lease h
  exact ⟨hstate, hlease⟩

/-- Equal but for quiescence flags, the sequence number and the event list. -/
structure EndedSame (p q : RunSnapshot) : Prop where
  rest : q = { p with attempts := q.attempts, sequence := q.sequence, events := q.events }
  attempts : ∀ k : AttemptId,
    q.attempts[k]?.map stilled = p.attempts[k]?.map stilled

theorem EndedSame.refl (p : RunSnapshot) : EndedSame p p := ⟨rfl, fun _ => rfl⟩

variable {q p : RunSnapshot}

theorem EndedSame.trans {s : RunSnapshot} (hpq : EndedSame p q) (hqs : EndedSame q s) :
    EndedSame p s where
  rest := by
    rw [hqs.rest, hpq.rest]
  attempts k := (hqs.attempts k).trans (hpq.attempts k)

theorem EndedSame.stamp (h : EndedSame p q) (sequence : Nat) (events : List RunEventEnvelope) :
    EndedSame p { q with sequence, events } where
  rest := by
    rw [h.rest]
  attempts := h.attempts

theorem EndedSame.state (h : EndedSame p q) : q.state = p.state := by
  rw [h.rest]

theorem EndedSame.attempt (h : EndedSame p q) {k : AttemptId} (hb : q.attempts[k]? = some b) :
    ∃ a, p.attempts[k]? = some a ∧ b.state = a.state ∧ b.lease = a.lease := by
  have hk := h.attempts k
  rw [hb, Option.map_some] at hk
  obtain ⟨a, ha, hab⟩ := Option.map_eq_some_iff.mp hk.symm
  exact ⟨a, ha, stilled_fields hab.symm⟩

/-- A pass at `now` finds nothing to do in a finished run: nothing parked, no lapsed lease, no
task held without an attempt. -/
structure QuietAt (now : UInt64) (p : RunSnapshot) : Prop where
  unparked : ∀ (k : AttemptId) (a : AttemptRecord), p.attempts[k]? = some a → a.state ≠ .suspended
  current : ∀ (k : AttemptId) (a : AttemptRecord), p.attempts[k]? = some a →
    a.expiredAt now = false
  held : ∀ (k : TaskId) (task : TaskRecord), p.tasks[k]? = some task → ¬ task.Stranded

variable {now : UInt64}

theorem QuietAt.earlier {later : UInt64} (h : now ≤ later) (hq : QuietAt later p) :
    QuietAt now p where
  unparked := hq.unparked
  current k a ha := by
    by_contra hexp
    have hlate := expiredAt_mono h (by simpa using hexp)
    rw [hq.current k a ha] at hlate
    cases hlate
  held := hq.held

theorem EndedSame.quiet (h : EndedSame p q) (hp : QuietAt now p) : QuietAt now q where
  unparked k b hb := by
    obtain ⟨a, ha, hstate, -⟩ := h.attempt hb
    rw [hstate]
    exact hp.unparked k a ha
  current k b hb := by
    obtain ⟨a, ha, hstate, hlease⟩ := h.attempt hb
    have hexp := hp.current k a ha
    rw [expiredAt] at hexp ⊢
    rw [hstate, hlease]
    exact hexp
  held k task hk := by
    rw [h.rest] at hk
    exact hp.held k task hk

theorem terminal_ne {st : RunState} (h : st.terminal = true) :
    st ≠ .active ∧ st ≠ .created ∧ st ≠ .recoveryRequired := by
  cases st <;> simp_all [RunState.terminal]

theorem applyCommand_terminal {t : RunSnapshot} {command : RunCommand}
    (hend : p.state.terminal = true) (hallowed : command.allowedAfterEnd = true)
    (hnew : ∀ c, command ≠ .createRun c) (h : applyCommand P p command = .ok t) :
    EndedSame p t := by
  cases command with
  | createRun c => exact absurd rfl (hnew c)
  | finishRun =>
    simp only [applyCommand, applyFinishRun, bind_eq_ok, refuseIf_eq_ok] at h
    obtain ⟨_, -, h⟩ := h
    split at h
    · cases pure_eq_ok.mp h
      exact .refl p
    · simp only [bind_eq_ok, refuseIf_eq_ok, not_not] at h
      obtain ⟨_, hopen, -⟩ := h
      rcases hopen with hopen | hopen
      · exact absurd hopen (terminal_ne hend).1
      · exact absurd hopen (terminal_ne hend).2.1
  | recordAttemptQuiescence c =>
    simp only [applyCommand, applyAttemptQuiescence, bind_eq_ok, pure_eq_ok] at h
    obtain ⟨attempt, hfind, _, -, _, -, rfl⟩ := h
    refine ⟨rfl, fun k => ?_⟩
    simp only [OrdMap.get_insert]
    split
    · rename_i hk
      subst hk
      have ha := findAttempt_eq_ok.mp hfind
      rw [ha]
      rfl
    · rfl
  | _ => cases hallowed

variable {r : RunId}

theorem CallStep.ended {after : Option RunSnapshot} (h : CallStep P r (some p) after)
    (hend : p.state.terminal = true) :
    ∃ q, after = some q ∧ EndedSame p q := by
  cases h with
  | same => exact ⟨p, rfl, .refl p⟩
  | @commit command base applied hr hbase guarded accepted =>
    rcases baseSnapshot_eq_ok.mp hbase with ⟨c, -, hnone, -⟩ | ⟨hsome, hnew⟩
    · cases hnone
    · cases hsome
      simp only [checkBase, bind_eq_ok, refuseIf_eq_ok] at guarded
      obtain ⟨_, -, _, -, hguard⟩ := guarded
      have hallowed : command.allowedAfterEnd = true := by simpa [hend] using hguard
      have hsame := applyCommand_terminal hend hallowed hnew accepted
      exact ⟨_, rfl, hsame.stamp _ _⟩

section
variable (hend : p.state.terminal = true)
include hend

theorem attemptOverdue_terminal (now : UInt64)
    (a : AttemptRecord) : attemptOverdue p now a = a.expiredAt now := by
  have hactive := (terminal_ne hend).1
  unfold attemptOverdue expiredAt
  cases a.lease with
  | none | some => simp [hactive]

theorem taskInconsistent_terminal (task : TaskRecord) :
    taskInconsistent p task = true ↔ task.Stranded := by
  have hactive := (terminal_ne hend).1
  simp [taskInconsistent, hactive, TaskRecord.Stranded]

theorem detectRecoveryRequired_terminal (now : UInt64) :
    detectRecoveryRequired p now = false ↔ QuietAt now p := by
  obtain ⟨hactive, -, hmarked⟩ := terminal_ne hend
  have hexempt : parkedExempt p = false := by simp [parkedExempt, hactive]
  have hoverdue : attemptOverdue p now = (·.expiredAt now) :=
    funext (attemptOverdue_terminal hend now)
  have hdetect : detectRecoveryRequired p now = false ↔
      p.attempts.anyValue (fun a => decide (a.state = .suspended)) = false ∧
        p.attempts.anyValue (·.expiredAt now) = false ∧
        p.tasks.anyValue (taskInconsistent p) = false := by
    simp only [detectRecoveryRequired, hmarked, hexempt, hoverdue, hactive]
    split
    · simp_all
    · split
      all_goals simp_all
  have hheld : ∀ task, taskInconsistent p task = false ↔ ¬ task.Stranded := by
    intro task
    rw [← taskInconsistent_terminal hend, Bool.not_eq_true]
  rw [hdetect]
  simp only [OrdMap.anyValue_eq_false, decide_eq_false_iff_not, hheld]
  constructor
  · rintro ⟨hs, he, ht⟩
    exact ⟨hs, he, ht⟩
  · intro hq
    exact ⟨hq.unparked, hq.current, hq.held⟩

end

theorem startupPass_terminal (hs : p.board.Sound) (hend : p.state.terminal = true)
    (h : startupPass P p now = .ok q) :
    EndedSame p q ↔ QuietAt now p := by
  obtain ⟨t, hl, hpass⟩ := startupPass_lapsed (P := P) hs now
  have hq := Except.ok.inj (h.symm.trans hpass)
  have hstate : t.state = p.state := by rw [hl.rest]
  have htend : t.state.terminal = true := by rw [hstate, hend]
  have hmarked : t.state ≠ .recoveryRequired := (terminal_ne htend).2.2
  constructor
  · intro hsame
    have hdet : detectRecoveryRequired t now = false := by
      by_contra hdet
      rw [if_pos ⟨by simpa using hdet, hmarked⟩] at hq
      have hbad := hsame.state
      rw [hq] at hbad
      exact (terminal_ne hend).2.2 hbad.symm
    rw [if_neg (by simp [hdet])] at hq
    subst hq
    -- no lease lapsed, or the attempt's state would have changed
    have hcurrent : ∀ (k : AttemptId) (a : AttemptRecord), p.attempts[k]? = some a →
        a.expiredAt now = false := by
      intro k a ha
      by_contra hexp
      have hlapse : q.attempts[k]? = some a.lapse := by
        rw [hl.attempts k, ha]
        simp [hexp]
      obtain ⟨a', ha', hst, -⟩ := hsame.attempt hlapse
      rw [ha, Option.some.injEq] at ha'
      subst ha'
      simp only [expiredAt, Bool.and_eq_false_iff, not_or] at hexp
      rw [← hst] at hexp
      exact hexp.1 rfl
    have hstill := hl.still hcurrent
    rw [hstill] at hdet
    exact (detectRecoveryRequired_terminal hend now).mp hdet
  · intro hquiet
    have hstill := hl.still hquiet.current
    subst hstill
    have hdet := (detectRecoveryRequired_terminal hend now).mpr hquiet
    rw [if_neg (by simp [hdet])] at hq
    rw [hq]
    exact .refl t

variable (P) in
/-- Calls and compactions, and restarts no later than `limit`. -/
inductive StepUntil (limit : UInt64) : World → World → Prop where
  | live {w w' : World} (h : LiveStep P w w') : StepUntil limit w w'
  | restart (w : World) (env : StartEnv) (hnow : env.now ≤ limit) :
      StepUntil limit w (w.restart P env)

variable {w w' : World}

theorem LiveStep.keeps_store (h : LiveStep P w w') (hn : w.Named)
    (hstore : w.sup.store.isSome = true) : w'.sup.store.isSome = true := by
  obtain ⟨store, hstore⟩ := Option.isSome_iff_exists.mp hstore
  cases h with
  | compact fault runId floor fallback =>
    rcases compactAt_cases (P := P) w.sup fault runId floor fallback with
      hsame | ⟨_, _, _, _, -, -, heq⟩
    · simp [hsame, hstore]
    · simp [heq]
  | handle env command =>
    have hh := handle_handled (P := P) w.sup env command
    unfold World.handle
    generalize (w.sup.handle P env command).1 = sup' at hh
    generalize (w.sup.handle P env command).2 = out at hh
    cases hh with
    | refused | overQuota | replayed => simp [hstore]
    | committed hc =>
      have hbase := hc.base_of_store hstore
      have hnamed : ∀ p, (store.tables command.runId).loadRunSnapshot = some p →
          p.runId = command.runId := by
        intro p hp
        exact hn command.runId p ((World.projection_durable hstore _).trans hp)
      obtain ⟨_, store', -, hstore', -, -⟩ :=
        hc.tables hstore (baseSnapshot_runId rfl hnamed hbase)
      simp [hstore']

theorem restart_keeps_store (env : StartEnv) (hstore : w.sup.store.isSome = true) :
    (w.restart P env).sup.store.isSome = true := by
  obtain ⟨store, hstore⟩ := Option.isSome_iff_exists.mp hstore
  simp [World.restart, hstore, Supervisor.startOn]

theorem restart_alone {store : Store} (hstore : w.sup.store = some store)
    (hp : w.projection r = some p) (hplain : p.events = []) (hpass : startupPass P p now = .ok q)
    (quota : UInt64) :
    (w.restart P { now, runIds := [r], globalQuotaBytes := quota }).projection r =
      some (q.withEvents []) := by
  rw [World.projection_durable hstore] at hp
  obtain ⟨row, hrow, rfl⟩ := Option.map_eq_some_iff.mp hp
  have hrun : ∃ t', recoverRun P now none none (store.tables r) = .ok t' ∧
      t'.loadRunSnapshot = some (q.withEvents []) := by
    have hrec : recoverRun P now none none (store.tables r) =
        if q = row.projection then .ok (store.tables r)
        else (store.tables r).persistRunProjection none q := by
      simp only [recoverRun, readStore, hp, pure_bind, hpass]
      rfl
    by_cases hsame : q = row.projection
    · rw [if_pos hsame] at hrec
      refine ⟨_, hrec, ?_⟩
      rw [hp, hsame, RunSnapshot.withEvents_eq_self hplain]
    · rw [if_neg hsame] at hrec
      exact ⟨_, hrec, rfl⟩
  obtain ⟨t', ht', hload⟩ := hrun
  simp only [World.restart, hstore, World.projection, Supervisor.startOn, recoverAtStartup, ht',
    tables_insert_self, hload]

variable {limit : UInt64}

theorem StepUntil.life (h : StepUntil P limit w w') (hstore : w.sup.store.isSome = true) :
    LifeStep P w w' := by
  cases h with
  | live h => exact .live h
  | restart env => exact .restart w env hstore

theorem StepUntil.ended (h : StepUntil P limit w w') (hw : w.Traced P)
    (hstore : w.sup.store.isSome = true) (hp : w.projection r = some p)
    (hend : p.state.terminal = true) (hquiet : QuietAt limit p) :
    ∃ q, w'.projection r = some q ∧ EndedSame p q := by
  cases h with
  | live h =>
    have hstep := h.projection hw.named r
    rw [hp] at hstep
    exact hstep.ended hend
  | restart env hnow =>
    obtain ⟨store, hstore⟩ := Option.isSome_iff_exists.mp hstore
    rcases restart_projection (P := P) hstore env r with ⟨hnone, -⟩ | ⟨p₀, q, hp₀, hq, hsteps⟩
    · rw [hp] at hnone
      cases hnone
    · rw [hp, Option.some.injEq] at hp₀
      subst hp₀
      refine ⟨q, hq, ?_⟩
      have htraced := hw r p hp
      clear hq hp
      suffices hkept : EndedSame p q ∧ Traced P r q from hkept.1
      induction hsteps with
      | refl => exact ⟨.refl p, htraced⟩
      | @tail b c _ hpass ih =>
        obtain ⟨hsame, hb⟩ := ih
        refine ⟨?_, hpass.traced hb⟩
        obtain ⟨snap, hsnap, rfl⟩ := hpass
        have hbend : b.state.terminal = true := by rw [hsame.state, hend]
        have hbquiet := hsame.quiet (hquiet.earlier hnow)
        have hpassed := (startupPass_terminal hb.reachable.sound hbend hsnap).mpr hbquiet
        exact hsame.trans (hpassed.stamp _ _)

/-- A finished run in the database stays as it ended, whatever calls, compactions and restarts
up to `limit` follow, exactly when a pass at `limit` finds nothing to do in it. -/
theorem terminal_absorbing_iff {w : World} (h : Lifetime P w)
    (hstore : w.sup.store.isSome = true) {r : RunId} {p : RunSnapshot}
    (hp : w.projection r = some p) (hend : p.state.terminal = true) (limit : UInt64) :
    (∀ w', Relation.ReflTransGen (StepUntil P limit) w w' →
      ∃ q, w'.projection r = some q ∧ EndedSame p q) ↔ QuietAt limit p := by
  have htraced := h.traced
  constructor
  · intro habsorb
    obtain ⟨store, hstore⟩ := Option.isSome_iff_exists.mp hstore
    have hsound := (htraced r p hp).reachable.sound
    obtain ⟨t, -, hpass⟩ := startupPass_lapsed (P := P) hsound limit
    obtain ⟨q, hq, hsame⟩ := habsorb _ (.single (.restart w
      { now := limit, runIds := [r], globalQuotaBytes := w.sup.globalQuotaBytes }
      (UInt64.le_refl limit)))
    rw [restart_alone hstore hp (htraced r p hp).plain hpass, Option.some.injEq] at hq
    subst hq
    refine (startupPass_terminal hsound hend hpass).mp ?_
    exact hsame.stamp _ _
  · intro hquiet w' hsteps
    suffices hkept : w'.Traced P ∧ w'.sup.store.isSome = true ∧
        ∃ q, w'.projection r = some q ∧ EndedSame p q from hkept.2.2
    induction hsteps with
    | refl => exact ⟨htraced, hstore, p, hp, .refl p⟩
    | @tail b c _ hstep ih =>
      obtain ⟨hb, hbstore, q, hq, hsame⟩ := ih
      have hqend : q.state.terminal = true := by rw [hsame.state, hend]
      obtain ⟨q', hq', hnext⟩ := hstep.ended hb hbstore hq hqend (hsame.quiet hquiet)
      refine ⟨(hstep.life hbstore).traced hb, ?_, q', hq', hsame.trans hnext⟩
      cases hstep with
      | live hlive => exact hlive.keeps_store hb.named hbstore
      | restart env => exact restart_keeps_store env hbstore

namespace Demo

def finishRun (outcome : RunFinishOutcome) : RunCommand :=
  .finishRun ⟨envelope "finish" 9, "run", outcome⟩

def canceled : World :=
  (World.start true 1000).handleAll platform 0
    [createRun, startRun, createAttempt "a", leaseAttempt "a" 0 100,
      .cancelRun ⟨envelope "cancel" 9, "run"⟩]

def finishedLeased : World :=
  (World.start true 1000).handleAll platform 0
    [createRun, startRun, createAttempt "a", leaseAttempt "a" 0 100, finishRun .succeeded]

def finishedParked : World :=
  (World.start true 1000).handleAll platform 0
    [createRun, startRun, createAttempt "a", leaseAttempt "a" 0 100, startAttempt "a" 1,
      claimExecution "a" 1, suspendAttempt "a" 1, finishRun .succeeded]

def nextStart : StartEnv := { now := 200, runIds := ["run"], globalQuotaBytes := 1000 }

end Demo
open Demo

/-- A canceled run holds no lease and nothing parked: it stays canceled until 500. -/
theorem terminal_absorbing_iff_canceled :
    ∃ p, canceled.projection "run" = some p ∧ p.state = .canceled ∧
      ∀ w', Relation.ReflTransGen (StepUntil platform 500) canceled w' →
        ∃ q, w'.projection "run" = some q ∧ EndedSame p q := by
  have hlife : Lifetime platform canceled := ((Live.start true 1000).handleAll 0 _).lifetime
  refine ⟨_, rfl, rfl, (terminal_absorbing_iff hlife (by decide) rfl rfl 500).mpr ?_⟩
  exact (detectRecoveryRequired_terminal rfl 500).mp rfl

/-- A restart reopens finished runs: it makes a task ready whose lease lapsed after the end, and
it marks a run that ended with a parked attempt. -/
theorem restart_changes_finished :
    (∃ p q task task', Lifetime platform finishedLeased ∧
      finishedLeased.projection "run" = some p ∧ p.state = .succeeded ∧
      (finishedLeased.restart platform nextStart).projection "run" = some q ∧
      p.tasks["task"]? = some task ∧ q.tasks["task"]? = some task' ∧
      task.state = .leased ∧ task'.state = .ready) ∧ ∃ p q, Lifetime platform finishedParked ∧
      finishedParked.projection "run" = some p ∧ p.state = .succeeded ∧
      (finishedParked.restart platform nextStart).projection "run" = some q ∧
      q.state = .recoveryRequired := by
  exact ⟨⟨_, _, _, _, ((Live.start true 1000).handleAll 0 _).lifetime, rfl, rfl, rfl, rfl, rfl,
    rfl, rfl⟩,
    _, _, ((Live.start true 1000).handleAll 0 _).lifetime, rfl, rfl, rfl, rfl⟩

end Tetonic.Run
