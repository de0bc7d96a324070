import Tetonic.Run.Expiry
import Tetonic.Run.Restart
set_option autoImplicit false

/-! How the projection of one run moves: what a call, a compaction and a restart can make of it,
and that it stays within the snapshots its commands and recovery passes can reach. -/

namespace Tetonic.Run
open Lib

variable {P : Platform}

variable {t t' : RunTables} {runId : RunId} {floor : Nat}

theorem compactRun_loadRunSnapshot {session : Option SessionId} {report : RunTables.CompactReport}
    (h : compactRun P t runId floor session = .ok (t', report)) :
    t'.loadRunSnapshot = t.loadRunSnapshot := by
  simp only [compactRun, bind_eq_ok, RunTables.compactRunEventsAtFloor] at h
  obtain ⟨events, -, recovery, -, h⟩ := h
  split at h
  · cases pure_eq_ok.mp h
    rfl
  · simp only [bind_eq_ok, orFail_eq_ok, pure_eq_ok, Prod.mk.injEq] at h
    obtain ⟨row, hrow, rfl, -⟩ := h
    simp [RunTables.loadRunSnapshot, hrow]

theorem commit_loadRunSnapshot {t₁ : RunTables} {env : CallEnv} {compact : Bool}
    {refusal : Option RunSupervisorError}
    {next : RunSnapshot} {event : RunEventEnvelope}
    {idempotency : Option (String × RunCommandResult)}
    (hcommit : t.commitRunCommand P refusal next event idempotency = .ok t₁)
    (hown : t' = t₁ ∨ OwnCompaction P env compact runId floor t₁ t') :
    t'.loadRunSnapshot = some (next.withEvents []) := by
  have hfirst : t₁.loadRunSnapshot = some (next.withEvents []) := by
    obtain ⟨-, -, rfl⟩ := commitRunCommand_eq_ok hcommit
    rfl
  rcases hown with rfl | ⟨-, -, -, session, report, hok⟩
  · exact hfirst
  · exact (compactRun_loadRunSnapshot hok).trans hfirst

variable (P) in
inductive CallStep (r : RunId) (before : Option RunSnapshot) : Option RunSnapshot → Prop where
  | same : CallStep r before before
  | commit {command : RunCommand} {base applied : RunSnapshot} (hr : command.runId = r)
      (hbase : baseSnapshot command before = .ok base) (guarded : checkBase base command = .ok ())
      (accepted : applyCommand P base command = .ok applied) :
      CallStep r before (some { applied with sequence := base.sequence + 1, events := [] })

variable (P) in
/-- What the pass of a start at `now` makes of a projection it rewrites. -/
def PassStep (now : UInt64) (p q : RunSnapshot) : Prop :=
  ∃ snap, startupPass P p now = .ok snap ∧ q = snap.withEvents []

def World.Named (w : World) : Prop :=
  ∀ r p, w.projection r = some p → p.runId = r

variable {command : RunCommand} {r : RunId} {base : RunSnapshot} {current : Option RunSnapshot}

theorem baseSnapshot_runId (hr : command.runId = r) (hcurrent : ∀ p, current = some p → p.runId = r)
    (h : baseSnapshot command current = .ok base) : base.runId = r := by
  rcases baseSnapshot_eq_ok.mp h with ⟨c, rfl, -, rfl⟩ | ⟨hsome, -⟩
  · exact hr
  · exact hcurrent base hsome

theorem baseSnapshot_withEvents (h : baseSnapshot command current = .ok base) :
    baseSnapshot command (current.map (·.withEvents [])) = .ok (base.withEvents []) := by
  rcases baseSnapshot_eq_ok.mp h with ⟨c, rfl, rfl, rfl⟩ | ⟨rfl, hne⟩
  · rfl
  · exact baseSnapshot_eq_ok.mpr (.inr ⟨rfl, hne⟩)

theorem compactAt_projection (w : World) (fault : Option RunSupervisorError) (runId : RunId)
    (floor : Nat) (fallback : Option SessionId) (r : RunId) :
    World.projection { w with sup := w.sup.compactAt P fault runId floor fallback } r =
      w.projection r := by
  rcases compactAt_cases (P := P) w.sup fault runId floor fallback with
    hsame | ⟨store, t, report, usage, hstore, hok, heq⟩
  · rw [hsame]
  · simp only [World.projection, heq, hstore]
    by_cases hr : r = runId
    · subst hr
      rw [tables_insert_self]
      exact compactRun_loadRunSnapshot hok
    · rw [tables_insert_ne store t hr]

variable {compact : Bool} {w' w : World} {stored : Supervisor} {env : CallEnv}
  {applied : RunSnapshot}

section
variable (h : CommitFacts P w.sup env command base applied stored compact) (hn : w.Named)
  (hsup : w'.sup = stored.committed P env command base applied compact)
include h hn hsup

theorem CommitFacts.projections :
    base.runId = command.runId ∧
    (∃ base' applied', baseSnapshot command (w.projection command.runId) = .ok base' ∧
      base'.sequence = base.sequence ∧ checkBase base' command = .ok () ∧
      applyCommand P base' command = .ok applied' ∧
      w'.projection command.runId =
        some { applied' with sequence := base'.sequence + 1, events := [] }) ∧
    ∀ r, r ≠ command.runId → w'.projection r = w.projection r := by
  cases hstore : w.sup.store with
  | some store =>
    have hproj := World.projection_durable hstore
    have hbase := h.base_of_store hstore
    rw [← hproj] at hbase
    have hid := baseSnapshot_runId rfl (hn command.runId) hbase
    obtain ⟨t, store', ht, hstore', hothers, hown⟩ := h.tables hstore hid
    rw [← hsup] at hstore'
    have hproj' := World.projection_durable hstore'
    refine ⟨hid, ⟨base, applied, hbase, rfl, h.guarded, h.accepted, ?_⟩, fun r hr => ?_⟩
    · rw [hproj', commit_loadRunSnapshot ht hown]
      rfl
    · rw [hproj', hothers r hr, ← hproj]
  | none =>
    have hproj := World.projection_volatile hstore
    have hbase := baseSnapshot_withEvents (h.base_of_memory hstore)
    rw [← hproj] at hbase
    have hid := baseSnapshot_runId rfl (hn command.runId) hbase
    rw [h.memory hstore hid] at hsup
    have hproj' := World.projection_volatile (w := w') (by rw [hsup, hstore])
    rw [hsup] at hproj'
    have hacc : applyCommand P (base.withEvents []) command = .ok (applied.withEvents []) := by
      rw [applyCommand_withEvents, h.accepted]
      rfl
    refine ⟨hid, ⟨_, _, hbase, rfl, h.guarded, hacc, ?_⟩, fun r hr => ?_⟩
    · rw [hproj', OrdMap.get_insert_self]
      rfl
    · rw [hproj', OrdMap.get_insert_ne _ _ (Ne.symm hr), ← hproj]

theorem CommitFacts.callStep (r : RunId) : CallStep P r (w.projection r) (w'.projection r) := by
  obtain ⟨-, ⟨base', applied', hbase, -, hguard, hacc, hafter⟩, hothers⟩ := h.projections hn hsup
  by_cases hr : r = command.runId
  · subst hr
    rw [hafter]
    exact .commit rfl hbase hguard hacc
  · rw [hothers r hr]
    exact .same

end

theorem LiveStep.projection (h : LiveStep P w w') (hn : w.Named) (r : RunId) :
    CallStep P r (w.projection r) (w'.projection r) := by
  cases h with
  | compact =>
    rw [compactAt_projection]
    exact .same
  | handle env command =>
    have hh := handle_handled (P := P) w.sup env command
    unfold World.handle
    generalize (w.sup.handle P env command).1 = sup' at hh
    generalize (w.sup.handle P env command).2 = out at hh
    cases hh with
    | refused | overQuota | replayed => exact .same
    | committed hc => exact hc.callStep hn rfl r

variable (P) in
/-- A projection of run `r`: accepted commands and recovery passes can reach it. -/
structure Traced (r : RunId) (p : RunSnapshot) : Prop where
  reachable : Reachable P p
  named : p.runId = r
  plain : p.events = []

variable (P) in
def World.Traced (w : World) : Prop := ∀ r p, w.projection r = some p → Run.Traced P r p

theorem World.Traced.named (h : w.Traced P) : w.Named :=
  fun r p hp => (h r p hp).named

theorem World.start_projection (durable : Bool) (quota : UInt64) (r : RunId) :
    (World.start durable quota).projection r = none := by
  cases durable <;> simp [World.start, World.projection, Store.tables, RunTables.loadRunSnapshot]

theorem Reachable.step {s t : RunSnapshot} (h : Reachable P s) (hst : RunStep P s t) :
    Reachable P t := by
  obtain ⟨runId, session, hr⟩ := h
  exact ⟨runId, session, hr.tail hst⟩

theorem CallStep.traced {before : Option RunSnapshot} {after : RunSnapshot}
    (h : CallStep P r before (some after)) (ht : ∀ p, before = some p → Traced P r p) :
    Traced P r after := by
  generalize hafter : some after = next at h
  cases h with
  | same => exact ht after hafter.symm
  | @commit command base applied hr hbase guarded accepted =>
    cases hafter
    have hid := baseSnapshot_runId hr (fun p hp => (ht p hp).named) hbase
    have hbase' : Reachable P base := by
      rcases baseSnapshot_eq_ok.mp hbase with ⟨c, rfl, -, rfl⟩ | ⟨hsome, -⟩
      · exact ⟨c.runId, c.sessionId, .refl⟩
      · exact (ht base hsome).reachable
    have hrun : applied.runId = command.runId := applyCommand_runId accepted (hid.trans hr.symm)
    exact ⟨hbase'.step (.command accepted), hrun.trans hr, rfl⟩

variable {now : UInt64} {p q : RunSnapshot}

theorem PassStep.runStep (h : PassStep P now p q) (hp : Traced P r p) :
    RunStep P p q ∧ q.runId = p.runId ∧ q.events = p.events ∧ q.sequence = p.sequence := by
  obtain ⟨snap, hsnap, rfl⟩ := h
  obtain ⟨t, hl, hpass⟩ := startupPass_lapsed (P := P) hp.reachable.sound now
  have hsame := Except.ok.inj (hsnap.symm.trans hpass)
  have hstamp : snap.runId = p.runId ∧ snap.events = p.events ∧ snap.sequence = p.sequence := by
    rw [hsame, hl.rest]
    split <;> exact ⟨rfl, rfl, rfl⟩
  rw [RunSnapshot.withEvents_eq_self (hstamp.2.1.trans hp.plain)]
  exact ⟨.recovery hsnap, hstamp⟩

theorem PassStep.traced (h : PassStep P now p q) (hp : Traced P r p) : Traced P r q := by
  obtain ⟨hstep, hrun, hplain, -⟩ := h.runStep hp
  exact ⟨hp.reachable.step hstep, hrun.trans hp.named, hplain.trans hp.plain⟩

theorem restart_projection {store : Store} (hstore : w.sup.store = some store) (env : StartEnv)
    (r : RunId) :
    (w.projection r = none ∧ (w.restart P env).projection r = none) ∨
      ∃ p q, w.projection r = some p ∧ (w.restart P env).projection r = some q ∧
        Relation.ReflTransGen (PassStep P env.now) p q := by
  have hproj' : (w.restart P env).projection r =
      ((recoverAtStartup P env env.runIds store).1.tables r).loadRunSnapshot := by
    simp only [World.restart, hstore, World.projection, Supervisor.startOn]
  rw [World.projection_durable hstore, hproj']
  refine recoverAtStartup_induction (I := fun r t =>
    ((store.tables r).loadRunSnapshot = none ∧ t.loadRunSnapshot = none) ∨
      ∃ p q, (store.tables r).loadRunSnapshot = some p ∧ t.loadRunSnapshot = some q ∧
        Relation.ReflTransGen (PassStep P env.now) p q) ?_ env.runIds (fun k => ?_) r
  · intro k t t' hI hok
    rcases recoverRun_eq_ok hok with rfl | ⟨row, snap, hrow, hpass, rfl⟩
    · exact hI
    · have hload : t.loadRunSnapshot = some row.projection := by
        simp [RunTables.loadRunSnapshot, hrow]
      rcases hI with ⟨-, hnone⟩ | ⟨p, q, hp, hq, hsteps⟩
      · rw [hload] at hnone
        cases hnone
      · rw [hload] at hq
        cases hq
        exact .inr ⟨p, _, hp, rfl, hsteps.tail ⟨snap, hpass, rfl⟩⟩
  · cases hk : (store.tables k).loadRunSnapshot with
    | none => exact .inl ⟨rfl, rfl⟩
    | some p => exact .inr ⟨p, p, rfl, rfl, .refl⟩

theorem LifeStep.traced (h : LifeStep P w w') (hw : w.Traced P) : w'.Traced P := by
  intro r p hp
  cases h with
  | live h =>
    have hstep := h.projection hw.named r
    rw [hp] at hstep
    exact hstep.traced (hw r)
  | restart env hstore =>
    obtain ⟨store, hstore⟩ := Option.isSome_iff_exists.mp hstore
    rcases restart_projection (P := P) hstore env r with ⟨-, hnone⟩ | ⟨p₀, q, hp₀, hq, hsteps⟩
    · rw [hp] at hnone
      cases hnone
    · rw [hp, Option.some.injEq] at hq
      subst hq
      have hfirst := hw r p₀ hp₀
      clear hp₀ hp
      induction hsteps with
      | refl => exact hfirst
      | tail _ hpass ih => exact hpass.traced ih

theorem Lifetime.traced (h : Lifetime P w) : w.Traced P := by
  obtain ⟨durable, quota, hr⟩ := h
  induction hr with
  | refl =>
    intro r p hp
    rw [World.start_projection] at hp
    cases hp
  | tail _ hstep ih => exact hstep.traced ih

end Tetonic.Run
