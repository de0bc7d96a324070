import Tetonic.Run.World
set_option autoImplicit false

/-! A start on an existing database (`DurableRunSupervisor::new`): the recovery pass over every
run, which rewrites projections and nothing else. -/

namespace Tetonic.Run
open Lib

variable (P : Platform)

/-- The body of the loop of `recover_at_startup`. -/
def recoverRun (now : UInt64) (readFault : Option String) (refusal : Option RunSupervisorError)
    (t : RunTables) : RunOutcome RunTables := do
  let loaded ← readStore readFault t.loadRunSnapshot
  match loaded with
  | none => pure t
  | some before => do
    let snap ← startupPass P before now
    if snap = before then pure t else t.persistRunProjection refusal snap

/-- What a start takes from outside: the clock, the order of the runs, where the store fails,
and the quota it is configured with. -/
structure StartEnv where
  now : UInt64
  runIds : List RunId
  readFault : RunId → Option String := fun _ => none
  refusal : RunId → Option RunSupervisorError := fun _ => none
  globalQuotaBytes : UInt64

/-- The loop itself: each run is a write of its own, and the first failure ends the pass. -/
def recoverAtStartup (env : StartEnv) : List RunId → Store → Store × RunOutcome Unit
  | [], store => (store, .ok ())
  | id :: ids, store =>
    match recoverRun P env.now (env.readFault id) (env.refusal id) (store.tables id) with
    | .ok t => recoverAtStartup env ids (store.insert id t)
    | .error e => (store, .error e)

/-- `new` enters Safe Mode when recovery fails. -/
def Supervisor.startOn (env : StartEnv) (store : Store) : Supervisor where
  store := some (recoverAtStartup P env env.runIds store).1
  safeMode := match (recoverAtStartup P env env.runIds store).2 with
    | .ok _ => false
    | .error _ => true
  globalQuotaBytes := env.globalQuotaBytes

/-- The process ends and another one starts. Without a database nothing is left. -/
def World.restart (env : StartEnv) (w : World) : World :=
  match w.sup.store with
  | some store => { w with sup := Supervisor.startOn P env store }
  | none => World.start false env.globalQuotaBytes

variable {P}

theorem recoverAtStartup_induction {I : RunId → RunTables → Prop} {env : StartEnv}
    (hstep : ∀ r t t', I r t →
      recoverRun P env.now (env.readFault r) (env.refusal r) t = .ok t' → I r t')
    (ids : List RunId) {store : Store} (h : ∀ r, I r (store.tables r)) (r : RunId) :
    I r ((recoverAtStartup P env ids store).1.tables r) := by
  induction ids generalizing store with
  | nil => exact h r
  | cons id ids ih =>
    unfold recoverAtStartup
    cases hr : recoverRun P env.now (env.readFault id) (env.refusal id) (store.tables id) with
    | error => exact h r
    | ok t =>
      refine ih fun k => ?_
      by_cases hk : k = id
      · subst hk
        rw [tables_insert_self]
        exact hstep k _ t (h k) hr
      · rw [tables_insert_ne store t hk]
        exact h k

theorem recoverRun_eq_ok {now : UInt64} {readFault : Option String}
    {refusal : Option RunSupervisorError} {t t' : RunTables}
    (h : recoverRun P now readFault refusal t = .ok t') :
    t' = t ∨ ∃ row snap, t.row = some row ∧ startupPass P row.projection now = .ok snap ∧
      t' = { t with row := some { row with projection := snap.withEvents [] } } := by
  simp only [recoverRun, bind_eq_ok, readStore_eq_ok] at h
  obtain ⟨loaded, ⟨-, rfl⟩, h⟩ := h
  cases hrow : t.row with
  | none =>
    simp only [RunTables.loadRunSnapshot, hrow, Option.map_none] at h
    exact .inl (pure_eq_ok.mp h).symm
  | some row =>
    simp only [RunTables.loadRunSnapshot, hrow, Option.map_some, bind_eq_ok] at h
    obtain ⟨snap, hsnap, h⟩ := h
    split at h
    · exact .inl (pure_eq_ok.mp h).symm
    · simp only [RunTables.persistRunProjection, bind_eq_ok, pure_eq_ok] at h
      obtain ⟨-, -, rfl⟩ := h
      refine .inr ⟨row, snap, rfl, hsnap, ?_⟩
      simp only [RunTables.nextRow, hrow]
      rfl

variable (P) in
/-- What happens over any number of processes on one database; without one there is a single
process. -/
inductive LifeStep : World → World → Prop where
  | live {w w' : World} (h : LiveStep P w w') : LifeStep w w'
  | restart (w : World) (env : StartEnv) (hstore : w.sup.store.isSome = true) :
      LifeStep w (w.restart P env)

variable (P) in
/-- The worlds reached from an empty one with restarts at any moments. -/
def Lifetime (w : World) : Prop :=
  ∃ durable quota, Relation.ReflTransGen (LifeStep P) (World.start durable quota) w

theorem Lifetime.handle {w : World} (h : Lifetime P w) (env : CallEnv) (command : RunCommand) :
    Lifetime P (w.handle P env command) := by
  obtain ⟨durable, quota, hr⟩ := h
  exact ⟨durable, quota, hr.tail (.live (.handle w env command))⟩

theorem Lifetime.restart {w : World} (h : Lifetime P w) (env : StartEnv)
    (hstore : w.sup.store.isSome = true) : Lifetime P (w.restart P env) := by
  obtain ⟨durable, quota, hr⟩ := h
  exact ⟨durable, quota, hr.tail (.restart w env hstore)⟩

theorem Live.lifetime {w : World} (h : Live P w) : Lifetime P w := by
  obtain ⟨durable, quota, hr⟩ := h
  exact ⟨durable, quota, hr.lift id fun _ _ hs => .live hs⟩

end Tetonic.Run
