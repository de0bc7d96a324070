import Tetonic.Run.Coherence
import Tetonic.Run.Reachable
set_option autoImplicit false

/-! A supervisor at work, with the record its callers keep of every commit. While the process
runs, the rows of each run agree with that record. -/

namespace Tetonic.Run
open Lib Supervisor

variable {P : Platform}

/-- The event of a commit. -/
abbrev nextEvent (P : Platform) (eventId : EventId) (command : RunCommand)
    (base applied : RunSnapshot) : RunEventEnvelope :=
  newEvent P eventId command (nextSnapshot P eventId command base applied)

/-- The supervisor after a commit. -/
abbrev Supervisor.committed (stored : Supervisor) (P : Platform) (env : CallEnv)
    (command : RunCommand) (base applied : RunSnapshot) (compact : Bool) : Supervisor :=
  stored.afterCommit P env command (nextSnapshot P env.eventId command base applied)
    (P.payloadBytes (.command command)) compact

/-- A supervisor and, for each run, what its callers saw of it: every event that was ever
committed, and the snapshot the last commit returned, without its event list. -/
structure World where
  sup : Supervisor
  log : RunId → List RunEventEnvelope
  committed : RunId → Option RunSnapshot

/-- A commit shows in the result of the call: its event is the last one of the snapshot. -/
def recordCommit (log : RunId → List RunEventEnvelope) (out : RunOutcome RunCommandResult) :
    RunId → List RunEventEnvelope :=
  match out with
  | .ok r =>
    if r.idempotentReplay = true then log
    else Function.update log r.runId (log r.runId ++ r.snapshot.events.getLast?.toList)
  | .error _ => log

def recordSnapshot (committed : RunId → Option RunSnapshot) (out : RunOutcome RunCommandResult) :
    RunId → Option RunSnapshot :=
  match out with
  | .ok r =>
    if r.idempotentReplay = true then committed
    else Function.update committed r.runId (some (r.snapshot.withEvents []))
  | .error _ => committed

namespace World

def start (durable : Bool) (globalQuotaBytes : UInt64) : World where
  sup := { store := if durable = true then some ∅ else none, globalQuotaBytes }
  log _ := []
  committed _ := none

variable (P) in
def handle (w : World) (env : CallEnv) (command : RunCommand) : World where
  sup := (w.sup.handle P env command).1
  log := recordCommit w.log (w.sup.handle P env command).2
  committed := recordSnapshot w.committed (w.sup.handle P env command).2

def projection (w : World) (runId : RunId) : Option RunSnapshot :=
  match w.sup.store with
  | some store => (store.tables runId).loadRunSnapshot
  | none => w.sup.memory[runId]?.map (·.withEvents [])

def replayFloor (w : World) (runId : RunId) : Nat :=
  match w.sup.store with
  | some store => ((store.tables runId).row.map (·.replayFloor)).getD 0
  | none => 0

variable {w : World}

theorem projection_durable {store : Store} (hstore : w.sup.store = some store) (runId : RunId) :
    w.projection runId = (store.tables runId).loadRunSnapshot := by
  simp only [projection, hstore]

theorem projection_volatile (hstore : w.sup.store = none) (runId : RunId) :
    w.projection runId = w.sup.memory[runId]?.map (·.withEvents []) := by
  simp only [projection, hstore]

end World

variable (P) in
/-- What happens while a process runs. A compaction may come at any moment and at any floor
above the last one that leaves the newest hundred events alone, as every compaction that
`handle` itself triggers does. -/
inductive LiveStep : World → World → Prop where
  | handle (w : World) (env : CallEnv) (command : RunCommand) :
      LiveStep w (w.handle P env command)
  | compact (w : World) (fault : Option RunSupervisorError) (runId : RunId) (floor : Nat)
      (sessionFallback : Option SessionId) {p : RunSnapshot} (hp : w.projection runId = some p)
      (hlow : w.replayFloor runId < floor) (hhigh : floor + 100 ≤ p.sequence) :
      LiveStep w { w with sup := w.sup.compactAt P fault runId floor sessionFallback }

variable (P) in
def Live (w : World) : Prop :=
  ∃ durable quota, Relation.ReflTransGen (LiveStep P) (World.start durable quota) w

variable {w : World}

theorem Live.handle (h : Live P w) (env : CallEnv) (command : RunCommand) :
    Live P (w.handle P env command) := by
  obtain ⟨durable, quota, hr⟩ := h
  exact ⟨durable, quota, hr.tail (.handle w env command)⟩

variable (P) in
def World.handleAll (w : World) (n : Nat) : List RunCommand → World
  | [] => w
  | c :: cs => (w.handle P { eventId := toString n } c).handleAll (n + 1) cs

theorem Live.handleAll (h : Live P w) (n : Nat) (cs : List RunCommand) :
    Live P (w.handleAll P n cs) := by
  induction cs generalizing w n with
  | nil => exact h
  | cons c cs ih => exact ih (h.handle _ c) (n + 1)

theorem Live.start (durable : Bool) (quota : UInt64) : Live P (World.start durable quota) :=
  ⟨durable, quota, .refl⟩

variable (P) in
/-- The rows of a run agree with its history. -/
def RowsCoherent (runId : RunId) (H : List RunEventEnvelope) (t : RunTables) : Prop :=
  match t.row with
  | none => H = [] ∧ t = {}
  | some row => RowCoherent P runId H t.events row

variable (P) in
/-- The rows of a run agree with its history, and its newest hundred events are kept. -/
structure RunCoherent (runId : RunId) (H : List RunEventEnvelope) (t : RunTables) : Prop where
  rows : RowsCoherent P runId H t
  window : (t.row.map (·.replayFloor)).getD 0 ≤ H.length - 100

variable (P) in
def MemoryCoherent (runId : RunId) (H : List RunEventEnvelope) : Option RunSnapshot → Prop
  | none => H = []
  | some s => s.events = H ∧ RowCoherent P runId H H ⟨s.withEvents [], 0, none⟩

variable (P) in
/-- The rows of each run are to its history as `R` says; without a store, the map in memory agrees
with it. -/
structure World.Keeps (R : RunId → List RunEventEnvelope → RunTables → Prop) (w : World) :
    Prop where
  durable : ∀ store, w.sup.store = some store → ∀ r, R r (w.log r) (store.tables r)
  volatile : w.sup.store = none → ∀ r, MemoryCoherent P r (w.log r) w.sup.memory[r]?

variable (P) in
abbrev World.Coherent (w : World) : Prop := w.Keeps P (RunCoherent P)

theorem World.start_keeps {R : RunId → List RunEventEnvelope → RunTables → Prop}
    (hR : ∀ r, R r [] {}) (durable : Bool) (quota : UInt64) :
    (World.start durable quota).Keeps P R := by
  constructor
  · intro store hstore r
    cases durable with
    | true =>
      cases hstore
      have hempty : Store.tables ∅ r = {} := by simp [Store.tables]
      rw [hempty]
      exact hR r
    | false => cases hstore
  · intro _ r
    have hempty : (World.start durable quota).sup.memory[r]? = none := by simp [World.start]
    rw [hempty]
    rfl

theorem World.start_coherent (durable : Bool) (quota : UInt64) :
    (World.start durable quota).Coherent P :=
  World.start_keeps (fun _ => ⟨⟨rfl, rfl⟩, Nat.zero_le _⟩) durable quota

/-! Commits and compactions keep a run coherent. -/

variable {t t' : RunTables} {idempotency : Option (String × RunCommandResult)}
  {refusal : Option RunSupervisorError} {eventId : EventId} {floor : Nat}

section Steps

variable {r : RunId} {H : List RunEventEnvelope} {command : RunCommand} {base applied : RunSnapshot}

theorem nextSnapshot_clear (eventId : EventId) (hbase : base.events = [])
    (happly : applyCommand P base command = .ok applied) :
    (nextSnapshot P eventId command base applied).withEvents [] =
      { applied with sequence := base.sequence + 1 } :=
  RunSnapshot.withEvents_eq_self (s := { applied with sequence := base.sequence + 1 })
    ((applyCommand_events happly).trans hbase)

theorem RowsCoherent.row {row : RunRow} (h : RowsCoherent P r H t) (hrow : t.row = some row) :
    RowCoherent P r H t.events row := by
  unfold RowsCoherent at h
  rw [hrow] at h
  exact h

theorem RowsCoherent.no_row (h : RowsCoherent P r H t) (hrow : t.row = none) : H = [] ∧ t = {} := by
  unfold RowsCoherent at h
  rw [hrow] at h
  exact h

theorem RowsCoherent.of_row {row : RunRow} (hrow : t.row = some row)
    (h : RowCoherent P r H t.events row) : RowsCoherent P r H t := by
  unfold RowsCoherent
  rw [hrow]
  exact h

section
variable (h : RowsCoherent P r H t) (hr : command.runId = r)
  (hbase : baseSnapshot command t.loadRunSnapshot = .ok base)
include h hr hbase

theorem RowsCoherent.base_facts : base.runId = r ∧ base.events = [] ∧ base.sequence = H.length := by
  rcases baseSnapshot_eq_ok.mp hbase with ⟨c, rfl, hnone, rfl⟩ | ⟨hsome, -⟩
  · have hrow : t.row = none := Option.map_eq_none_iff.mp hnone
    rw [(h.no_row hrow).1]
    exact ⟨hr, rfl, rfl⟩
  · obtain ⟨row, hrow, rfl⟩ := Option.map_eq_some_iff.mp hsome
    have hc := h.row hrow
    exact ⟨hc.named, hc.projection_events, hc.sequence⟩

theorem RowsCoherent.commit (happly : applyCommand P base command = .ok applied)
    (hcommit : t.commitRunCommand P refusal (nextSnapshot P eventId command base applied)
      (nextEvent P eventId command base applied) idempotency = .ok t') :
    RowsCoherent P r (H ++ [nextEvent P eventId command base applied]) t' := by
  obtain ⟨hid, hevents, -⟩ := h.base_facts hr hbase
  have hnamed : applied.runId = r := (applyCommand_runId happly (hid.trans hr.symm)).trans hr
  have hclear := nextSnapshot_clear eventId hevents happly
  have hto := commitsTo_newEvent eventId happly
  obtain ⟨-, -, rfl⟩ := commitRunCommand_eq_ok hcommit
  refine .of_row rfl ?_
  rcases baseSnapshot_eq_ok.mp hbase with ⟨c, rfl, hnone, rfl⟩ | ⟨hsome, -⟩
  · have hrow : t.row = none := Option.map_eq_none_iff.mp hnone
    obtain ⟨rfl, rfl⟩ := h.no_row hrow
    have hrow' : RunTables.nextRow {} (nextSnapshot P eventId (.createRun c)
        (emptySnapshot c.runId c.sessionId) applied) =
          ⟨{ applied with sequence := 1 }, 0, none⟩ := by
      rw [RunTables.nextRow]
      exact congrArg (RunRow.mk · 0 none) hclear
    rw [hrow']
    have hnew : c.runId = r := hr
    subst hnew
    exact RowCoherent.create hto hnamed
  · obtain ⟨row, hrow, rfl⟩ := Option.map_eq_some_iff.mp hsome
    have hrow' : t.nextRow (nextSnapshot P eventId command row.projection applied) =
        { row with projection := { applied with sequence := row.projection.sequence + 1 } } := by
      rw [RunTables.nextRow, hrow]
      exact congrArg (RunRow.mk · row.replayFloor row.recoverySnapshot) hclear
    rw [hrow']
    exact (h.row hrow).append hto hnamed

end

theorem RowsCoherent.compact {row : RunRow} {fallback : Option SessionId}
    {report : RunTables.CompactReport} (h : RowsCoherent P r H t) (hrow : t.row = some row)
    (hlow : row.replayFloor ≤ 1 ∨ row.replayFloor < floor) (hpos : 0 < floor)
    (hhigh : floor ≤ H.length + 1) (hok : compactRun P t r floor fallback = .ok (t', report)) :
    RowsCoherent P r H t' ∧ (t'.row.map (·.replayFloor)).getD 0 = floor := by
  obtain ⟨m, hrow', hc, -⟩ := (h.row hrow).compact hrow hlow hpos hhigh hok
  exact ⟨.of_row hrow' hc, by rw [hrow']; rfl⟩

theorem RunCoherent.compact {row : RunRow} {fallback : Option SessionId}
    {report : RunTables.CompactReport} (h : RunCoherent P r H t) (hrow : t.row = some row)
    (hlow : row.replayFloor < floor) (hhigh : floor + 100 ≤ H.length)
    (hok : compactRun P t r floor fallback = .ok (t', report)) : RunCoherent P r H t' := by
  obtain ⟨hrows, hset⟩ := h.rows.compact hrow (.inr hlow) (by omega) (by omega) hok
  exact ⟨hrows, by omega⟩

variable (P) in
/-- The compaction at `floor` that follows a commit. -/
structure OwnCompaction (env : CallEnv) (compact : Bool) (runId : RunId) (floor : Nat)
    (t t' : RunTables) : Prop where
  advised : compact = true
  noFault : env.compactionFault = none
  positive : 0 < floor
  done : ∃ session report, compactRun P t runId floor session = .ok (t', report)

section
variable {t₁ : RunTables} {env : CallEnv} {compact : Bool} (hr : command.runId = r)
  (hbase : baseSnapshot command t.loadRunSnapshot = .ok base)
  (happly : applyCommand P base command = .ok applied)
  (hcommit : t.commitRunCommand P refusal (nextSnapshot P eventId command base applied)
    (nextEvent P eventId command base applied) idempotency = .ok t₁)
  (hown : t' = t₁ ∨ OwnCompaction P env compact r (base.sequence + 1 - 100) t₁ t')
include hr hbase happly hcommit hown

theorem RowsCoherent.after_commit (h : RowsCoherent P r H t)
    (hlow : OwnCompaction P env compact r (base.sequence + 1 - 100) t₁ t' →
      (t.row.map (·.replayFloor)).getD 0 ≤ 1 ∨
        (t.row.map (·.replayFloor)).getD 0 < base.sequence + 1 - 100) :
    RowsCoherent P r (H ++ [nextEvent P eventId command base applied]) t' ∧
      ((t'.row.map (·.replayFloor)).getD 0 = (t.row.map (·.replayFloor)).getD 0 ∨
        (t'.row.map (·.replayFloor)).getD 0 = base.sequence + 1 - 100) := by
  have hnew := h.commit hr hbase happly hcommit
  obtain ⟨-, -, hseq⟩ := h.base_facts hr hbase
  obtain ⟨-, -, rfl⟩ := commitRunCommand_eq_ok hcommit
  rcases hown with rfl | hcompacts
  · exact ⟨hnew, .inl rfl⟩
  · obtain ⟨session, report, hok⟩ := hcompacts.done
    refine (hnew.compact rfl (hlow hcompacts) hcompacts.positive ?_ hok).imp_right .inr
    rw [List.length_append, List.length_singleton]
    omega

theorem RunCoherent.after_commit (h : RunCoherent P r H t) :
    RunCoherent P r (H ++ [nextEvent P eventId command base applied]) t' := by
  obtain ⟨-, -, hseq⟩ := h.rows.base_facts hr hbase
  have hwindow := h.window
  obtain ⟨hrows, hfloor⟩ := h.rows.after_commit hr hbase happly hcommit hown fun hcompacts =>
    .inr (by have := hcompacts.positive; omega)
  refine ⟨hrows, ?_⟩
  rw [List.length_append, List.length_singleton]
  omega

end

end Steps

variable {hit : RunCommandResult}

section
variable {sup : Supervisor} {env : CallEnv} {command : RunCommand}

theorem checkCommandId_asReplay (h : sup.checkCommandId env command = .ok (some hit)) :
    hit.idempotentReplay = true := by
  unfold checkCommandId at h
  split at h
  · obtain ⟨-, h⟩ := readStore_eq_ok.mp h
    obtain ⟨r, -, rfl⟩ := Option.map_eq_some_iff.mp h
    rfl
  · obtain ⟨r, -, rfl⟩ := Option.map_eq_some_iff.mp (pure_eq_ok.mp h)
    rfl

theorem checkIdempotency_asReplay (h : sup.checkIdempotency env command = .ok (some hit)) :
    hit.idempotentReplay = true := by
  unfold checkIdempotency at h
  split at h
  · obtain ⟨-, h⟩ := readStore_eq_ok.mp h
    obtain ⟨r, -, rfl⟩ := Option.map_eq_some_iff.mp h
    rfl
  · cases pure_eq_ok.mp h

end

theorem compactAt_cases (sup : Supervisor) (fault : Option RunSupervisorError) (runId : RunId)
    (floor : Nat) (fallback : Option SessionId) :
    sup.compactAt P fault runId floor fallback = sup ∨
      ∃ store t report usage, sup.store = some store ∧
        compactRun P (store.tables runId) runId floor fallback = .ok (t, report) ∧
        sup.compactAt P fault runId floor fallback =
          { sup with store := some (store.insert runId t), usageBytes := usage } := by
  unfold compactAt
  cases hstore : sup.store with
  | none => exact .inl rfl
  | some store =>
    cases fault with
    | some => exact .inl rfl
    | none =>
      cases hc : compactRun P (store.tables runId) runId floor fallback with
      | error => exact .inl (by simp only [hc])
      | ok out => exact .inr ⟨store, out.1, out.2, _, rfl, hc, by simp only [hc]; rfl⟩

variable {store : Store} {runId : RunId} {w' : World}

variable {R : RunId → List RunEventEnvelope → RunTables → Prop}

theorem World.Keeps.update {store' : Store} {H : List RunEventEnvelope} (h : w.Keeps P R)
    (hstore : w.sup.store = some store) (ht : R runId H (store'.tables runId))
    (hstore' : w'.sup.store = some store')
    (hothers : ∀ k, k ≠ runId → store'.tables k = store.tables k)
    (hlog : w'.log = Function.update w.log runId H) : w'.Keeps P R := by
  refine ⟨fun store₁ h₁ k => ?_, fun hnone => by rw [hstore'] at hnone; cases hnone⟩
  rw [hstore'] at h₁
  cases h₁
  rw [hlog]
  by_cases hk : k = runId
  · subst hk
    rw [Function.update_self]
    exact ht
  · rw [hothers k hk, Function.update_of_ne hk]
    exact h.durable store hstore k

theorem tables_insert_self (store : Store) (runId : RunId) (t : RunTables) :
    Store.tables (store.insert runId t) runId = t := by
  rw [tables_insert, if_pos rfl]

theorem tables_insert_ne (store : Store) {k : RunId} (t : RunTables) (h : k ≠ runId) :
    Store.tables (store.insert runId t) k = store.tables k := by
  rw [tables_insert, if_neg (Ne.symm h)]

theorem World.Keeps.insert_memory {snap : RunSnapshot} {H : List RunEventEnvelope}
    (h : w.Keeps P R) (hstore : w.sup.store = none) (hs : MemoryCoherent P runId H (some snap))
    (hstore' : w'.sup.store = none) (hmem : w'.sup.memory = w.sup.memory.insert runId snap)
    (hlog : w'.log = Function.update w.log runId H) : w'.Keeps P R := by
  refine ⟨(fun store h₁ => by rw [hstore'] at h₁; cases h₁), fun _ k => ?_⟩
  rw [hmem, hlog, OrdMap.get_insert]
  by_cases hk : runId = k
  · subst hk
    rw [if_pos rfl, Function.update_self]
    exact hs
  · rw [if_neg hk, Function.update_of_ne (Ne.symm hk)]
    exact h.volatile hstore k

theorem World.Keeps.compactAt (h : w.Keeps P R) (fault : Option RunSupervisorError)
    (fallback : Option SessionId)
    (hR : ∀ store t report, w.sup.store = some store →
      compactRun P (store.tables runId) runId floor fallback = .ok (t, report) →
      R runId (w.log runId) t) :
    World.Keeps P R { w with sup := w.sup.compactAt P fault runId floor fallback } := by
  rcases compactAt_cases (P := P) w.sup fault runId floor fallback with
    hsame | ⟨store, t, report, usage, hstore, hok, heq⟩
  · rw [hsame]
    exact h
  · have ht : R runId (w.log runId) (Store.tables (store.insert runId t) runId) := by
      rw [tables_insert_self]
      exact hR store t report hstore hok
    exact h.update hstore ht (by rw [heq]) (fun k hk => tables_insert_ne store t hk)
      (Function.update_eq_self runId w.log).symm

theorem World.Coherent.compactAt (h : w.Coherent P) (hlow : w.replayFloor runId < floor)
    (hhigh : floor + 100 ≤ (w.log runId).length) (fault : Option RunSupervisorError)
    (fallback : Option SessionId) :
    World.Coherent P { w with sup := w.sup.compactAt P fault runId floor fallback } := by
  refine World.Keeps.compactAt h fault fallback fun store t report hstore hok => ?_
  have hc := h.durable store hstore runId
  cases hrow : (store.tables runId).row with
  | none =>
    rw [(hc.rows.no_row hrow).1] at hhigh
    simp at hhigh
  | some row =>
    have hfloor : row.replayFloor < floor := by
      simpa [World.replayFloor, hstore, hrow] using hlow
    exact hc.compact hrow hfloor hhigh hok

section Commit

variable {sup stored : Supervisor} {env : CallEnv} {command : RunCommand}
  {base applied : RunSnapshot} {compact : Bool}

theorem nextSnapshot_runId (eventId : EventId) (hid : base.runId = command.runId)
    (happly : applyCommand P base command = .ok applied) :
    (nextSnapshot P eventId command base applied).runId = command.runId := by
  have hrun := applyCommand_runId happly hid
  exact hrun

variable (P) in
/-- The transaction of a commit makes the rows `t'` of `t`. -/
abbrev CommitsRows (env : CallEnv) (command : RunCommand) (base applied : RunSnapshot)
    (t t' : RunTables) : Prop :=
  t.commitRunCommand P env.commitRefusal (nextSnapshot P env.eventId command base applied)
    (nextEvent P env.eventId command base applied) (command.envelope.idempotencyKey.map
      (·, (nextSnapshot P env.eventId command base applied).result)) = .ok t'

section
variable (h : CommitFacts P sup env command base applied stored compact)
include h

theorem CommitFacts.durable (hstore : sup.store = some store) (hid : base.runId = command.runId) :
    ∃ t, CommitsRows P env command base applied (store.tables command.runId) t ∧
      stored = { sup with store := some (store.insert command.runId t) } := by
  have hp := h.persisted
  simp only [persist, hstore, bind_eq_ok, pure_eq_ok,
    nextSnapshot_runId env.eventId hid h.accepted] at hp
  obtain ⟨t, ht, rfl⟩ := hp
  exact ⟨t, ht, rfl⟩

theorem CommitFacts.base_of_store (hstore : sup.store = some store) :
    baseSnapshot command (store.tables command.runId).loadRunSnapshot = .ok base := by
  obtain ⟨current, hload, hbase⟩ := h.loaded
  simp only [loadSnapshot, hstore, readStore_eq_ok] at hload
  rw [hload.2]
  exact hbase

theorem CommitFacts.base_of_memory (hstore : sup.store = none) :
    baseSnapshot command sup.memory[command.runId]? = .ok base := by
  obtain ⟨current, hload, hbase⟩ := h.loaded
  simp only [loadSnapshot, hstore] at hload
  rw [pure_eq_ok.mp hload]
  exact hbase

end

theorem afterCommit_durable (hstore : stored.store = some store) (next : RunSnapshot)
    (size : UInt64) :
    stored.afterCommit P env command next size compact =
      (stored.recordUsage size).compactAfter P env command next compact := by
  have hsome : ∃ store', ((stored.recordUsage size).compactAfter P env command next compact).store
      = some store' := by
    unfold compactAfter
    split
    · rcases compactAt_cases (P := P) (stored.recordUsage size) env.compactionFault command.runId
          (compactionFloor next) next.sessionId with hsame | ⟨_, t, _, _, -, -, heq⟩
      · exact ⟨store, by rw [hsame]; exact hstore⟩
      · exact ⟨_, by rw [heq]⟩
    · exact ⟨store, hstore⟩
  obtain ⟨store', hstore'⟩ := hsome
  rw [afterCommit, storeCommandId, hstore']

/-- With a store, a commit and what follows it change the rows of one run: they are what the
transaction leaves, or what a compaction makes of that. -/
theorem CommitFacts.tables (h : CommitFacts P sup env command base applied stored compact)
    (hstore : sup.store = some store) (hid : base.runId = command.runId) :
    ∃ t store', CommitsRows P env command base applied (store.tables command.runId) t ∧
      (stored.committed P env command base applied compact).store = some store' ∧
      (∀ k, k ≠ command.runId → store'.tables k = store.tables k) ∧
      (store'.tables command.runId = t ∨ OwnCompaction P env compact command.runId
        (base.sequence + 1 - 100) t (store'.tables command.runId)) := by
  obtain ⟨t, ht, rfl⟩ := h.durable hstore hid
  rw [committed, afterCommit_durable rfl]
  have hsame : ∀ k, k ≠ command.runId →
      Store.tables (store.insert command.runId t) k = store.tables k :=
    fun k hk => tables_insert_ne store t hk
  unfold compactAfter
  split
  · rename_i hcompact
    cases hfault : env.compactionFault with
    | some => exact ⟨t, _, ht, rfl, hsame, .inl (tables_insert_self store _ t)⟩
    | none =>
      rcases compactAt_cases (P := P) (recordUsage
          { sup with store := some (store.insert command.runId t) }
          (P.payloadBytes (.command command))) none command.runId _ _ with
        heq | ⟨store₁, t₁, report, usage, h₁, hok, heq⟩
      · exact ⟨t, _, ht, by rw [heq]; rfl, hsame, .inl (tables_insert_self store _ t)⟩
      · cases h₁
        rw [tables_insert_self] at hok
        refine ⟨t, _, ht, by rw [heq], fun k hk => ?_, .inr ⟨hcompact.1, hfault, hcompact.2,
          (nextSnapshot P env.eventId command base applied).sessionId, report, ?_⟩⟩
        · rw [tables_insert_ne _ _ hk, hsame k hk]
        · rw [tables_insert_self]
          exact hok
  · exact ⟨t, _, ht, rfl, hsame, .inl (tables_insert_self store _ t)⟩

theorem compactAfter_volatile (hstore : sup.store = none) (next : RunSnapshot) :
    sup.compactAfter P env command next compact = sup := by
  unfold compactAfter compactAt
  rw [hstore]
  split <;> rfl

/-- Without a store, the snapshot and the result go to memory, and nothing is compacted. -/
theorem CommitFacts.memory (h : CommitFacts P sup env command base applied stored compact)
    (hstore : sup.store = none) (hid : base.runId = command.runId) :
    stored.committed P env command base applied compact = { sup with
      memory := sup.memory.insert command.runId (nextSnapshot P env.eventId command base applied)
      usageBytes := sup.usageBytes + P.payloadBytes (.command command)
      commandDedup := sup.commandDedup.insert command.runId
        ((sup.commandDedup[command.runId]?.getD ∅).insert command.envelope.commandId
          (nextSnapshot P env.eventId command base applied).result) } := by
  have hp := h.persisted
  simp only [persist, hstore, nextSnapshot_runId env.eventId hid h.accepted] at hp
  obtain rfl := pure_eq_ok.mp hp
  rw [Supervisor.committed, afterCommit, compactAfter_volatile rfl, storeCommandId, recordUsage,
    hstore]

end Commit

theorem MemoryCoherent.commit {r : RunId} {H : List RunEventEnvelope}
    {current : Option RunSnapshot} {command : RunCommand} {base applied : RunSnapshot}
    (eventId : EventId) (h : MemoryCoherent P r H current) (hr : command.runId = r)
    (hbase : baseSnapshot command current = .ok base)
    (happly : applyCommand P base command = .ok applied) :
    base.runId = command.runId ∧
      MemoryCoherent P r (H ++ [nextEvent P eventId command base applied])
        (some (nextSnapshot P eventId command base applied)) := by
  have hclear : applyCommand P (base.withEvents []) command = .ok (applied.withEvents []) := by
    rw [applyCommand_withEvents, happly]
    rfl
  have hto := commitsTo_newEvent eventId hclear
  have hkept := applyCommand_events happly
  rcases baseSnapshot_eq_ok.mp hbase with ⟨c, rfl, rfl, rfl⟩ | ⟨rfl, -⟩
  · have hempty : H = [] := h
    have hrun : c.runId = r := hr
    subst hempty hrun
    refine ⟨rfl, ?_, RowCoherent.create hto (applyCommand_runId happly rfl)⟩
    show applied.events ++ _ = [] ++ _
    rw [hkept]
    rfl
  · obtain ⟨hevents, hc⟩ := h
    have hid : base.runId = r := hc.named
    refine ⟨hid.trans hr.symm, ?_, hc.append hto ?_⟩
    · show applied.events ++ _ = H ++ _
      rw [hkept, hevents]
      rfl
    · exact (applyCommand_runId happly (hid.trans hr.symm)).trans hr

variable (P) in
/-- The rows of each run agree with its history, wherever its floor is. -/
abbrev World.RowsKept (w : World) : Prop := w.Keeps P (RowsCoherent P)

theorem World.Coherent.rows (h : w.Coherent P) : w.RowsKept P :=
  ⟨fun store hstore r => (h.durable store hstore r).rows, h.volatile⟩

section Keeps

variable {env : CallEnv} {command : RunCommand} {stored : Supervisor} {base applied : RunSnapshot}
  {compact : Bool} (hrows : w.RowsKept P)
  (hc : CommitFacts P w.sup env command base applied stored compact)
include hrows hc

theorem World.Keeps.commit_runId : applied.runId = command.runId := by
  cases hstore : w.sup.store with
  | some store =>
    obtain ⟨hid, -⟩ := (hrows.durable store hstore command.runId).base_facts rfl
      (hc.base_of_store hstore)
    exact applyCommand_runId hc.accepted hid
  | none =>
    obtain ⟨hid, -⟩ := (hrows.volatile hstore command.runId).commit env.eventId rfl
      (hc.base_of_memory hstore) hc.accepted
    exact applyCommand_runId hc.accepted hid

theorem World.Keeps.commit (h : w.Keeps P R)
    (hafter : ∀ store t t', w.sup.store = some store →
      CommitsRows P env command base applied (store.tables command.runId) t →
      (t' = t ∨ OwnCompaction P env compact command.runId (base.sequence + 1 - 100) t t') →
      R command.runId (w.log command.runId ++ [nextEvent P env.eventId command base applied]) t')
    (hsup : w'.sup = stored.committed P env command base applied compact)
    (hlog : w'.log = Function.update w.log command.runId (w.log command.runId ++
      [nextEvent P env.eventId command base applied])) : w'.Keeps P R := by
  cases hstore : w.sup.store with
  | some store =>
    have hrun := hrows.durable store hstore command.runId
    have hbase := hc.base_of_store hstore
    obtain ⟨hid, -, hseq⟩ := hrun.base_facts rfl hbase
    obtain ⟨t, store', ht, hstore', hothers, hown⟩ := hc.tables hstore hid
    refine h.update hstore (hafter store t _ hstore ht hown) ?_ hothers hlog
    rw [hsup]
    exact hstore'
  | none =>
    have hrun := h.volatile hstore command.runId
    have hbase := hc.base_of_memory hstore
    obtain ⟨hid, hnew⟩ := hrun.commit env.eventId rfl hbase hc.accepted
    rw [hc.memory hstore hid] at hsup
    exact h.insert_memory hstore hnew (by rw [hsup, hstore]) (by rw [hsup]) hlog

end Keeps

theorem recordCommit_replay (log : RunId → List RunEventEnvelope)
    (h : hit.idempotentReplay = true) : recordCommit log (.ok hit) = log := by
  simp [recordCommit, h]

theorem recordCommit_result (log : RunId → List RunEventEnvelope) (eventId : EventId)
    (command : RunCommand) (base applied : RunSnapshot) :
    recordCommit log (.ok (nextSnapshot P eventId command base applied).result) =
      Function.update log applied.runId
        (log applied.runId ++ [nextEvent P eventId command base applied]) := by
  simp [recordCommit, RunSnapshot.result, nextSnapshot, newEvent]

theorem World.Keeps.handle {env : CallEnv} {command : RunCommand} (h : w.Keeps P R)
    (hrows : w.RowsKept P)
    (hafter : ∀ base applied stored compact store t t',
      CommitFacts P w.sup env command base applied stored compact → w.sup.store = some store →
      CommitsRows P env command base applied (store.tables command.runId) t →
      (w.sup.handle P env command).2 =
        .ok (nextSnapshot P env.eventId command base applied).result →
      (t' = t ∨ OwnCompaction P env compact command.runId (base.sequence + 1 - 100) t t') →
      R command.runId (w.log command.runId ++ [nextEvent P env.eventId command base applied]) t') :
    (w.handle P env command).Keeps P R := by
  unfold World.handle
  generalize hsup : (w.sup.handle P env command).1 = sup'
  generalize hout : (w.sup.handle P env command).2 = out at hafter ⊢
  have hh : Handled P w.sup env command sup' out := hsup ▸ hout ▸ handle_handled w.sup env command
  cases hh with
  | refused | overQuota => exact ⟨h.durable, h.volatile⟩
  | replayed _ _ hhit =>
    rw [recordCommit_replay w.log (hhit.elim checkCommandId_asReplay checkIdempotency_asReplay)]
    exact ⟨h.durable, h.volatile⟩
  | committed hc =>
    refine World.Keeps.commit hrows hc h (fun store t t' hstore ht hown =>
      hafter _ _ _ _ store t t' hc hstore ht rfl hown) rfl ?_
    rw [← hrows.commit_runId hc]
    exact recordCommit_result w.log env.eventId command _ _

theorem World.Coherent.handle (h : w.Coherent P) (env : CallEnv) (command : RunCommand) :
    (w.handle P env command).Coherent P := by
  refine World.Keeps.handle h h.rows ?_
  intro base applied stored compact store t t' hc hstore ht _ hown
  exact (h.durable store hstore command.runId).after_commit rfl (hc.base_of_store hstore)
    hc.accepted ht hown

variable {p : RunSnapshot}

section
variable (h : w.RowsKept P) (hp : w.projection runId = some p)
include h hp

theorem World.Keeps.projection_sequence : p.sequence = (w.log runId).length := by
  cases hstore : w.sup.store with
  | some store =>
    rw [World.projection_durable hstore] at hp
    obtain ⟨row, hrow, rfl⟩ := Option.map_eq_some_iff.mp hp
    exact ((h.durable store hstore runId).row hrow).sequence
  | none =>
    rw [World.projection_volatile hstore] at hp
    obtain ⟨s, hs, rfl⟩ := Option.map_eq_some_iff.mp hp
    have hc := h.volatile hstore runId
    rw [hs] at hc
    exact hc.2.sequence

theorem World.Keeps.replayRun : ∃ s, w.sup.replayRun P runId = .ok s ∧ s.withEvents [] = p := by
  cases hstore : w.sup.store with
  | some store =>
    rw [World.projection_durable hstore] at hp
    obtain ⟨row, hrow, rfl⟩ := Option.map_eq_some_iff.mp hp
    have hc := (h.durable store hstore runId).row hrow
    obtain ⟨s, hs, hproj⟩ := hc.replay_run
    refine ⟨s, ?_, hproj⟩
    simp only [replayRun, hstore, hc.listed rfl, RunTables.loadReplayFloor, hrow]
    exact hs
  | none =>
    rw [World.projection_volatile hstore] at hp
    obtain ⟨snap, hsnap, rfl⟩ := Option.map_eq_some_iff.mp hp
    have hc := h.volatile hstore runId
    rw [hsnap] at hc
    obtain ⟨hevents, hc⟩ := hc
    obtain ⟨s, hs, hproj⟩ := hc.replay_run
    refine ⟨s, ?_, hproj⟩
    simp only [replayRun, hstore, hsnap]
    show replayFromEvents P (replayBase runId none snap.events).1
      (replayBase runId none snap.events).2 = .ok s
    rw [hevents]
    exact hs

end

theorem LiveStep.coherent (hstep : LiveStep P w w') (h : w.Coherent P) : w'.Coherent P := by
  cases hstep with
  | handle env command => exact h.handle env command
  | compact fault runId floor fallback hp hlow hhigh =>
    rw [h.rows.projection_sequence hp] at hhigh
    exact h.compactAt hlow hhigh fault fallback

theorem Live.coherent (h : Live P w) : w.Coherent P := by
  obtain ⟨durable, quota, hr⟩ := h
  induction hr with
  | refl => exact World.start_coherent durable quota
  | tail _ hstep ih => exact hstep.coherent ih

end Tetonic.Run
