import Tetonic.Run.Dedup
set_option autoImplicit false

/-! One run served by several instances on one store. The lock that `handle` takes is the
instance's own: an instance works on one call of the run at a time, and between two
transactions of a call any other instance may have its turn. -/

namespace Tetonic.Run
open Lib Supervisor

variable (P : Platform)

abbrev InstanceId := Nat

/-- How far a call of `handle` has come. From each stage one transaction leads on. -/
inductive Stage where
  | arrived
  | idChecked
  | keyChecked
  | decided (base next : RunSnapshot) (event : RunEventEnvelope)
  | committed (next : RunSnapshot)

def Stage.written : Stage → Bool
  | .committed _ => true
  | _ => false

/-- What a turn takes from outside: the error that ends the call here (Safe Mode, the quota,
the store), the fresh event id, and whether the quota asks for a compaction. -/
structure TurnEnv where
  fault : Option (Fault RunSupervisorError) := none
  eventId : EventId := ""
  compact : Bool := false

inductive Progress where
  | goOn (stage : Stage)
  | answer (result : RunOutcome RunCommandResult)

/-- The rows a turn leaves, and whether it committed the command. -/
structure Turned where
  tables : RunTables
  committed : Bool := false
  progress : Progress

def hitAnswer (command : RunCommand) (hit : RunCommandResult) : RunOutcome RunCommandResult :=
  (replayHit command hit.asReplay).map fun _ => hit.asReplay

def decideOn (current : Option RunSnapshot) (eventId : EventId) (command : RunCommand) :
    RunOutcome Stage := do
  let base ← baseSnapshot command current
  checkBase base command
  let applied ← applyCommand P base command
  let next := nextSnapshot P eventId command base applied
  pure (.decided base next (newEvent P eventId command next))

/-- One transaction of `handle_internal` that does not fail. -/
def turnFrom (t : RunTables) (command : RunCommand) (env : TurnEnv) : Stage → Turned
  | .arrived =>
    match t.loadRunCommandDedup command.envelope.commandId with
    | some hit => { tables := t, progress := .answer (hitAnswer command hit) }
    | none => { tables := t, progress := .goOn .idChecked }
  | .idChecked =>
    match command.envelope.idempotencyKey.bind t.loadRunIdempotency with
    | some hit => { tables := t, progress := .answer (hitAnswer command hit) }
    | none => { tables := t, progress := .goOn .keyChecked }
  | .keyChecked =>
    match decideOn P t.loadRunSnapshot env.eventId command with
    | .ok stage => { tables := t, progress := .goOn stage }
    | .error e => { tables := t, progress := .answer (.error e) }
  | .decided _ next event =>
    match t.commitRunCommand P none next event
        (command.envelope.idempotencyKey.map (·, next.result)) with
    | .error e => { tables := t, progress := .answer (.error e) }
    | .ok t' => {
        tables := t'
        committed := true
        progress :=
          if env.compact = true ∧ compactionFloor next > 0 then .goOn (.committed next)
          else .answer (.ok next.result) }
  | .committed next =>
    match compactRun P t command.runId (compactionFloor next) next.sessionId with
    | .ok (t', _) => { tables := t', progress := .answer (.ok next.result) }
    | .error _ => { tables := t, progress := .answer (.ok next.result) }

/-- The next transaction of a call. A compaction that fails only warns. -/
def turn (t : RunTables) (command : RunCommand) (env : TurnEnv) (stage : Stage) : Turned :=
  match env.fault, stage with
  | some _, .committed next => { tables := t, progress := .answer (.ok next.result) }
  | some e, _ => { tables := t, progress := .answer (.error e) }
  | none, stage => turnFrom P t command env stage

/-- What an instance is doing with the run: it serves a call for a caller, or it has just
started and holds the result of its recovery pass, not yet written. -/
inductive Activity (κ : Type) where
  | serving (caller : κ) (command : RunCommand) (stage : Stage)
  | recovering (before snap : RunSnapshot)

/-- The rows of the run, every command ever committed, and the instances at work. -/
structure Shared (κ : Type) where
  tables : RunTables := {}
  log : List RunCommand := []
  hosts : OrdMap InstanceId (Activity κ) := ∅

def startingPass {κ : Type} (t : RunTables) (now : UInt64) : Option (Activity κ) :=
  t.loadRunSnapshot.bind fun before =>
    match startupPass P before now with
    | .ok snap => if snap = before then none else some (.recovering before snap)
    | .error _ => none

namespace Shared

variable {κ : Type}

def projection (s : Shared κ) : Option RunSnapshot := s.tables.loadRunSnapshot

def sequence (s : Shared κ) : Nat := (s.projection.map (·.sequence)).getD 0

/-- An idle instance takes a call of the run and with it the lock. -/
def serve (s : Shared κ) (host : InstanceId) (caller : κ) (command : RunCommand) :
    Option (Shared κ) :=
  if s.hosts.contains host = true then none
  else some { s with hosts := s.hosts.insert host (.serving caller command .arrived) }

/-- The state after a turn of a call: an answer frees the instance. -/
def settle (s : Shared κ) (host : InstanceId) (caller : κ) (command : RunCommand) (r : Turned) :
    Shared κ × Option (κ × RunOutcome RunCommandResult) :=
  let s' := { s with
    tables := r.tables
    log := if r.committed = true then s.log ++ [command] else s.log }
  match r.progress with
  | .goOn stage => ({ s' with hosts := s.hosts.insert host (.serving caller command stage) }, none)
  | .answer result => ({ s' with hosts := s.hosts.erase host }, some (caller, result))

def recovered (s : Shared κ) (host : InstanceId) (env : TurnEnv) (snap : RunSnapshot) : Shared κ :=
  { s with
    hosts := s.hosts.erase host
    tables := match env.fault, s.tables.persistRunProjection none snap with
      | none, .ok t => t
      | _, _ => s.tables }

def turn (s : Shared κ) (host : InstanceId) (env : TurnEnv) :
    Option (Shared κ × Option (κ × RunOutcome RunCommandResult)) :=
  s.hosts[host]?.map fun
    | .serving caller command stage =>
      s.settle host caller command (Run.turn P s.tables command env stage)
    | .recovering _ snap => (s.recovered host env snap, none)

def release (s : Shared κ) (host : InstanceId) : Shared κ :=
  { s with hosts := s.hosts.erase host }

/-- The instance dies and starts again: nothing of its work is left, and it loads the run. -/
def restart (s : Shared κ) (host : InstanceId) (now : UInt64) : Shared κ :=
  match startingPass P s.tables now with
  | some a => { s with hosts := s.hosts.insert host a }
  | none => s.release host

end Shared

theorem hitAnswer_cases (command : RunCommand) (hit : RunCommandResult) :
    hitAnswer command hit = .ok hit.asReplay ∨ ∃ e, hitAnswer command hit = .error e := by
  unfold hitAnswer
  cases h : replayHit command hit.asReplay with
  | ok => exact .inl rfl
  | error e => exact .inr ⟨e, rfl⟩

variable {P} in
theorem decideOn_eq_ok {current : Option RunSnapshot} {eventId : EventId} {command : RunCommand}
    {stage : Stage} (h : decideOn P current eventId command = .ok stage) :
    ∃ base applied, baseSnapshot command current = .ok base ∧ checkBase base command = .ok () ∧
      applyCommand P base command = .ok applied ∧
      stage = .decided base (nextSnapshot P eventId command base applied)
        (newEvent P eventId command (nextSnapshot P eventId command base applied)) := by
  simp only [decideOn, bind_eq_ok, pure_eq_ok] at h
  obtain ⟨base, hbase, u, hguard, applied, haccept, rfl⟩ := h
  exact ⟨base, applied, hbase, hguard, haccept, rfl⟩

/-- The ways a turn can end, with what each leaves of the rows. -/
inductive Turn (t : RunTables) (command : RunCommand) : Stage → Turned → Prop where
  | refused {stage : Stage} (hstage : stage.written = false)
      (e : Fault RunSupervisorError) :
      Turn t command stage { tables := t, progress := .answer (.error e) }
  | replayed {stage : Stage} (hstage : stage.written = false) (hit : RunCommandResult)
      (hhit : command.envelope.idempotencyKey = none →
        t.commandDedup[command.envelope.commandId]? = some hit) :
      Turn t command stage { tables := t, progress := .answer (.ok hit.asReplay) }
  | checkedId : Turn t command .arrived { tables := t, progress := .goOn .idChecked }
  | checkedKey : Turn t command .idChecked { tables := t, progress := .goOn .keyChecked }
  | decided {base applied : RunSnapshot} {eventId : EventId}
      (hbase : baseSnapshot command t.loadRunSnapshot = .ok base)
      (guarded : checkBase base command = .ok ())
      (accepted : applyCommand P base command = .ok applied) :
      Turn t command .keyChecked {
        tables := t
        progress := .goOn (.decided base (nextSnapshot P eventId command base applied)
          (newEvent P eventId command (nextSnapshot P eventId command base applied))) }
  | committed {base next : RunSnapshot} {event : RunEventEnvelope} {t' : RunTables}
      {progress : Progress}
      (h : t.commitRunCommand P none next event
        (command.envelope.idempotencyKey.map (·, next.result)) = .ok t')
      (hprogress : progress = .goOn (.committed next) ∨ progress = .answer (.ok next.result)) :
      Turn t command (.decided base next event) { tables := t', committed := true, progress }
  | compacted {next : RunSnapshot} {t' : RunTables}
      (hprojection : t'.loadRunSnapshot = t.loadRunSnapshot)
      (hdedup : t'.commandDedup = t.commandDedup) :
      Turn t command (.committed next) { tables := t', progress := .answer (.ok next.result) }

variable {P} {t : RunTables} {command : RunCommand}

theorem Turn.hit {stage : Stage} (hstage : stage.written = false) (hit : RunCommandResult)
    (hhit : command.envelope.idempotencyKey = none →
      t.commandDedup[command.envelope.commandId]? = some hit) :
    Turn P t command stage { tables := t, progress := .answer (hitAnswer command hit) } := by
  rcases hitAnswer_cases command hit with h | ⟨e, h⟩
  · rw [h]
    exact .replayed hstage hit hhit
  · rw [h]
    exact .refused hstage e

theorem turnFrom_turn (env : TurnEnv) (stage : Stage) :
    Turn P t command stage (turnFrom P t command env stage) := by
  cases stage with
  | arrived =>
    simp only [turnFrom]
    cases hid : t.loadRunCommandDedup command.envelope.commandId with
    | some hit => exact .hit rfl hit fun _ => hid
    | none => exact .checkedId
  | idChecked =>
    simp only [turnFrom]
    cases hkey : command.envelope.idempotencyKey.bind t.loadRunIdempotency with
    | some hit =>
      refine .hit rfl hit fun hnone => ?_
      rw [hnone] at hkey
      cases hkey
    | none => exact .checkedKey
  | keyChecked =>
    simp only [turnFrom]
    cases h : decideOn P t.loadRunSnapshot env.eventId command with
    | ok =>
      obtain ⟨base, applied, hbase, hguard, haccept, rfl⟩ := decideOn_eq_ok h
      exact .decided hbase hguard haccept
    | error e => exact .refused rfl e
  | decided base next event =>
    simp only [turnFrom]
    cases h : t.commitRunCommand P none next event
        (command.envelope.idempotencyKey.map (·, next.result)) with
    | ok t' =>
      refine .committed h ?_
      split
      · exact .inl rfl
      · exact .inr rfl
    | error e => exact .refused rfl e
  | committed next =>
    simp only [turnFrom]
    cases h : compactRun P t command.runId (compactionFloor next) next.sessionId with
    | ok => exact .compacted (compactRun_loadRunSnapshot h) (compactRun_tables h).1
    | error => exact .compacted rfl rfl

theorem turn_turn (env : TurnEnv) (stage : Stage) :
    Turn P t command stage (turn P t command env stage) := by
  cases hfault : env.fault with
  | none =>
    simp only [turn, hfault]
    exact turnFrom_turn env stage
  | some e =>
    cases stage with
    | committed =>
      simp only [turn, hfault]
      exact .compacted rfl rfl
    | _ =>
      simp only [turn, hfault]
      exact .refused rfl e

variable (P) in
def turnsAlone (env : TurnEnv) (command : RunCommand) :
    Nat → RunTables → Stage → Option (RunTables × RunOutcome RunCommandResult)
  | 0, _, _ => none
  | n + 1, t, stage =>
    match turn P t command env stage with
    | ⟨t', _, .answer result⟩ => some (t', result)
    | ⟨t', _, .goOn stage'⟩ => turnsAlone env command n t' stage'

section Alone

variable {sup : Supervisor} {store : Store} {compact : Bool} {eventId : EventId}

theorem turnsAlone_goOn {env : TurnEnv} {n : Nat} {t t' : RunTables} {stage stage' : Stage}
    {committed : Bool} (h : turn P t command env stage = ⟨t', committed, .goOn stage'⟩) :
    turnsAlone P env command (n + 1) t stage = turnsAlone P env command n t' stage' := by
  simp only [turnsAlone, h]

theorem handle_of_hit {env : CallEnv} {hit : RunCommandResult}
    (h : sup.consider P env command = replayHit command hit.asReplay) :
    sup.handle P env command = (sup, hitAnswer command hit) := by
  by_cases hgrant : command.grantsExecution = true
  · simp only [handle, hitAnswer, h, replayHit, hgrant, if_true]
    rfl
  · simp only [handle, hitAnswer, h, replayHit, hgrant]
    rfl

def compactedRows (P : Platform) (compact : Bool) (command : RunCommand) (next : RunSnapshot)
    (t : RunTables) : RunTables :=
  if compact = true ∧ compactionFloor next > 0 then
    match compactRun P t command.runId (compactionFloor next) next.sessionId with
    | .ok (t', _) => t'
    | .error _ => t
  else t

theorem afterCommit_rows {stored : Supervisor} (hstore : stored.store = some store)
    (next : RunSnapshot) (size : UInt64) :
    ((stored.afterCommit P { eventId } command next size compact).store.getD ∅).tables
      command.runId = compactedRows P compact command next (store.tables command.runId) := by
  have hrecorded : (stored.recordUsage size).store = some store := hstore
  rw [afterCommit_durable hstore]
  unfold compactAfter compactedRows
  split
  · simp only [compactAt, hrecorded]
    cases compactRun P (store.tables command.runId) command.runId
        (compactionFloor next) next.sessionId with
    | error e => simp only [hrecorded, Option.getD_some]
    | ok cut => exact tables_insert_self store command.runId cut.1
  · rw [hrecorded, Option.getD_some]

theorem turnsAlone_decided {base next : RunSnapshot} {event : RunEventEnvelope} {t : RunTables} :
    turnsAlone P { eventId, compact } command 2 t (.decided base next event) =
      some (match t.commitRunCommand P none next event
          (command.envelope.idempotencyKey.map (·, next.result)) with
        | .error e => (t, .error e)
        | .ok t' => (compactedRows P compact command next t', .ok next.result)) := by
  simp only [turnsAlone, turn, turnFrom]
  cases t.commitRunCommand P none next event
      (command.envelope.idempotencyKey.map (·, next.result)) with
  | error e => rfl
  | ok t' =>
    by_cases hcompact : compact = true ∧ compactionFloor next > 0
    · simp only [compactedRows, hcompact, and_self, if_true]
      cases compactRun P t' command.runId (compactionFloor next) next.sessionId with
      | error | ok => rfl
    · simp only [compactedRows, hcompact, if_false]

theorem handle_of_commit {next : RunSnapshot} {event : RunEventEnvelope}
    (hstore : sup.store = some store) (hrun : next.runId = command.runId)
    (hconsider : sup.consider P { eventId } command = .ok (.commit next event))
    (hquota : sup.checkBeforeAppend P (P.payloadBytes event.payload) = .ok compact) :
    (((sup.handle P { eventId } command).1.store.getD ∅).tables command.runId,
        (sup.handle P { eventId } command).2) =
      match (store.tables command.runId).commitRunCommand P none next event
          (command.envelope.idempotencyKey.map (·, next.result)) with
        | .error e => (store.tables command.runId, .error e)
        | .ok t' => (compactedRows P compact command next t', .ok next.result) := by
  simp only [handle, hconsider, hquota, persist, hstore, hrun]
  cases (store.tables command.runId).commitRunCommand P none next event
      (command.envelope.idempotencyKey.map (·, next.result)) with
  | error e => simp only [bind, Except.bind, hstore, Option.getD_some]
  | ok t' =>
    simp only [bind, Except.bind, pure, Except.pure]
    rw [afterCommit_rows rfl, tables_insert_self]

theorem applyToCurrent_eq_decideOn (hstore : sup.store = some store) :
    sup.applyToCurrent P { eventId } command =
      match decideOn P (store.tables command.runId).loadRunSnapshot eventId command with
      | .ok (.decided _ next event) => .ok (.commit next event)
      | .ok _ => .error .panicked
      | .error e => .error e := by
  simp only [applyToCurrent, loadSnapshot, hstore, readStore, decideOn, bind,
    Except.bind, pure, Except.pure]
  cases baseSnapshot command (store.tables command.runId).loadRunSnapshot with
  | error => rfl
  | ok base =>
    cases hguard : checkBase base command with
    | error => simp only [hguard]
    | ok =>
      cases haccept : applyCommand P base command with
      | error | ok => simp only [hguard, haccept]

theorem consider_of_store (command : RunCommand) (eventId : EventId)
    (hstore : sup.store = some store) (hawake : sup.safeMode = false) :
    sup.consider P { eventId } command =
      match (store.tables command.runId).loadRunCommandDedup command.envelope.commandId,
        command.envelope.idempotencyKey.bind (store.tables command.runId).loadRunIdempotency with
      | some hit, _ => replayHit command hit.asReplay
      | none, some hit => replayHit command hit.asReplay
      | none, none => sup.applyToCurrent P { eventId } command := by
  simp only [consider, hawake, Bool.false_eq_true, false_and, refuseIf, if_false,
    checkCommandId, hstore, readStore, bind, Except.bind, pure, Except.pure]
  cases (store.tables command.runId).loadRunCommandDedup command.envelope.commandId with
  | some => rfl
  | none =>
    cases hkey : command.envelope.idempotencyKey with
    | none => simp [checkIdempotency, hkey, pure, Except.pure]
    | some key =>
      simp only [checkIdempotency, hkey, hstore, readStore, pure, Except.pure,
        Option.map_none, Option.bind_some]
      cases (store.tables command.runId).loadRunIdempotency key with
      | none | some => rfl

theorem turnsAlone_eq_handle (hstore : sup.store = some store) (hawake : sup.safeMode = false)
    (hrun : ∀ p, (store.tables command.runId).loadRunSnapshot = some p → p.runId = command.runId)
    (hquota : sup.checkBeforeAppend P (P.payloadBytes (.command command)) = .ok compact) :
    turnsAlone P { eventId, compact } command 5 (store.tables command.runId) .arrived =
      some (((sup.handle P { eventId } command).1.store.getD ∅).tables command.runId,
        (sup.handle P { eventId } command).2) := by
  have hconsider := consider_of_store (P := P) command eventId hstore hawake
  cases hid : (store.tables command.runId).loadRunCommandDedup command.envelope.commandId with
  | some =>
    rw [hid] at hconsider
    rw [handle_of_hit hconsider]
    simp only [turnsAlone, turn, turnFrom, hid, hstore, Option.getD_some]
  | none =>
    cases hkey : command.envelope.idempotencyKey.bind
        (store.tables command.runId).loadRunIdempotency with
    | some hit =>
      rw [hid, hkey] at hconsider
      rw [handle_of_hit hconsider]
      simp only [turnsAlone, turn, turnFrom, hid, hkey, hstore, Option.getD_some]
    | none =>
      rw [hid, hkey, applyToCurrent_eq_decideOn hstore] at hconsider
      cases hdecide : decideOn P (store.tables command.runId).loadRunSnapshot eventId command with
      | error =>
        rw [hdecide] at hconsider
        simp only [turnsAlone, turn, turnFrom, hid, hkey, hdecide, handle, hconsider,
          hstore, Option.getD_some]
      | ok stage =>
        have hthird : turn P (store.tables command.runId) command { eventId, compact } .keyChecked =
            { tables := store.tables command.runId, progress := .goOn stage } := by
          simp only [turn, turnFrom, hdecide]
        obtain ⟨base, applied, hbase, -, haccept, rfl⟩ := decideOn_eq_ok hdecide
        rw [hdecide] at hconsider
        have hnext := nextSnapshot_runId eventId (baseSnapshot_runId rfl hrun hbase) haccept
        rw [handle_of_commit hstore hnext hconsider hquota]
        have hfirst : turn P (store.tables command.runId) command { eventId, compact } .arrived =
            { tables := store.tables command.runId, progress := .goOn .idChecked } := by
          simp only [turn, turnFrom, hid]
        have hsecond : turn P (store.tables command.runId) command { eventId, compact } .idChecked =
            { tables := store.tables command.runId, progress := .goOn .keyChecked } := by
          simp only [turn, turnFrom, hkey]
        rw [turnsAlone_goOn hfirst, turnsAlone_goOn hsecond, turnsAlone_goOn hthird]
        exact turnsAlone_decided

end Alone

theorem turnsAlone_eq_handle_start : ∃ answer, turnsAlone Demo.platform {} Demo.startRun 5
    ((Demo.created.sup.store.getD ∅).tables "run") .arrived = some answer :=
  ⟨_, turnsAlone_eq_handle (show Demo.created.sup.store = some _ from rfl) rfl
    (fun _ h => by cases h; rfl) rfl⟩

end Tetonic.Run
