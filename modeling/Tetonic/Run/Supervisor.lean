import Tetonic.Run.Recovery
import Tetonic.Run.Store
set_option autoImplicit false

/-! The durable run supervisor (`service.rs`): one command through `handle`, the compaction it
may trigger, the replay of a run and the recovery pass of a start. Hooks, traces and metrics
observe the result and are left out. -/

namespace Tetonic.Run
open Lib

variable (P : Platform)

/-- `DurableRunSupervisor` with its quota manager and its Safe Mode flag. Without a store the
runs live in memory. -/
structure Supervisor where
  store : Option Store
  memory : OrdMap RunId RunSnapshot := ∅
  commandDedup : OrdMap RunId (OrdMap CommandId RunCommandResult) := ∅
  safeMode : Bool := false
  globalQuotaBytes : UInt64
  usageBytes : UInt64 := 0

/-- What a call takes from outside: the fresh event id, and where the store fails it. -/
structure CallEnv where
  eventId : EventId
  dedupFault : Option String := none
  idempotencyFault : Option String := none
  snapshotFault : Option String := none
  commitRefusal : Option RunSupervisorError := none
  compactionFault : Option RunSupervisorError := none

def readStore {α : Type} (fault : Option String) (value : α) : RunOutcome α :=
  match fault with
  | some text => fail (.persistence text)
  | none => pure value

def RunCommandResult.asReplay (r : RunCommandResult) : RunCommandResult :=
  { r with idempotentReplay := true }

/-- `ClaimExecution` and `ResumeAttempt` hand out permission to execute. -/
def RunCommand.grantsExecution : RunCommand → Bool
  | .claimExecution _ | .resumeAttempt _ => true
  | _ => false

def RunCommand.finishesRun : RunCommand → Bool
  | .finishRun _ => true
  | _ => false

def RunCommand.cancelsRun : RunCommand → Bool
  | .cancelRun _ => true
  | _ => false

def RunCommand.allowedAfterEnd : RunCommand → Bool
  | .finishRun _ | .createRun _ | .recordAttemptQuiescence _ => true
  | _ => false

def RunState.terminal : RunState → Bool
  | .canceled | .failed | .succeeded => true
  | _ => false

/-- What a call decides before it writes: an earlier result, or a commit. -/
inductive Decision where
  | replayed (hit : RunCommandResult)
  | commit (next : RunSnapshot) (event : RunEventEnvelope)

/-- An earlier result is returned, but permission to execute is not given twice. -/
def replayHit (command : RunCommand) (hit : RunCommandResult) : RunOutcome Decision :=
  if command.grantsExecution = true then
    fail (.duplicateDelivery "execution permission cannot be replayed")
  else pure (.replayed hit)

def baseSnapshot : RunCommand → Option RunSnapshot → RunOutcome RunSnapshot
  | .createRun c, none => pure (emptySnapshot c.runId c.sessionId)
  | .createRun c, some _ => fail (.conflict ("run " ++ c.runId ++ " exists"))
  | command, none => fail (.runNotFound command.runId)
  | _, some s => pure s

def checkExpectedSequence (base : RunSnapshot) (expected : Option Nat) : RunOutcome Unit :=
  match expected with
  | some expected =>
    refuseIf (expected ≠ base.sequence) (.staleSequence expected base.sequence)
  | none => pure ()

/-- The guards of `handle_internal` on the loaded snapshot. -/
def checkBase (base : RunSnapshot) (command : RunCommand) : RunOutcome Unit := do
  checkExpectedSequence base command.envelope.expectedSequence
  refuseIf (base.state = .recoveryRequired
      ∧ ¬ (command.cancelsRun = true ∧ command.envelope.expectedSequence = some base.sequence))
    .recoveryRequired
  refuseIf (base.state.terminal = true ∧ command.allowedAfterEnd = false)
    (.runNotAccepting base.state)

def newEvent (eventId : EventId) (command : RunCommand) (next : RunSnapshot) :
    RunEventEnvelope where
  eventId
  runId := next.runId
  sequence := next.sequence
  eventType := eventTypeFor command
  commandId := some command.envelope.commandId
  dataClass := .repositorySource
  payloadDigest := P.payloadDigest (.command command)
  payload := .command command

/-- The snapshot to commit: the next sequence, and its event at the end of the list. -/
def nextSnapshot (eventId : EventId) (command : RunCommand) (base applied : RunSnapshot) :
    RunSnapshot :=
  let next := { applied with sequence := base.sequence + 1 }
  { next with events := next.events ++ [newEvent P eventId command next] }

def RunSnapshot.result (next : RunSnapshot) : RunCommandResult where
  runId := next.runId
  sequence := next.sequence
  idempotentReplay := false
  snapshot := next

/-- The session named by a journal that starts with its `CreateRun`. -/
def journalSession (events : List RunEventEnvelope) : Option SessionId :=
  match events.head?.bind (·.payload.decode) with
  | some (.createRun c) => c.sessionId
  | _ => none

/-- The body of the compaction write: rebuild the state below the floor, then cut. -/
def compactRun (t : RunTables) (runId : RunId) (floor : Nat)
    (sessionFallback : Option SessionId) : RunOutcome (RunTables × RunTables.CompactReport) := do
  let events ← t.listRunEvents P
  let below := events.filter fun e => decide (e.sequence < floor)
  let recovery ← replayFromEvents P
    (emptySnapshot runId ((journalSession below).or sessionFallback)) below
  t.compactRunEventsAtFloor P runId floor recovery

namespace Supervisor

def loadSnapshot (sup : Supervisor) (env : CallEnv) (runId : RunId) :
    RunOutcome (Option RunSnapshot) :=
  match sup.store with
  | some store => readStore env.snapshotFault (store.tables runId).loadRunSnapshot
  | none => pure sup.memory[runId]?

def checkCommandId (sup : Supervisor) (env : CallEnv) (command : RunCommand) :
    RunOutcome (Option RunCommandResult) :=
  match sup.store with
  | some store => readStore env.dedupFault
      (((store.tables command.runId).loadRunCommandDedup command.envelope.commandId).map
        (·.asReplay))
  | none => pure ((sup.commandDedup[command.runId]?.bind
      (·[command.envelope.commandId]?)).map (·.asReplay))

def checkIdempotency (sup : Supervisor) (env : CallEnv) (command : RunCommand) :
    RunOutcome (Option RunCommandResult) :=
  match command.envelope.idempotencyKey, sup.store with
  | some key, some store => readStore env.idempotencyFault
      (((store.tables command.runId).loadRunIdempotency key).map (·.asReplay))
  | _, _ => pure none

/-- Load, guard and apply: the part of `handle_internal` between the lookups and the writes. -/
def applyToCurrent (sup : Supervisor) (env : CallEnv) (command : RunCommand) :
    RunOutcome Decision := do
  let current ← sup.loadSnapshot env command.runId
  let base ← baseSnapshot command current
  checkBase base command
  let applied ← applyCommand P base command
  let next := nextSnapshot P env.eventId command base applied
  pure (.commit next (newEvent P env.eventId command next))

def consider (sup : Supervisor) (env : CallEnv) (command : RunCommand) : RunOutcome Decision := do
  refuseIf (sup.safeMode = true ∧ command.finishesRun = false)
    (.conflict "System is in Safe Mode. Mutating commands are rejected.")
  match ← sup.checkCommandId env command with
  | some hit => replayHit command hit
  | none =>
    match ← sup.checkIdempotency env command with
    | some hit => replayHit command hit
    | none => sup.applyToCurrent P env command

/-- `check_before_append`: refused, or accepted with the advice to compact. -/
def checkBeforeAppend (sup : Supervisor) (payloadSize : UInt64) : RunOutcome Bool :=
  if sup.usageBytes + payloadSize > sup.globalQuotaBytes then
    fail (.storageLimitExceeded "Storage limit exceeded")
  else pure (sup.usageBytes + payloadSize > P.softLimit sup.globalQuotaBytes)

def persist (sup : Supervisor) (env : CallEnv) (command : RunCommand) (next : RunSnapshot)
    (event : RunEventEnvelope) : RunOutcome Supervisor :=
  match sup.store with
  | some store => do
    let t ← (store.tables next.runId).commitRunCommand P env.commitRefusal next event
      (command.envelope.idempotencyKey.map (·, next.result))
    pure { sup with store := some (store.insert next.runId t) }
  | none => pure { sup with memory := sup.memory.insert next.runId next }

def freeUsage (sup : Supervisor) (size : UInt64) : Supervisor :=
  { sup with usageBytes := if size ≤ sup.usageBytes then sup.usageBytes - size else 0 }

def compactAt (sup : Supervisor) (fault : Option RunSupervisorError) (runId : RunId) (floor : Nat)
    (sessionFallback : Option SessionId) : Supervisor :=
  match sup.store, fault with
  | some store, none =>
    match compactRun P (store.tables runId) runId floor sessionFallback with
    | .ok (t, report) =>
      { sup with store := some (store.insert runId t) }.freeUsage
        (UInt64.ofNat report.freedPayloadBytes)
    | .error _ => sup
  | _, _ => sup

def compactionFloor (next : RunSnapshot) : Nat := next.sequence - 100

def recordUsage (sup : Supervisor) (size : UInt64) : Supervisor :=
  { sup with usageBytes := sup.usageBytes + size }

def compactAfter (sup : Supervisor) (env : CallEnv) (command : RunCommand) (next : RunSnapshot)
    (shouldCompact : Bool) : Supervisor :=
  if shouldCompact = true ∧ compactionFloor next > 0 then
    sup.compactAt P env.compactionFault command.runId (compactionFloor next) next.sessionId
  else sup

def storeCommandId (sup : Supervisor) (command : RunCommand) (result : RunCommandResult) :
    Supervisor :=
  match sup.store with
  | some _ => sup
  | none => { sup with
      commandDedup := sup.commandDedup.insert command.runId
        ((sup.commandDedup[command.runId]?.getD ∅).insert command.envelope.commandId result) }

def afterCommit (sup : Supervisor) (env : CallEnv) (command : RunCommand) (next : RunSnapshot)
    (payloadSize : UInt64) (shouldCompact : Bool) : Supervisor :=
  ((sup.recordUsage payloadSize).compactAfter P env command next shouldCompact).storeCommandId
    command next.result

/-- `handle`, which holds the lock of the run around `handle_internal`. -/
def handle (sup : Supervisor) (env : CallEnv) (command : RunCommand) :
    Supervisor × RunOutcome RunCommandResult :=
  match sup.consider P env command with
  | .error e => (sup, .error e)
  | .ok (.replayed hit) => (sup, .ok hit)
  | .ok (.commit next event) =>
    let payloadSize := P.payloadBytes event.payload
    match sup.checkBeforeAppend P payloadSize with
    | .error e => ({ sup with safeMode := true }, .error e)
    | .ok shouldCompact =>
      match sup.persist P env command next event with
      | .error e => (sup, .error e)
      | .ok stored =>
        (stored.afterCommit P env command next payloadSize shouldCompact, .ok next.result)

/-- The base and the events `replay_run` starts from. -/
def replayBase (runId : RunId) (floor : Option (Nat × Option RunSnapshot))
    (events : List RunEventEnvelope) : RunSnapshot × List RunEventEnvelope :=
  match floor with
  | some (floor, recovery) =>
    if floor > 0 then
      (recovery.getD (emptySnapshot runId none), events.filter fun e => decide (floor ≤ e.sequence))
    else (emptySnapshot runId (journalSession events), events)
  | none => (emptySnapshot runId (journalSession events), events)

def replayRun (sup : Supervisor) (runId : RunId) : RunOutcome RunSnapshot :=
  match sup.store with
  | some store => do
    let t := store.tables runId
    let events ← t.listRunEvents P
    let start := replayBase runId t.loadReplayFloor events
    replayFromEvents P start.1 start.2
  | none => do
    let snap ← orFail sup.memory[runId]? (.runNotFound runId)
    let start := replayBase runId none snap.events
    replayFromEvents P start.1 start.2

end Supervisor

/-- The facts behind a commit, in the order the call establishes them. -/
structure CommitFacts (sup : Supervisor) (env : CallEnv) (command : RunCommand)
    (base applied : RunSnapshot) (stored : Supervisor) (compact : Bool) : Prop where
  awake : sup.safeMode = false ∨ command.finishesRun = true
  newId : sup.checkCommandId env command = .ok none
  newKey : sup.checkIdempotency env command = .ok none
  loaded : ∃ current, sup.loadSnapshot env command.runId = .ok current ∧
    baseSnapshot command current = .ok base
  guarded : checkBase base command = .ok ()
  accepted : applyCommand P base command = .ok applied
  quota : sup.checkBeforeAppend P (P.payloadBytes (.command command)) = .ok compact
  persisted : sup.persist P env command (nextSnapshot P env.eventId command base applied)
    (newEvent P env.eventId command (nextSnapshot P env.eventId command base applied)) = .ok stored

/-- How a call ends: refused, answered with an earlier result, or committed. -/
inductive Handled (sup : Supervisor) (env : CallEnv) (command : RunCommand) :
    Supervisor → RunOutcome RunCommandResult → Prop where
  | refused (e : Fault RunSupervisorError) : Handled sup env command sup (.error e)
  | overQuota (e : Fault RunSupervisorError) :
      Handled sup env command { sup with safeMode := true } (.error e)
  | replayed {hit : RunCommandResult} (awake : sup.safeMode = false ∨ command.finishesRun = true)
      (hgrant : command.grantsExecution = false)
      (hhit : sup.checkCommandId env command = .ok (some hit) ∨
        sup.checkIdempotency env command = .ok (some hit)) :
      Handled sup env command sup (.ok hit)
  | committed {base applied : RunSnapshot} {stored : Supervisor} {compact : Bool}
      (h : CommitFacts P sup env command base applied stored compact) :
      Handled sup env command
        (stored.afterCommit P env command (nextSnapshot P env.eventId command base applied)
          (P.payloadBytes (.command command)) compact)
        (.ok (nextSnapshot P env.eventId command base applied).result)

variable {P} {sup : Supervisor} {env : CallEnv} {command : RunCommand}

@[simp] theorem readStore_eq_ok {α : Type} {fault : Option String} {v x : α} :
    readStore fault v = .ok x ↔ fault = none ∧ v = x := by
  cases fault with
  | none => simp [readStore, pure, Except.pure]
  | some => simp [readStore]

theorem baseSnapshot_eq_ok {current : Option RunSnapshot} {base : RunSnapshot} :
    baseSnapshot command current = .ok base ↔
      (∃ c, command = .createRun c ∧ current = none ∧ base = emptySnapshot c.runId c.sessionId) ∨
      current = some base ∧ ∀ c, command ≠ .createRun c := by
  cases command
  case createRun c =>
    cases current with
    | none => simp [baseSnapshot, pure, Except.pure, eq_comm]
    | some => simp [baseSnapshot]
  all_goals
    cases current with
    | none => simp [baseSnapshot]
    | some => simp [baseSnapshot, pure, Except.pure]

theorem replayHit_eq_ok {hit : RunCommandResult} {d : Decision} :
    replayHit command hit = .ok d ↔ command.grantsExecution = false ∧ d = .replayed hit := by
  unfold replayHit
  cases h : command.grantsExecution with
  | true => simp
  | false =>
    rw [if_neg Bool.false_ne_true, pure_eq_ok]
    simp [eq_comm]

theorem applyToCurrent_eq_ok {d : Decision} :
    sup.applyToCurrent P env command = .ok d ↔ ∃ current base applied,
      sup.loadSnapshot env command.runId = .ok current ∧ baseSnapshot command current = .ok base ∧
      checkBase base command = .ok () ∧ applyCommand P base command = .ok applied ∧
      d = .commit (nextSnapshot P env.eventId command base applied)
        (newEvent P env.eventId command (nextSnapshot P env.eventId command base applied)) := by
  simp only [Supervisor.applyToCurrent, bind_eq_ok, pure_eq_ok, exists_and_left]
  constructor
  · rintro ⟨current, hload, base, hbase, _, hguard, applied, happly, rfl⟩
    exact ⟨current, hload, base, hbase, hguard, applied, happly, rfl⟩
  · rintro ⟨current, hload, base, hbase, hguard, applied, happly, rfl⟩
    exact ⟨current, hload, base, hbase, (), hguard, applied, happly, rfl⟩

theorem consider_eq_ok {d : Decision} (h : sup.consider P env command = .ok d) :
    (sup.safeMode = false ∨ command.finishesRun = true) ∧
      ((∃ hit, (sup.checkCommandId env command = .ok (some hit) ∨
          sup.checkIdempotency env command = .ok (some hit)) ∧
          command.grantsExecution = false ∧ d = .replayed hit) ∨
        sup.checkCommandId env command = .ok none ∧ sup.checkIdempotency env command = .ok none ∧
          sup.applyToCurrent P env command = .ok d) := by
  simp only [Supervisor.consider, bind_eq_ok, refuseIf_eq_ok, exists_const] at h
  obtain ⟨hsafe, byId, hid, h⟩ := h
  refine ⟨?_, ?_⟩
  · rw [not_and_or] at hsafe
    simpa using hsafe
  cases byId with
  | some hit =>
    obtain ⟨hgrant, rfl⟩ := replayHit_eq_ok.mp h
    exact .inl ⟨hit, .inl hid, hgrant, rfl⟩
  | none =>
    obtain ⟨byKey, hkey, h⟩ := bind_eq_ok.mp h
    cases byKey with
    | some hit =>
      obtain ⟨hgrant, rfl⟩ := replayHit_eq_ok.mp h
      exact .inl ⟨hit, .inr hkey, hgrant, rfl⟩
    | none => exact .inr ⟨hid, hkey, h⟩

theorem handle_handled (sup : Supervisor) (env : CallEnv) (command : RunCommand) :
    Handled P sup env command (sup.handle P env command).1 (sup.handle P env command).2 := by
  unfold Supervisor.handle
  cases hd : sup.consider P env command with
  | error e => exact .refused e
  | ok =>
    obtain ⟨hawake, ⟨hit, hhit, hgrant, rfl⟩ | ⟨hid, hkey, happly⟩⟩ := consider_eq_ok hd
    · exact .replayed hawake hgrant hhit
    · obtain ⟨current, base, applied, hload, hbase, hguard, haccept, rfl⟩ :=
        applyToCurrent_eq_ok.mp happly
      dsimp only
      cases hq : sup.checkBeforeAppend P (P.payloadBytes (newEvent P env.eventId command
          (nextSnapshot P env.eventId command base applied)).payload) with
      | error e => exact .overQuota e
      | ok compact =>
        dsimp only
        cases hp : sup.persist P env command (nextSnapshot P env.eventId command base applied)
            (newEvent P env.eventId command
              (nextSnapshot P env.eventId command base applied)) with
        | error e => exact .refused e
        | ok stored =>
          exact .committed ⟨hawake, hid, hkey, ⟨current, hload, hbase⟩, hguard, haccept, hq, hp⟩

end Tetonic.Run
