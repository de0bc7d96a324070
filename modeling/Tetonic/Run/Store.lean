import Mathlib.Data.List.Sort
import Tetonic.Run.Replay
set_option autoImplicit false

/-! The run tables of the store (`run_store.rs`). Every table is keyed by the run first, so
the model keeps one record of rows for each run. A call is one transaction: it returns the
rows it leaves, or fails and leaves them as they were. The capacity and usage tables, which
no run function reads back, are left out: they only decide whether a commit is refused. -/

namespace Tetonic.Run
open Lib

variable (P : Platform)

structure RunRow where
  projection : RunSnapshot
  replayFloor : Nat
  recoverySnapshot : Option RunSnapshot
  deriving DecidableEq

/-- The rows of one run in `run_projections`, `run_events`, `run_idempotency` and
`run_command_dedup`. -/
structure RunTables where
  row : Option RunRow := none
  events : List RunEventEnvelope := []
  idempotency : OrdMap String RunCommandResult := ∅
  commandDedup : OrdMap CommandId RunCommandResult := ∅
  deriving DecidableEq

abbrev Store := OrdMap RunId RunTables

def Store.tables (store : Store) (runId : RunId) : RunTables := store[runId]?.getD {}

namespace RunTables

def loadRunSnapshot (t : RunTables) : Option RunSnapshot := t.row.map (·.projection)

def loadRunIdempotency (t : RunTables) (key : String) : Option RunCommandResult :=
  t.idempotency[key]?

def loadRunCommandDedup (t : RunTables) (commandId : CommandId) : Option RunCommandResult :=
  t.commandDedup[commandId]?

def loadReplayFloor (t : RunTables) : Option (Nat × Option RunSnapshot) :=
  t.row.map fun row => (row.replayFloor, row.recoverySnapshot)

def verifyEvent (event : RunEventEnvelope) : RunOutcome RunEventEnvelope := do
  refuseIf (P.payloadDigest event.payload ≠ event.payloadDigest)
    (.persistence ("payload digest mismatch: run event " ++ event.eventId ++ " sequence "
      ++ toString event.sequence ++ ": stored " ++ event.payloadDigest
      ++ " does not describe its payload (computed " ++ P.payloadDigest event.payload ++ ")"))
  pure event

def listRunEvents (t : RunTables) : RunOutcome (List RunEventEnvelope) :=
  (t.events.insertionSort fun a b => a.sequence ≤ b.sequence).mapM (verifyEvent P)

/-- The row a write leaves: the events go, floor and recovery snapshot are carried forward. -/
def nextRow (t : RunTables) (snapshot : RunSnapshot) : RunRow where
  projection := { snapshot with events := [] }
  replayFloor := (t.row.map (·.replayFloor)).getD 0
  recoverySnapshot := t.row.bind (·.recoverySnapshot)

def keepResult (t : RunTables) (idempotency : Option (String × RunCommandResult)) :
    OrdMap String RunCommandResult :=
  match idempotency with
  | some (key, result) => t.idempotency.insert key result
  | none => t.idempotency

def keepCommand (t : RunTables) (commandId : Option CommandId) (snapshot : RunSnapshot) :
    OrdMap CommandId RunCommandResult :=
  match commandId with
  | some id => t.commandDedup.insert id {
      runId := snapshot.runId
      sequence := snapshot.sequence
      idempotentReplay := false
      snapshot }
  | none => t.commandDedup

/-- `refusal` is the error of the capacity and usage checks, or of the engine itself. -/
def commitRunCommand (t : RunTables) (refusal : Option RunSupervisorError)
    (snapshot : RunSnapshot) (event : RunEventEnvelope)
    (idempotency : Option (String × RunCommandResult)) : RunOutcome RunTables := do
  refusal.elim (pure ()) fail
  refuseIf (P.payloadDigest event.payload ≠ event.payloadDigest)
    (.persistence ("payload digest mismatch: event " ++ event.eventId ++ " sequence "
      ++ toString event.sequence ++ ": supplied " ++ event.payloadDigest
      ++ " does not describe its payload (computed " ++ P.payloadDigest event.payload ++ ")"))
  -- `UNIQUE (run_id, sequence)`.
  refuseIf ((t.events.any fun e => decide (e.sequence = event.sequence)) = true)
    (.persistence "sqlite: UNIQUE constraint failed: run_events.run_id, run_events.sequence")
  -- `PRIMARY KEY (run_id, command_id)`.
  refuseIf ((event.commandId.any fun id => t.commandDedup.contains id) = true)
    (.persistence
      "sqlite: UNIQUE constraint failed: run_command_dedup.run_id, run_command_dedup.command_id")
  pure {
    row := some (t.nextRow snapshot)
    events := t.events ++ [event]
    idempotency := t.keepResult idempotency
    commandDedup := t.keepCommand event.commandId snapshot }

def persistRunProjection (t : RunTables) (refusal : Option RunSupervisorError)
    (snapshot : RunSnapshot) : RunOutcome RunTables := do
  refusal.elim (pure ()) fail
  pure { t with row := some (t.nextRow snapshot) }

def retained (event : RunEventEnvelope) : Bool :=
  decide (event.dataClass = .secret ∨ event.dataClass = .sensitiveSource)

structure CompactReport where
  (deleted freedPayloadBytes replayFloor : Nat)
  deriving DecidableEq

/-- The rows that `DELETE FROM run_events WHERE sequence < floor` takes. -/
def compacted (floor : Nat) (event : RunEventEnvelope) : Bool :=
  decide (event.sequence < floor) && !retained event

def compactReport (t : RunTables) (floor : Nat) : CompactReport :=
  let gone := t.events.filter (compacted floor)
  ⟨gone.length, gone.foldl (fun n e => n + P.payloadChars e.payload) 0, floor⟩

def compactRunEventsAtFloor (t : RunTables) (runId : RunId) (newFloor : Nat)
    (recovery : RunSnapshot) : RunOutcome (RunTables × CompactReport) :=
  if newFloor = 0 then pure (t, ⟨0, 0, 0⟩)
  else do
    let row ← orFail t.row (.persistence
      ("invalid data class: compact: missing run_projections for "
      ++ runId))
    pure ({ t with
        row := some { row with
          replayFloor := newFloor
          recoverySnapshot := some { recovery with events := [] } }
        events := t.events.filter fun e => !compacted newFloor e },
      t.compactReport P newFloor)

end RunTables

/-! A listing of a journal in order is the journal. -/

def Digested (events : List RunEventEnvelope) : Prop :=
  ∀ e ∈ events, e.payloadDigest = P.payloadDigest e.payload

variable {P}

theorem mapM_verifyEvent {events : List RunEventEnvelope} (h : Digested P events) :
    events.mapM (RunTables.verifyEvent P) = .ok events := by
  induction events with
  | nil => rfl
  | cons e es ih =>
    have he : RunTables.verifyEvent P e = .ok e := by
      simp only [RunTables.verifyEvent, bind_eq_ok, refuseIf_eq_ok, pure_eq_ok]
      exact ⟨(), fun hne => hne (h e List.mem_cons_self).symm, trivial⟩
    have hes := ih fun d hd => h d (List.mem_cons_of_mem _ hd)
    rw [List.mapM_cons, he, hes]
    rfl

theorem listRunEvents_ok {t : RunTables} {n : Nat} (hd : Digested P t.events)
    (hc : Consecutive RunEventEnvelope.sequence n t.events) :
    t.listRunEvents P = .ok t.events := by
  have hsorted : t.events.Pairwise fun a b => a.sequence ≤ b.sequence :=
    hc.pairwise.imp fun h => Nat.le_of_lt h
  rw [RunTables.listRunEvents, hsorted.insertionSort_eq, mapM_verifyEvent hd]

theorem tables_insert (store : Store) (runId k : RunId) (t : RunTables) :
    Store.tables (store.insert runId t) k = if runId = k then t else store.tables k := by
  unfold Store.tables
  rw [OrdMap.get_insert]
  split <;> rfl

theorem commitRunCommand_eq_ok {t t' : RunTables} {refusal : Option RunSupervisorError}
    {snapshot : RunSnapshot} {event : RunEventEnvelope}
    {idempotency : Option (String × RunCommandResult)}
    (h : t.commitRunCommand P refusal snapshot event idempotency = .ok t') :
    (∀ e ∈ t.events, e.sequence ≠ event.sequence) ∧
      (∀ id, event.commandId = some id → t.commandDedup[id]? = none) ∧
      t' = {
        row := some (t.nextRow snapshot)
        events := t.events ++ [event]
        idempotency := t.keepResult idempotency
        commandDedup := t.keepCommand event.commandId snapshot } := by
  simp only [RunTables.commitRunCommand, bind_eq_ok, refuseIf_eq_ok, pure_eq_ok, exists_const] at h
  obtain ⟨-, -, -, hseq, hid, rfl⟩ := h
  refine ⟨fun e he heq => hseq ?_, fun id hsome => ?_, rfl⟩
  · exact List.any_eq_true.mpr ⟨e, he, decide_eq_true heq⟩
  · rw [hsome, Option.any_some, Std.ExtTreeMap.contains_eq_isSome_getElem?] at hid
    exact Option.not_isSome_iff_eq_none.mp hid

end Tetonic.Run
