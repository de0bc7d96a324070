import Tetonic.Run.Supervisor
set_option autoImplicit false

/-! What the rows of a run say about its history. The history is every event the run ever
committed; the journal keeps its tail, the recovery snapshot stands for the part that was cut,
and the projection is the state the whole history leads to. -/

namespace Tetonic.Run
open Lib RunTables

variable {events : List RunEventEnvelope} {row : RunRow}
variable {P : Platform} {runId : RunId} {H : List RunEventEnvelope}

variable (P runId H) in
/-- The events kept and the row of a run agree with its history. -/
structure RowCoherent (events : List RunEventEnvelope) (row : RunRow) : Prop where
  starts : StartsRun H
  history : replay (replayEvent P) (emptySnapshot runId none) H = .ok row.projection
  digested : Digested P H
  plain : ∀ e ∈ H, retained e = false
  named : row.projection.runId = runId
  kept : events = H.drop (row.replayFloor - 1)
  bound : row.replayFloor ≤ H.length + 1
  cut : 0 < row.replayFloor → ∃ session recovery, row.recoverySnapshot = some recovery ∧
    replay (replayEvent P) (emptySnapshot runId session) (H.take (row.replayFloor - 1)) =
      .ok recovery

variable {t : RunTables}

namespace RowCoherent

section
variable (h : RowCoherent P runId H events row)
include h

theorem numbered : Consecutive RunEventEnvelope.sequence 0 H :=
  (replay_numbered h.history).1

theorem sequence : row.projection.sequence = H.length := by
  have := (replay_numbered h.history).2
  simpa [emptySnapshot] using this

theorem projection_events : row.projection.events = [] :=
  replay_events h.history

theorem events_numbered : Consecutive RunEventEnvelope.sequence (row.replayFloor - 1) events := by
  have hsplit := h.numbered
  rw [← List.take_append_drop (row.replayFloor - 1) H, consecutive_append] at hsplit
  have hbound := h.bound
  have hlen : 0 + (H.take (row.replayFloor - 1)).length = row.replayFloor - 1 := by
    rw [List.length_take]
    omega
  rw [hlen] at hsplit
  rw [h.kept]
  exact hsplit.2

theorem mem_history {e : RunEventEnvelope} (he : e ∈ events) : e ∈ H := by
  rw [h.kept] at he
  exact List.mem_of_mem_drop he

theorem listed (ht : t.events = events) : t.listRunEvents P = .ok events := by
  subst ht
  exact listRunEvents_ok (fun e he => h.digested e (h.mem_history he)) h.events_numbered

theorem replay_kept (hfloor : 0 < row.replayFloor) :
    ∃ recovery, row.recoverySnapshot = some recovery ∧ recovery.events = [] ∧
      replay (replayEvent P) recovery events = .ok row.projection := by
  obtain ⟨session, recovery, hrec, htake⟩ := h.cut hfloor
  have hall := h.history
  rw [replay_session h.starts none session] at hall
  obtain ⟨m, hm, hrest⟩ := replay_cut hall (row.replayFloor - 1)
  rw [htake] at hm
  cases hm
  refine ⟨recovery, hrec, replay_events htake, ?_⟩
  rw [h.kept]
  exact hrest

end

end RowCoherent

variable {floor : Nat}

theorem filter_floor (h : Consecutive RunEventEnvelope.sequence (floor - 1) events) :
    events.filter (fun e => decide (floor ≤ e.sequence)) = events := by
  rw [h.filter_ge floor, Nat.sub_self, List.drop_zero]

theorem RowCoherent.replay_run (h : RowCoherent P runId H events row) :
    ∃ s, replayFromEvents P
        (Supervisor.replayBase runId (some (row.replayFloor, row.recoverySnapshot)) events).1
        (Supervisor.replayBase runId (some (row.replayFloor, row.recoverySnapshot)) events).2 =
          .ok s ∧ { s with events := [] } = row.projection := by
  have hback : ∀ evs, ({ row.projection.withEvents evs with events := [] } : RunSnapshot) =
      row.projection :=
    fun _ => RunSnapshot.withEvents_eq_self h.projection_events
  by_cases hfloor : row.replayFloor > 0
  · obtain ⟨recovery, hrec, hnone, hreplay⟩ := h.replay_kept hfloor
    have hbase : ({ recovery with events := [] } : RunSnapshot) = recovery :=
      RunSnapshot.withEvents_eq_self hnone
    refine ⟨row.projection.withEvents events, ?_, hback _⟩
    simp only [Supervisor.replayBase, if_pos hfloor, hrec, Option.getD_some,
      filter_floor h.events_numbered, replayFromEvents, bind_eq_ok, pure_eq_ok]
    exact ⟨row.projection, by rw [hbase]; exact hreplay, rfl⟩
  · have hzero : row.replayFloor = 0 := by omega
    have hall : events = H := by rw [h.kept, hzero, Nat.zero_sub, List.drop_zero]
    refine ⟨row.projection.withEvents events, ?_, hback _⟩
    simp only [Supervisor.replayBase, if_neg hfloor, replayFromEvents, bind_eq_ok, pure_eq_ok]
    refine ⟨row.projection, ?_, rfl⟩
    rw [hall]
    show replay (replayEvent P) (emptySnapshot runId (journalSession H)) H = _
    rw [replay_session h.starts (journalSession H) none]
    exact h.history

variable {es : List RunEventEnvelope}

theorem startsRun_append {ds : List RunEventEnvelope} (h : StartsRun es) :
    StartsRun (es ++ ds) := by
  obtain ⟨c, hc⟩ := h
  cases es with
  | nil => simp at hc
  | cons => exact ⟨c, hc⟩

/-- The event a commit appends, as far as the history is concerned. -/
structure CommitsTo (P : Platform) (base applied : RunSnapshot) (command : RunCommand)
    (event : RunEventEnvelope) : Prop where
  accepted : applyCommand P base command = .ok applied
  payload : event.payload = .command command
  sequence : event.sequence = base.sequence + 1
  digest : event.payloadDigest = P.payloadDigest event.payload
  plain : retained event = false

variable {command : RunCommand} {applied base : RunSnapshot}

theorem commitsTo_newEvent (eventId : EventId) (h : applyCommand P base command = .ok applied) :
    CommitsTo P base applied command
      (newEvent P eventId command (nextSnapshot P eventId command base applied)) :=
  ⟨h, rfl, rfl, rfl, rfl⟩

variable {event : RunEventEnvelope}

theorem CommitsTo.replayEvent (h : CommitsTo P base applied command event) :
    replayEvent P base event = .ok { applied with sequence := base.sequence + 1 } :=
  replayEvent_eq_ok.mpr ⟨command, applied, h.payload, h.sequence, h.accepted, by rw [h.sequence]⟩

theorem RowCoherent.append (h : RowCoherent P runId H events row)
    (hc : CommitsTo P row.projection applied command event) (hid : applied.runId = runId) :
    RowCoherent P runId (H ++ [event]) (events ++ [event])
      { row with projection := { applied with sequence := row.projection.sequence + 1 } } := by
  have hbound := h.bound
  have hlen : row.replayFloor - 1 ≤ H.length := by omega
  refine ⟨startsRun_append h.starts, ?_, ?_, ?_, hid, ?_, ?_, ?_⟩
  · rw [replay_snoc h.history, hc.replayEvent]
  · intro e he
    rcases List.mem_append.mp he with he | he
    · exact h.digested e he
    · rw [List.mem_singleton.mp he]
      exact hc.digest
  · intro e he
    rcases List.mem_append.mp he with he | he
    · exact h.plain e he
    · rw [List.mem_singleton.mp he]
      exact hc.plain
  · rw [h.kept]
    exact (List.drop_append_of_le_length hlen).symm
  · rw [List.length_append]
    exact Nat.le_trans hbound (by omega)
  · intro hfloor
    obtain ⟨session, recovery, hrec, htake⟩ := h.cut hfloor
    refine ⟨session, recovery, hrec, ?_⟩
    exact (congrArg _ (List.take_append_of_le_length hlen)).trans htake

variable {session : Option SessionId}

theorem RowCoherent.create {c : CreateRun}
    (hc : CommitsTo P (emptySnapshot runId session) applied (.createRun c) event)
    (hid : applied.runId = runId) :
    RowCoherent P runId [event] [event] ⟨{ applied with sequence := 1 }, 0, none⟩ := by
  have hstarts : StartsRun [event] := ⟨c, by simp [hc.payload]⟩
  refine ⟨hstarts, ?_, ?_, ?_, hid, rfl, Nat.zero_le _, fun hpos => absurd hpos (by simp)⟩
  · rw [replay_session hstarts none session]
    have hone := replay_snoc (replay_nil (replayEvent P) (emptySnapshot runId session)) event
    rw [List.nil_append] at hone
    rw [hone, hc.replayEvent]
    rfl
  · intro e he
    rw [List.mem_singleton.mp he]
    exact hc.digest
  · intro e he
    rw [List.mem_singleton.mp he]
    exact hc.plain

theorem filter_compacted (hplain : ∀ e ∈ events, retained e = false) (floor : Nat) :
    events.filter (fun e => !compacted floor e) =
      events.filter fun e => decide (floor ≤ e.sequence) := by
  refine List.filter_congr fun e he => ?_
  by_cases hle : floor ≤ e.sequence
  · have hge : ¬ e.sequence < floor := Nat.not_lt.mpr hle
    simp [compacted, hle, hge]
  · have hlt : e.sequence < floor := Nat.lt_of_not_le hle
    simp [compacted, hplain e he, hle, hlt]

theorem replayFromEvents_eq_ok {s : RunSnapshot} :
    replayFromEvents P base es = .ok s ↔
      ∃ m, replay (replayEvent P) (base.withEvents []) es = .ok m ∧ m.withEvents es = s := by
  simp only [replayFromEvents, bind_eq_ok, pure_eq_ok]
  rfl

variable {report : RunTables.CompactReport} {t' : RunTables} {fallback : Option SessionId}

theorem compactRun_replays (hlist : t.listRunEvents P = .ok t.events)
    (h : compactRun P t runId floor fallback = .ok (t', report)) :
    ∃ session m, replay (replayEvent P) (emptySnapshot runId session)
      (t.events.filter fun e => decide (e.sequence < floor)) = .ok m := by
  simp only [compactRun, hlist, bind_eq_ok, Except.ok.injEq, exists_eq_left',
    replayFromEvents_eq_ok] at h
  obtain ⟨s, ⟨m, hm, -⟩, -⟩ := h
  exact ⟨_, m, hm⟩

theorem RowCoherent.floor_le_one {m : RunSnapshot} (h : RowCoherent P runId H events row)
    (hlow : row.replayFloor < floor) (hhigh : floor ≤ H.length + 1)
    (hm : replay (replayEvent P) (emptySnapshot runId session)
      (events.filter fun e => decide (e.sequence < floor)) = .ok m) : row.replayFloor ≤ 1 := by
  by_contra hcut
  have hnum := h.events_numbered
  have hfirst := (replay_numbered hm).1
  cases hevents : events with
  | nil =>
    have hlen : H.length ≤ row.replayFloor - 1 := by
      rw [h.kept] at hevents
      exact List.drop_eq_nil_iff.mp hevents
    omega
  | cons e =>
    rw [hevents] at hnum hfirst
    have hseq : e.sequence = row.replayFloor - 1 + 1 := hnum.1
    have hbelow : e.sequence < floor := by omega
    rw [List.filter_cons_of_pos (by simpa using hbelow)] at hfirst
    have hone : e.sequence = 0 + 1 := hfirst.1
    omega

theorem RowCoherent.events_eq (h : RowCoherent P runId H events row) (hone : row.replayFloor ≤ 1) :
    events = H := by
  have hzero : row.replayFloor - 1 = 0 := by omega
  rw [h.kept, hzero, List.drop_zero]

/-- What a compaction at `floor` leaves of a row whose history it cuts after `m`. -/
def RunRow.cutAt (row : RunRow) (floor : Nat) (m : RunSnapshot) : RunRow :=
  { row with replayFloor := floor, recoverySnapshot := some m }

section
variable (h : RowCoherent P runId H t.events row) (hrow : t.row = some row)
include h hrow

/-- A compaction of an uncut journal goes through: it keeps the events from the floor on and
the state before the floor. -/
theorem RowCoherent.compact_ok (hone : row.replayFloor ≤ 1) (hpos : 0 < floor)
    (fallback : Option SessionId) :
    ∃ session m,
      replay (replayEvent P) (emptySnapshot runId session) (H.take (floor - 1)) = .ok m ∧
      compactRun P t runId floor fallback = .ok
        ({ t with row := some (row.cutAt floor m), events := H.drop (floor - 1) },
          t.compactReport P floor) := by
  have hall := h.events_eq hone
  have hbelow : t.events.filter (fun e => decide (e.sequence < floor)) = H.take (floor - 1) := by
    rw [hall, h.numbered.filter_lt floor, Nat.sub_zero]
  have htail : t.events.filter (fun e => !compacted floor e) = H.drop (floor - 1) := by
    rw [hall, filter_compacted h.plain, h.numbered.filter_ge, Nat.sub_zero]
  have hhist := h.history
  rw [replay_session h.starts none ((journalSession (H.take (floor - 1))).or fallback)] at hhist
  obtain ⟨m, hm, -⟩ := replay_cut hhist (floor - 1)
  have hclear : m.withEvents [] = m := RunSnapshot.withEvents_eq_self (replay_events hm)
  refine ⟨_, m, hm, ?_⟩
  simp only [compactRun, h.listed rfl, bind_eq_ok, Except.ok.injEq, exists_eq_left', hbelow,
    replayFromEvents_eq_ok, compactRunEventsAtFloor, if_neg (Nat.ne_of_gt hpos), hrow,
    orFail_eq_ok, Option.some.injEq, exists_eq_left', pure_eq_ok, htail]
  refine ⟨m.withEvents (H.take (floor - 1)), ⟨m, hm, rfl⟩, ?_⟩
  rw [RunRow.cutAt, ← hclear]
  rfl

theorem RowCoherent.compact (hlow : row.replayFloor ≤ 1 ∨ row.replayFloor < floor)
    (hpos : 0 < floor) (hhigh : floor ≤ H.length + 1)
    (hok : compactRun P t runId floor fallback = .ok (t', report)) :
    ∃ m, t'.row = some (row.cutAt floor m) ∧ RowCoherent P runId H t'.events (row.cutAt floor m) ∧
      t'.commandDedup = t.commandDedup ∧ t'.idempotency = t.idempotency := by
  obtain ⟨session, m, hm⟩ := compactRun_replays (h.listed rfl) hok
  have hone : row.replayFloor ≤ 1 := hlow.elim id fun hlow => h.floor_le_one hlow hhigh hm
  obtain ⟨session, m, hm, hok'⟩ := h.compact_ok hrow hone hpos fallback
  rw [hok'] at hok
  cases hok
  exact ⟨m, rfl, ⟨h.starts, h.history, h.digested, h.plain, h.named, rfl, hhigh,
    fun _ => ⟨session, m, rfl, hm⟩⟩, rfl, rfl⟩

end

end Tetonic.Run
