import Tetonic.Run.World
set_option autoImplicit false

/-! The compaction `handle` triggers when the soft quota is passed. It rebuilds the state below
its floor from an empty snapshot, so it goes through exactly as long as the journal still
starts at event 1. -/

namespace Tetonic.Run
open Lib

variable {P : Platform} {w : World} {env : CallEnv} {command : RunCommand} {floor : Nat}

variable (P) in
/-- A call that commits, is told to compact, and has a floor to compact at; the store itself
does not fail. -/
structure TriggersCompaction (w : World) (env : CallEnv) (command : RunCommand) (floor : Nat) :
    Prop where
  durable : w.sup.store.isSome = true
  noFault : env.compactionFault = none
  advised : w.sup.checkBeforeAppend P (P.payloadBytes (.command command)) = .ok true
  commits : ∃ r, (w.sup.handle P env command).2 = .ok r ∧ r.idempotentReplay = false ∧
    floor = r.sequence - 100
  positive : 0 < floor

variable (P) in
/-- The journal of the run was cut at `floor`: the recovery snapshot is the state after event
`floor - 1`, and of all events exactly those from `floor` on are kept, at most 101 of them. -/
structure CompactedAt (w : World) (runId : RunId) (floor : Nat) (t : RunTables) (row : RunRow)
    (recovery : RunSnapshot) : Prop where
  rows : w.sup.store.map (·.tables runId) = some t
  hasRow : t.row = some row
  floorSet : row.replayFloor = floor
  recovered : row.recoverySnapshot = some recovery
  state : ∃ session, replay (replayEvent P) (emptySnapshot runId session)
    ((w.log runId).take (floor - 1)) = .ok recovery
  kept : t.events = (w.log runId).filter fun e => decide (floor ≤ e.sequence)
  bounded : t.events.length ≤ 101

theorem TriggersCompaction.facts (h : TriggersCompaction P w env command floor) :
    ∃ base applied stored, CommitFacts P w.sup env command base applied stored true ∧
      floor = base.sequence + 1 - 100 ∧
      (w.sup.handle P env command).1 = stored.committed P env command base applied true ∧
      (w.sup.handle P env command).2 =
        .ok (nextSnapshot P env.eventId command base applied).result := by
  obtain ⟨r, hr, hnew, hfloor⟩ := h.commits
  have hh := handle_handled (P := P) w.sup env command
  generalize hsup : (w.sup.handle P env command).1 = sup' at hh
  rw [hr] at hh
  cases hh with
  | replayed _ _ hhit =>
    rw [hhit.elim checkCommandId_asReplay checkIdempotency_asReplay] at hnew
    cases hnew
  | @committed base applied stored compact hc =>
    have hadvised := hc.quota
    rw [h.advised] at hadvised
    cases hadvised
    exact ⟨base, applied, stored, hc, hfloor, rfl, hr⟩

theorem TriggersCompaction.committed (hw : w.Coherent P)
    (h : TriggersCompaction P w env command floor) :
    ∃ (w₁ : World) (store : Store) (row : RunRow) (session : Option SessionId),
      w₁.RowsKept P ∧ w₁.sup.store = some store ∧ (store.tables command.runId).row = some row ∧
        row.replayFloor = w.replayFloor command.runId ∧
      row.replayFloor < floor ∧ (w₁.log command.runId).length = floor + 100 ∧
      w.handle P env command =
        { w₁ with sup := w₁.sup.compactAt P none command.runId floor session } := by
  obtain ⟨base, applied, stored, hc, hfloor, hsup, hout⟩ := h.facts
  obtain ⟨store, hstore⟩ := Option.isSome_iff_exists.mp h.durable
  have hrun := hw.durable store hstore command.runId
  have hbase := hc.base_of_store hstore
  obtain ⟨hid, -, hseq⟩ := hrun.rows.base_facts rfl hbase
  obtain ⟨t, ht, rfl⟩ := hc.durable hstore hid
  obtain ⟨-, -, htables⟩ := commitRunCommand_eq_ok ht
  have hpos := h.positive
  have hwindow := hrun.window
  have hlog := recordCommit_result (P := P) w.log env.eventId command base applied
  rw [hw.rows.commit_runId hc] at hlog
  refine ⟨{
      sup := ({ w.sup with store := some (store.insert command.runId t) } : Supervisor).recordUsage
        (P.payloadBytes (.command command))
      log := Function.update w.log command.runId (w.log command.runId ++
        [nextEvent P env.eventId command base applied])
      committed := recordSnapshot w.committed (w.sup.handle P env command).2 },
    store.insert command.runId t,
    (store.tables command.runId).nextRow (nextSnapshot P env.eventId command base applied),
    (nextSnapshot P env.eventId command base applied).sessionId,
    ?_, rfl, ?_, ?_, ?_, ?_, ?_⟩
  · have hnew := hrun.rows.commit rfl hbase hc.accepted ht
    rw [← tables_insert_self store command.runId t] at hnew
    exact hw.rows.update hstore hnew rfl (fun k hk => tables_insert_ne store t hk) rfl
  · rw [tables_insert_self, htables]
  · simp [RunTables.nextRow, World.replayFloor, hstore]
  · show ((store.tables command.runId).row.map (·.replayFloor)).getD 0 < floor
    omega
  · simp only [Function.update_self, List.length_append, List.length_singleton]
    omega
  · rw [World.handle, hsup, ← hlog, ← hout, Supervisor.committed, afterCommit_durable rfl,
      Supervisor.compactAfter]
    have hcond : true = true ∧
        Supervisor.compactionFloor (nextSnapshot P env.eventId command base applied) > 0 :=
      ⟨rfl, by rw [hfloor] at hpos; exact hpos⟩
    rw [if_pos hcond, h.noFault, hfloor]
    rfl

/-- A compaction goes through, with the effect it should have, exactly if the journal was not
cut after its first event before. -/
theorem compacts_iff (hw : w.Coherent P) (h : TriggersCompaction P w env command floor) :
    (∃ t row recovery, CompactedAt P (w.handle P env command) command.runId floor t row recovery) ↔
      w.replayFloor command.runId ≤ 1 := by
  obtain ⟨w₁, store, row, session, hw₁, hstore, hrow, hfloor, hlow, hlen, heq⟩ := h.committed hw
  have hc := (hw₁.durable store hstore command.runId).row hrow
  have hhigh : floor ≤ (w₁.log command.runId).length + 1 := by omega
  rw [heq, ← hfloor]
  constructor
  · rintro ⟨t, row', recovery, hcut⟩
    rcases compactAt_cases (P := P) w₁.sup none command.runId floor session with
      hsame | ⟨store', t', report, usage, hstore', hok, -⟩
    · -- Nothing changed, so the floor would be the old one.
      exfalso
      have hrows := hcut.rows
      rw [hsame, hstore] at hrows
      cases hrows
      have hrow' := hcut.hasRow
      rw [hrow] at hrow'
      cases hrow'
      have := hcut.floorSet
      omega
    · rw [hstore] at hstore'
      cases hstore'
      obtain ⟨_, m, hm⟩ := compactRun_replays (hc.listed rfl) hok
      exact hc.floor_le_one hlow hhigh hm
  · intro hone
    obtain ⟨s, m, hm, hok⟩ := hc.compact_ok hrow hone h.positive session
    have hafter : w₁.sup.compactAt P none command.runId floor session =
        ({ w₁.sup with store := some (store.insert command.runId { store.tables command.runId with
          row := some (row.cutAt floor m)
          events := (w₁.log command.runId).drop (floor - 1) }) } : Supervisor).freeUsage
        (UInt64.ofNat ((store.tables command.runId).compactReport P floor).freedPayloadBytes) := by
      simp only [Supervisor.compactAt, hstore, hok]
    refine ⟨{ store.tables command.runId with
      row := some (row.cutAt floor m)
      events := (w₁.log command.runId).drop (floor - 1) }, row.cutAt floor m, m,
      ?_, rfl, rfl, rfl, ⟨s, hm⟩, ?_, ?_⟩
    · simp only [hafter, Supervisor.freeUsage, Option.map_some, tables_insert, if_true]
    · rw [hc.numbered.filter_ge, Nat.sub_zero]
    · rw [List.length_drop]
      omega

/-- In every world a process reaches, a compaction triggered by `handle` stores the state below
its floor and deletes exactly the events there, if and only if the journal of the run still has
its first event. -/
theorem compaction_repeats_iff {w : World} (h : Live P w) {env : CallEnv} {command : RunCommand}
    {floor : Nat} (ht : TriggersCompaction P w env command floor) :
    (∃ t row recovery, CompactedAt P (w.handle P env command) command.runId floor t row recovery) ↔
      w.replayFloor command.runId ≤ 1 :=
  compacts_iff h.coherent ht

namespace Demo

def markReady (n : Nat) : RunCommand :=
  .markTaskReady ⟨envelope (String.singleton (Char.ofNat (n + 20))) 3, "run", "task"⟩

/-- A run of `n + 2` commands under a quota whose soft limit is 96 payload bytes. -/
def longRun (n : Nat) : World :=
  (World.start true 125).handleAll platform 0
    (createRun :: startRun :: (List.range n).map markReady)

def nextEnv : CallEnv := { eventId := "next" }

theorem longRun_live (n : Nat) : Live platform (longRun n) := (Live.start true 125).handleAll 0 _

/-- Decides that the next command triggers a compaction at `floor` when the last one was at
`stored`. -/
def triggersAt (w : World) (n stored floor : Nat) : Bool :=
  decide (w.replayFloor "run" = stored) && w.sup.store.isSome &&
    ((w.sup.handle platform nextEnv (markReady n)).2.toOption.any fun r =>
      !r.idempotentReplay && decide (floor = r.sequence - 100)) &&
    (w.sup.checkBeforeAppend platform 1).toOption.any id

theorem triggers_of_triggersAt {w : World} (n stored floor : Nat) (hpos : 0 < floor)
    (h : triggersAt w n stored floor = true) :
    w.replayFloor "run" = stored ∧ TriggersCompaction platform w nextEnv (markReady n) floor := by
  simp only [triggersAt, Bool.and_eq_true, decide_eq_true_eq] at h
  obtain ⟨⟨⟨hstored, hstore⟩, hout⟩, hquota⟩ := h
  refine ⟨hstored, hstore, rfl, ?_, ?_, hpos⟩
  · cases hq : w.sup.checkBeforeAppend platform 1 with
    | error => simp [hq, Except.toOption] at hquota
    | ok =>
      simp only [hq, Except.toOption, Option.any_some, id] at hquota
      rw [← hquota]
      exact hq
  · cases ho : (w.sup.handle platform nextEnv (markReady n)).2 with
    | error => simp [ho, Except.toOption] at hout
    | ok r =>
      simp only [ho, Except.toOption, Option.any_some, Bool.and_eq_true, Bool.not_eq_true',
        decide_eq_true_eq] at hout
      exact ⟨r, rfl, hout⟩

end Demo
open Demo

/-- At event 102 the journal is still whole, and the compaction cuts event 1. -/
theorem compaction_repeats_iff_first :
    ∃ t row recovery, CompactedAt platform
      ((longRun 99).handle platform nextEnv (markReady 99)) "run" 2 t row recovery := by
  obtain ⟨hstored, ht⟩ := triggers_of_triggersAt (w := longRun 99) 99 1 2 (by decide)
    (by decide +kernel)
  have hfloor : (longRun 99).replayFloor "run" ≤ 1 := by omega
  exact (compaction_repeats_iff (longRun_live 99) ht).mpr hfloor

/-- The next one, at event 103, starts over from an empty snapshot although event 1 is gone,
and fails. -/
theorem compaction_fails_next :
    ∃ w env command, Live platform w ∧ TriggersCompaction platform w env command 3 ∧
      ¬ ∃ t row recovery, CompactedAt platform (w.handle platform env command) command.runId 3 t row
          recovery := by
  obtain ⟨hstored, ht⟩ := triggers_of_triggersAt (w := longRun 100) 100 2 3 (by decide)
    (by decide +kernel)
  refine ⟨_, _, _, longRun_live 100, ht, fun hcut => ?_⟩
  have hfloor : (longRun 100).replayFloor "run" ≤ 1 :=
    (compacts_iff (longRun_live 100).coherent ht).mp hcut
  omega

end Tetonic.Run
