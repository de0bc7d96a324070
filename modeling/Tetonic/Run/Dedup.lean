import Tetonic.Run.Projection
set_option autoImplicit false

/-! Deduplication of commands and density of the journal: one event for each accepted command,
numbered without gaps, and nothing at all for a command that was seen before or refused. -/

namespace Tetonic.Run
open Lib World RunTables

variable {result : RunCommandResult} {w : World}
variable {P : Platform}

/-- What a run keeps of its commands: every event ever committed, those still in the journal,
the sequence of the projection, and the results by command id. -/
structure Ledger where
  (log journal : List RunEventEnvelope)
  sequence : Nat
  known : CommandId → Option RunCommandResult

namespace World

def journal (w : World) (r : RunId) : List RunEventEnvelope :=
  match w.sup.store with
  | some store => (store.tables r).events
  | none => (w.sup.memory[r]?.map (·.events)).getD []

def sequence (w : World) (r : RunId) : Nat := ((w.projection r).map (·.sequence)).getD 0

def known (w : World) (r : RunId) (id : CommandId) : Option RunCommandResult :=
  match w.sup.store with
  | some store => (store.tables r).loadRunCommandDedup id
  | none => w.sup.commandDedup[r]?.bind (·[id]?)

def ledger (w : World) (r : RunId) : Ledger := ⟨w.log r, w.journal r, w.sequence r, w.known r⟩

theorem journal_durable {store : Store} (hstore : w.sup.store = some store) (r : RunId) :
    w.journal r = (store.tables r).events := by
  simp only [journal, hstore]

theorem known_durable {store : Store} (hstore : w.sup.store = some store) (r : RunId) :
    w.known r = (store.tables r).loadRunCommandDedup := by
  funext id
  simp only [known, hstore]

end World

/-- A new command: one more event, under the next number and an id not seen before. -/
structure Ledger.Commit (command : RunCommand) (result : RunCommandResult)
    (event : RunEventEnvelope) (before after : Ledger) : Prop where
  fresh : before.known command.envelope.commandId = none
  log : after.log = before.log ++ [event]
  sequence : after.sequence = before.sequence + 1
  answered : result.sequence = before.sequence + 1
  number : event.sequence = before.sequence + 1
  id : event.commandId = some command.envelope.commandId
  journal : after.journal.Sublist (before.journal ++ [event])
  kept : event ∈ after.journal
  known : after.known = Function.update before.known command.envelope.commandId (some result)

/-- A step either commits a new command or at most drops events from the journal. -/
inductive LedgerStep (before : Ledger) : Ledger → Prop where
  | quiet {journal : List RunEventEnvelope} (h : journal.Sublist before.journal) :
      LedgerStep before { before with journal }
  | commit {command : RunCommand} {result : RunCommandResult} {event : RunEventEnvelope}
      {after : Ledger} (h : before.Commit command result event after) : LedgerStep before after

/-- Ids are distinct and known, numbers are dense, and the journal is part of the history. -/
structure Ledger.Ok (l : Ledger) : Prop where
  numbered : Consecutive RunEventEnvelope.sequence 0 l.log
  length : l.sequence = l.log.length
  journal : l.journal.Sublist l.log
  ids : ∀ id, (l.known id).isSome = true ↔ some id ∈ l.log.map (·.commandId)
  nodup : (l.log.map (·.commandId)).Nodup

theorem Ledger.Commit.ok {command : RunCommand} {event : RunEventEnvelope} {before after : Ledger}
    (h : before.Commit command result event after) (hb : before.Ok) : after.Ok where
  numbered := by
    rw [h.log, consecutive_append]
    refine ⟨hb.numbered, ?_, trivial⟩
    rw [h.number, hb.length]
    omega
  length := by
    rw [h.sequence, h.log, hb.length]
    simp
  journal := by
    rw [h.log]
    exact h.journal.trans (hb.journal.append_right [event])
  ids id := by
    rw [h.known, h.log]
    by_cases hid : id = command.envelope.commandId
    · subst hid
      simp [h.id]
    · rw [Function.update_of_ne hid, hb.ids id]
      simp [h.id, hid]
  nodup := by
    rw [h.log, List.map_append, List.nodup_append]
    refine ⟨hb.nodup, by simp, fun a ha b hmem heq => ?_⟩
    simp only [List.map_cons, List.map_nil, List.mem_singleton, h.id] at hmem
    subst heq hmem
    have hsome := (hb.ids _).mpr ha
    rw [h.fresh] at hsome
    cases hsome

theorem LedgerStep.ok {before after : Ledger} (h : LedgerStep before after) (hb : before.Ok) :
    after.Ok := by
  cases h with
  | quiet hsub =>
    exact ⟨hb.numbered, hb.length, hsub.trans hb.journal, hb.ids, hb.nodup⟩
  | commit hc => exact hc.ok hb

theorem LedgerStep.keeps {before after : Ledger} (h : LedgerStep before after) {id : CommandId}
    (hk : before.known id = some result) :
    after.known id = some result := by
  cases h with
  | quiet => exact hk
  | @commit command _ _ _ hc =>
    have hne : id ≠ command.envelope.commandId := by
      rintro rfl
      rw [hc.fresh] at hk
      cases hk
    rw [hc.known, Function.update_of_ne hne, hk]

theorem compactRun_tables {t t' : RunTables} {runId : RunId} {floor : Nat}
    {session : Option SessionId} {report : RunTables.CompactReport}
    (h : compactRun P t runId floor session = .ok (t', report)) :
    t'.commandDedup = t.commandDedup ∧ t'.events.Sublist t.events ∧
      ∀ e ∈ t.events, floor ≤ e.sequence → e ∈ t'.events := by
  simp only [compactRun, bind_eq_ok, compactRunEventsAtFloor] at h
  obtain ⟨events, -, recovery, -, h⟩ := h
  split at h
  · cases pure_eq_ok.mp h
    exact ⟨rfl, List.Sublist.refl _, fun e he _ => he⟩
  · simp only [bind_eq_ok, orFail_eq_ok, pure_eq_ok, Prod.mk.injEq] at h
    obtain ⟨row, hrow, rfl, -⟩ := h
    refine ⟨rfl, List.filter_sublist, fun e he hfloor => ?_⟩
    refine List.mem_filter.mpr ⟨he, ?_⟩
    have hlow : ¬ e.sequence < floor := by omega
    simp [compacted, hlow]

section Commit

variable {w' : World} {env : CallEnv} {command : RunCommand} {base applied : RunSnapshot}
  {stored : Supervisor} {compact : Bool}

theorem baseSnapshot_sequence (h : baseSnapshot command (w.projection command.runId) = .ok base) :
    base.sequence = w.sequence command.runId := by
  unfold World.sequence
  rcases baseSnapshot_eq_ok.mp h with ⟨c, -, hnone, rfl⟩ | ⟨hsome, -⟩
  · rw [hnone]
    rfl
  · rw [hsome]
    rfl

section
variable (h : CommitFacts P w.sup env command base applied stored compact)
include h

theorem CommitFacts.fresh : w.known command.runId command.envelope.commandId = none := by
  have hnew := h.newId
  unfold known
  cases hstore : w.sup.store with
  | some =>
    simp only [Supervisor.checkCommandId, hstore, readStore_eq_ok] at hnew
    exact Option.map_eq_none_iff.mp hnew.2
  | none =>
    simp only [Supervisor.checkCommandId, hstore] at hnew
    exact Option.map_eq_none_iff.mp (pure_eq_ok.mp hnew)

theorem CommitFacts.rows (hid : base.runId = command.runId)
    (hsup : w'.sup = stored.committed P env command base applied compact) :
    (w'.journal command.runId).Sublist
        (w.journal command.runId ++ [nextEvent P env.eventId command base applied]) ∧
      nextEvent P env.eventId command base applied ∈ w'.journal command.runId ∧
      w'.known command.runId = Function.update (w.known command.runId)
        command.envelope.commandId (some (nextSnapshot P env.eventId command base applied).result) ∧
      ∀ r, r ≠ command.runId → w'.journal r = w.journal r ∧ w'.known r = w.known r := by
  cases hstore : w.sup.store with
  | some store =>
    obtain ⟨t, store', ht, hstore', hothers, hown⟩ := h.tables hstore hid
    rw [← hsup] at hstore'
    obtain ⟨-, -, rfl⟩ := commitRunCommand_eq_ok ht
    have hleft : (store'.tables command.runId).commandDedup =
          (store.tables command.runId).commandDedup.insert command.envelope.commandId
            (nextSnapshot P env.eventId command base applied).result ∧
        (store'.tables command.runId).events.Sublist ((store.tables command.runId).events ++
          [nextEvent P env.eventId command base applied]) ∧
        nextEvent P env.eventId command base applied ∈ (store'.tables command.runId).events := by
      rcases hown with hsame | ⟨-, -, -, session, report, hok⟩
      · rw [hsame]
        exact ⟨rfl, List.Sublist.refl _, by simp⟩
      · obtain ⟨hdedup, hsub, hkeep⟩ := compactRun_tables hok
        refine ⟨hdedup, hsub, hkeep _ (by simp) ?_⟩
        show base.sequence + 1 - 100 ≤ base.sequence + 1
        omega
    obtain ⟨hdedup, hsub, hmem⟩ := hleft
    simp only [journal_durable hstore, journal_durable hstore', known_durable hstore,
      known_durable hstore']
    refine ⟨hsub, hmem, ?_, fun r hr => ?_⟩
    · funext id
      rw [loadRunCommandDedup, hdedup, OrdMap.get_insert]
      by_cases hi : id = command.envelope.commandId
      · subst hi
        simp
      · rw [if_neg (Ne.symm hi), Function.update_of_ne hi]
        rfl
    · rw [hothers r hr]
      exact ⟨rfl, rfl⟩
  | none =>
    have hevents : applied.events = w.journal command.runId := by
      rw [applyCommand_events h.accepted]
      unfold journal
      rw [hstore]
      rcases baseSnapshot_eq_ok.mp (h.base_of_memory hstore) with ⟨c, -, hnone, rfl⟩ | ⟨hsome, -⟩
      · rw [hnone]
        rfl
      · rw [hsome]
        rfl
    rw [h.memory hstore hid] at hsup
    have hjournal : w'.journal command.runId = w.journal command.runId ++
        [nextEvent P env.eventId command base applied] := by
      rw [← hevents]
      simp only [journal, hsup, hstore, OrdMap.get_insert_self]
      rfl
    refine ⟨?_, ?_, ?_, fun r hr => ⟨?_, ?_⟩⟩
    · rw [hjournal]
    · rw [hjournal]
      simp
    · funext id
      simp only [known, hsup, hstore, OrdMap.get_insert_self, Option.bind_some, OrdMap.get_insert]
      by_cases hi : id = command.envelope.commandId
      · subst hi
        simp
      · rw [if_neg (Ne.symm hi), Function.update_of_ne hi]
        simp only [known, hstore]
        cases w.sup.commandDedup[command.runId]? with
        | none => simp
        | some => rfl
    · simp only [journal, hsup, hstore, OrdMap.get_insert_ne _ _ (Ne.symm hr)]
    · funext id
      simp only [known, hsup, hstore, OrdMap.get_insert_ne _ _ (Ne.symm hr)]

theorem CommitFacts.ledger (hn : w.Named)
    (hsup : w'.sup = stored.committed P env command base applied compact)
    (hlog : w'.log = recordCommit w.log
      (.ok (nextSnapshot P env.eventId command base applied).result)) :
    (w.ledger command.runId).Commit command (nextSnapshot P env.eventId command base applied).result
        (nextEvent P env.eventId command base applied) (w'.ledger command.runId) ∧
      ∀ r, r ≠ command.runId → w'.ledger r = w.ledger r := by
  obtain ⟨hid, ⟨base', applied', hbase, hseq, -, -, hafter⟩, hothers⟩ := h.projections hn hsup
  obtain ⟨hjournal, hkept, hknown, hrest⟩ := h.rows hid hsup
  have hbaseSeq : base.sequence = w.sequence command.runId :=
    hseq.symm.trans (baseSnapshot_sequence hbase)
  have hnamed : applied.runId = command.runId := applyCommand_runId h.accepted hid
  rw [recordCommit_result, hnamed] at hlog
  have hnumber : (nextSnapshot P env.eventId command base applied).sequence =
      w.sequence command.runId + 1 := congrArg (· + 1) hbaseSeq
  refine ⟨⟨h.fresh, ?_, ?_, hnumber, hnumber, rfl, hjournal, hkept, hknown⟩, fun r hr => ?_⟩
  · show w'.log command.runId = _
    rw [hlog, Function.update_self]
    rfl
  · show w'.sequence command.runId = w.sequence command.runId + 1
    rw [← hbaseSeq, ← hseq, World.sequence, hafter]
    rfl
  · obtain ⟨hj, hk⟩ := hrest r hr
    have hl : w'.log r = w.log r := by rw [hlog, Function.update_of_ne hr]
    have hs : w'.sequence r = w.sequence r := by rw [World.sequence, hothers r hr, World.sequence]
    rw [World.ledger, hl, hj, hs, hk]
    rfl

end

end Commit

theorem World.handle_ledger (hn : w.Named) (env : CallEnv) (command : RunCommand) :
    (∃ e, (w.sup.handle P env command).2 = .error e ∧
      (w.handle P env command).sup.store = w.sup.store ∧
      (w.handle P env command).sup.memory = w.sup.memory ∧
      ∀ r, (w.handle P env command).ledger r = w.ledger r) ∨
    (∃ hit, (w.sup.handle P env command).2 = .ok hit ∧ hit.idempotentReplay = true ∧
      w.handle P env command = w) ∨ ∃ result event, (w.sup.handle P env command).2 = .ok result ∧
      result.idempotentReplay = false ∧ (w.ledger command.runId).Commit command result event
        ((w.handle P env command).ledger command.runId) ∧
      ∀ r, r ≠ command.runId → (w.handle P env command).ledger r = w.ledger r := by
  have hh := handle_handled (P := P) w.sup env command
  unfold World.handle
  generalize (w.sup.handle P env command).1 = sup' at hh
  generalize (w.sup.handle P env command).2 = out at hh
  cases hh with
  | refused e => exact .inl ⟨e, rfl, rfl, rfl, fun r => rfl⟩
  | overQuota => exact .inl ⟨_, rfl, rfl, rfl, fun r => rfl⟩
  | @replayed hit awake hgrant hhit =>
    have hreplay := hhit.elim checkCommandId_asReplay checkIdempotency_asReplay
    refine .inr (.inl ⟨hit, rfl, hreplay, ?_⟩)
    rw [recordCommit_replay w.log hreplay]
    simp [recordSnapshot, hreplay]
  | committed hc =>
    exact .inr (.inr ⟨_, _, rfl, rfl, hc.ledger hn rfl rfl⟩)

theorem restart_ledger (hw : w.Traced P) (env : StartEnv) (hstore : w.sup.store.isSome = true)
    (r : RunId) :
    (w.restart P env).ledger r = w.ledger r := by
  obtain ⟨store, hstore⟩ := Option.isSome_iff_exists.mp hstore
  have hrows : ((recoverAtStartup P env env.runIds store).1.tables r).events =
        (store.tables r).events ∧
      ((recoverAtStartup P env env.runIds store).1.tables r).commandDedup =
        (store.tables r).commandDedup := by
    refine recoverAtStartup_induction (I := fun r t => t.events = (store.tables r).events ∧
      t.commandDedup = (store.tables r).commandDedup) ?_ env.runIds (fun _ => ⟨rfl, rfl⟩) r
    intro k t t' hsame hok
    rcases recoverRun_eq_ok hok with rfl | ⟨row, snap, -, -, rfl⟩
    all_goals exact hsame
  have hseq : (w.restart P env).sequence r = w.sequence r := by
    unfold World.sequence
    rcases restart_projection (P := P) hstore env r with ⟨hp, hq⟩ | ⟨p, q, hp, hq, hsteps⟩
    · rw [hp, hq]
    · rw [hp, hq]
      have hfirst := hw r p hp
      clear hp hq
      suffices hkept : q.sequence = p.sequence ∧ Traced P r q by simp [hkept.1]
      induction hsteps with
      | refl => exact ⟨rfl, hfirst⟩
      | tail _ hpass ih => exact ⟨(hpass.runStep ih.2).2.2.2.trans ih.1, hpass.traced ih.2⟩
  have hlog : (w.restart P env).log = w.log := by simp only [World.restart, hstore]
  have hjournal : (w.restart P env).journal r = w.journal r := by
    simp only [journal, World.restart, hstore, Supervisor.startOn, hrows.1]
  have hknown : (w.restart P env).known r = w.known r := by
    funext id
    simp only [known, World.restart, hstore, Supervisor.startOn, loadRunCommandDedup, hrows.2]
  rw [World.ledger, hlog, hjournal, hseq, hknown]
  rfl

theorem compactAt_ledger (w : World) (fault : Option RunSupervisorError) (runId : RunId)
    (floor : Nat) (fallback : Option SessionId) (r : RunId) :
    LedgerStep (w.ledger r)
      (World.ledger { w with sup := w.sup.compactAt P fault runId floor fallback } r) := by
  have hseq : sequence { w with sup := w.sup.compactAt P fault runId floor fallback } r =
      w.sequence r := by
    rw [World.sequence, compactAt_projection, World.sequence]
  rcases compactAt_cases (P := P) w.sup fault runId floor fallback with
    hsame | ⟨store, t, report, usage, hstore, hok, heq⟩
  · rw [hsame]
    exact .quiet (List.Sublist.refl _)
  · obtain ⟨hdedup, hsub, -⟩ := compactRun_tables hok
    have hknown : known { w with sup := w.sup.compactAt P fault runId floor fallback } r =
        w.known r := by
      funext id
      simp only [known, heq, hstore, loadRunCommandDedup]
      by_cases hr : r = runId
      · subst hr
        rw [tables_insert_self, hdedup]
      · rw [tables_insert_ne store t hr]
    have hjournal : (journal
        { w with sup := w.sup.compactAt P fault runId floor fallback } r).Sublist
          (w.journal r) := by
      simp only [journal, heq, hstore]
      by_cases hr : r = runId
      · subst hr
        rw [tables_insert_self]
        exact hsub
      · rw [tables_insert_ne store t hr]
    unfold World.ledger
    rw [hseq, hknown]
    exact .quiet hjournal

theorem LifeStep.ledger {w' : World} (h : LifeStep P w w') (hw : w.Traced P) (r : RunId) :
    LedgerStep (w.ledger r) (w'.ledger r) := by
  cases h with
  | restart env hstore =>
    rw [restart_ledger hw env hstore r]
    exact .quiet (List.Sublist.refl _)
  | live h =>
    cases h with
    | compact fault runId floor fallback =>
      exact compactAt_ledger w fault runId floor fallback r
    | handle env command =>
      rcases handle_ledger (P := P) hw.named env command with
        ⟨e, -, -, -, hsame⟩ | ⟨hit, -, -, hsame⟩ | ⟨result, event, -, -, hcommit, hothers⟩
      · rw [hsame r]
        exact .quiet (List.Sublist.refl _)
      · rw [hsame]
        exact .quiet (List.Sublist.refl _)
      · by_cases hr : r = command.runId
        · subst hr
          exact .commit hcommit
        · rw [hothers r hr]
          exact .quiet (List.Sublist.refl _)

theorem World.start_ledger (durable : Bool) (quota : UInt64) (r : RunId) :
    ((World.start durable quota).ledger r).Ok := by
  have hseq : (World.start durable quota).sequence r = 0 := by
    rw [World.sequence, start_projection]
    rfl
  have hjournal : (World.start durable quota).journal r = [] := by
    cases durable <;> simp [World.start, journal, Store.tables]
  have hknown : ∀ id, (World.start durable quota).known r id = none := by
    intro id
    cases durable <;> simp [World.start, known, Store.tables, loadRunCommandDedup]
  refine ⟨trivial, hseq, ?_, fun id => ?_, List.nodup_nil⟩
  · show ((World.start durable quota).journal r).Sublist []
    rw [hjournal]
  · show ((World.start durable quota).known r id).isSome = true ↔ _
    rw [hknown]
    simp [World.ledger, World.start]

theorem Lifetime.ledger (h : Lifetime P w) (r : RunId) : (w.ledger r).Ok := by
  obtain ⟨durable, quota, hr⟩ := h
  induction hr with
  | refl => exact start_ledger durable quota r
  | tail hsteps hstep ih =>
    have htraced := Lifetime.traced ⟨durable, quota, hsteps⟩
    exact (hstep.ledger htraced r).ok ih

theorem known_later {w' : World} (h : Relation.ReflTransGen (LifeStep P) w w') (hw : Lifetime P w)
    {r : RunId} {id : CommandId} (hk : w.known r id = some result) :
    w'.known r id = some result := by
  have hlife : Lifetime P w' ∧ w'.known r id = some result := by
    induction h with
    | refl => exact ⟨hw, hk⟩
    | tail _ hstep ih =>
      obtain ⟨hb, hkb⟩ := ih
      refine ⟨?_, (hstep.ledger hb.traced r).keeps hkb⟩
      obtain ⟨durable, quota, hr⟩ := hb
      exact ⟨durable, quota, hr.tail hstep⟩
  exact hlife.2

theorem handle_known {env : CallEnv} {command : RunCommand}
    (hk : w.known command.runId command.envelope.commandId = some result)
    (hread : env.dedupFault = none) (hawake : w.sup.safeMode = false ∨ command.finishesRun = true) :
    w.sup.handle P env command = (w.sup, if command.grantsExecution = true then
        fail (.duplicateDelivery "execution permission cannot be replayed")
      else .ok result.asReplay) := by
  have hlookup : w.sup.checkCommandId env command = .ok (some result.asReplay) := by
    unfold known at hk
    cases hstore : w.sup.store with
    | some =>
      simp only [hstore] at hk
      simp only [Supervisor.checkCommandId, hstore, hread, readStore, hk]
      rfl
    | none =>
      simp only [hstore] at hk
      simp only [Supervisor.checkCommandId, hstore, hk]
      rfl
  have hsafe : ¬ (w.sup.safeMode = true ∧ command.finishesRun = false) := by
    rcases hawake with h | h <;> simp [h]
  have hconsider : w.sup.consider P env command = replayHit command result.asReplay := by
    simp only [Supervisor.consider, refuseIf, hsafe, if_false, hlookup]
    rfl
  unfold Supervisor.handle
  rw [hconsider, replayHit]
  by_cases hgrant : command.grantsExecution = true
  · rw [if_pos hgrant, if_pos hgrant]
    rfl
  · rw [if_neg hgrant, if_neg hgrant]
    rfl

/-- Over any number of processes on one database: command ids are never journaled twice; a new
command takes the next number, for one event, and its redeliveries are answered with its result
or refused as duplicates without effect; a refused command leaves the store as it was. -/
theorem command_dedup {w : World} (h : Lifetime P w) :
    (∀ r, ((w.log r).map (·.commandId)).Nodup) ∧
    (∀ env command result, (w.sup.handle P env command).2 = .ok result →
      result.idempotentReplay = false → result.sequence = w.sequence command.runId + 1 ∧
      (w.handle P env command).sequence command.runId = w.sequence command.runId + 1 ∧
      (∃ event, event.commandId = some command.envelope.commandId ∧
        (w.handle P env command).log command.runId = w.log command.runId ++ [event] ∧
        ((w.handle P env command).journal command.runId).filter
          (fun e => decide (e.sequence = result.sequence)) = [event]) ∧
      ∀ w₂, Relation.ReflTransGen (LifeStep P) (w.handle P env command) w₂ →
        ∀ env₂ again, again.runId = command.runId →
          again.envelope.commandId = command.envelope.commandId → env₂.dedupFault = none →
          (w₂.sup.safeMode = false ∨ again.finishesRun = true) →
          w₂.sup.handle P env₂ again = (w₂.sup, if again.grantsExecution = true then
              fail (.duplicateDelivery "execution permission cannot be replayed")
            else .ok result.asReplay)) ∧
    ∀ env command e, (w.sup.handle P env command).2 = .error e →
      (w.handle P env command).sup.store = w.sup.store ∧
      (w.handle P env command).sup.memory = w.sup.memory ∧
      (w.handle P env command).log = w.log := by
  have hn := h.traced.named
  refine ⟨fun r => (h.ledger r).nodup, ?_, ?_⟩
  · intro env command result hout hnew
    rcases handle_ledger (P := P) hn env command with
      ⟨e, herr, -⟩ | ⟨hit, hok, hreplay, -⟩ | ⟨result', event, hok, -, hc, -⟩
    · rw [hout] at herr
      cases herr
    · rw [hout, Except.ok.injEq] at hok
      subst hok
      rw [hnew] at hreplay
      cases hreplay
    · rw [hout, Except.ok.injEq] at hok
      subst hok
      have hafter := (h.handle env command).ledger command.runId
      refine ⟨hc.answered, hc.sequence, ⟨event, hc.id, hc.log, ?_⟩, ?_⟩
      · have hpair := (hafter.numbered.pairwise).sublist hafter.journal
        rw [hc.answered, ← hc.number]
        exact filter_seq_eq hpair hc.kept
      · intro w₂ hsteps env₂ again hrun hid hread hawake
        have hkept : (w.handle P env command).known command.runId command.envelope.commandId =
            some result := by
          have hk := congrFun hc.known command.envelope.commandId
          rw [Function.update_self] at hk
          exact hk
        have hlater := known_later hsteps (h.handle env command) hkept
        rw [← hrun, ← hid] at hlater
        exact handle_known hlater hread hawake
  · intro env command e hout
    rcases handle_ledger (P := P) hn env command with
      ⟨e', -, hstore, hmem, -⟩ | ⟨hit, hok, -, -⟩ | ⟨result, event, hok, -, -, -⟩
    · refine ⟨hstore, hmem, ?_⟩
      show recordCommit w.log (w.sup.handle P env command).2 = w.log
      rw [hout]
      rfl
    all_goals
      rw [hout] at hok
      cases hok

namespace Demo

def created : World := (World.start true 1000).handleAll platform 0 [createRun]

/-- Three commands fill the quota of three bytes; the fourth puts the process into Safe Mode. -/
def full : World :=
  (World.start true 3).handleAll platform 0
    [createRun, startRun, createAttempt "a", leaseAttempt "a" 0 100]

end Demo
open Demo

/-- `StartRun` delivered twice. -/
theorem command_dedup_redelivered :
    ∃ result, (created.sup.handle platform { eventId := "1" } startRun).2 =
        .ok result ∧ result.sequence = 2 ∧
      (created.handle platform { eventId := "1" } startRun).sup.handle platform
          { eventId := "2" } startRun =
        ((created.handle platform { eventId := "1" } startRun).sup, .ok result.asReplay) := by
  have hlife : Lifetime platform created := ((Live.start true 1000).handleAll 0 _).lifetime
  obtain ⟨-, -, -, hagain⟩ := (command_dedup hlife).2.1 { eventId := "1" } startRun _ rfl rfl
  exact ⟨_, rfl, rfl, hagain _ .refl { eventId := "2" } startRun rfl rfl rfl (.inl (by decide))⟩

/-- In Safe Mode even a command that was accepted before is refused. -/
theorem redelivery_refused_in_safe_mode :
    Lifetime platform full ∧
      some "start" ∈ (full.log "run").map (·.commandId) ∧
      (full.sup.handle platform { eventId := "4" } startRun).2 =
        fail (.conflict "System is in Safe Mode. Mutating commands are rejected.") :=
  ⟨((Live.start true 3).handleAll 0 _).lifetime, by decide, rfl⟩

end Tetonic.Run
