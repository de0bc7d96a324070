import Tetonic.Run.Projection
set_option autoImplicit false

/-! Recovery and replay. A recovery pass writes the projection and appends no event, so replay
does not see it: it rebuilds the run as the last accepted command left it. -/

namespace Tetonic.Run
open Lib World RunTables

variable {P : Platform}

def RunTables.withProjection (t : RunTables) (p : RunSnapshot) : RunTables :=
  { t with row := t.row.map fun row => { row with projection := p } }

variable {t : RunTables} {p : RunSnapshot}

theorem withProjection_eq_self (h : t.loadRunSnapshot = some p) : t.withProjection p = t := by
  obtain ⟨row, hrow, rfl⟩ := Option.map_eq_some_iff.mp h
  cases t with
  | mk =>
    cases hrow
    rfl

theorem compactRun_withProjection (t : RunTables) (p : RunSnapshot) (runId : RunId) (floor : Nat)
    (session : Option SessionId) :
    compactRun P (t.withProjection p) runId floor session =
      (compactRun P t runId floor session).map fun out => (out.1.withProjection p, out.2) := by
  simp only [compactRun, map_bind_outcome, compactRunEventsAtFloor,
    apply_ite (Except.map _), map_pure_outcome]
  cases t with
  | mk row =>
    cases row with
    | none | some => rfl

theorem recoverRun_withProjection {now : UInt64} {readFault : Option String}
    {refusal : Option RunSupervisorError} {t' : RunTables}
    (h : recoverRun P now readFault refusal t = .ok t') (p : RunSnapshot) :
    t'.withProjection p = t.withProjection p ∧ (t'.row.isSome = t.row.isSome) := by
  rcases recoverRun_eq_ok h with rfl | ⟨row, snap, hrow, -, rfl⟩
  · exact ⟨rfl, rfl⟩
  · simp [withProjection, hrow]

variable (P) in
/-- What happens to a database over any number of processes, as long as no command is accepted
for a run whose projection a recovery pass changed. -/
inductive CleanStep : World → World → Prop where
  | handle (w : World) (env : CallEnv) (command : RunCommand)
      (hclean : ∀ r, (w.sup.handle P env command).2 = .ok r → r.idempotentReplay = false →
        w.projection command.runId = w.committed command.runId) :
      CleanStep w (w.handle P env command)
  | compact (w : World) (fault : Option RunSupervisorError) (runId : RunId) (floor : Nat)
      (sessionFallback : Option SessionId) {p : RunSnapshot} (hp : w.committed runId = some p)
      (hlow : w.replayFloor runId < floor) (hhigh : floor + 100 ≤ p.sequence) :
      CleanStep w { w with sup := w.sup.compactAt P fault runId floor sessionFallback }
  | restart (w : World) (env : StartEnv) : CleanStep w (w.restart P env)

variable (P) in
/-- The rows of a run, with the projection its last commit left put back, agree with its
history. -/
def RunSettled (r : RunId) (H : List RunEventEnvelope) (committed : Option RunSnapshot)
    (t : RunTables) : Prop :=
  match committed with
  | none => H = [] ∧ t = {}
  | some p => t.row.isSome = true ∧ RunCoherent P r H (t.withProjection p)

variable (P) in
structure World.Settled (w : World) : Prop where
  durable : ∀ store, w.sup.store = some store →
    ∀ r, RunSettled P r (w.log r) (w.committed r) (store.tables r)
  volatile : w.sup.store = none → w.Coherent P ∧ ∀ r, w.committed r = w.projection r

variable {r : RunId} {H : List RunEventEnvelope}

theorem RunSettled.coherent {committed : Option RunSnapshot} (h : RunSettled P r H committed t)
    (hsame : t.loadRunSnapshot = committed) : RunCoherent P r H t := by
  cases committed with
  | none =>
    obtain ⟨rfl, rfl⟩ := h
    exact ⟨⟨rfl, rfl⟩, Nat.zero_le _⟩
  | some =>
    have hc := h.2
    rw [withProjection_eq_self hsame] at hc
    exact hc

theorem RunCoherent.settled (h : RunCoherent P r H t) (hp : t.loadRunSnapshot = some p) :
    RunSettled P r H (some p) t := by
  obtain ⟨row, hrow, -⟩ := Option.map_eq_some_iff.mp hp
  refine ⟨by rw [hrow]; rfl, ?_⟩
  rw [withProjection_eq_self hp]
  exact h

theorem recordSnapshot_replay (committed : RunId → Option RunSnapshot) {hit : RunCommandResult}
    (h : hit.idempotentReplay = true) : recordSnapshot committed (.ok hit) = committed := by
  simp [recordSnapshot, h]

theorem recordSnapshot_result (committed : RunId → Option RunSnapshot) (eventId : EventId)
    (command : RunCommand) (base applied : RunSnapshot) :
    recordSnapshot committed (.ok (nextSnapshot P eventId command base applied).result) =
      Function.update committed applied.runId
        (some ((nextSnapshot P eventId command base applied).withEvents [])) := by
  simp [recordSnapshot, RunSnapshot.result, nextSnapshot]

theorem World.start_settled (durable : Bool) (quota : UInt64) :
    (World.start durable quota).Settled P := by
  constructor
  · intro store hstore r
    have hempty : store.tables r = {} := by
      cases durable with
      | true =>
        cases hstore
        simp [Store.tables]
      | false => cases hstore
    exact ⟨rfl, hempty⟩
  · intro hstore
    refine ⟨start_coherent durable quota, fun r => ?_⟩
    simp only [projection, hstore]
    simp [World.start]

variable {w' w : World} {command : RunCommand} {stored : Supervisor} {env : CallEnv}
  {applied base : RunSnapshot}

section
variable {compact : Bool} (h : w.Settled P)
  (hc : CommitFacts P w.sup env command base applied stored compact)
  (hsup : w'.sup = stored.committed P env command base applied compact)
  (hlog : w'.log = recordCommit w.log
    (.ok (nextSnapshot P env.eventId command base applied).result))
  (hcommitted : w'.committed = recordSnapshot w.committed
    (.ok (nextSnapshot P env.eventId command base applied).result))
include h hc hsup hlog hcommitted

theorem World.Settled.commit_durable {store : Store} (hstore : w.sup.store = some store)
    (hclean : (store.tables command.runId).loadRunSnapshot = w.committed command.runId) :
    w'.Settled P := by
  have hrun := (h.durable store hstore command.runId).coherent hclean
  have hbase := hc.base_of_store hstore
  obtain ⟨hid, -, -⟩ := hrun.rows.base_facts rfl hbase
  have hnamed : applied.runId = command.runId := applyCommand_runId hc.accepted hid
  obtain ⟨t, store', ht, hstore', hothers, hown⟩ := hc.tables hstore hid
  rw [recordCommit_result, hnamed] at hlog
  rw [recordSnapshot_result, hnamed] at hcommitted
  rw [← hsup] at hstore'
  refine ⟨fun store₁ h₁ k => ?_, fun hnone => by rw [hstore'] at hnone; cases hnone⟩
  rw [hstore'] at h₁
  cases h₁
  rw [hlog, hcommitted]
  by_cases hk : k = command.runId
  · subst hk
    rw [Function.update_self, Function.update_self]
    exact (hrun.after_commit rfl hbase hc.accepted ht hown).settled (commit_loadRunSnapshot ht hown)
  · rw [Function.update_of_ne hk, Function.update_of_ne hk, hothers k hk]
    exact h.durable store hstore k

theorem World.Settled.commit_volatile (hstore : w.sup.store = none) : w'.Settled P := by
  obtain ⟨hcoh, hsame⟩ := h.volatile hstore
  have hnamed := hcoh.rows.commit_runId hc
  obtain ⟨hid, -⟩ := (hcoh.volatile hstore command.runId).commit env.eventId rfl
    (hc.base_of_memory hstore) hc.accepted
  have hsup' := hsup
  rw [hc.memory hstore hid] at hsup'
  have hnone' : w'.sup.store = none := by rw [hsup', hstore]
  refine ⟨(fun store h₁ => by rw [hnone'] at h₁; cases h₁), fun _ => ⟨?_, fun k => ?_⟩⟩
  · refine Keeps.commit hcoh.rows hc hcoh (fun _ _ _ hsome => ?_) hsup ?_
    · rw [hstore] at hsome
      cases hsome
    · rw [hlog, recordCommit_result, hnamed]
  · rw [hcommitted, recordSnapshot_result, hnamed]
    rw [projection_volatile hnone', hsup', OrdMap.get_insert]
    by_cases hk : k = command.runId
    · subst hk
      simp
    · rw [Function.update_of_ne hk, if_neg (Ne.symm hk), hsame k, projection_volatile hstore]

end

theorem World.Settled.of_same (h : w.Settled P) (hstore : w'.sup.store = w.sup.store)
    (hmem : w'.sup.memory = w.sup.memory) (hlog : w'.log = w.log)
    (hcommitted : w'.committed = w.committed) : w'.Settled P := by
  constructor
  · intro store h₁ r
    rw [hlog, hcommitted]
    exact h.durable store (hstore ▸ h₁) r
  · intro h₁
    obtain ⟨hcoh, hsame⟩ := h.volatile (hstore ▸ h₁)
    refine ⟨⟨fun store h₂ => ?_, fun _ r => ?_⟩, fun r => ?_⟩
    · rw [h₁] at h₂
      cases h₂
    · rw [hmem, hlog]
      exact hcoh.volatile (hstore ▸ h₁) r
    · rw [hcommitted, hsame r]
      simp only [projection, hstore, hmem]

theorem World.Settled.handle (h : w.Settled P)
    (hclean : ∀ r, (w.sup.handle P env command).2 = .ok r → r.idempotentReplay = false →
      w.projection command.runId = w.committed command.runId) :
    (w.handle P env command).Settled P := by
  have hh := handle_handled (P := P) w.sup env command
  unfold World.handle
  generalize (w.sup.handle P env command).1 = sup' at hh
  generalize (w.sup.handle P env command).2 = out at hh hclean
  cases hh with
  | refused | overQuota => exact h.of_same rfl rfl rfl rfl
  | replayed _ _ hhit =>
    have hreplay := hhit.elim checkCommandId_asReplay checkIdempotency_asReplay
    exact h.of_same rfl rfl (recordCommit_replay w.log hreplay)
      (recordSnapshot_replay w.committed hreplay)
  | committed hc =>
    have hsame := hclean _ rfl rfl
    cases hstore : w.sup.store with
    | some =>
      simp only [projection, hstore] at hsame
      exact h.commit_durable hc rfl rfl rfl hstore hsame
    | none => exact h.commit_volatile hc rfl rfl rfl hstore

variable {runId : RunId}

theorem World.Settled.compact (h : w.Settled P) {floor : Nat} (hp : w.committed runId = some p)
    (hlow : w.replayFloor runId < floor) (hhigh : floor + 100 ≤ p.sequence)
    (fault : Option RunSupervisorError) (fallback : Option SessionId) :
    World.Settled P { w with sup := w.sup.compactAt P fault runId floor fallback } := by
  rcases compactAt_cases (P := P) w.sup fault runId floor fallback with
    hsame | ⟨store, t, report, usage, hstore, hok, heq⟩
  · rw [hsame]
    exact h
  · have hset := h.durable store hstore runId
    rw [hp] at hset
    obtain ⟨hsome, hc⟩ := hset
    obtain ⟨row, hrow⟩ := Option.isSome_iff_exists.mp hsome
    have hrow' : ((store.tables runId).withProjection p).row =
        some { row with projection := p } := by simp [withProjection, hrow]
    have hlen : floor + 100 ≤ (w.log runId).length := by
      rw [(hc.rows.row hrow').sequence] at hhigh
      exact hhigh
    have hfloor : row.replayFloor < floor := by
      simpa [replayFloor, hstore, hrow] using hlow
    have hok' : compactRun P ((store.tables runId).withProjection p) runId floor fallback =
        .ok (t.withProjection p, report) := by
      rw [compactRun_withProjection, hok]
      rfl
    have hnew := hc.compact hrow' hfloor hlen hok'
    have hload := compactRun_loadRunSnapshot hok
    have hkept : t.row.isSome = true := by
      have := congrArg Option.isSome hload
      simpa [loadRunSnapshot, hsome] using this
    refine ⟨fun store₁ h₁ k => ?_, fun hnone => by rw [heq] at hnone; cases hnone⟩
    rw [heq] at h₁
    cases h₁
    by_cases hk : k = runId
    · subst hk
      rw [tables_insert_self, hp]
      exact ⟨hkept, hnew⟩
    · rw [tables_insert_ne store t hk]
      exact h.durable store hstore k

theorem World.Settled.restart (h : w.Settled P) (env : StartEnv) : (w.restart P env).Settled P := by
  unfold World.restart
  cases hstore : w.sup.store with
  | none => exact start_settled false env.globalQuotaBytes
  | some store =>
    refine ⟨fun store₁ h₁ r => ?_, fun hnone => by cases hnone⟩
    cases h₁
    refine recoverAtStartup_induction (I := fun r t => RunSettled P r (w.log r) (w.committed r) t)
      ?_ env.runIds (h.durable store hstore) r
    intro k t t' hset hok
    cases hcom : w.committed k with
    | none =>
      rw [hcom] at hset
      obtain ⟨hlog, rfl⟩ := hset
      rcases recoverRun_eq_ok hok with rfl | ⟨row, snap, hrow, -, -⟩
      · exact ⟨hlog, rfl⟩
      · cases hrow
    | some p =>
      rw [hcom] at hset
      obtain ⟨hsame, hsome⟩ := recoverRun_withProjection hok p
      exact ⟨hsome.trans hset.1, by rw [hsame]; exact hset.2⟩

theorem CleanStep.settled (hstep : CleanStep P w w') (h : w.Settled P) : w'.Settled P := by
  cases hstep with
  | handle env command hclean => exact h.handle hclean
  | compact fault runId floor fallback hp hlow hhigh =>
    exact h.compact hp hlow hhigh fault fallback
  | restart env => exact h.restart env

theorem World.Settled.replay (h : w.Settled P) (hp : w.committed runId = some p) :
    ∃ s, w.sup.replayRun P runId = .ok s ∧ s.withEvents [] = p := by
  cases hstore : w.sup.store with
  | some store =>
    have hset := h.durable store hstore runId
    rw [hp] at hset
    obtain ⟨hsome, hset⟩ := hset
    obtain ⟨row, hrow⟩ := Option.isSome_iff_exists.mp hsome
    have hc : RowCoherent P runId (w.log runId) (store.tables runId).events
        { row with projection := p } :=
      hset.rows.row (by simp [withProjection, hrow])
    obtain ⟨s, hs, hproj⟩ := hc.replay_run
    refine ⟨s, ?_, hproj⟩
    simp only [Supervisor.replayRun, hstore, hc.listed rfl, loadReplayFloor, hrow]
    exact hs
  | none =>
    obtain ⟨hcoh, hsame⟩ := h.volatile hstore
    exact hcoh.rows.replayRun ((hsame runId).symm.trans hp)

namespace Demo

def leased : World :=
  (World.start true 1000).handleAll platform 0
    [.createRun {
        envelope := envelope "create" 1
        sessionId := none
        runId := "run"
        rootTaskId := "task"
        rootBinding := binding
        speculation := some ⟨false, 1⟩
        jobSpec := none },
      startRun, createAttempt "a", leaseAttempt "a" 0 100]

def recovered : World :=
  leased.restart platform { now := 200, runIds := ["run"], globalQuotaBytes := 1000 }

def resumed : World :=
  recovered.handle platform { eventId := "retry" }
    (.createAttempt ⟨envelope "retry" 300, "run", "task", "b", none⟩)

end Demo
open Demo

end Tetonic.Run
