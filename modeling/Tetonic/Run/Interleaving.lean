import Tetonic.Run.Shared
set_option autoImplicit false

/-! What holds of a shared run however its instances interleave, and what holds as long as no
write lands on a projection newer than the one it was computed from. -/

namespace Tetonic.Run
open Lib OrdMap

variable {P : Platform} {κ : Type} {r : RunId}

/-- What recovery passes never touch: the sequence number, the tasks with their bindings and
claims, and which task an attempt belongs to. -/
structure SameCore (p q : RunSnapshot) : Prop where
  sequence : q.sequence = p.sequence
  tasks : ∀ k : TaskId, q.tasks[k]?.map (fun task => (task.binding, task.finalizationClaim)) =
    p.tasks[k]?.map (fun task => (task.binding, task.finalizationClaim))
  attempts : ∀ k : AttemptId, q.attempts[k]?.map (·.taskId) = p.attempts[k]?.map (·.taskId)

theorem SameCore.refl (p : RunSnapshot) : SameCore p p := ⟨rfl, fun _ => rfl, fun _ => rfl⟩

variable {p q : RunSnapshot}

theorem SameCore.symm (h : SameCore p q) : SameCore q p :=
  ⟨h.sequence.symm, fun k => (h.tasks k).symm, fun k => (h.attempts k).symm⟩

theorem SameCore.trans {u : RunSnapshot} (hpq : SameCore p q) (hqu : SameCore q u) : SameCore p u :=
  ⟨hqu.sequence.trans hpq.sequence, fun k => (hqu.tasks k).trans (hpq.tasks k),
    fun k => (hqu.attempts k).trans (hpq.attempts k)⟩

variable {t : RunSnapshot} {now : UInt64}

theorem LapsedAt.sameCore {s : RunSnapshot} (h : LapsedAt now s t) :
    SameCore s t where
  sequence := by rw [h.rest]
  tasks k := by
    cases hk : s.tasks[k]? with
    | none => rw [h.missing k hk]
    | some task =>
      obtain ⟨task', hk', hbinding, hclaim, -⟩ := h.present k task hk
      rw [hk', Option.map_some, Option.map_some, hbinding, hclaim]
  attempts k := by
    rw [h.attempts k, Option.map_map]
    congr 1
    funext a
    simp only [Function.comp_apply]
    split <;> rfl

theorem startupPass_sameCore {s : RunSnapshot} (hs : s.board.Sound)
    (h : startupPass P s now = .ok t) : SameCore s (t.withEvents []) := by
  obtain ⟨u, hl, hpass⟩ := startupPass_lapsed (P := P) hs now
  rw [h] at hpass
  cases hpass
  have hcore := hl.sameCore
  split
  all_goals exact ⟨hcore.sequence, hcore.tasks, hcore.attempts⟩

def RunSnapshot.claimOf (s : RunSnapshot) (taskId : TaskId) : Option AttemptId :=
  s.tasks[taskId]?.bind (·.finalizationClaim)

theorem SameCore.claimOf (h : SameCore p q) (taskId : TaskId) :
    q.claimOf taskId = p.claimOf taskId := by
  have ht := h.tasks taskId
  unfold RunSnapshot.claimOf
  cases hp : p.tasks[taskId]? with
  | none =>
    rw [hp, Option.map_none, Option.map_eq_none_iff] at ht
    rw [ht]
  | some =>
    rw [hp, Option.map_some, Option.map_eq_some_iff] at ht
    obtain ⟨task', hq, heq⟩ := ht
    rw [hq, Option.bind_some, Option.bind_some]
    exact (Prod.mk.inj heq).2

variable (P r) in
/-- A projection as it is stored: reachable, of this run, and after at least one event. -/
structure Stored (p : RunSnapshot) : Prop extends Traced P r p where
  numbered : 0 < p.sequence

variable (P r) in
def Stage.Ok (log : List RunCommand) (command : RunCommand) : Stage → Prop
  | .decided base next event => ∃ current applied eventId,
      (∀ p, current = some p → Stored P r p) ∧ baseSnapshot command current = .ok base ∧
      checkBase base command = .ok () ∧ applyCommand P base command = .ok applied ∧
      next = nextSnapshot P eventId command base applied ∧ event = newEvent P eventId command next
  | .committed _ => command ∈ log
  | _ => True

variable (P r) in
def Activity.Ok (log : List RunCommand) : Activity κ → Prop
  | .serving _ command stage => command.runId = r ∧ stage.Ok P r log command
  | .recovering before snap => Stored P r before ∧ ∃ now, startupPass P before now = .ok snap

variable {a : Activity κ} {log : List RunCommand}

theorem Activity.Ok.mono {log' : List RunCommand} (h : a.Ok P r log) (hsub : log ⊆ log') :
    a.Ok P r log' := by
  cases a with
  | recovering => exact h
  | serving caller command stage =>
    refine ⟨h.1, ?_⟩
    cases stage with
    | committed => exact hsub h.2
    | _ => exact h.2

variable {env : TurnEnv} {ans : Option (κ × RunOutcome RunCommandResult)} {res : Turned}
  {stage : Stage} {base : RunSnapshot}

namespace Shared

variable (P r) in
/-- What holds whatever the instances do: only reachable projections are stored or worked on,
and no command id is committed twice. -/
structure Ok (s : Shared κ) : Prop where
  stored : ∀ p, s.projection = some p → Stored P r p
  hosts : ∀ (i : InstanceId) (a : Activity κ), s.hosts[i]? = some a → a.Ok P r s.log
  known : ∀ c ∈ s.log, ∃ res, s.tables.commandDedup[c.envelope.commandId]? = some res
  logged : ∀ (id : CommandId) (res : RunCommandResult), s.tables.commandDedup[id]? = some res →
    ∃ c ∈ s.log, c.envelope.commandId = id
  distinct : (s.log.map (·.envelope.commandId)).Nodup

/-- What a step of an instance does to the projection, the known commands and the log. -/
inductive Move (s : Shared κ) (host : InstanceId) (s' : Shared κ) : Prop where
  | still (hp : s'.projection = s.projection)
      (hd : s'.tables.commandDedup = s.tables.commandDedup) (hl : s'.log = s.log)
  | commit {caller : κ} {command : RunCommand} {base next : RunSnapshot}
      {event : RunEventEnvelope}
      (hat : s.hosts[host]? = some (.serving caller command (.decided base next event)))
      (hnew : s.tables.commandDedup[command.envelope.commandId]? = none)
      (hp : s'.projection = some (next.withEvents []))
      (hd : s'.tables.commandDedup =
        s.tables.commandDedup.insert command.envelope.commandId next.result)
      (hl : s'.log = s.log ++ [command])
  | pass {before snap : RunSnapshot}
      (hat : s.hosts[host]? = some (.recovering before snap))
      (hp : s'.projection = some (snap.withEvents []))
      (hd : s'.tables.commandDedup = s.tables.commandDedup) (hl : s'.log = s.log)

theorem turn_cases {s s' : Shared κ} {host : InstanceId} (h : s.turn P host env = some (s', ans)) :
    (∃ caller command stage res, s.hosts[host]? = some (.serving caller command stage) ∧
      Turn P s.tables command stage res ∧ s.settle host caller command res = (s', ans)) ∨
    ∃ before snap, s.hosts[host]? = some (.recovering before snap) ∧ ans = none ∧
      (s' = s.release host ∨ s' = { s.release host with
        tables := { s.tables with row := some (s.tables.nextRow snap) } }) := by
  simp only [turn, Option.map_eq_some_iff] at h
  obtain ⟨a, ha, h⟩ := h
  cases a with
  | serving caller command stage =>
    exact .inl ⟨caller, command, stage, _, ha, turn_turn env stage, h⟩
  | recovering before snap =>
    obtain ⟨rfl, rfl⟩ := Prod.mk.inj h
    refine .inr ⟨before, snap, ha, rfl, ?_⟩
    unfold recovered
    cases env.fault with
    | some => exact .inl rfl
    | none => exact .inr rfl

theorem Ok.start : ({} : Shared κ).Ok P r where
  stored p hp := by cases hp
  hosts i a ha := by simp at ha
  known c hc := by cases hc
  logged id res hres := by simp at hres
  distinct := List.nodup_nil

section Step

variable {s s' : Shared κ} {host : InstanceId} {caller : κ} {command : RunCommand}

section
variable (h : s.Ok P r)
include h

theorem settle_move (hat : s.hosts[host]? = some (.serving caller command stage))
    (ht : Turn P s.tables command stage res) :
    s.Move host (s.settle host caller command res).1 := by
  cases ht with
  | refused | replayed | checkedId | checkedKey | decided => exact .still rfl rfl rfl
  | compacted hp hd => exact .still hp hd rfl
  | @committed base next event t' progress hcommit hprogress =>
    obtain ⟨-, hnew, rfl⟩ := commitRunCommand_eq_ok hcommit
    obtain ⟨-, current, applied, eventId, -, -, -, -, -, rfl⟩ := h.hosts host _ hat
    have hnew := hnew _ rfl
    rcases hprogress with rfl | rfl
    all_goals exact .commit hat hnew rfl rfl rfl

theorem Ok.decided_stored {next : RunSnapshot} {event : RunEventEnvelope}
    (hat : s.hosts[host]? = some (.serving caller command (.decided base next event))) :
    Stored P r (next.withEvents []) := by
  obtain ⟨hr, current, applied, eventId, hcurrent, hbase, hguard, haccept, rfl, -⟩ :=
    h.hosts host _ hat
  have hstep : CallStep P r current
      (some { applied with sequence := base.sequence + 1, events := [] }) :=
    .commit hr hbase hguard haccept
  show Stored P r { applied with sequence := base.sequence + 1, events := [] }
  exact ⟨hstep.traced fun p hp => (hcurrent p hp).toTraced, Nat.succ_pos _⟩

theorem Ok.recovering_stored {before snap : RunSnapshot}
    (hat : s.hosts[host]? = some (.recovering before snap)) :
    SameCore before (snap.withEvents []) ∧ Stored P r (snap.withEvents []) := by
  obtain ⟨hbefore, now, hpass⟩ := h.hosts host _ hat
  have hcore := startupPass_sameCore hbefore.reachable.sound hpass
  have htraced : Traced P r (snap.withEvents []) :=
    PassStep.traced ⟨snap, hpass, rfl⟩ hbefore.toTraced
  refine ⟨hcore, htraced, ?_⟩
  rw [hcore.sequence]
  exact hbefore.numbered

theorem Ok.move (hm : s.Move host s')
    (hhosts : ∀ (i : InstanceId) (a : Activity κ), s'.hosts[i]? = some a → a.Ok P r s'.log) :
    s'.Ok P r := by
  cases hm with
  | still hp hd hl =>
    refine ⟨fun p hp' => h.stored p (hp ▸ hp'), hhosts, ?_, ?_, ?_⟩
    · rw [hl, hd]
      exact h.known
    · rw [hl, hd]
      exact h.logged
    · rw [hl]
      exact h.distinct
  | pass hat hp hd hl =>
    refine ⟨fun p hp' => ?_, hhosts, ?_, ?_, ?_⟩
    · rw [hp, Option.some.injEq] at hp'
      exact hp' ▸ (h.recovering_stored hat).2
    · rw [hl, hd]
      exact h.known
    · rw [hl, hd]
      exact h.logged
    · rw [hl]
      exact h.distinct
  | @commit caller command base next event hat hnew hp hd hl =>
    refine ⟨fun p hp' => ?_, hhosts, fun c hc => ?_, fun id res hres => ?_, ?_⟩
    · rw [hp, Option.some.injEq] at hp'
      exact hp' ▸ h.decided_stored hat
    · rw [hd, get_insert]
      split
      · exact ⟨_, rfl⟩
      · rename_i hne
        rw [hl, List.mem_append, List.mem_singleton] at hc
        rcases hc with hc | rfl
        · exact h.known c hc
        · exact absurd rfl hne
    · rw [hd] at hres
      rw [hl]
      rcases get_insert_cases hres with ⟨hid, -⟩ | ⟨-, hold⟩
      · exact ⟨command, List.mem_append_right _ (List.mem_singleton.mpr rfl), hid⟩
      · obtain ⟨c, hc, hcid⟩ := h.logged id res hold
        exact ⟨c, List.mem_append_left _ hc, hcid⟩
    · rw [hl, List.map_append, List.nodup_append]
      refine ⟨h.distinct, by simp, ?_⟩
      -- A command of the log has its row, the new one has none.
      intro id hid id' hid' heq
      obtain ⟨c, hc, rfl⟩ := List.mem_map.mp hid
      obtain ⟨res, hres⟩ := h.known c hc
      simp only [List.map_cons, List.map_nil, List.mem_singleton] at hid'
      rw [heq, hid', hnew] at hres
      cases hres

theorem Ok.insert_host (hsub : s.log ⊆ log) {b : Activity κ} (hb : b.Ok P r log)
    (i : InstanceId) (a : Activity κ) (ha : (s.hosts.insert host b)[i]? = some a) :
    a.Ok P r log := by
  rcases get_insert_cases ha with ⟨-, rfl⟩ | ⟨-, ha⟩
  · exact hb
  · exact (h.hosts i a ha).mono hsub

theorem Ok.erase_host (hsub : s.log ⊆ log) (i : InstanceId) (a : Activity κ)
    (ha : (s.hosts.erase host)[i]? = some a) : a.Ok P r log :=
  (h.hosts i a (get_of_erase ha).2).mono hsub

theorem Ok.settle_hosts (hat : s.hosts[host]? = some (.serving caller command stage))
    (ht : Turn P s.tables command stage res) (i : InstanceId) (a : Activity κ)
    (ha : (s.settle host caller command res).1.hosts[i]? = some a) :
    a.Ok P r (s.settle host caller command res).1.log := by
  have hrun : command.runId = r := (h.hosts host _ hat).1
  have hall : s.log ⊆ s.log := List.Subset.refl _
  have hmore : s.log ⊆ s.log ++ [command] := List.subset_append_left _ _
  cases ht with
  | refused | replayed | compacted => exact h.erase_host hall i a ha
  | checkedId | checkedKey =>
    refine h.insert_host hall ?_ i a ha
    exact ⟨hrun, trivial⟩
  | decided hbase hguard haccept =>
    refine h.insert_host hall ?_ i a ha
    exact ⟨hrun, s.projection, _, _, h.stored, hbase, hguard, haccept, rfl, rfl⟩
  | committed hcommit hprogress =>
    rcases hprogress with rfl | rfl
    · refine h.insert_host hmore ?_ i a ha
      exact ⟨hrun, List.mem_append_right _ (List.mem_singleton.mpr rfl)⟩
    · exact h.erase_host hmore i a ha

theorem Ok.turn (hs : s.turn P host env = some (s', ans)) : s.Move host s' ∧ s'.Ok P r := by
  rcases turn_cases hs with ⟨caller, command, stage, res, hat, ht, hsettle⟩ |
    ⟨before, snap, hat, -, rfl | rfl⟩
  · have hm := settle_move h hat ht
    have hhosts := h.settle_hosts hat ht
    rw [hsettle] at hm hhosts
    exact ⟨hm, h.move hm hhosts⟩
  · have hm : s.Move host (s.release host) := .still rfl rfl rfl
    exact ⟨hm, h.move hm (h.erase_host (List.Subset.refl _))⟩
  · have hm : s.Move host { s.release host with
        tables := { s.tables with row := some (s.tables.nextRow snap) } } :=
      .pass hat rfl rfl rfl
    exact ⟨hm, h.move hm (h.erase_host (List.Subset.refl _))⟩

theorem Ok.serve (hr : command.runId = r)
    (hs : s.serve host caller command = some s') : s.Move host s' ∧ s'.Ok P r := by
  unfold Shared.serve at hs
  split at hs
  · cases hs
  · cases hs
    have hm : s.Move host
        { s with hosts := s.hosts.insert host (.serving caller command .arrived) } :=
      .still rfl rfl rfl
    exact ⟨hm, h.move hm (h.insert_host (List.Subset.refl _) ⟨hr, trivial⟩)⟩

theorem Ok.release (host : InstanceId) :
    s.Move host (s.release host) ∧ (s.release host).Ok P r := by
  have hm : s.Move host (s.release host) := .still rfl rfl rfl
  exact ⟨hm, h.move hm (h.erase_host (List.Subset.refl _))⟩

end

theorem startingPass_cases {t : RunTables} (h : startingPass P t now = some a) :
    ∃ before snap, t.loadRunSnapshot = some before ∧
      startupPass P before now = .ok snap ∧ a = .recovering before snap := by
  simp only [startingPass, Option.bind_eq_some_iff] at h
  obtain ⟨before, hload, h⟩ := h
  cases hpass : startupPass P before now with
  | error =>
    rw [hpass] at h
    cases h
  | ok snap =>
    simp only [hpass] at h
    split at h
    · cases h
    · cases h
      exact ⟨before, snap, hload, hpass, rfl⟩

theorem restart_serving {host' : InstanceId}
    (h : (s.restart P host now).hosts[host']? = some (.serving caller command stage)) :
    host' ≠ host ∧ s.hosts[host']? = some (.serving caller command stage) := by
  unfold Shared.restart at h
  cases hstart : startingPass P s.tables now with
  | none =>
    rw [hstart] at h
    obtain ⟨hne, hold⟩ := get_of_erase h
    exact ⟨Ne.symm hne, hold⟩
  | some =>
    obtain ⟨before, snap, -, -, rfl⟩ := startingPass_cases hstart
    rw [hstart] at h
    rcases get_insert_cases h with ⟨-, heq⟩ | ⟨hne, hold⟩
    · cases heq
    · exact ⟨Ne.symm hne, hold⟩

theorem Ok.restart (h : s.Ok P r) (host : InstanceId) (now : UInt64) :
    s.Move host (s.restart P host now) ∧ (s.restart P host now).Ok P r := by
  unfold Shared.restart
  cases ha : startingPass P s.tables now with
  | none => exact h.release host
  | some =>
    obtain ⟨before, snap, hload, hpass, rfl⟩ := startingPass_cases ha
    have hm : s.Move host { s with hosts := s.hosts.insert host (.recovering before snap) } :=
      .still rfl rfl rfl
    have hb : (Activity.recovering before snap : Activity κ).Ok P r s.log :=
      ⟨h.stored before hload, now, hpass⟩
    exact ⟨hm, h.move hm (h.insert_host (List.Subset.refl _) hb)⟩

end Step

end Shared

def Activity.basis : Activity κ → Option RunSnapshot
  | .serving _ _ (.decided base _ _) => some base
  | .recovering before _ => some before
  | _ => none

namespace Shared

/-- No event was committed since the instance loaded the snapshot it is about to replace. -/
def timely (s : Shared κ) (host : InstanceId) : Bool :=
  (s.hosts[host]?.bind Activity.basis).all fun base => decide (base.sequence = s.sequence)

def head (s : Shared κ) : RunSnapshot := s.projection.getD (emptySnapshot "" none)

theorem head_sequence (s : Shared κ) : s.head.sequence = s.sequence := by
  unfold head sequence
  cases s.projection <;> rfl

theorem head_of_projection {s : Shared κ} (h : s.projection = some p) : s.head = p := by
  rw [head, h]
  rfl

/-- What an instance works on is not ahead of the projection, and where it is not behind
either, the two agree on everything but the marks of recovery passes. -/
def InStep (s : Shared κ) : Prop :=
  ∀ (i : InstanceId) (a : Activity κ) (base : RunSnapshot), s.hosts[i]? = some a →
    a.basis = some base → base.sequence ≤ s.sequence ∧
      (base.sequence = s.sequence → SameCore base s.head)

theorem InStep.start : ({} : Shared κ).InStep := by
  intro i a base ha
  simp at ha

variable (P) in
/-- What a step does to the head when no write is overtaken. -/
inductive HeadMove (s : Shared κ) (host : InstanceId) (s' : Shared κ) : Prop where
  | still (hcore : SameCore s.head s'.head)
      (hd : s'.tables.commandDedup = s.tables.commandDedup) (hl : s'.log = s.log)
  | commit {caller : κ} {command : RunCommand} {base next applied : RunSnapshot}
      {event : RunEventEnvelope}
      (hat : s.hosts[host]? = some (.serving caller command (.decided base next event)))
      (hnew : s.tables.commandDedup[command.envelope.commandId]? = none)
      (hcore : SameCore s.head base) (hguard : checkBase base command = .ok ())
      (haccept : applyCommand P base command = .ok applied)
      (hhead : s'.head = { applied with sequence := base.sequence + 1, events := [] })
      (hd : s'.tables.commandDedup =
        s.tables.commandDedup.insert command.envelope.commandId next.result)
      (hl : s'.log = s.log ++ [command])

section Timely

variable {s s' : Shared κ} {host : InstanceId} {caller : κ} {command : RunCommand}

theorem timely_basis (h : s.timely host = true) (hat : s.hosts[host]? = some a)
    (hbase : a.basis = some base) :
    base.sequence = s.sequence := by
  rw [timely, hat, Option.bind_some, hbase, Option.all_some] at h
  exact of_decide_eq_true h

theorem baseSnapshot_head (h : baseSnapshot command s.projection = .ok base) :
    base.sequence = s.sequence ∧ SameCore base s.head := by
  rcases baseSnapshot_eq_ok.mp h with ⟨c, -, hnone, rfl⟩ | ⟨hsome, -⟩
  · have hhead : s.head = emptySnapshot "" none := by
      rw [head, hnone]
      rfl
    rw [← head_sequence, hhead]
    exact ⟨rfl, rfl, fun _ => rfl, fun _ => rfl⟩
  · rw [← head_sequence, head_of_projection hsome]
    exact ⟨rfl, .refl base⟩

theorem Move.head (hm : s.Move host s') (h : s.Ok P r) (hi : s.InStep)
    (htimely : s'.tables = s.tables ∨ s.timely host = true) : s.HeadMove P host s' := by
  cases hm with
  | still hp hd hl =>
    refine .still ?_ hd hl
    rw [Shared.head, Shared.head, hp]
    exact .refl _
  | @pass before snap hat hp hd hl =>
    refine .still ?_ hd hl
    rcases htimely with htables | htimely
    · have hsame : s'.projection = s.projection := by rw [projection, htables]; rfl
      rw [Shared.head, Shared.head, hsame]
      exact .refl _
    · have hseq := timely_basis htimely hat rfl
      have hcore := (hi host _ before hat rfl).2 hseq
      rw [head_of_projection hp]
      exact hcore.symm.trans (h.recovering_stored hat).1
  | @commit caller command base next event hat hnew hp hd hl =>
    have hseq : base.sequence = s.sequence := by
      rcases htimely with htables | htimely
      · -- A commit leaves a row for its command, so the rows cannot be the same.
        rw [htables] at hd
        rw [hd, get_insert_self] at hnew
        cases hnew
      · exact timely_basis htimely hat rfl
    have hcore := (hi host _ base hat rfl).2 hseq
    obtain ⟨-, current, applied, eventId, -, -, hguard, haccept, rfl, -⟩ := h.hosts host _ hat
    refine .commit hat hnew hcore.symm hguard haccept ?_ hd hl
    rw [head_of_projection hp]
    rfl

theorem HeadMove.basis (hm : s.HeadMove P host s') (hle : base.sequence ≤ s.sequence)
    (hcore : base.sequence = s.sequence → SameCore base s.head) :
    base.sequence ≤ s'.sequence ∧ (base.sequence = s'.sequence → SameCore base s'.head) := by
  cases hm with
  | still hsame =>
    have hseq : s'.sequence = s.sequence := by
      rw [← head_sequence, ← head_sequence, hsame.sequence]
    rw [hseq]
    exact ⟨hle, fun heq => (hcore heq).trans hsame⟩
  | @commit caller command base' next applied event hat hnew hbase hguard haccept hhead =>
    have hseq : s'.sequence = s.sequence + 1 := by
      rw [← head_sequence, hhead, ← head_sequence, ← hbase.sequence]
    constructor
    · omega
    · intro heq
      omega

theorem turn_basis (hs : s.turn P host env = some (s', ans)) {i : InstanceId}
    (ha : s'.hosts[i]? = some a) (hbase : a.basis = some base) :
    s.hosts[i]? = some a ∨ ∃ caller command next event,
      a = .serving caller command (.decided base next event) ∧
        baseSnapshot command s.projection = .ok base := by
  rcases turn_cases hs with ⟨caller, command, stage, res, hat, ht, hsettle⟩ |
    ⟨before, snap, hat, -, rfl | rfl⟩
  · cases ht with
    | refused | replayed | compacted =>
      cases hsettle
      exact .inl (get_of_erase ha).2
    | checkedId | checkedKey =>
      cases hsettle
      rcases get_insert_cases ha with ⟨-, rfl⟩ | ⟨-, ha⟩
      · cases hbase
      · exact .inl ha
    | decided hload =>
      cases hsettle
      rcases get_insert_cases ha with ⟨-, rfl⟩ | ⟨-, ha⟩
      · cases hbase
        exact .inr ⟨caller, command, _, _, rfl, hload⟩
      · exact .inl ha
    | committed hcommit hprogress =>
      rcases hprogress with rfl | rfl
      · cases hsettle
        rcases get_insert_cases ha with ⟨-, rfl⟩ | ⟨-, ha⟩
        · cases hbase
        · exact .inl ha
      · cases hsettle
        exact .inl (get_of_erase ha).2
  all_goals exact .inl (get_of_erase ha).2

theorem InStep.turn (hi : s.InStep) (h : s.Ok P r) (hs : s.turn P host env = some (s', ans))
    (htimely : s'.tables = s.tables ∨ s.timely host = true) :
    s.HeadMove P host s' ∧ s'.InStep := by
  have hm := (h.turn hs).1.head h hi htimely
  refine ⟨hm, fun i a base ha hbase => ?_⟩
  rcases turn_basis hs ha hbase with hold | ⟨caller, command, next, event, -, hload⟩
  · exact hm.basis (hi i a base hold hbase).1 (hi i a base hold hbase).2
  · obtain ⟨hseq, hcore⟩ := baseSnapshot_head hload
    exact hm.basis (Nat.le_of_eq hseq) fun _ => hcore

theorem InStep.of_hosts (hi : s.InStep) (hp : s'.projection = s.projection)
    (hhosts : ∀ (i : InstanceId) (a : Activity κ) (base : RunSnapshot), s'.hosts[i]? = some a →
      a.basis = some base → s.hosts[i]? = some a ∨ s.projection = some base) : s'.InStep := by
  have hhead : s'.head = s.head := by rw [Shared.head, Shared.head, hp]
  intro i a base ha hbase
  rw [← head_sequence, hhead, head_sequence]
  rcases hhosts i a base ha hbase with hold | hload
  · exact hi i a base hold hbase
  · rw [← head_sequence, head_of_projection hload]
    exact ⟨Nat.le_refl _, fun _ => .refl base⟩

theorem InStep.serve (hi : s.InStep) (hs : s.serve host caller command = some s') : s'.InStep := by
  unfold Shared.serve at hs
  split at hs
  · cases hs
  · cases hs
    refine hi.of_hosts rfl fun i a base ha hbase => ?_
    rcases get_insert_cases ha with ⟨-, rfl⟩ | ⟨-, ha⟩
    · cases hbase
    · exact .inl ha

theorem InStep.release (hi : s.InStep) (host : InstanceId) : (s.release host).InStep :=
  hi.of_hosts rfl fun _ _ _ ha _ => .inl (get_of_erase ha).2

variable (P) in
theorem InStep.restart (hi : s.InStep) (host : InstanceId) (now : UInt64) :
    (s.restart P host now).InStep := by
  unfold Shared.restart
  cases hstart : startingPass P s.tables now with
  | none => exact hi.release host
  | some =>
    obtain ⟨before, snap, hload, -, rfl⟩ := startingPass_cases hstart
    refine hi.of_hosts rfl fun i a base ha hbase => ?_
    rcases get_insert_cases ha with ⟨-, rfl⟩ | ⟨-, ha⟩
    · cases hbase
      exact .inr hload
    · exact .inl ha

end Timely

end Shared

end Tetonic.Run
