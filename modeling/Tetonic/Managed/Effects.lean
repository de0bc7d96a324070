import Tetonic.Managed.Conduct
import Tetonic.Managed.Finalization
set_option autoImplicit false

/-! The effect on the workspace: as long as no write is overtaken, a task has one ticket at most,
ever. -/

namespace Tetonic.Run
open Lib

theorem applyCommand_claimOf {P : Platform} {s t : RunSnapshot} {command : RunCommand}
    (h : applyCommand P s command = .ok t) {taskId : TaskId} {a : AttemptId}
    (ha : s.claimOf taskId = some a) : t.claimOf taskId = some a := by
  obtain ⟨task, htask, hclaim⟩ := Option.bind_eq_some_iff.mp ha
  obtain ⟨task', htask', hkeep⟩ := (applyCommand_step h).tasks_keep.present taskId task htask
  exact Option.bind_eq_some_iff.mpr ⟨task', htask', hkeep.claim a hclaim⟩

theorem applyClaimFinalization_claimOf {P : Platform} {s t : RunSnapshot} {c : ClaimFinalization}
    (h : applyCommand P s (.claimFinalization c) = .ok t) :
    (∀ a, s.claimOf c.taskId = some a → a = c.attemptId) ∧
      t.claimOf c.taskId = some c.attemptId := by
  simp only [applyCommand, applyClaimFinalization, bind_eq_ok, ensureNotRecovery_eq_ok,
    findTask_eq_ok, pure_eq_ok, exists_const] at h
  obtain ⟨-, u, htry, task, htask, rfl⟩ := h
  constructor
  · intro a ha
    rw [RunSnapshot.claimOf, htask, Option.bind_some] at ha
    obtain hown | ⟨hnone, -⟩ := tryClaimFinalization_guard htry htask
    · rw [hown] at ha
      exact (Option.some.inj ha).symm
    · rw [hnone] at ha
      cases ha
  · rw [RunSnapshot.claimOf, OrdMap.get_insert_self]
    rfl

end Tetonic.Run

namespace Tetonic.Managed
open Lib Run

variable {P : Platform} {r : RunId}

def Op.offWorkspace : Op → Prop
  | .commitWorkspace _ _ => False
  | _ => True

theorem offWorkspace_obeys {α : Type} {p : Call α} (h : p.Only Op.offWorkspace) (s : Ticket) :
    p.Obeys effectDiscipline s := by
  refine h.obeys_of_allowed fun s o ho => ?_
  cases o with
  | commitWorkspace => exact ho.elim
  | _ => trivial

section Tickets

variable {ρ : Type} {c c' : Cluster ρ} {g g' : CallerId → Ticket}

/-- The claim of a task is made, by a command that cannot be committed again. -/
def Claimed (c : Cluster ρ) (taskId : TaskId) (attemptId : AttemptId) : Prop :=
  c.shared.head.claimOf taskId = some attemptId ∧
    ∃ res, c.shared.tables.commandDedup[claimId attemptId]? = some res

/-- Whoever holds a ticket has the claim of the task, alone, and the driver has not run for it;
it has run once for the tasks it has run for, and for the attempt with the claim. -/
structure Tickets (g : CallerId → Ticket) (c : Cluster ρ) : Prop where
  held : ∀ id taskId attemptId, g id = some (taskId, attemptId) →
    Claimed c taskId attemptId ∧ taskId ∉ c.effects.map (·.1)
  alone : ∀ id id' taskId attemptId attemptId', g id = some (taskId, attemptId) →
    g id' = some (taskId, attemptId') → id = id'
  spent : ∀ taskId attemptId, (taskId, attemptId) ∈ c.effects → Claimed c taskId attemptId
  once : (c.effects.map (·.1)).Nodup

theorem Claimed.of_shared {taskId : TaskId} {attemptId : AttemptId}
    (hshared : c'.shared = c.shared) (h : Claimed c taskId attemptId) :
    Claimed c' taskId attemptId := by
  rw [Claimed, hshared]
  exact h

theorem Tickets.keep (h : Tickets g c)
    (hclaimed : ∀ taskId attemptId, Claimed c taskId attemptId → Claimed c' taskId attemptId)
    (heffects : c'.effects = c.effects) (hg : ∀ id, g' id = g id ∨ g' id = none) :
    Tickets g' c' := by
  have hold : ∀ id taskId attemptId, g' id = some (taskId, attemptId) →
      g id = some (taskId, attemptId) := by
    intro id taskId attemptId hid
    rcases hg id with heq | hnone
    · rw [← heq]
      exact hid
    · rw [hnone] at hid
      cases hid
  refine ⟨fun id taskId attemptId hid => ?_, fun id id' taskId a a' hid hid' => ?_,
    fun taskId attemptId hmem => ?_, ?_⟩
  · obtain ⟨hclaim, hnew⟩ := h.held id taskId attemptId (hold id _ _ hid)
    rw [heffects]
    exact ⟨hclaimed _ _ hclaim, hnew⟩
  · exact h.alone id id' taskId a a' (hold id _ _ hid) (hold id' _ _ hid')
  · rw [heffects] at hmem
    exact hclaimed _ _ (h.spent taskId attemptId hmem)
  · rw [heffects]
    exact h.once

section
variable (h : Tickets g c) {id : CallerId} {taskId : TaskId} {attemptId : AttemptId}
include h

theorem Tickets.grant (hclaim : Claimed c taskId attemptId) (hnew : taskId ∉ c.effects.map (·.1))
    (hfree : ∀ id' attemptId', g id' ≠ some (taskId, attemptId')) :
    Tickets (Function.update g id (some (taskId, attemptId))) c := by
  refine ⟨fun id' task a hid => ?_, fun id₁ id₂ task a a' h₁ h₂ => ?_, h.spent, h.once⟩
  · by_cases heq : id' = id
    · rw [heq, Function.update_self] at hid
      cases hid
      exact ⟨hclaim, hnew⟩
    · rw [Function.update_of_ne heq] at hid
      exact h.held id' task a hid
  · by_cases heq₁ : id₁ = id
    · by_cases heq₂ : id₂ = id
      · rw [heq₁, heq₂]
      · rw [heq₁, Function.update_self] at h₁
        cases h₁
        rw [Function.update_of_ne heq₂] at h₂
        exact absurd h₂ (hfree id₂ a')
    · rw [Function.update_of_ne heq₁] at h₁
      by_cases heq₂ : id₂ = id
      · rw [heq₂, Function.update_self] at h₂
        cases h₂
        exact absurd h₁ (hfree id₁ a)
      · rw [Function.update_of_ne heq₂] at h₂
        exact h.alone id₁ id₂ task a a' h₁ h₂

theorem Tickets.spend (hid : g id = some (taskId, attemptId)) (hshared : c'.shared = c.shared)
    (heffects : c'.effects = c.effects ++ [(taskId, attemptId)]) :
    Tickets (Function.update g id none) c' := by
  obtain ⟨hclaim, hnew⟩ := h.held id taskId attemptId hid
  have hold : ∀ id' task a, Function.update g id none id' = some (task, a) →
      id' ≠ id ∧ g id' = some (task, a) := by
    intro id' task a hid'
    by_cases heq : id' = id
    · rw [heq, Function.update_self] at hid'
      cases hid'
    · rw [Function.update_of_ne heq] at hid'
      exact ⟨heq, hid'⟩
  refine ⟨fun id' task a hid' => ?_, fun id₁ id₂ task a a' h₁ h₂ => ?_, fun task a hmem => ?_, ?_⟩
  · obtain ⟨hne, hid'⟩ := hold id' task a hid'
    obtain ⟨hclaim', hnew'⟩ := h.held id' task a hid'
    refine ⟨hclaim'.of_shared hshared, ?_⟩
    have htask : task ≠ taskId := by
      rintro rfl
      exact hne (h.alone id' id task a attemptId hid' hid)
    simpa [heffects, htask] using hnew'
  · exact h.alone id₁ id₂ task a a' (hold id₁ task a h₁).2 (hold id₂ task a' h₂).2
  · rw [heffects, List.mem_append, List.mem_singleton] at hmem
    rcases hmem with hmem | heq
    · exact (h.spent task a hmem).of_shared hshared
    · cases heq
      exact hclaim.of_shared hshared
  · rw [heffects, List.map_append, List.nodup_append]
    refine ⟨h.once, by simp, ?_⟩
    intro task hmem task' hmem' heq
    simp only [List.map_cons, List.map_nil, List.mem_singleton] at hmem'
    rw [heq, hmem'] at hmem
    exact hnew hmem

end

theorem Claimed.headMove {host : InstanceId} (hm : c.shared.HeadMove P host c'.shared)
    {taskId : TaskId} {attemptId : AttemptId} (h : Claimed c taskId attemptId) :
    Claimed c' taskId attemptId := by
  obtain ⟨hclaim, res, hres⟩ := h
  cases hm with
  | still hcore hd =>
    refine ⟨(hcore.claimOf taskId).trans hclaim, res, ?_⟩
    rw [hd]
    exact hres
  | commit hat hnew hcore hguard haccept hhead hd =>
    constructor
    · have hbase := (hcore.claimOf taskId).trans hclaim
      rw [hhead]
      exact applyCommand_claimOf haccept hbase
    · rw [hd, OrdMap.get_insert]
      split
      · exact ⟨_, rfl⟩
      · exact ⟨res, hres⟩

theorem ticketAfter_update (id : CallerId) {t : Ticket} (ht : t = g id ∨ t = none)
    (id' : CallerId) : Function.update g id t id' = g id' ∨ Function.update g id t id' = none := by
  by_cases heq : id' = id
  · rw [heq, Function.update_self]
    exact ht
  · rw [Function.update_of_ne heq]
    exact .inl rfl

theorem Tickets.commit (h : Tickets g c) {host : InstanceId}
    (hm : c.shared.HeadMove P host c'.shared) {id : CallerId} {command : RunCommand}
    {base next : RunSnapshot} {event : RunEventEnvelope}
    (hat : c.shared.hosts[host]? = some (.serving id command (.decided base next event)))
    (hlog : c'.shared.log = c.shared.log ++ [command]) (heffects : c'.effects = c.effects) :
    Tickets (Function.update g id (ticketAfter (g id) (.handle command) (.ok next.result))) c' := by
  have hkeep : Tickets g c' := h.keep (fun _ _ => .headMove hm) heffects fun _ => .inl rfl
  have hsame : ticketAfter (g id) (.handle command) (.ok next.result) = g id →
      Tickets
        (Function.update g id (ticketAfter (g id) (.handle command) (.ok next.result))) c' := by
    intro heq
    rw [heq, Function.update_eq_self]
    exact hkeep
  cases command with
  | claimFinalization cmd =>
    by_cases hown : cmd.envelope.commandId = claimId cmd.attemptId ∧
        next.result.idempotentReplay = false
    · have hticket : ticketAfter (g id) (.handle (.claimFinalization cmd)) (.ok next.result) =
          some (cmd.taskId, cmd.attemptId) := if_pos hown
      rw [hticket]
      cases hm with
      | still hcore hd hl =>
        rw [hl] at hlog
        simp at hlog
      | commit hat' hnew hcore hguard haccept hhead hd =>
        rw [hat] at hat'
        cases hat'
        obtain ⟨hfree, hclaim⟩ := applyClaimFinalization_claimOf haccept
        have hnone : c.shared.tables.commandDedup[claimId cmd.attemptId]? = none := by
          rw [← hown.1]
          exact hnew
        -- A claim of the task made before is this attempt's, but its command is new.
        have hunclaimed : ∀ a, ¬ Claimed c cmd.taskId a := by
          rintro a ⟨ha, res, hres⟩
          have heq := hfree a ((hcore.claimOf cmd.taskId).trans ha)
          rw [heq, hnone] at hres
          cases hres
        refine hkeep.grant ⟨?_, next.result, ?_⟩ ?_ ?_
        · rw [hhead]
          exact hclaim
        · rw [hd, ← hown.1]
          exact OrdMap.get_insert_self _ _ _
        · intro hmem
          rw [heffects] at hmem
          obtain ⟨⟨task, a⟩, hmem, rfl⟩ := List.mem_map.mp hmem
          exact hunclaimed a (h.spent _ a hmem)
        · intro id' a hid'
          exact hunclaimed a (h.held id' _ a hid').1
    · exact hsame (if_neg hown)
  | _ => exact hsame rfl

theorem Tickets.answer (h : Tickets g c) {id : CallerId} {o : Op} {env : Surroundings}
    (hallowed : effectDiscipline.allowed (g id) o) (hanswer : c.answerable r env o = true)
    (hshared : c'.shared = c.shared) (heffects : c'.effects = c.effectsAfter o) (ans : o.Ans) :
    Tickets (Function.update g id (ticketAfter (g id) o ans)) c' := by
  cases o with
  | commitWorkspace => exact h.spend hallowed hshared heffects
  | handle => cases hanswer
  | _ => exact h.keep (fun _ _ => .of_shared hshared) heffects (ticketAfter_update id (.inl rfl))

theorem ticketAfter_replied (s : Ticket) {command : RunCommand} {res : RunOutcome RunCommandResult}
    (hres : ∀ result, res = .ok result → result.idempotentReplay = true) :
    ticketAfter s (.handle command) res = s := by
  cases command with
  | claimFinalization =>
    cases res with
    | error => rfl
    | ok result =>
      refine if_neg fun hown => ?_
      rw [hres result rfl] at hown
      cases hown.2
  | _ => rfl

theorem Tickets.step {Q : Ticket → Except (Fault ManagedRunError) ρ → Prop} {a : Action ρ}
    (h : Tickets g c) (hok : c.shared.Ok P r) (hi : c.shared.InStep) (ht : a.Timely c c')
    (hm : Moved P r effectDiscipline Q none g c c' a g') : Tickets g' c' := by
  cases hm with
  | spawned hshared hsame =>
    exact h.keep (fun _ _ => .of_shared hshared) hsame.effects (ticketAfter_update _ (.inr rfl))
  | answered hallowed hanswer hshared heffects =>
    exact h.answer hallowed hanswer hshared heffects _
  | finished hQ hshared heffects =>
    exact h.keep (fun _ _ => .of_shared hshared) heffects fun _ => .inl rfl
  | replied hallowed hres hturn hlog hsame =>
    have hmove := (hi.turn hok hturn ht).1
    refine h.keep (fun _ _ => .headMove hmove) hsame.effects (ticketAfter_update _ (.inl ?_))
    exact ticketAfter_replied _ fun result heq => (hres result heq).1
  | committed hat hallowed hturn hlog hsame =>
    exact h.commit (hi.turn hok hturn ht).1 hat hlog hsame.effects
  | went hturn hlog hsame =>
    exact h.keep (fun _ _ => .headMove (hi.turn hok hturn ht).1) hsame.effects fun _ => .inl rfl
  | other hprojection hdedup hlog hsame =>
    refine h.keep (fun task b hclaim => ?_) hsame.effects fun _ => .inl rfl
    rw [Claimed, Shared.head, hprojection, hdedup]
    exact hclaim

end Tickets

def Finalizing (p : Call CandidateOutcome) : Prop :=
  (∃ job, p = finalize job) ∨ p.Only Op.offWorkspace

theorem Finalizing.obeys {p : Call CandidateOutcome} (h : Finalizing p) :
    p.Obeys effectDiscipline none := by
  rcases h with ⟨job, rfl⟩ | honly
  · exact (finalize_obeys job none).mono fun _ _ h => h.2
  · exact offWorkspace_obeys honly none

variable (P r) in
/-- What holds of a cluster of finalizing callers as long as no write is overtaken. -/
structure OnTicket (c : Cluster CandidateOutcome) : Prop where
  ok : c.shared.Ok P r
  inStep : c.shared.InStep
  tickets : ∃ g, Conduct effectDiscipline (fun _ _ => True) g c ∧ Tickets g c

theorem OnTicket.start : OnTicket P r {} where
  ok := .start
  inStep := .start
  tickets := by
    refine ⟨fun _ => none, .empty _, ?_⟩
    constructor
    · intro id taskId attemptId hid
      cases hid
    · intro id id' taskId attemptId attemptId' hid
      cases hid
    · intro taskId attemptId hmem
      cases hmem
    · exact List.nodup_nil

theorem OnTicket.step {c c' : Cluster CandidateOutcome} (h : OnTicket P r c)
    (hs : TimelyStep P r Finalizing c c') : OnTicket P r c' := by
  obtain ⟨a, hstep, hspawn, htimely⟩ := hs
  obtain ⟨g, hconduct, htickets⟩ := h.tickets
  have hstepped := Cluster.stepped hstep
  have hobeys : a.Spawns fun p => p.wp effectDiscipline (fun _ _ => True) none := by
    cases a with
    | spawn => exact Finalizing.obeys hspawn
    | _ => trivial
  obtain ⟨g', hmoved, hconduct'⟩ := hconduct.step hstepped hobeys
  exact ⟨(hstepped.shared_ok h.ok).2, hstepped.inStep h.ok h.inStep htimely, g', hconduct',
    htickets.step h.ok h.inStep htimely hmoved⟩

/-- As long as no write is overtaken, the driver runs at most once for a task, and for the
attempt that holds the finalization claim. -/
theorem workspace_effect_once {c : Cluster CandidateOutcome}
    (h : Relation.ReflTransGen (TimelyStep P r Finalizing) {} c) :
    (c.effects.map (·.1)).Nodup ∧ ∀ taskId attemptId, (taskId, attemptId) ∈ c.effects →
      ∃ p, c.shared.projection = some p ∧ p.claimOf taskId = some attemptId := by
  have hinv : OnTicket P r c := by
    induction h with
    | refl => exact .start
    | tail _ hs ih => exact ih.step hs
  obtain ⟨g, -, htickets⟩ := hinv.tickets
  refine ⟨htickets.once, fun taskId attemptId hmem => ?_⟩
  have hclaim := (htickets.spent taskId attemptId hmem).1
  unfold Shared.head at hclaim
  cases hp : c.shared.projection with
  | none =>
    rw [hp] at hclaim
    cases hclaim
  | some p =>
    rw [hp] at hclaim
    exact ⟨p, rfl, hclaim⟩

namespace Demo

def createRun : RunCommand := .createRun {
  envelope := Run.Demo.envelope "create" 1
  sessionId := none
  runId := "run"
  rootTaskId := "task"
  rootBinding := .default
  speculation := some ⟨true, 3⟩
  jobSpec := none }

def active (id : AttemptId) (epoch beats : UInt64) : ActiveAttempt where
  binding := ⟨none, none, "run", "task", id, ⟨"", "", "input:7", [], [], ""⟩⟩
  authorization := none
  parentAttempt := none
  heartbeatSequence := beats
  leaseProof := Run.Demo.proof epoch

def env (a : ActiveAttempt) (yes : Bool) : Surroundings := { registered := some a, now := 10, yes }

def send (command : RunCommand) : Call CandidateOutcome := do
  let _ ← submit command
  pure (.completed "")

def heartbeat (n : Nat) (id : AttemptId) (epoch : UInt64) : RunCommand := .recordHeartbeat {
  envelope := Run.Demo.envelope (String.singleton (Char.ofNat (n + 200))) 10
  runId := "run"
  attemptId := id
  leaseProof := Run.Demo.proof epoch
  heartbeatSequence := UInt64.ofNat n
  report := ⟨true⟩
  renewedExpiresAt := some 310 }

def served (id : CallerId) (host : InstanceId) (turns : Nat) : List (Action CandidateOutcome) :=
  .call id :: List.replicate turns (.turn host {})

def sent (id : CallerId) (host : InstanceId) (command : RunCommand) (turns : Nat) :
    List (Action CandidateOutcome) :=
  .spawn host (send command) :: served id host turns

def answers (id : CallerId) (a : ActiveAttempt) (yes : List Bool) :
    List (Action CandidateOutcome) :=
  yes.map fun b => .answer id (env a b)

/-- A finalization up to its claim, with the heartbeat before. -/
def claiming (id : CallerId) (host : InstanceId) (attempt : AttemptId) (epoch beats : UInt64)
    (turns : Nat) : List (Action CandidateOutcome) :=
  let a := active attempt epoch beats
  .spawn host (finalize ⟨attempt, .completed "", some ⟨true, none⟩, false⟩) ::
    (answers id a ([false, false, false, true] ++ List.replicate 9 false) ++ served id host 4 ++
      answers id a [false] ++ served id host turns)

/-- A finalization up to the driver, with its second heartbeat. -/
def finalizing (id : CallerId) (host : InstanceId) (attempt : AttemptId) (epoch beats : UInt64) :
    List (Action CandidateOutcome) :=
  let b := active attempt epoch (beats + 1)
  claiming id host attempt epoch beats 4 ++ answers id b (List.replicate 5 false) ++
    served id host 4 ++ answers id b ([false, false, true] ++ List.replicate 6 false)

def opening : List (Action CandidateOutcome) :=
  sent 0 0 createRun 4 ++ sent 1 0 Run.Demo.startRun 4 ++ sent 2 0 (Run.Demo.createAttempt "a") 4 ++
    sent 3 0 (Run.Demo.leaseAttempt "a" 1 1000) 4 ++ sent 4 0 (Run.Demo.createAttempt "b") 4 ++
    sent 5 0 (Run.Demo.leaseAttempt "b" 2 1000) 4

/-- Instance 1 has decided a heartbeat of `b` on event 6 and sleeps, instance 0 finalizes `a`
and goes on to event 111, where it compacts; then instance 1 wakes up and finalizes `b`. -/
def overtaken : List (Action CandidateOutcome) :=
  opening ++ sent 6 1 (heartbeat 1 "b" 2) 3 ++ finalizing 7 0 "a" 1 0 ++
    (List.range 101).flatMap (fun n => sent (8 + n) 0 (heartbeat (n + 3) "a" 1) 4) ++
    sent 109 0 (heartbeat 104 "a" 1) 3 ++
    [.turn 0 { compact := true }, .turn 0 {}, .turn 1 {}] ++ finalizing 110 1 "b" 2 1

theorem answers_spawns (id : CallerId) (a : ActiveAttempt) (yes : List Bool) :
    ∀ x ∈ answers id a yes, x.Spawns Finalizing := by
  intro x hx
  obtain ⟨v, -, rfl⟩ := List.mem_map.mp hx
  trivial

theorem served_spawns (id : CallerId) (host : InstanceId) (turns : Nat) :
    ∀ x ∈ served id host turns, x.Spawns Finalizing := by
  intro x hx
  simp only [served, List.mem_cons, List.mem_replicate] at hx
  rcases hx with rfl | ⟨-, rfl⟩ <;> trivial

theorem sent_spawns (id : CallerId) (host : InstanceId) (command : RunCommand) (turns : Nat) :
    ∀ a ∈ sent id host command turns, a.Spawns Finalizing :=
  List.forall_mem_cons.mpr ⟨.inr (Prog.Only.bind (submit_only trivial) fun _ => trivial),
    served_spawns id host turns⟩

theorem claiming_spawns (id : CallerId) (host : InstanceId) (attempt : AttemptId)
    (epoch beats : UInt64) (turns : Nat) :
    ∀ a ∈ claiming id host attempt epoch beats turns, a.Spawns Finalizing := by
  simp only [claiming, List.forall_mem_cons, List.forall_mem_append]
  exact ⟨.inl ⟨_, rfl⟩, ⟨⟨answers_spawns _ _ _, served_spawns _ _ _⟩, answers_spawns _ _ _⟩,
    served_spawns _ _ _⟩

theorem finalizing_spawns (id : CallerId) (host : InstanceId) (attempt : AttemptId)
    (epoch beats : UInt64) :
    ∀ a ∈ finalizing id host attempt epoch beats, a.Spawns Finalizing := by
  simp only [finalizing, List.forall_mem_append]
  exact ⟨⟨⟨claiming_spawns _ _ _ _ _ _, answers_spawns _ _ _⟩, served_spawns _ _ _⟩,
    answers_spawns _ _ _⟩

theorem opening_spawns : ∀ a ∈ opening, a.Spawns Finalizing := by
  simp only [opening, List.forall_mem_append]
  refine ⟨⟨⟨⟨⟨?_, ?_⟩, ?_⟩, ?_⟩, ?_⟩, ?_⟩ <;> exact sent_spawns _ _ _ _

theorem overtaken_spawns : ∀ a ∈ overtaken, a.Spawns Finalizing := by
  simp only [overtaken, List.forall_mem_append]
  refine ⟨⟨⟨⟨⟨⟨opening_spawns, sent_spawns _ _ _ _⟩, finalizing_spawns _ _ _ _ _⟩, ?_⟩,
    sent_spawns _ _ _ _⟩, ?_⟩, finalizing_spawns _ _ _ _ _⟩
  · intro a ha
    obtain ⟨n, -, ha⟩ := List.mem_flatMap.mp ha
    exact sent_spawns _ _ _ _ a ha
  · simp [Action.Spawns]

end Demo

/-- A finalization of `a`, and one of `b` on another instance, which loses the claim. -/
theorem workspace_effect_once_contended : ∃ c : Cluster CandidateOutcome,
    Relation.ReflTransGen (TimelyStep Run.Demo.platform "run" Finalizing) {} c ∧
      c.effects = [("task", "a")] ∧ (c.effects.map (·.1)).Nodup ∧
      ∃ p, c.shared.projection = some p ∧ p.claimOf "task" = some "a" := by
  have hrun : (runTimely Run.Demo.platform "run" {} (Demo.opening ++ Demo.finalizing 6 0 "a" 1 0 ++
      Demo.claiming 7 1 "b" 2 0 3)).map (·.effects) = some [("task", "a")] := by
    decide +kernel
  obtain ⟨c, hc, heffects⟩ := Option.map_eq_some_iff.mp hrun
  have hspawns := List.forall_mem_append.mpr ⟨List.forall_mem_append.mpr
    ⟨Demo.opening_spawns, Demo.finalizing_spawns 6 0 "a" 1 0⟩, Demo.claiming_spawns 7 1 "b" 2 0 3⟩
  have hreach := runTimely_reaches hspawns hc
  have h := workspace_effect_once hreach
  refine ⟨c, hreach, heffects, h.1, h.2 "task" "a" ?_⟩
  rw [heffects]
  exact List.mem_singleton.mpr rfl

/-- A commit that was decided on event 6 lands on event 111: event 7 is compacted away, so its
number is free again, and the claim of `a` is lost with the projection. -/
theorem workspace_effect_repeats : ∃ c : Cluster CandidateOutcome,
    Relation.ReflTransGen (Step Run.Demo.platform "run" Finalizing) {} c ∧
      c.effects = [("task", "a"), ("task", "b")] := by
  have hrun : (runActions Run.Demo.platform "run" {} Demo.overtaken).map (·.effects) =
      some [("task", "a"), ("task", "b")] := by
    decide +kernel
  obtain ⟨c, hc, heffects⟩ := Option.map_eq_some_iff.mp hrun
  exact ⟨c, runActions_reaches Demo.overtaken_spawns hc, heffects⟩

/-- However the instances take turns, die and start again: the projection that is stored is a
snapshot that commands lead to, and no command id is committed twice. Commits may be lost. -/
theorem cluster_stored_reachable {ρ : Type} {ok : Call ρ → Prop} {c : Cluster ρ}
    (h : Relation.ReflTransGen (Step P r ok) {} c) :
    (∀ p, c.shared.projection = some p → Reachable P p) ∧
      (c.shared.log.map (·.envelope.commandId)).Nodup := by
  have hok : c.shared.Ok P r := by
    induction h with
    | refl => exact .start
    | tail _ hs ih =>
      obtain ⟨a, hstep, -⟩ := hs
      exact ((Cluster.stepped hstep).shared_ok ih).2
  exact ⟨fun p hp => (hok.stored p hp).reachable, hok.distinct⟩

/-- The run in which a commit is lost to another. -/
theorem cluster_stored_reachable_overtaken : ∃ (c : Cluster CandidateOutcome) (p : RunSnapshot),
    c.shared.projection = some p ∧ p.sequence < c.shared.log.length ∧
      Reachable Run.Demo.platform p ∧ (c.shared.log.map (·.envelope.commandId)).Nodup := by
  have hrun : (runActions Run.Demo.platform "run" {} Demo.overtaken).any (fun c =>
      c.shared.projection.any fun p => decide (p.sequence < c.shared.log.length)) = true := by
    decide +kernel
  obtain ⟨c, hc, hlost⟩ := (Option.any_eq_true _ _).mp hrun
  obtain ⟨p, hp, hlost⟩ := (Option.any_eq_true _ _).mp hlost
  obtain ⟨hreach, hdistinct⟩ :=
    cluster_stored_reachable (runActions_reaches Demo.overtaken_spawns hc)
  exact ⟨c, p, hp, of_decide_eq_true hlost, hreach p hp, hdistinct⟩

end Tetonic.Managed
