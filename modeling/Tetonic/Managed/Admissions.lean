import Tetonic.Managed.Rooted
set_option autoImplicit false

/-! Callers that submit jobs, over whole runs: where the commands come from that admit work, and
what the callers have read. -/

namespace Tetonic.Managed
open Lib Run

variable {P : Platform} {r : RunId} {sha256 : List String → String}

/-- What a call leaves: the admission of a submission, or nothing of the kind. -/
abbrev Admitted := Option (Submission × ManagedAdmission)

variable (sha256) in
def admitting (sub : Submission) : Call Admitted := do
  let admission ← admitOwned sha256 sub
  pure (some (sub, admission))

variable (sha256) in
def Admissive (p : Call Admitted) : Prop :=
  (∃ sub, p = admitting sha256 sub) ∨
    ∃ q : Call Unit, q.Only Op.sideline ∧ p = q >>= fun _ => pure none

variable (sha256) in
def ReadReceipt (s : Admitting) (out : Except (Fault ManagedRunError) Admitted) : Prop :=
  ∀ sub receipt, out = .ok (some (sub, .existing receipt)) →
    ∃ p, s.loaded = some p ∧ ReceiptOf sha256 sub p receipt

theorem ReadReceipt.error (s : Admitting) (e : Fault ManagedRunError) :
    ReadReceipt sha256 s (.error e) := by
  intro sub receipt heq
  cases heq

theorem Admissive.wp {p : Call Admitted} (h : Admissive sha256 p) :
    p.wp admissionDiscipline (ReadReceipt sha256) {} := by
  rcases h with ⟨sub, rfl⟩ | ⟨q, honly, rfl⟩
  · refine Prog.wp_bind (admitOwned_wp sub) (fun s admission hread => ?_) fun s e _ => .error s e
    intro sub' receipt heq
    cases heq
    exact hread receipt rfl
  · refine admitting_bind honly (fun s _ sub receipt heq => ?_) .error
    cases heq

variable {s : Admitting} {command : RunCommand}

section Log

variable {log log' : List RunCommand} {uuids : List String}

def Added (log : List RunCommand) (taskId : TaskId) (attemptId : AttemptId) : Prop :=
  ∃ c, .addTask c ∈ log ∧ c.taskId = taskId ∧ c.envelope.commandId = spawnId attemptId

theorem Added.mono {taskId : TaskId} {attemptId : AttemptId} (h : Added log taskId attemptId)
    (hsub : log ⊆ log') : Added log' taskId attemptId := by
  obtain ⟨c, hc, heq⟩ := h
  exact ⟨c, hsub hc, heq⟩

variable (r) in
structure Sourced (log : List RunCommand) (uuids : List String) : Prop where
  creations : ∀ c, .createRun c ∈ log → c.envelope.commandId = "turn_create"
  additions : ∀ c, .addTask c ∈ log → c.taskId ≠ rootTaskId r
  attempts : ∀ c, .createAttempt c ∈ log →
    (c.envelope.commandId = "turn_attempt" ∧ c.taskId = rootTaskId r) ∨
      c.envelope.commandId = "child_attempt:" ++ c.attemptId ∧ Added log c.taskId c.attemptId
  issued : ∀ command ∈ log, ∀ uuid, command.envelope.commandId = spawnId ("att_" ++ uuid) →
    uuid ∈ uuids

theorem Sourced.nil : Sourced r [] [] where
  creations c hc := by cases hc
  additions c hc := by cases hc
  attempts c hc := by cases hc
  issued command hc := by cases hc

theorem Sourced.more_uuids (h : Sourced r log uuids) (uuid : String) :
    Sourced r log (uuid :: uuids) :=
  { h with issued := fun command hc u heq => List.mem_cons_of_mem _ (h.issued command hc u heq) }

variable (P r) in
/-- What a caller has behind it is in the log and in the store; the identifier it has drawn is
still unused. -/
structure CallerOk (log : List RunCommand) (uuids : List String) (s : Admitting) : Prop where
  loaded : ∀ p, s.loaded = some p → Stored P r p ∧ Rooted r log p
  drawn : ∀ uuid, s.drawn = some uuid → uuid ∈ uuids ∧
    ∀ command ∈ log, command.envelope.commandId ≠ spawnId ("att_" ++ uuid)
  added : ∀ taskId attemptId, s.added = some (taskId, attemptId) → Added log taskId attemptId

theorem CallerOk.start : CallerOk P r log uuids {} where
  loaded p hp := by cases hp
  drawn uuid hu := by cases hu
  added taskId attemptId heq := by cases heq

theorem CallerOk.more_uuids (h : CallerOk P r log uuids s) (uuid : String) :
    CallerOk P r log (uuid :: uuids) s :=
  { h with drawn := fun u hu => ⟨List.mem_cons_of_mem _ (h.drawn u hu).1, (h.drawn u hu).2⟩ }

theorem CallerOk.more_log (h : CallerOk P r log uuids s) (hnew : ∀ uuid, s.drawn = some uuid →
      command.envelope.commandId ≠ spawnId ("att_" ++ uuid)) :
    CallerOk P r (log ++ [command]) uuids s where
  loaded p hp := ⟨(h.loaded p hp).1, (h.loaded p hp).2.mono (List.subset_append_left _ _)⟩
  drawn uuid hu := by
    refine ⟨(h.drawn uuid hu).1, fun cmd hcmd => ?_⟩
    rw [List.mem_append, List.mem_singleton] at hcmd
    rcases hcmd with hold | rfl
    · exact (h.drawn uuid hu).2 cmd hold
    · exact hnew uuid hu
  added taskId attemptId heq := (h.added taskId attemptId heq).mono (List.subset_append_left _ _)

theorem allowed_not_spawn (hallowed : admittingAllowed s (.handle command))
    (hadd : ∀ c, command ≠ .addTask c) (attemptId : AttemptId) :
    command.envelope.commandId ≠ spawnId attemptId := by
  have hspawn : forSpawn (spawnId attemptId) = true := by simp [spawnId]
  have hne (id : CommandId) (hid : forSpawn id = false) : id ≠ spawnId attemptId := by
    rintro rfl
    rw [hspawn] at hid
    cases hid
  cases command with
  | createRun =>
    rw [RunCommand.envelope, hallowed.1]
    exact hne _ (by simp [List.isPrefixOf])
  | addTask c => exact absurd rfl (hadd c)
  | createAttempt =>
    rcases hallowed with ⟨hid, -⟩ | ⟨-, hid⟩
    all_goals
      rw [RunCommand.envelope, hid]
      exact hne _ (by simp [List.isPrefixOf])
  | _ => exact hne _ hallowed

theorem Sourced.more_log (h : Sourced r log uuids) (hs : CallerOk P r log uuids s)
    (hrun : command.runId = r) (hallowed : admittingAllowed s (.handle command)) :
    Sourced r (log ++ [command]) uuids := by
  have hsub : log ⊆ log ++ [command] := List.subset_append_left _ _
  refine ⟨fun c hc => ?_, fun c hc => ?_, fun c hc => ?_, fun cmd hc uuid heq => ?_⟩
  · rw [List.mem_append, List.mem_singleton] at hc
    rcases hc with hc | rfl
    · exact h.creations c hc
    · exact hallowed.1
  · rw [List.mem_append, List.mem_singleton] at hc
    rcases hc with hc | rfl
    · exact h.additions c hc
    · -- The snapshot read before lacks the task and has the root.
      obtain ⟨uuid, p, -, hloaded, habsent, -⟩ := hallowed
      obtain ⟨-, -, task, -, htask, -⟩ := hs.loaded p hloaded
      intro heq
      rw [heq, htask] at habsent
      cases habsent
  · rw [List.mem_append, List.mem_singleton] at hc
    rcases hc with hc | rfl
    · exact (h.attempts c hc).imp_right fun ⟨hid, hadded⟩ => ⟨hid, hadded.mono hsub⟩
    · rcases hallowed with ⟨hid, htask⟩ | ⟨hadded, hid⟩
      · have hr : c.runId = r := hrun
        rw [hr] at htask
        exact .inl ⟨hid, htask⟩
      · exact .inr ⟨hid, (hs.added _ _ hadded).mono hsub⟩
  · rw [List.mem_append, List.mem_singleton] at hc
    rcases hc with hc | rfl
    · exact h.issued cmd hc uuid heq
    · cases cmd with
      | addTask =>
        obtain ⟨u, p, hdrawn, -, -, hid, -⟩ := hallowed
        have hsame : u = uuid := by
          rw [RunCommand.envelope, hid] at heq
          simpa [spawnId] using heq
        exact hsame ▸ (hs.drawn u hdrawn).1
      | _ => exact absurd heq (allowed_not_spawn hallowed (fun c h => by cases h) _)

end Log

variable {id : CallerId} {uuid : String} {res : RunOutcome RunCommandResult} {a : Action Admitted}

section Callers

variable {c c' : Cluster Admitted} {g g' : CallerId → Admitting}

variable (P r sha256) in
structure Admissions (g : CallerId → Admitting) (c : Cluster Admitted) : Prop where
  sourced : Sourced r c.shared.log c.uuids
  callers : ∀ id, CallerOk P r c.shared.log c.uuids (g id)
  apart : ∀ id id' uuid, (g id).drawn = some uuid → (g id').drawn = some uuid → id = id'
  receipts : ∀ id sub receipt, (id, .ok (some (sub, .existing receipt))) ∈ c.results →
    ∃ p, Stored P r p ∧ Rooted r c.shared.log p ∧ ReceiptOf sha256 sub p receipt

theorem drawn_update (hdrawn : s.drawn = (g id).drawn ∨ s.drawn = none) {i : CallerId}
    (hu : (Function.update g id s i).drawn = some uuid) : (g i).drawn = some uuid := by
  by_cases heq : i = id
  · rw [heq, Function.update_self] at hu
    rw [heq]
    rcases hdrawn with hsame | hnone
    · rw [← hsame]
      exact hu
    · rw [hnone] at hu
      cases hu
  · rw [Function.update_of_ne heq] at hu
    exact hu

namespace Admissions

theorem start : Admissions P r sha256 (fun _ => {}) {} where
  sourced := .nil
  callers _ := .start
  apart id id' uuid hid := by cases hid
  receipts id sub receipt hmem := by cases hmem

section
variable (h : Admissions P r sha256 g c)
include h

theorem update (hs : CallerOk P r c.shared.log c.uuids s)
    (hdrawn : s.drawn = (g id).drawn ∨ s.drawn = none) :
    Admissions P r sha256 (Function.update g id s) c := by
  refine ⟨h.sourced, fun id' => ?_, fun i j uuid hi hj => ?_, h.receipts⟩
  · by_cases heq : id' = id
    · rw [heq, Function.update_self]
      exact hs
    · rw [Function.update_of_ne heq]
      exact h.callers id'
  · exact h.apart i j uuid (drawn_update hdrawn hi) (drawn_update hdrawn hj)

theorem of_same (hlog : c'.shared.log = c.shared.log)
    (huuids : c'.uuids = c.uuids) (hresults : c'.results = c.results) :
    Admissions P r sha256 g c' where
  sourced := by
    rw [hlog, huuids]
    exact h.sourced
  callers := by
    rw [hlog, huuids]
    exact h.callers
  apart := h.apart
  receipts := by
    rw [hlog, hresults]
    exact h.receipts

theorem draw (hnew : uuid ∉ c.uuids)
    (hlog : c'.shared.log = c.shared.log) (huuids : c'.uuids = uuid :: c.uuids)
    (hresults : c'.results = c.results) :
    Admissions P r sha256 (Function.update g id { g id with drawn := some uuid }) c' := by
  have hne (id' : CallerId) : (g id').drawn ≠ some uuid := fun hu =>
    hnew ((h.callers id').drawn uuid hu).1
  refine ⟨?_, fun id' => ?_, fun i j u hi hj => ?_, ?_⟩
  · rw [hlog, huuids]
    exact h.sourced.more_uuids uuid
  · rw [hlog, huuids]
    by_cases heq : id' = id
    · rw [heq, Function.update_self]
      refine { (h.callers id).more_uuids uuid with drawn := fun u hu => ?_ }
      cases hu
      refine ⟨List.mem_cons_self, fun command hc hid => ?_⟩
      exact hnew (h.sourced.issued command hc uuid hid)
    · rw [Function.update_of_ne heq]
      exact (h.callers id').more_uuids uuid
  · by_cases hi' : i = id
    · by_cases hj' : j = id
      · rw [hi', hj']
      · rw [hi', Function.update_self] at hi
        rw [Function.update_of_ne hj'] at hj
        cases hi
        exact absurd hj (hne j)
    · rw [Function.update_of_ne hi'] at hi
      by_cases hj' : j = id
      · rw [hj', Function.update_self] at hj
        cases hj
        exact absurd hi (hne i)
      · rw [Function.update_of_ne hj'] at hj
        exact h.apart i j u hi hj
  · rw [hlog, hresults]
    exact h.receipts

theorem committed_apart {id' : CallerId}
    (hallowed : admittingAllowed (g id) (.handle command)) (hne : id' ≠ id)
    (hu : (g id').drawn = some uuid) :
    command.envelope.commandId ≠ spawnId ("att_" ++ uuid) := by
  cases command with
  | addTask =>
    obtain ⟨own, p, hdrawn, -, -, hid, -⟩ := hallowed
    intro heq
    have hsame : own = uuid := by
      rw [RunCommand.envelope, hid] at heq
      simpa [spawnId] using heq
    rw [hsame] at hdrawn
    exact hne (h.apart id' id uuid hu hdrawn)
  | _ => exact allowed_not_spawn hallowed (fun c h => by cases h) _

theorem committed_caller (hallowed : admittingAllowed (g id) (.handle command))
    (result : RunCommandResult) :
    CallerOk P r (c.shared.log ++ [command]) c.uuids
        (admittingAfter (g id) (.handle command) (.ok result)) ∧
      ((admittingAfter (g id) (.handle command) (.ok result)).drawn = (g id).drawn ∨
        (admittingAfter (g id) (.handle command) (.ok result)).drawn = none) := by
  cases command with
  | addTask cmd =>
    obtain ⟨uuid, p, hdrawn, hloaded, habsent, hid, hkey⟩ := hallowed
    have hafter : admittingAfter (g id) (.handle (.addTask cmd)) (.ok result) =
        { g id with drawn := none, added := some (cmd.taskId, "att_" ++ uuid) } := by
      simp only [admittingAfter, hdrawn, Option.map_some]
    rw [hafter]
    refine ⟨⟨fun p' hp => ?_, fun u hu => ?_, fun taskId attemptId heq => ?_⟩, .inr rfl⟩
    · obtain ⟨hstored, hrooted⟩ := (h.callers id).loaded p' hp
      exact ⟨hstored, hrooted.mono (List.subset_append_left _ _)⟩
    · cases hu
    · cases heq
      exact ⟨cmd, List.mem_append_right _ (List.mem_singleton.mpr rfl), rfl, hid⟩
  | _ =>
    exact ⟨(h.callers id).more_log fun _ _ => allowed_not_spawn hallowed (fun c h => by cases h) _,
      .inl rfl⟩

theorem commit (hrun : command.runId = r)
    (hallowed : admittingAllowed (g id) (.handle command)) (result : RunCommandResult)
    (hlog : c'.shared.log = c.shared.log ++ [command]) (huuids : c'.uuids = c.uuids)
    (hresults : c'.results = c.results) :
    Admissions P r sha256
      (Function.update g id (admittingAfter (g id) (.handle command) (.ok result))) c' := by
  obtain ⟨hcaller, hdrawn⟩ := h.committed_caller hallowed result
  refine ⟨?_, fun id' => ?_, fun i j u hi hj => h.apart i j u (drawn_update hdrawn hi)
    (drawn_update hdrawn hj), fun id' sub receipt hmem => ?_⟩
  · rw [hlog, huuids]
    exact h.sourced.more_log (h.callers id) hrun hallowed
  · rw [hlog, huuids]
    by_cases heq : id' = id
    · rw [heq, Function.update_self]
      exact hcaller
    · rw [Function.update_of_ne heq]
      exact (h.callers id').more_log fun uuid hu => h.committed_apart hallowed heq hu
  · rw [hresults] at hmem
    obtain ⟨p, hstored, hrooted, hreceipt⟩ := h.receipts id' sub receipt hmem
    rw [hlog]
    exact ⟨p, hstored, hrooted.mono (List.subset_append_left _ _), hreceipt⟩

section
variable (hok : c.shared.Ok P r) (hallowed : admittingAllowed (g id) (.handle command))
  (hres : ∀ result, res = .ok result → result.idempotentReplay = true ∧
    (command.envelope.idempotencyKey = none →
      ∃ hit, c.shared.tables.commandDedup[command.envelope.commandId]? = some hit))
include hok hallowed hres

theorem replied_state :
    admittingAfter (g id) (.handle command) res = g id ∨
      admittingAfter (g id) (.handle command) res = { g id with drawn := none } := by
  cases command with
  | addTask =>
    cases res with
    | error => exact .inr rfl
    | ok result =>
      obtain ⟨uuid, p, hdrawn, -, -, hid, hkey⟩ := hallowed
      obtain ⟨hit, hhit⟩ := (hres result rfl).2 hkey
      obtain ⟨old, hold, holdId⟩ := hok.logged _ hit hhit
      exact absurd (holdId.trans hid) (((h.callers id).drawn uuid hdrawn).2 old hold)
  | _ => exact .inl rfl

theorem reply :
    Admissions P r sha256
      (Function.update g id (admittingAfter (g id) (.handle command) res)) c := by
  rcases h.replied_state hok hallowed hres with heq | heq
  · rw [heq]
    exact h.update (h.callers id) (.inl rfl)
  · rw [heq]
    refine h.update { h.callers id with drawn := fun u hu => ?_ } (.inr rfl)
    cases hu

end

theorem answer (hok : c.shared.Ok P r) (hrooted : RootedIn r c.shared) {o : Op} {env : Surroundings}
    (hanswer : c.answerable r env o = true) (hshared : c'.shared = c.shared)
    (huuids : c'.uuids = c.uuidsAfter env o) (hresults : c'.results = c.results) :
    Admissions P r sha256 (Function.update g id
      (admittingAfter (g id) o (env.answer c.shared.projection o))) c' := by
  have hlog : c'.shared.log = c.shared.log := by rw [hshared]
  have hsame (huuids : c'.uuids = c.uuids) :
      Admissions P r sha256 (Function.update g id (g id)) c' := by
    rw [Function.update_eq_self]
    exact h.of_same hlog huuids hresults
  cases o with
  | handle => cases hanswer
  | newUuid =>
    simp only [Cluster.answerable, Bool.not_eq_true', List.contains_eq_mem,
      decide_eq_false_iff_not] at hanswer
    exact h.draw hanswer hlog huuids hresults
  | load =>
    simp only [Surroundings.answer]
    cases hfault : env.storeFault with
    | some => exact hsame huuids
    | none =>
      cases hp : c.shared.projection with
      | none => exact hsame huuids
      | some p =>
        refine (h.of_same hlog huuids hresults).update
          { h.of_same hlog huuids hresults |>.callers id
          with loaded := fun p' hp' => ?_ } (.inl rfl)
        cases hp'
        rw [hlog]
        exact ⟨hok.stored p hp, hrooted.projection p hp⟩
  | _ => exact hsame huuids

theorem step (hok : c.shared.Ok P r) (hrooted : RootedIn r c.shared)
    (hm : Moved P r admissionDiscipline (ReadReceipt sha256) {} g c c' a g') :
    Admissions P r sha256 g' c' := by
  cases hm with
  | spawned hshared hsame =>
    have hsame := h.of_same (congrArg _ hshared) hsame.uuids hsame.results
    exact hsame.update .start (.inr rfl)
  | answered hallowed hanswer hshared heffects huuids hresults =>
    exact h.answer hok hrooted hanswer hshared huuids hresults
  | @finished id res hQ hshared heffects huuids hresults =>
    have hlog : c'.shared.log = c.shared.log := by rw [hshared]
    refine ⟨?_, ?_, h.apart, fun id' sub receipt hmem => ?_⟩
    · rw [hlog, huuids]
      exact h.sourced
    · rw [hlog, huuids]
      exact h.callers
    · rw [hlog]
      rw [hresults, List.mem_append, List.mem_singleton] at hmem
      rcases hmem with hmem | heq
      · exact h.receipts id' sub receipt hmem
      · cases heq
        obtain ⟨p, hloaded, hreceipt⟩ := hQ sub receipt rfl
        obtain ⟨hstored, hroot⟩ := (h.callers id).loaded p hloaded
        exact ⟨p, hstored, hroot, hreceipt⟩
  | replied hallowed hres hturn hlog hsame =>
    exact (h.reply hok hallowed hres).of_same hlog hsame.uuids hsame.results
  | committed hat hallowed hturn hlog hsame =>
    exact h.commit (hok.hosts _ _ hat).1 hallowed _ hlog hsame.uuids hsame.results
  | went hturn hlog hsame | other hprojection hdedup hlog hsame =>
    exact h.of_same hlog hsame.uuids hsame.results

end

end Admissions

theorem Cluster.Stepped.rootedIn (hs : c.Stepped P r a c') (hok : c.shared.Ok P r)
    (hrooted : RootedIn r c.shared)
    (hconduct : Conduct admissionDiscipline (ReadReceipt sha256) g c) : RootedIn r c'.shared := by
  cases hs with
  | spawn | answer | finish | dropRunning => exact hrooted
  | call hat hrun hserve => exact hrooted.serve hserve
  | turn hturn =>
    refine hrooted.turn hok hturn fun caller cmd base next event hat => ?_
    obtain ⟨k, -, hawait⟩ := hconduct.serving _ caller _ _ hat
    obtain ⟨hallowed, -⟩ := hawait.owes rfl
    have hr : cmd.runId = r := (hok.hosts _ _ hat).1
    rw [← hr]
    exact hallowed.2
  | dropWaiting => exact hrooted.release _
  | restart host now => exact hrooted.restart P host now

variable (P r sha256) in
structure Admits (g : CallerId → Admitting) (c : Cluster Admitted) : Prop where
  ok : c.shared.Ok P r
  rooted : RootedIn r c.shared
  conduct : Conduct admissionDiscipline (ReadReceipt sha256) g c
  admissions : Admissions P r sha256 g c

theorem Admits.start : Admits P r sha256 (fun _ => {}) {} := ⟨.start, .start, .empty _, .start⟩

theorem Admits.step (h : Admits P r sha256 g c) (hs : c.step P r a = some c')
    (hspawn : a.Spawns (Admissive sha256)) :
    ∃ g', Moved P r admissionDiscipline (ReadReceipt sha256) {} g c c' a g' ∧
      Admits P r sha256 g' c' := by
  have hstepped := Cluster.stepped hs
  have hwp : a.Spawns fun p => p.wp admissionDiscipline (ReadReceipt sha256) {} := by
    cases a with
    | spawn => exact Admissive.wp hspawn
    | _ => trivial
  obtain ⟨g', hmoved, hconduct⟩ := h.conduct.step hstepped hwp
  exact ⟨g', hmoved, (hstepped.shared_ok h.ok).2, hstepped.rootedIn h.ok h.rooted h.conduct,
    hconduct, h.admissions.step h.ok h.rooted hmoved⟩

theorem Admits.of_reaches (h : Relation.ReflTransGen (Step P r (Admissive sha256)) {} c) :
    ∃ g, Admits P r sha256 g c := by
  induction h with
  | refl => exact ⟨_, .start⟩
  | tail _ hs ih =>
    obtain ⟨g, hinv⟩ := ih
    obtain ⟨a, hstep, hspawn⟩ := hs
    obtain ⟨g', -, hinv'⟩ := hinv.step hstep hspawn
    exact ⟨g', hinv'⟩

end Callers

end Tetonic.Managed
