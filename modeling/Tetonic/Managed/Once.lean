import Tetonic.Managed.Admissions
set_option autoImplicit false

/-! Activations are admitted once. The root attempt of a run has a command id of its own, so no
second one is ever committed. The attempt of a child task is behind the command that added the
task, and there it takes a projection that is not overtaken to refuse the second. -/

namespace Tetonic.Managed
open Lib Run
open Function (update update_of_ne update_self)

variable {P : Platform} {r : RunId} {sha256 : List String → String}

variable {role : Option String} {activation : ActivationBinding}
  {authorization : AuthorizedExecution} {job : AgentJobSpec}

section Receipts

variable {p q : RunSnapshot} {sub sub' : Submission} {receipt receipt' : ActivationReceipt}

theorem boundTo_undated {b b' : TaskInputBinding} (h : b'.undated = b.undated)
    (authorization : AuthorizedExecution) (stored activation : ActivationBinding)
    (job : AgentJobSpec) (role : Option String) :
    boundTo b' authorization stored activation job role =
      boundTo b authorization stored activation job role := by
  have hfields : ∀ {α : Type} (f : TaskInputBinding → α) (_ : ∀ x, f x.undated = f x),
      f b' = f b := by
    intro α f hf
    rw [← hf b', h, hf b]
  unfold boundTo
  rw [hfields (·.executionScope) fun _ => rfl, hfields (·.executionGrantId) fun _ => rfl,
    hfields (·.jobSpec) fun _ => rfl, hfields (·.jobRole) fun _ => rfl]

theorem receiptFromSnapshot_eq_ok :
    receiptFromSnapshot sha256 p authorization activation job role = .ok receipt ↔
      ∃ task stored, activationRunId sha256 authorization.scope activation.requestId = .ok p.runId ∧
        p.tasks[rootTaskId p.runId]? = some task ∧ task.binding.activation = some stored ∧
        boundTo task.binding authorization stored activation job role = true ∧
        receipt = ⟨p.runId, rootTaskId p.runId, stored.auditSessionId⟩ := by
  unfold receiptFromSnapshot
  constructor
  · intro h
    obtain ⟨runId, hid, h⟩ := bind_eq_ok.mp h
    split at h
    · cases h
    · rename_i task htask
      split at h
      · cases h
      · rename_i stored hstored
        split at h
        · cases h
        · rename_i hmatch
          rw [not_or, not_not, Bool.not_eq_false] at hmatch
          obtain ⟨rfl, hbound⟩ := hmatch
          cases h
          exact ⟨task, stored, hid, htask, hstored, hbound, rfl⟩
  · rintro ⟨task, stored, hid, htask, hstored, hbound, rfl⟩
    refine bind_eq_ok.mpr ⟨p.runId, hid, ?_⟩
    simp only [htask, hstored, hbound]
    simp

theorem childReceipt_eq_ok {parent : ManagedBinding} :
    childReceipt sha256 p parent authorization activation job role = .ok (some receipt) ↔
      ∃ taskId task stored,
        childTaskId sha256 authorization.scope activation.requestId = .ok taskId ∧
        p.tasks[taskId]? = some task ∧ task.binding.delegation = some stored ∧
        stored.parentAttempt = parent.attemptId ∧
        boundTo task.binding authorization stored.activation activation job role = true ∧
        receipt = ⟨p.runId, taskId, stored.activation.auditSessionId⟩ := by
  unfold childReceipt
  constructor
  · intro h
    obtain ⟨taskId, hid, h⟩ := bind_eq_ok.mp h
    split at h
    · cases h
    · rename_i task htask
      split at h
      · cases h
      · rename_i stored hstored
        split at h
        · cases h
        · rename_i hmatch
          rw [not_or, not_not, Bool.not_eq_false] at hmatch
          cases h
          exact ⟨taskId, task, stored, hid, htask, hstored, hmatch.1, hmatch.2, rfl⟩
  · rintro ⟨taskId, task, stored, hid, htask, hstored, hparent, hbound, rfl⟩
    refine bind_eq_ok.mpr ⟨taskId, hid, ?_⟩
    simp only [htask, hstored, hbound, hparent]
    simp

section
variable (h : ReceiptOf sha256 sub p receipt) (hrun : q.runId = p.runId)
include h hrun

theorem ReceiptOf.root (hroot : sub.context.delegationParent = none)
    (htask : ∀ task, p.tasks[rootTaskId p.runId]? = some task →
      ∃ task', q.tasks[rootTaskId p.runId]? = some task' ∧
        task'.binding.undated = task.binding.undated) : ReceiptOf sha256 sub q receipt := by
  obtain ⟨authorization, activation, hauthorization, hactivation, hreceipt⟩ := h
  refine ⟨authorization, activation, hauthorization, hactivation, ?_⟩
  rw [hroot] at hreceipt ⊢
  obtain ⟨task, stored, hid, hp, hstored, hbound, rfl⟩ := receiptFromSnapshot_eq_ok.mp hreceipt
  obtain ⟨task', hq, hsame⟩ := htask task hp
  refine receiptFromSnapshot_eq_ok.mpr ⟨task', stored, hrun ▸ hid, hrun ▸ hq, ?_, ?_, ?_⟩
  · exact (congrArg TaskInputBinding.activation hsame).trans hstored
  · rw [boundTo_undated hsame]
    exact hbound
  · rw [hrun]

theorem ReceiptOf.continues (hpq : Continues p q) : ReceiptOf sha256 sub q receipt := by
  cases hparent : sub.context.delegationParent with
  | none => exact h.root hrun hparent fun task htask => hpq _ task htask
  | some =>
    obtain ⟨authorization, activation, hauthorization, hactivation, hreceipt⟩ := h
    refine ⟨authorization, activation, hauthorization, hactivation, ?_⟩
    rw [hparent] at hreceipt ⊢
    obtain ⟨taskId, task, stored, hid, hp, hstored, hown, hbound, rfl⟩ :=
      childReceipt_eq_ok.mp hreceipt
    obtain ⟨task', hq, hsame⟩ := hpq _ task hp
    refine childReceipt_eq_ok.mpr ⟨taskId, task', stored, hid, hq, ?_, hown, ?_, ?_⟩
    · exact (congrArg TaskInputBinding.delegation hsame).trans hstored
    · rw [boundTo_undated hsame]
      exact hbound
    · rw [hrun]

end

/-- Organization, principal and request of an activation, and whether it is delegated. -/
def Submission.key (sub : Submission) : Option (String × String × String × Bool) :=
  match sub.context.authorization, sub.context.activation with
  | some authorization, some activation => some (authorization.scope.organizationId,
      authorization.scope.principalId, activation.requestId, sub.context.delegationParent.isSome)
  | _, _ => none

variable (sha256) in
theorem activationRunId_congr {scope scope' : ExecutionScope} (requestId : String)
    (horg : scope.organizationId = scope'.organizationId)
    (hprincipal : scope.principalId = scope'.principalId) :
    activationRunId sha256 scope requestId = activationRunId sha256 scope' requestId := by
  unfold activationRunId
  rw [horg, hprincipal]

theorem ReceiptOf.unique (h : ReceiptOf sha256 sub p receipt)
    (h' : ReceiptOf sha256 sub' p receipt') (hkey : sub.key = sub'.key) : receipt = receipt' := by
  obtain ⟨auth, act, hauth, hact, hreceipt⟩ := h
  obtain ⟨auth', act', hauth', hact', hreceipt'⟩ := h'
  simp only [Submission.key, hauth, hact, hauth', hact', Option.some.injEq, Prod.mk.injEq] at hkey
  obtain ⟨horg, hprincipal, hrequest, hkind⟩ := hkey
  have hids := activationRunId_congr sha256 act'.requestId horg hprincipal
  cases hparent : sub.context.delegationParent with
  | none =>
    rw [hparent] at hreceipt hkind
    have hparent' := Option.isSome_eq_false_iff.mp hkind.symm
    rw [Option.isNone_iff_eq_none.mp hparent'] at hreceipt'
    obtain ⟨task, stored, -, hp, hstored, -, rfl⟩ := receiptFromSnapshot_eq_ok.mp hreceipt
    obtain ⟨task', stored', -, hp', hstored', -, rfl⟩ := receiptFromSnapshot_eq_ok.mp hreceipt'
    rw [hp] at hp'
    cases hp'
    rw [hstored] at hstored'
    cases hstored'
    rfl
  | some =>
    rw [hparent] at hreceipt hkind
    obtain ⟨parent', hparent'⟩ := Option.isSome_iff_exists.mp hkind.symm
    rw [hparent'] at hreceipt'
    obtain ⟨taskId, task, stored, hid, hp, hstored, -, -, rfl⟩ := childReceipt_eq_ok.mp hreceipt
    obtain ⟨taskId', task', stored', hid', hp', hstored', -, -, rfl⟩ :=
      childReceipt_eq_ok.mp hreceipt'
    have htask : taskId = taskId' := by
      unfold childTaskId at hid hid'
      rw [hrequest, hids, hid'] at hid
      exact (Except.ok.inj hid).symm
    subst htask
    rw [hp] at hp'
    cases hp'
    rw [hstored] at hstored'
    cases hstored'
    rfl

end Receipts

variable {host : InstanceId} {command : RunCommand}

section Timely

variable {c c' : Cluster Admitted} {g g' : CallerId → Admitting}

theorem headMove_continues (hm : c.shared.HeadMove P host c'.shared) :
    Continues c.shared.head c'.shared.head := by
  cases hm with
  | still hcore => exact hcore.continues
  | commit hat hnew hcore hguard haccept hhead =>
    rw [hhead]
    exact hcore.continues.trans fun k task hk => applyCommand_continues haccept k task hk

variable (r sha256) in
/-- What was added or read is still there: a task is added once, and what callers have read goes
on in the stored projection. -/
structure Lasting (g : CallerId → Admitting) (c : Cluster Admitted) : Prop where
  present : ∀ b, .addTask b ∈ c.shared.log → ∃ task, c.shared.head.tasks[b.taskId]? = some task
  single : ∀ b b', .addTask b ∈ c.shared.log → .addTask b' ∈ c.shared.log →
    b.taskId = b'.taskId → b = b'
  loaded : ∀ id p, (g id).loaded = some p → Continues p c.shared.head
  receipts : ∀ id sub receipt, (id, .ok (some (sub, .existing receipt))) ∈ c.results →
    ∃ p, p.runId = r ∧ Continues p c.shared.head ∧ ReceiptOf sha256 sub p receipt

namespace Lasting

theorem start : Lasting r sha256 (fun _ => {}) {} where
  present b hb := by cases hb
  single b b' hb := by cases hb
  loaded id p hp := by cases hp
  receipts id sub receipt hmem := by cases hmem

theorem keep (h : Lasting r sha256 g c) (hhead : Continues c.shared.head c'.shared.head)
    (hlog : c'.shared.log = c.shared.log) (hresults : c'.results = c.results)
    (hg : ∀ id p, (g' id).loaded = some p →
      (g id).loaded = some p ∨ Continues p c'.shared.head) : Lasting r sha256 g' c' where
  present b hb := by
    rw [hlog] at hb
    obtain ⟨task, htask⟩ := h.present b hb
    obtain ⟨task', htask', -⟩ := hhead _ task htask
    exact ⟨task', htask'⟩
  single := by
    rw [hlog]
    exact h.single
  loaded id p hp := by
    rcases hg id p hp with hold | hnew
    · exact (h.loaded id p hold).trans hhead
    · exact hnew
  receipts id sub receipt hmem := by
    rw [hresults] at hmem
    obtain ⟨p, hrun, hp, hreceipt⟩ := h.receipts id sub receipt hmem
    exact ⟨p, hrun, hp.trans hhead, hreceipt⟩

theorem loaded_handle (id id' : CallerId) (res : RunOutcome RunCommandResult) {p : RunSnapshot}
    (hp : (update g id (admittingAfter (g id) (.handle command) res) id').loaded =
      some p) : (g id').loaded = some p := by
  by_cases heq : id' = id
  · rw [heq, update_self] at hp
    rw [heq]
    cases command with
    | addTask =>
      cases res with
      | error | ok => exact hp
    | _ => exact hp
  · rw [update_of_ne heq] at hp
    exact hp

theorem commit (h : Lasting r sha256 g c) (hm : c.shared.HeadMove P host c'.shared)
    (hlog : c'.shared.log = c.shared.log ++ [command]) (hresults : c'.results = c.results)
    (hg : ∀ id p, (g' id).loaded = some p → (g id).loaded = some p) :
    Lasting r sha256 g' c' := by
  have hhead := headMove_continues hm
  cases hm with
  | still hcore hd hl =>
    rw [hl] at hlog
    simp at hlog
  | @commit caller command' base next applied event hat hnew hcore hguard haccept hnext hd hl =>
    have hsame : command' = command := by
      rw [hl] at hlog
      simpa using hlog
    subst hsame
    have hadd (b : AddTask) (hb : command' = .addTask b) :
        (∀ b', .addTask b' ∈ c.shared.log → b'.taskId ≠ b.taskId) ∧
          ∃ task, c'.shared.head.tasks[b.taskId]? = some task := by
      rw [hb] at haccept
      obtain ⟨hnone, hthere⟩ := applyAddTask_get haccept
      refine ⟨fun b' hb' heq => ?_, ?_⟩
      · obtain ⟨task, htask⟩ := h.present b' hb'
        obtain ⟨task', htask', -⟩ := hcore.continues _ task htask
        rw [heq, hnone] at htask'
        cases htask'
      · rw [hnext]
        exact hthere
    refine ⟨fun b hb => ?_, fun b b' hb hb' heq => ?_, fun id p hp => ?_,
      fun id sub receipt hmem => ?_⟩
    · rw [hlog, List.mem_append, List.mem_singleton] at hb
      rcases hb with hold | hb
      · obtain ⟨task, htask⟩ := h.present b hold
        obtain ⟨task', htask', -⟩ := hhead _ task htask
        exact ⟨task', htask'⟩
      · exact (hadd b hb.symm).2
    · rw [hlog, List.mem_append, List.mem_singleton] at hb hb'
      rcases hb with hb | hb
      · rcases hb' with hb' | hb'
        · exact h.single b b' hb hb' heq
        · exact absurd heq ((hadd b' hb'.symm).1 b hb)
      · rcases hb' with hb' | hb'
        · exact absurd heq.symm ((hadd b hb.symm).1 b' hb')
        · rw [← hb'] at hb
          cases hb
          rfl
    · exact (h.loaded id p (hg id p hp)).trans hhead
    · rw [hresults] at hmem
      obtain ⟨p, hrun, hp, hreceipt⟩ := h.receipts id sub receipt hmem
      exact ⟨p, hrun, hp.trans hhead, hreceipt⟩

theorem answer (h : Lasting r sha256 g c) {id : CallerId} {o : Op} {env : Surroundings}
    (hshared : c'.shared = c.shared) (hresults : c'.results = c.results)
    (hanswer : c.answerable r env o = true) :
    Lasting r sha256 (update g id
      (admittingAfter (g id) o (env.answer c.shared.projection o))) c' := by
  have hhead : Continues c.shared.head c'.shared.head := by
    rw [hshared]
    exact .refl _
  refine h.keep hhead (congrArg _ hshared) hresults fun id' p hp => ?_
  by_cases heq : id' = id
  · rw [heq, update_self] at hp
    rw [heq]
    cases o with
    | handle => cases hanswer
    | load =>
      simp only [Surroundings.answer] at hp
      cases hfault : env.storeFault with
      | some =>
        rw [hfault] at hp
        exact .inl hp
      | none =>
        cases hprojection : c.shared.projection with
        | none =>
          rw [hfault, hprojection] at hp
          exact .inl hp
        | some =>
          rw [hfault, hprojection] at hp
          cases hp
          rw [hshared, Shared.head_of_projection hprojection]
          exact .inr (.refl _)
    | _ => exact .inl hp
  · rw [update_of_ne heq] at hp
    exact .inl hp

theorem step (h : Lasting r sha256 g c) (hadmits : Admits P r sha256 g c)
    (hi : c.shared.InStep) {a : Action Admitted} (ht : a.Timely c c')
    (hm : Moved P r admissionDiscipline (ReadReceipt sha256) {} g c c' a g') :
    Lasting r sha256 g' c' := by
  have hsame (hshared : c'.shared = c.shared) : Continues c.shared.head c'.shared.head := by
    rw [hshared]
    exact .refl _
  cases hm with
  | spawned hshared htrace =>
    refine h.keep (hsame hshared) (congrArg _ hshared) htrace.results fun id p hp => ?_
    by_cases heq : id = c.spawned
    · rw [heq, update_self] at hp
      cases hp
    · rw [update_of_ne heq] at hp
      exact .inl hp
  | answered hallowed hanswer hshared heffects huuids hresults =>
    exact h.answer hshared hresults hanswer
  | @finished id res hQ hshared heffects huuids hresults =>
    refine ⟨?_, ?_, ?_, fun id' sub receipt hmem => ?_⟩
    · rw [hshared]
      exact h.present
    · rw [hshared]
      exact h.single
    · rw [hshared]
      exact h.loaded
    · rw [hshared]
      rw [hresults, List.mem_append, List.mem_singleton] at hmem
      rcases hmem with hmem | heq
      · exact h.receipts id' sub receipt hmem
      · cases heq
        obtain ⟨p, hloaded, hreceipt⟩ := hQ sub receipt rfl
        have hstored := ((hadmits.admissions.callers id).loaded p hloaded).1
        exact ⟨p, hstored.named, h.loaded id p hloaded, hreceipt⟩
  | replied hallowed hres hturn hlog htrace =>
    have hmove := (hi.turn hadmits.ok hturn ht).1
    exact h.keep (headMove_continues hmove) hlog htrace.results fun id p hp =>
      .inl (loaded_handle _ id _ hp)
  | committed hat hallowed hturn hlog htrace =>
    exact h.commit (hi.turn hadmits.ok hturn ht).1 hlog htrace.results fun id p hp =>
      loaded_handle _ id _ hp
  | went hturn hlog htrace =>
    have hmove := (hi.turn hadmits.ok hturn ht).1
    exact h.keep (headMove_continues hmove) hlog htrace.results fun _ _ hp => .inl hp
  | other hprojection hdedup hlog htrace =>
    have hhead : Continues c.shared.head c'.shared.head := by
      rw [Shared.head, Shared.head, hprojection]
      exact .refl _
    exact h.keep hhead hlog htrace.results fun _ _ hp => .inl hp

end Lasting

theorem Lasting.of_reaches (h : Relation.ReflTransGen (TimelyStep P r (Admissive sha256)) {} c) :
    ∃ g, Admits P r sha256 g c ∧ c.shared.InStep ∧ Lasting r sha256 g c := by
  induction h with
  | refl => exact ⟨_, .start, .start, .start⟩
  | tail _ hs ih =>
    obtain ⟨g, hadmits, hi, hlasting⟩ := ih
    obtain ⟨a, hstep, hspawn, htimely⟩ := hs
    obtain ⟨g', hmoved, hadmits'⟩ := hadmits.step hstep hspawn
    exact ⟨g', hadmits', (Cluster.stepped hstep).inStep hadmits.ok hi htimely,
      hlasting.step hadmits hi htimely hmoved⟩

end Timely

variable {taskId : TaskId}

section Results

variable {c : Cluster Admitted} {g : CallerId → Admitting} {log : List RunCommand}

def attemptsOf (log : List RunCommand) (taskId : TaskId) : List RunCommand :=
  log.filter fun
    | .createAttempt c => decide (c.taskId = taskId)
    | _ => false

theorem mem_attemptsOf :
    command ∈ attemptsOf log taskId ↔
      ∃ a, command = .createAttempt a ∧ .createAttempt a ∈ log ∧ a.taskId = taskId := by
  rw [attemptsOf, List.mem_filter]
  constructor
  · rintro ⟨hmem, hfor⟩
    cases command with
    | createAttempt a => exact ⟨a, rfl, hmem, of_decide_eq_true hfor⟩
    | _ => cases hfor
  · rintro ⟨a, rfl, hmem, htask⟩
    exact ⟨hmem, decide_eq_true htask⟩

theorem attemptsOf_le_one (hdistinct : (log.map (·.envelope.commandId)).Nodup)
    (h : ∀ a b, .createAttempt a ∈ log → .createAttempt b ∈ log → a.taskId = taskId →
      b.taskId = taskId → a.envelope.commandId = b.envelope.commandId) :
    (attemptsOf log taskId).length ≤ 1 := by
  have hnodup : (attemptsOf log taskId).Nodup := (hdistinct.of_map _).filter _
  cases hlist : attemptsOf log taskId with
  | nil => simp
  | cons x rest =>
    cases rest with
    | nil => simp
    | cons y =>
      have hx : x ∈ attemptsOf log taskId := by simp [hlist]
      have hy : y ∈ attemptsOf log taskId := by simp [hlist]
      obtain ⟨a, rfl, ha, hat⟩ := mem_attemptsOf.mp hx
      obtain ⟨b, rfl, hb, hbt⟩ := mem_attemptsOf.mp hy
      have hsame := List.inj_on_of_nodup_map hdistinct ha hb (h a b ha hb hat hbt)
      rw [hlist, hsame] at hnodup
      simp at hnodup

variable (sha256) in
/-- The receipts that were returned for some of the submissions are what the stored run says of
them, scope, grant, job, role and request digest included; those with one key are one. -/
structure ReceiptsAgree (c : Cluster Admitted) (of : Submission → Prop) : Prop where
  stored : ∀ id sub receipt, (id, .ok (some (sub, .existing receipt))) ∈ c.results → of sub →
    ∃ p, c.shared.projection = some p ∧ ReceiptOf sha256 sub p receipt
  same : ∀ id id' sub sub' receipt receipt',
    (id, .ok (some (sub, .existing receipt))) ∈ c.results →
    (id', .ok (some (sub', .existing receipt'))) ∈ c.results → of sub → of sub' →
    sub.key = sub'.key → receipt = receipt'

theorem receiptsAgree_of_stored {of : Submission → Prop}
    (h : ∀ id sub receipt, (id, .ok (some (sub, .existing receipt))) ∈ c.results → of sub →
      ∃ p, c.shared.projection = some p ∧ ReceiptOf sha256 sub p receipt) :
    ReceiptsAgree sha256 c of where
  stored := h
  same id id' sub sub' receipt receipt' hmem hmem' hof hof' hkey := by
    obtain ⟨p, hp, hreceipt⟩ := h id sub receipt hmem hof
    obtain ⟨q, hq, hreceipt'⟩ := h id' sub' receipt' hmem' hof'
    rw [hp] at hq
    cases hq
    exact hreceipt.unique hreceipt' hkey

namespace Admits

section
variable (h : Admits P r sha256 g c)
include h

theorem root_attempts : (attemptsOf c.shared.log (rootTaskId r)).length ≤ 1 := by
  have hroot (a : CreateAttempt) (ha : .createAttempt a ∈ c.shared.log)
      (htask : a.taskId = rootTaskId r) : a.envelope.commandId = "turn_attempt" := by
    rcases h.admissions.sourced.attempts a ha with ⟨hid, -⟩ | ⟨-, b, hb, hbtask, -⟩
    · exact hid
    · exact absurd (hbtask.trans htask) (h.admissions.sourced.additions b hb)
  refine attemptsOf_le_one h.ok.distinct fun a b ha hb hat hbt => ?_
  rw [hroot a ha hat, hroot b hb hbt]

theorem same_root {p q : RunSnapshot}
    (hp : Rooted r c.shared.log p) (hq : Rooted r c.shared.log q) {task : TaskRecord}
    (htask : p.tasks[rootTaskId r]? = some task) :
    ∃ task', q.tasks[rootTaskId r]? = some task' ∧
      task'.binding.undated = task.binding.undated := by
  obtain ⟨cp, taskp, hcp, htaskp, hbindp⟩ := hp
  obtain ⟨cq, taskq, hcq, htaskq, hbindq⟩ := hq
  have hids : cp.envelope.commandId = cq.envelope.commandId := by
    rw [h.admissions.sourced.creations cp hcp, h.admissions.sourced.creations cq hcq]
  have hsame := List.inj_on_of_nodup_map h.ok.distinct hcp hcq hids
  cases hsame
  rw [htask] at htaskp
  cases htaskp
  exact ⟨taskq, htaskq, hbindq.trans hbindp.symm⟩

theorem root_receipts : ReceiptsAgree sha256 c fun sub => sub.context.delegationParent = none := by
  refine receiptsAgree_of_stored fun id sub receipt hmem hroot => ?_
  obtain ⟨p, hstored, hrooted, hreceipt⟩ := h.admissions.receipts id sub receipt hmem
  have hcreated := hrooted
  obtain ⟨create, -, hcreate, -⟩ := hcreated
  obtain ⟨q, hq⟩ := h.rooted.recorded _ hcreate
  have hrun : q.runId = p.runId := (h.ok.stored q hq).named.trans hstored.named.symm
  refine ⟨q, hq, hreceipt.root hrun hroot fun task htask => ?_⟩
  rw [hstored.named] at htask ⊢
  exact h.same_root hrooted (h.rooted.projection q hq) htask

theorem attempts (hlasting : Lasting r sha256 g c) (taskId : TaskId) :
    (attemptsOf c.shared.log taskId).length ≤ 1 := by
  by_cases hroot : taskId = rootTaskId r
  · rw [hroot]
    exact h.root_attempts
  have hchild (a : CreateAttempt) (ha : .createAttempt a ∈ c.shared.log)
      (htask : a.taskId = taskId) : a.envelope.commandId = "child_attempt:" ++ a.attemptId ∧
        Added c.shared.log taskId a.attemptId := by
    rcases h.admissions.sourced.attempts a ha with ⟨-, heq⟩ | ⟨hid, hadded⟩
    · exact absurd (htask.symm.trans heq) hroot
    · exact ⟨hid, htask ▸ hadded⟩
  refine attemptsOf_le_one h.ok.distinct fun a b ha hb hat hbt => ?_
  obtain ⟨hida, add, hadd, haddTask, haddId⟩ := hchild a ha hat
  obtain ⟨hidb, add', hadd', haddTask', haddId'⟩ := hchild b hb hbt
  have hsame := hlasting.single add add' hadd hadd' (haddTask.trans haddTask'.symm)
  have hattempt : a.attemptId = b.attemptId := by
    have hids : spawnId a.attemptId = spawnId b.attemptId := by
      rw [← haddId, ← haddId', hsame]
    simpa [spawnId] using hids
  rw [hida, hidb, hattempt]

theorem receipts (hlasting : Lasting r sha256 g c) : ReceiptsAgree sha256 c fun _ => True := by
  refine receiptsAgree_of_stored fun id sub receipt hmem _ => ?_
  obtain ⟨p, hrun, hcontinues, hreceipt⟩ := hlasting.receipts id sub receipt hmem
  obtain ⟨-, -, ⟨create, -, hcreate, -⟩, -⟩ := h.admissions.receipts id sub receipt hmem
  obtain ⟨q, hq⟩ := h.rooted.recorded _ hcreate
  rw [Shared.head_of_projection hq] at hcontinues
  exact ⟨q, hq, hreceipt.continues ((h.ok.stored q hq).named.trans hrun.symm) hcontinues⟩

end

end Admits

variable (P r sha256) in
/-- In every run the root task of an activation gets at most one attempt and its receipts agree
with the store and with each other; as long as no write is overtaken, so do all tasks. -/
theorem activation_once :
    (∀ c, Relation.ReflTransGen (Step P r (Admissive sha256)) {} c →
      (attemptsOf c.shared.log (rootTaskId r)).length ≤ 1 ∧
        ReceiptsAgree sha256 c fun sub => sub.context.delegationParent = none) ∧
    ∀ c, Relation.ReflTransGen (TimelyStep P r (Admissive sha256)) {} c →
      (∀ taskId, (attemptsOf c.shared.log taskId).length ≤ 1) ∧
        ReceiptsAgree sha256 c fun _ => True := by
  constructor
  · intro c h
    obtain ⟨g, hadmits⟩ := Admits.of_reaches h
    exact ⟨hadmits.root_attempts, hadmits.root_receipts⟩
  · intro c h
    obtain ⟨g, hadmits, -, hlasting⟩ := Lasting.of_reaches h
    exact ⟨hadmits.attempts hlasting, hadmits.receipts hlasting⟩

end Results

namespace AdmissionDemo

def digest (fields : List String) : String :=
  (fields.drop 1).foldl (fun text field => text ++ toString field.length ++ ":" ++ field) ""

def scope : ExecutionScope := ⟨"p", "o", "c"⟩

def requestDigest : String :=
  "sha256:0000000000000000000000000000000000000000000000000000000000000000"

def runId : RunId := "run_activation_1:o1:p1:q"

def childId : TaskId := "task_child_run_activation_1:o1:p1:s"

def root : Submission where
  job := ⟨"a", "d", ⟨"a", "d", "i", [], [], ""⟩, none, none⟩
  context := ⟨some ⟨"q", requestDigest, "audit"⟩, none, none, some ⟨none, scope⟩, none, none, none⟩

def rootBinding : ManagedBinding :=
  ⟨some scope, none, runId, rootTaskId runId, "att_u", ⟨"a", "d", "i", [], [], ""⟩⟩

def child : Submission where
  job := ⟨"b", "d", ⟨"b", "d", "i", [], [], ""⟩, none, some "att_u"⟩
  context := ⟨some ⟨"s", requestDigest, "audit"⟩, some rootBinding, none, some ⟨some "g", scope⟩,
    none, none, none⟩

def proof : LeaseProof := ⟨"lease_att_u", 1, .local⟩

def parent : ActiveAttempt := ⟨rootBinding, some ⟨none, scope⟩, none, 0, proof⟩

def env (uuid : String) (yes : Bool) : Surroundings :=
  { registered := some parent, now := 10, uuid, yes }

def answers (id : CallerId) (uuid : String) (yes : List Bool) : List (Action Admitted) :=
  yes.map fun b => .answer id (env uuid b)

def served (id : CallerId) (host : InstanceId) (turns : Nat) : List (Action Admitted) :=
  .call id :: List.replicate turns (.turn host {})

/-- One more command after `n` answers. -/
def next (id : CallerId) (host : InstanceId) (n : Nat) : List (Action Admitted) :=
  answers id "" (List.replicate n false) ++ served id host 4

def rootAdmitted (id : CallerId) (host : InstanceId) : List (Action Admitted) :=
  .spawn host (admitting digest root) :: answers id "u" (List.replicate 9 true ++ [false, false]) ++
    next id host 1 ++ next id host 1 ++ next id host 1 ++ next id host 2 ++ next id host 1 ++
    answers id "" [false] ++ [.finish id]

def childAdmitted (id : CallerId) (host : InstanceId) (uuid : String) : List (Action Admitted) :=
  .spawn host (admitting digest child) ::
    answers id uuid (List.replicate 16 true ++ [false] ++ List.replicate 5 true) ++
    next id host 1 ++ next id host 1

def send (command : RunCommand) : Call Admitted :=
  (submit command >>= fun _ => pure ()) >>= fun _ => pure none

def sent (id : CallerId) (host : InstanceId) (command : RunCommand) (turns : Nat) :
    List (Action Admitted) :=
  .spawn host (send command) :: served id host turns

def claimExecution : RunCommand :=
  .claimExecution ⟨Run.Demo.envelope "claim" 10, runId, "att_u", proof⟩

def heartbeat (n : Nat) : RunCommand := .recordHeartbeat {
  envelope := Run.Demo.envelope (String.singleton (Char.ofNat (n + 200))) 10
  runId
  attemptId := "att_u"
  leaseProof := proof
  heartbeatSequence := UInt64.ofNat n
  report := ⟨true⟩
  renewedExpiresAt := some 310 }

def again (id : CallerId) (host : InstanceId) (sub : Submission) (n : Nat) :
    List (Action Admitted) :=
  .spawn host (admitting digest sub) :: answers id "" (List.replicate n true) ++ [.finish id]

def opening : List (Action Admitted) := rootAdmitted 0 0 ++ sent 1 0 claimExecution 4

def repeated : List (Action Admitted) :=
  opening ++ childAdmitted 2 0 "v" ++ again 3 1 root 4 ++ again 4 1 child 8

/-- Instance 1 has decided a heartbeat of the root attempt on event 6 and sleeps, instance 0
admits the child and goes on to event 110, where it compacts; then instance 1 wakes up and the
child is submitted again. -/
def overtaken : List (Action Admitted) :=
  opening ++ sent 2 1 (heartbeat 1) 3 ++ childAdmitted 3 0 "v" ++
    (List.range 101).flatMap (fun n => sent (4 + n) 0 (heartbeat (n + 2)) 4) ++
    sent 105 0 (heartbeat 103) 3 ++ [.turn 0 { compact := true }, .turn 0 {}, .turn 1 {}] ++
    childAdmitted 106 0 "w"

theorem answers_spawns (id : CallerId) (uuid : String) (yes : List Bool) :
    ∀ a ∈ answers id uuid yes, a.Spawns (Admissive digest) := by
  intro a ha
  obtain ⟨b, -, rfl⟩ := List.mem_map.mp ha
  trivial

theorem served_spawns (id : CallerId) (host : InstanceId) (turns : Nat) :
    ∀ a ∈ served id host turns, a.Spawns (Admissive digest) := by
  intro a ha
  simp only [served, List.mem_cons, List.mem_replicate] at ha
  rcases ha with rfl | ⟨-, rfl⟩ <;> trivial

theorem next_spawns (id : CallerId) (host : InstanceId) (n : Nat) :
    ∀ a ∈ next id host n, a.Spawns (Admissive digest) :=
  List.forall_mem_append.mpr ⟨answers_spawns _ _ _, served_spawns _ _ _⟩

theorem admitting_spawns (host : InstanceId) (sub : Submission) :
    (Action.spawn host (admitting digest sub)).Spawns (Admissive digest) := .inl ⟨sub, rfl⟩

section
variable (id : CallerId) (host : InstanceId)

theorem childAdmitted_spawns (uuid : String) :
    ∀ a ∈ childAdmitted id host uuid, a.Spawns (Admissive digest) := by
  simp only [childAdmitted, List.cons_append, List.forall_mem_cons, List.forall_mem_append]
  exact ⟨admitting_spawns host child, ⟨answers_spawns _ _ _, next_spawns _ _ _⟩, next_spawns _ _ _⟩

theorem again_spawns (sub : Submission) (n : Nat) :
    ∀ a ∈ again id host sub n, a.Spawns (Admissive digest) := by
  simp only [again, List.cons_append, List.forall_mem_cons, List.forall_mem_append]
  exact ⟨admitting_spawns host sub, answers_spawns _ _ _, by simp [Action.Spawns]⟩

theorem sent_spawns (command : RunCommand) (turns : Nat) (h : Op.sideline (.handle command)) :
    ∀ a ∈ sent id host command turns, a.Spawns (Admissive digest) := by
  have hsend : Admissive digest (send command) :=
    .inr ⟨submit command >>= fun _ => pure (),
      Prog.Only.bind (submit_only h) fun _ => trivial, rfl⟩
  exact List.forall_mem_cons.mpr ⟨hsend, served_spawns _ _ _⟩

end

theorem heartbeat_sideline (n : Nat) : Op.sideline (.handle (heartbeat n)) := by
  simp [heartbeat, Run.Demo.envelope, RunCommand.envelope, List.isPrefixOf]

theorem opening_spawns : ∀ a ∈ opening, a.Spawns (Admissive digest) := by
  simp only [opening, rootAdmitted, List.cons_append, List.forall_mem_cons, List.forall_mem_append]
  refine ⟨admitting_spawns 0 root, ⟨⟨⟨⟨⟨⟨⟨answers_spawns _ _ _, next_spawns _ _ _⟩,
    next_spawns _ _ _⟩, next_spawns _ _ _⟩, next_spawns _ _ _⟩, next_spawns _ _ _⟩,
    answers_spawns _ _ _⟩, ?_⟩, sent_spawns _ _ _ _ ?_⟩
  · simp [Action.Spawns]
  · simp [claimExecution, Run.Demo.envelope, RunCommand.envelope, List.isPrefixOf]

theorem repeated_spawns : ∀ a ∈ repeated, a.Spawns (Admissive digest) := by
  simp only [repeated, List.forall_mem_append]
  exact ⟨⟨⟨opening_spawns, childAdmitted_spawns _ _ _⟩, again_spawns _ _ _ _⟩, again_spawns _ _ _ _⟩

theorem overtaken_spawns : ∀ a ∈ overtaken, a.Spawns (Admissive digest) := by
  simp only [overtaken, List.forall_mem_append]
  refine ⟨⟨⟨⟨⟨⟨opening_spawns, sent_spawns _ _ _ _ (heartbeat_sideline _)⟩,
    childAdmitted_spawns _ _ _⟩, ?_⟩, sent_spawns _ _ _ _ (heartbeat_sideline _)⟩, ?_⟩,
    childAdmitted_spawns _ _ _⟩
  · intro a ha
    obtain ⟨n, -, ha⟩ := List.mem_flatMap.mp ha
    exact sent_spawns _ _ _ _ (heartbeat_sideline _) a ha
  · simp [Action.Spawns]

end AdmissionDemo

open AdmissionDemo in
/-- A root and a child are admitted and submitted once more. -/
theorem activation_once_repeated : ∃ c : Cluster Admitted,
    Relation.ReflTransGen (TimelyStep Run.Demo.platform runId (Admissive digest)) {} c ∧
      (attemptsOf c.shared.log (rootTaskId runId)).length = 1 ∧
      (attemptsOf c.shared.log childId).length = 1 ∧ c.results.map (·.1) = [0, 3, 4] ∧
      (∀ taskId, (attemptsOf c.shared.log taskId).length ≤ 1) ∧
      ReceiptsAgree digest c fun _ => True := by
  have hrun : (runTimely Run.Demo.platform runId {} repeated).map (fun c =>
      ((attemptsOf c.shared.log (rootTaskId runId)).length,
        (attemptsOf c.shared.log childId).length, c.results.map (·.1))) =
      some (1, 1, [0, 3, 4]) := by
    decide +kernel
  obtain ⟨c, hc, hcounts⟩ := Option.map_eq_some_iff.mp hrun
  simp only [Prod.mk.injEq] at hcounts
  have hreach := runTimely_reaches repeated_spawns hc
  obtain ⟨hattempts, hreceipts⟩ := (activation_once Run.Demo.platform runId digest).2 c hreach
  exact ⟨c, hreach, hcounts.1, hcounts.2.1, hcounts.2.2, hattempts, hreceipts⟩

open AdmissionDemo in
/-- A heartbeat that was decided on event 6 lands on event 110 as event 7, whose number the
compaction has freed; the child task is lost with the projection, and is admitted again. -/
theorem child_activation_repeats : ∃ c : Cluster Admitted,
    Relation.ReflTransGen (Step Run.Demo.platform runId (Admissive digest)) {} c ∧
      childTaskId digest scope "s" = .ok childId ∧
      (attemptsOf c.shared.log childId).length = 2 := by
  have hrun : (runActions Run.Demo.platform runId {} overtaken).map (fun c =>
      (attemptsOf c.shared.log childId).length) = some 2 := by
    decide +kernel
  obtain ⟨c, hc, hcount⟩ := Option.map_eq_some_iff.mp hrun
  exact ⟨c, runActions_reaches overtaken_spawns hc, by decide +kernel, hcount⟩

end Tetonic.Managed
