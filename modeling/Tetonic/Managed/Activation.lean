import Tetonic.Managed.Conduct
import Tetonic.Managed.Admission
set_option autoImplicit false

/-! Activations. A run is created under one command id and so is the attempt of its root, so the
table of command ids alone makes them unique. A child task is added under an id of the call's
own; there it is the stored projection that refuses a second one. -/

namespace Tetonic.Managed
open Lib Run Prog

variable {sha256 : List String → String}

/-- What a call of `admit_submission` has behind it: the snapshot it read last, an identifier
it has drawn for an attempt, and the child task it has added with that attempt's id. -/
structure Admitting where
  loaded : Option RunSnapshot := none
  drawn : Option String := none
  added : Option (TaskId × AttemptId) := none

def spawnId (attemptId : AttemptId) : CommandId := "spawn_task_" ++ attemptId

def admittingAfter (s : Admitting) : (o : Op) → o.Ans → Admitting
  | .load _, .ok (some p) => { s with loaded := some p }
  | .newUuid, uuid => { s with drawn := some uuid }
  | .handle (.addTask c), .ok _ =>
    { s with drawn := none, added := s.drawn.map fun uuid => (c.taskId, "att_" ++ uuid) }
  | .handle (.addTask _), .error _ => { s with drawn := none }
  | _, _ => s

def admittingAllowed (s : Admitting) : Op → Prop
  | .handle (.createRun c) =>
    c.envelope.commandId = "turn_create" ∧ c.rootTaskId = rootTaskId c.runId
  | .handle (.addTask c) => ∃ uuid p, s.drawn = some uuid ∧ s.loaded = some p ∧
      p.tasks[c.taskId]? = none ∧ c.envelope.commandId = spawnId ("att_" ++ uuid) ∧
      c.envelope.idempotencyKey = none
  | .handle (.createAttempt c) =>
    (c.envelope.commandId = "turn_attempt" ∧ c.taskId = rootTaskId c.runId) ∨
      s.added = some (c.taskId, c.attemptId) ∧
        c.envelope.commandId = "child_attempt:" ++ c.attemptId
  | o => o.sideline

def admissionDiscipline : Discipline Op Op.Ans Admitting where
  allowed := admittingAllowed
  after := admittingAfter

variable {α β : Type} {s : Admitting} {Q : Admitting → Except (Fault ManagedRunError) β → Prop}

theorem sideline_obeys {p : Call α} (h : p.Only Op.sideline) : p.Obeys admissionDiscipline s := by
  refine h.obeys_of_allowed fun s o ho => ?_
  cases o with
  | handle command =>
    cases command with
    | createRun | addTask | createAttempt => exact ho.elim
    | _ => exact ho
  | _ => exact ho

theorem admitting_bind {p : Call α} {f : α → Call β} (hp : p.Only Op.sideline)
    (hf : ∀ s a, (f a).wp admissionDiscipline Q s) (hQ : ∀ s e, Q s (.error e)) :
    (p >>= f).wp admissionDiscipline Q s :=
  wp_bind (sideline_obeys hp) (fun s a _ => hf s a) fun s e _ => hQ s e

variable (sha256) in
def ReceiptOf (sub : Submission) (p : RunSnapshot) (receipt : ActivationReceipt) : Prop :=
  ∃ authorization activation, sub.context.authorization = some authorization ∧
    sub.context.activation = some activation ∧
    match sub.context.delegationParent with
    | none => receiptFromSnapshot sha256 p authorization activation sub.job.jobSpec sub.job.role =
        .ok receipt
    | some parent => childReceipt sha256 p parent authorization activation sub.job.jobSpec
        sub.job.role = .ok (some receipt)

section Lookup

theorem authorize_wp {denied : String} {f : Unit → Call β}
    (hf : (f ()).wp admissionDiscipline Q s) (hQ : ∀ e, Q s (.error e)) :
    (authorize denied >>= f).wp admissionDiscipline Q s := by
  refine ⟨trivial, fun yes => ?_⟩
  cases yes with
  | true => exact hf
  | false => exact hQ _

theorem orFailWith_wp {res : Except ManagedRunError α} {f : α → Call β}
    (hf : ∀ a, res = .ok a → (f a).wp admissionDiscipline Q s) (hQ : ∀ e, Q s (.error e)) :
    (orFailWith res >>= f).wp admissionDiscipline Q s := by
  cases res with
  | ok a => exact hf a rfl
  | error => exact hQ _

variable (sha256) in
/-- A receipt that comes out as `wrap` has it is what the snapshot read last has of it. -/
def Vouched (sub : Submission) (wrap : ActivationReceipt → α) (s : Admitting)
    (out : Except (Fault ManagedRunError) α) : Prop :=
  ∀ receipt, out = .ok (wrap receipt) → ∃ p, s.loaded = some p ∧ ReceiptOf sha256 sub p receipt

theorem Vouched.error {sub : Submission} {wrap : ActivationReceipt → α} (s : Admitting)
    (e : Fault ManagedRunError) : Vouched sha256 sub wrap s (.error e) := nofun

section
variable {sub : Submission} {authorization : AuthorizedExecution} {activation : ActivationBinding}
  (hauthorization : sub.context.authorization = some authorization)
  (hactivation : sub.context.activation = some activation)
include hauthorization hactivation

theorem lookupActivation_wp (hparent : sub.context.delegationParent = none) :
    (lookupActivation sha256 authorization activation sub.job.jobSpec sub.job.role).wp
      admissionDiscipline (Vouched sha256 sub some) s := by
  refine authorize_wp ?_ (.error s)
  refine ⟨trivial, fun configured => ?_⟩
  cases configured with
  | false => exact .error s _
  | true =>
    refine orFailWith_wp (fun runId _ => ?_) (.error s)
    refine ⟨trivial, fun loaded => ?_⟩
    match loaded with
    | .error .panicked => exact .error s _
    | .error (.error e) => exact .error s _
    | .ok none =>
      refine authorize_wp (s := s) (fun receipt h => ?_) (.error s)
      cases h
    | .ok (some snapshot) =>
      refine orFailWith_wp (s := { s with loaded := some snapshot }) (fun found hfound => ?_)
        (.error _)
      refine authorize_wp (fun receipt h => ?_) (.error _)
      cases h
      refine ⟨snapshot, rfl, authorization, activation, hauthorization, hactivation, ?_⟩
      rw [hparent]
      exact hfound

theorem lookupChildActivation_wp {parent : ManagedBinding}
    (hparent : sub.context.delegationParent = some parent) :
    (lookupChildActivation sha256 parent authorization activation sub.job.jobSpec sub.job.role).wp
      admissionDiscipline (Vouched sha256 sub some) s := by
  refine admitting_bind (childAuthorization_only _) (fun s _ => ?_) .error
  refine authorize_wp ?_ (.error s)
  refine ⟨trivial, fun loaded => ?_⟩
  match loaded with
  | .error .panicked => exact .error s _
  | .error (.error e) => exact .error s _
  | .ok none => exact .error s _
  | .ok (some snapshot) =>
    refine orFailWith_wp (s := { s with loaded := some snapshot }) (fun found hfound => ?_)
      (.error _)
    refine authorize_wp ?_ (.error _)
    refine ⟨trivial, fun live => ?_⟩
    cases live with
    | false => exact .error _ _
    | true =>
      intro receipt h
      cases h
      refine ⟨snapshot, rfl, authorization, activation, hauthorization, hactivation, ?_⟩
      rw [hparent]
      exact hfound

end

theorem earlierReceipt_wp (sub : Submission) :
    (earlierReceipt sha256 sub.context sub.job).wp admissionDiscipline
      (Vouched sha256 sub some) s := by
  unfold earlierReceipt
  split
  · rename_i activation authorization hactivation hauthorization
    split
    · rename_i parent hparent
      exact lookupChildActivation_wp hauthorization hactivation hparent
    · rename_i hparent
      exact lookupActivation_wp hauthorization hactivation hparent
  · intro receipt h
    cases h

theorem validateActivation_ok {context : AdmissionContext} {job : AdmitJob}
    {activation : ActivationBinding} (h : validateActivation sha256 context job = .ok ())
    (hactivation : context.activation = some activation) :
    job.parentAttempt.isSome = context.delegationParent.isSome := by
  unfold validateActivation at h
  rw [hactivation] at h
  split at h
  · rename_i heq
    cases heq
  · split at h
    · cases h
    · split at h
      · cases h
      · rename_i hshape
        exact not_not.mp fun hne => hshape (.inl hne)

end Lookup

section Commands

theorem envelope_wp {commandId : CommandId} {expectedSequence : Option Nat}
    {f : CommandEnvelope → Call β}
    (hf : ∀ timestamp, (f { commandId, expectedSequence, timestamp, idempotencyKey := none }).wp
      admissionDiscipline Q s) :
    (commandEnvelope commandId expectedSequence >>= f).wp admissionDiscipline Q s :=
  ⟨trivial, hf⟩

theorem submit_wp {command : RunCommand} {f : RunCommandResult → Call β}
    (hallowed : admittingAllowed s (.handle command))
    (hf : ∀ s result, (f result).wp admissionDiscipline Q s) (hQ : ∀ s e, Q s (.error e)) :
    (submit command >>= f).wp admissionDiscipline Q s := by
  refine ⟨hallowed, fun res => ?_⟩
  match res with
  | .error .panicked => exact hQ _ _
  | .error (.error e) => exact hQ _ _
  | .ok result => exact hf _ result

theorem inspectRun_wp {runId : RunId} {f : RunSnapshot → Call β}
    (hf : ∀ p, (f p).wp admissionDiscipline Q { s with loaded := some p })
    (hQ : ∀ e, Q s (.error e)) : (inspectRun runId >>= f).wp admissionDiscipline Q s := by
  refine ⟨trivial, fun loaded => ?_⟩
  match loaded with
  | .error .panicked => exact hQ _
  | .error (.error e) => exact hQ _
  | .ok none => exact hQ _
  | .ok (some p) => exact hf p

section
variable (sub : Submission) (deadline : Option UInt64)

theorem spawnChild_wp (parent : ActiveAttempt)
    (parentAttempt : AttemptId) {taskId : TaskId} {p : RunSnapshot} (hloaded : s.loaded = some p)
    (habsent : p.tasks[taskId]? = none) :
    (spawnChild sub deadline parent parentAttempt taskId).wp admissionDiscipline
      (Vouched sha256 sub Placed.known) s := by
  refine ⟨trivial, fun uuid => ?_⟩
  refine envelope_wp (s := { s with drawn := some uuid }) fun now => ?_
  refine ⟨⟨uuid, p, rfl, hloaded, habsent, rfl, rfl⟩, fun added => ?_⟩
  match added with
  | .error .panicked => exact .error _ _
  | .error (.error e) => exact .error _ _
  | .ok result =>
    refine envelope_wp (s := { s with drawn := none, added := some (taskId, "att_" ++ uuid) })
      fun now => ?_
    refine submit_wp (.inr ⟨rfl, rfl⟩) (fun _ created => ?_) Vouched.error
    refine admitting_bind (leaseAndStart_only _ _ _ _ _ ?_ ?_) (fun _ proof => ?_) Vouched.error
    · simp [List.isPrefixOf]
    · simp [List.isPrefixOf]
    · exact nofun

theorem rejoinChild_wp (runId : RunId) (task : TaskRecord) (taskId : TaskId) :
    (rejoinChild sub deadline runId task taskId).wp admissionDiscipline
      (Vouched sha256 sub Placed.known) s := by
  unfold rejoinChild
  split
  · exact nofun
  · refine wp_query_bind trivial fun actives => ?_
    split <;> exact nofun

theorem admitChild_wp (parentAttempt : AttemptId) :
    (admitChild sha256 sub deadline parentAttempt).wp admissionDiscipline
      (Vouched sha256 sub Placed.known) s := by
  refine admitting_bind (only_query.mpr trivial) (fun s found => ?_) Vouched.error
  refine admitting_bind (orStop_only _ _) (fun s parent => ?_) Vouched.error
  refine admitting_bind (checkParentLive_only _) (fun s _ => ?_) Vouched.error
  refine admitting_bind (childTask_only sha256 sub) (fun s taskId => ?_) Vouched.error
  refine inspectRun_wp (fun p => ?_) (.error s)
  split
  · exact rejoinChild_wp _ _ _ _ _
  · rename_i habsent
    exact spawnChild_wp sub deadline parent parentAttempt rfl habsent

end

section
variable (sub : Submission)

theorem startRoot_wp (runId : RunId) (attemptId : AttemptId) (created : RunCommandResult) :
    (startRoot runId attemptId created).wp admissionDiscipline
      (Vouched sha256 sub Placed.known) s := by
  refine envelope_wp fun now => submit_wp ?_ (fun s started => ?_) Vouched.error
  · simp [admittingAllowed, RunCommand.envelope, List.isPrefixOf]
  refine envelope_wp fun now => ?_
  refine submit_wp (.inl ⟨rfl, rfl⟩) (fun s attempt => ?_) Vouched.error
  refine admitting_bind (leaseAndStart_only _ _ _ _ _ ?_ ?_) (fun s proof receipt h => ?_)
    Vouched.error
  · simp [List.isPrefixOf]
  · simp [List.isPrefixOf]
  · cases h

section
variable (hroot : sub.context.activation.isSome = true → sub.context.delegationParent = none)
include hroot

theorem rootReceipt_wp :
    (rootReceipt sha256 sub).wp admissionDiscipline (Vouched sha256 sub some) s := by
  unfold rootReceipt
  split
  · rename_i activation authorization hactivation hauthorization
    exact lookupActivation_wp hauthorization hactivation (hroot (by rw [hactivation]; rfl))
  · intro receipt h
    cases h

theorem afterLostCreation_wp (error : ManagedRunError) :
    (afterLostCreation sha256 sub error).wp admissionDiscipline
      (Vouched sha256 sub Placed.known) s := by
  refine wp_bind (rootReceipt_wp sub hroot) (fun s' found hfound => ?_) fun s' e _ => .error s' e
  cases found with
  | none => exact .error s' _
  | some =>
    intro receipt h
    cases h
    exact hfound _ rfl

theorem afterCreation_wp (runId : RunId) (attemptId : AttemptId)
    (created : RunOutcome RunCommandResult) :
    (afterCreation sha256 sub runId attemptId created).wp admissionDiscipline
      (Vouched sha256 sub Placed.known) s := by
  match created with
  | .error .panicked => exact .error s _
  | .error (.error e) => exact afterLostCreation_wp sub hroot _
  | .ok result =>
    simp only [afterCreation]
    split
    · exact startRoot_wp sub runId attemptId result
    · exact afterLostCreation_wp sub hroot _

theorem admitRoot_wp (deadline : Option UInt64) :
    (admitRoot sha256 sub deadline).wp admissionDiscipline (Vouched sha256 sub Placed.known) s := by
  refine admitting_bind (rootRunId_only sha256 sub) (fun s runId => ?_) Vouched.error
  refine admitting_bind (.ask trivial fun _ => trivial) (fun s attemptId => ?_) Vouched.error
  refine envelope_wp fun now => ?_
  refine wp_query_bind ⟨rfl, rfl⟩ fun created => ?_
  exact afterCreation_wp sub hroot runId attemptId created

end

theorem place_wp (deadline : Option UInt64) (hvalid : sub.context.activation.isSome = true →
      sub.job.parentAttempt.isSome = sub.context.delegationParent.isSome) :
    (place sha256 sub deadline).wp admissionDiscipline (Vouched sha256 sub Placed.known) s := by
  unfold place
  split
  · exact admitChild_wp sub deadline _
  · rename_i hparent
    refine admitRoot_wp sub (fun hactivation => ?_) deadline
    have hsome := hvalid hactivation
    rw [hparent] at hsome
    exact Option.not_isSome_iff_eq_none.mp (by rw [← hsome]; exact Bool.false_ne_true)

end

theorem register_wp (sub : Submission) (placed : Placed)
    (hplaced : Vouched sha256 sub Placed.known s (.ok placed)) :
    (register sub placed).wp admissionDiscipline
      (Vouched sha256 sub ManagedAdmission.existing) s := by
  cases placed with
  | already => exact nofun
  | known =>
    intro receipt h
    cases h
    exact hplaced _ rfl
  | fresh =>
    refine wp_query_bind trivial fun canceled => ?_
    split
    · refine admitting_bind (only_query.mpr trivial) (fun s found => ?_) Vouched.error
      exact admitting_bind (finalize_only _) (fun s _ => .error s _) Vouched.error
    · exact nofun

theorem admitOwned_wp (sub : Submission) :
    (admitOwned sha256 sub).wp admissionDiscipline
      (Vouched sha256 sub ManagedAdmission.existing) s := by
  unfold admitOwned
  split
  · exact .error s _
  · refine orFailWith_wp (fun u hvalid => ?_) (Vouched.error s)
    refine admitting_bind (checkDelegation_only _ _) (fun s _ => ?_) Vouched.error
    refine admitting_bind (checkGrant_only _ _) (fun s _ => ?_) Vouched.error
    refine wp_bind (earlierReceipt_wp sub) (fun s' found hfound => ?_) fun s' e _ => .error s' e
    cases found with
    | some =>
      intro receipt h
      cases h
      exact hfound _ rfl
    | none =>
      refine admitting_bind (checkSubmission_only sub) (fun s deadline => ?_) Vouched.error
      refine wp_bind (place_wp sub deadline fun hactivation => ?_)
        (fun s' placed hplaced => register_wp sub placed hplaced) fun s' e _ => .error s' e
      obtain ⟨activation, hsome⟩ := Option.isSome_iff_exists.mp hactivation
      exact validateActivation_ok hvalid hsome

end Commands

end Tetonic.Managed
