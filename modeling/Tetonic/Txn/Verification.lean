import Tetonic.Txn.Steps
set_option autoImplicit false

/-! Evidence and requirement: when a commit that needs a passed check returns, the patch it
published was checked after it was last changed. -/

namespace Tetonic.Txn
open Lib WorkspaceTransaction

variable {P : Platform} {w w' : World} {t t' : WorkspaceTransaction} {past : List Event} {e : Event}

def Operation.passes : Operation → Bool
  | .finishVerification record => record.success
  | _ => false

def Begun (past : List Event) : Prop :=
  ∃ later start earlier, past = later ++ start :: earlier ∧
    start.operation = .beginVerification ∧ ¬ start.changed ∧ ∀ e ∈ later, ¬ e.changed

/-- A verification was begun, a passed check was reported and the report was accepted, in this
order, and the patch has not changed since the beginning. -/
def Checked (past : List Event) : Prop :=
  ∃ later finish earlier, past = later ++ finish :: earlier ∧ finish.operation.passes = true ∧
    finish.returned = true ∧ ¬ finish.changed ∧ Begun earlier ∧ ∀ e ∈ later, ¬ e.changed

theorem Begun.cons (h : Begun past) (he : ¬ e.changed) : Begun (e :: past) := by
  obtain ⟨later, start, earlier, rfl, hstart, hsame, hlater⟩ := h
  refine ⟨e :: later, start, earlier, rfl, hstart, hsame, ?_⟩
  simpa using ⟨he, hlater⟩

theorem Checked.cons (h : Checked past) (he : ¬ e.changed) : Checked (e :: past) := by
  obtain ⟨later, finish, earlier, rfl, hpass, hret, hsame, hbegun, hlater⟩ := h
  refine ⟨e :: later, finish, earlier, rfl, hpass, hret, hsame, hbegun, ?_⟩
  simpa using ⟨he, hlater⟩

/-- A passed check is not reported of a patch that is staged or being staged, and where the report
ends a verification, its record is written. -/
def Event.inTurn (e : Event) : Prop :=
  e.operation.passes = true → e.before.state ≠ .staging ∧ e.before.state ≠ .staged ∧
    (e.before.state = .verifying → ∀ fate ∈ e.fates.head?, fate .records = .made)

/-- The transaction has a passed check, or an approval that was to need one. -/
def WorkspaceTransaction.evident (t : WorkspaceTransaction) : Prop :=
  t.verified = true ∨ t.approval.isSome = true ∧ t.verificationRequired = true

/-- What the fields of a transaction say about its past. -/
structure Evidence (t : WorkspaceTransaction) (past : List Event) : Prop where
  verifying : t.state = .verifying → Begun past
  ready : t.state = .readyToCommit → Checked past
  checked : t.state = .staged → t.evident → Checked past
  staging : t.state = .staging → ¬ t.evident

namespace Evidence

/-- The patch has not changed, and the transaction has no new evidence. -/
theorem carry (h : Evidence t past) (he : ¬ e.changed) (hstate : t'.state = t.state)
    (hold : t.state = .staged ∨ t.state = .staging → t'.evident → t.evident) :
    Evidence t' (e :: past) where
  verifying hs := (h.verifying (hstate ▸ hs)).cons he
  ready hs := (h.ready (hstate ▸ hs)).cons he
  checked hs hv := (h.checked (hstate ▸ hs) (hold (.inl (hstate ▸ hs)) hv)).cons he
  staging hs hv := h.staging (hstate ▸ hs) (hold (.inr (hstate ▸ hs)) hv)

theorem same (h : Evidence t past) (he : ¬ e.changed) (hstate : t'.state = t.state)
    (hverification : t'.verification = t.verification) (happroval : t'.approval = t.approval)
    (hrequired : t'.verificationRequired = t.verificationRequired) : Evidence t' (e :: past) := by
  refine h.carry he hstate fun _ hv => ?_
  simpa [evident, verified, hverification, happroval, hrequired] using hv

theorem of_dead (hstate : t'.state ≠ .verifying ∧ t'.state ≠ .staged ∧
    t'.state ≠ .readyToCommit ∧ t'.state ≠ .staging) : Evidence t' (e :: past) :=
  ⟨fun hs => absurd hs hstate.1, fun hs => absurd hs hstate.2.2.1,
    fun hs => absurd hs hstate.2.1, fun hs => absurd hs hstate.2.2.2⟩

theorem of_empty (hstate : t'.state ≠ .verifying ∧ t'.state ≠ .readyToCommit)
    (hverified : t'.verified = false) (happroval : t'.approval = none) :
    Evidence t' (e :: past) := by
  have hnot : ¬ t'.evident := by simp [evident, hverified, happroval]
  exact ⟨fun hs => absurd hs hstate.1, fun hs => absurd hs hstate.2, fun _ hv => absurd hv hnot,
    fun _ => hnot⟩

theorem approved {a : PatchApproval} (h : Evidence t past)
    (hcheck : checkApproval P t a = .ok ()) (he : ¬ e.changed) (hstate : t'.state = t.state)
    (hverification : t'.verification = t.verification)
    (hrequired : t'.verificationRequired = t.verificationRequired) : Evidence t' (e :: past) := by
  have hready := checkVerificationReady_iff.mp (checkApproval_ready hcheck)
  refine h.carry he hstate fun _ hv => .inl ?_
  obtain hv | ⟨-, hv⟩ := hv
  · simpa [verified, hverification] using hv
  · exact hready (hrequired ▸ hv)

end Evidence

variable {op : Operation} {fates : List (Medium → Fate TransactionError)} {b : Bool}

theorem not_changed (h : t'.sets.writes = t.sets.writes) :
    ¬ (Event.mk op fates b t t').changed := by
  simp [Event.changed, h]

theorem fate_made (h : ∀ fate ∈ w.fates.head?, fate .records = .made) :
    w.fate .records = .made := by
  unfold Machine.fate
  split
  · rfl
  · rename_i hfates
    exact h _ (by simp [hfates])

/-- A report that is refused leaves the transaction rejected, or in the state it was in; there it is
no evidence of a staged patch, and a patch that is ready was checked before. -/
theorem Evidence.stale {record r : VerificationRecord} {s : TransactionState}
    (h : Evidence w.mem.txn past)
    (hturn : (Event.mk (.finishVerification record) w.fates false w.mem.txn w'.mem.txn).inTurn)
    (hsuccess : r.success = record.success) (htxn : w'.mem.txn = (w.finished r s).mem.txn)
    (hstate : s = w.mem.txn.state ∨ w.mem.txn.state.canBecome s = true ∧
      (s = .readyToCommit ∧ record.success = true ∧ w.fate .records ≠ .made ∨ s = .rejected)) :
    Evidence w'.mem.txn
      (⟨.finishVerification record, w.fates, false, w.mem.txn, w'.mem.txn⟩ :: past) := by
  have hsame :
      ¬ (Event.mk (.finishVerification record) w.fates false w.mem.txn w'.mem.txn).changed :=
    not_changed (by rw [htxn]; rfl)
  by_cases hrejected : s = .rejected
  · exact .of_dead (by simp [htxn, World.finished, hrejected])
  have hs : s = w.mem.txn.state := by
    obtain hs | ⟨hcan, ⟨rfl, hpasses, hfate⟩ | hs⟩ := hstate
    · exact hs
    · exact absurd (fate_made ((hturn hpasses).2.2 (canBecome_ready hcan))) hfate
    · exact absurd hs hrejected
  subst hs
  cases hr : r.success with
  | false =>
    refine h.carry hsame (by rw [htxn]; rfl) fun _ hv => .inr ?_
    simpa [htxn, World.finished, evident, verified, hr] using hv
  | true =>
    obtain ⟨hstaging, hstaged, -⟩ := hturn (hsuccess.symm.trans hr)
    exact h.carry hsame (by rw [htxn]; rfl) fun hs => (hs.elim hstaged hstaging).elim

theorem Evidence.step (h : Evidence w.mem.txn past) (hdoes : Does P w op b w')
    (hturn : (Event.mk op w.fates b w.mem.txn w'.mem.txn).inTurn) :
    Evidence w'.mem.txn (⟨op, w.fates, b, w.mem.txn, w'.mem.txn⟩ :: past) := by
  generalize hfates : w.fates = fates
  cases hdoes with
  | restaged hs hr =>
    refine .of_empty (by simp [hr.state]) ?_ hr.approval
    unfold verified
    rw [hr.verification, keptVerification]
    split
    · exact Bool.eq_false_iff.mpr fun hv => h.staging ‹_› (.inl hv)
    · rfl
  | notRestaged hs hr =>
    have hsame : ¬ (Event.mk op fates false w.mem.txn w'.mem.txn).changed :=
      not_changed (by rw [hr.sets])
    obtain ⟨hstate, happroval, hverification⟩ | ⟨-, hstate, happroval, hverification⟩ := hr.control
    · exact h.same hsame hstate hverification happroval hr.verificationRequired
    · exact .of_empty (by simp [hstate]) (by simp [verified, hverification]) happroval
  | read => exact h.same (not_changed recordedRead_writes) rfl rfl rfl rfl
  | refused => exact h.same (not_changed rfl) rfl rfl rfl rfl
  | begins hb =>
    have hsame : ¬ (Event.mk .beginVerification fates b w.mem.txn w'.mem.txn).changed :=
      not_changed (by rw [hb.sets])
    have hnone : ¬ w'.mem.txn.evident := by
      simp [evident, verified, hb.verification, hb.approval]
    constructor
    · exact fun _ => ⟨[], _, past, rfl, rfl, hsame, by simp⟩
    · intro hs
      obtain hstate | ⟨hstate, -⟩ := hb.state
      · exact (h.ready (hstate ▸ hs)).cons hsame
      · simp [hstate] at hs
    · exact fun _ hv => absurd hv hnone
    · exact fun _ => hnone
  | overlay hdisk hmem =>
    exact h.same (not_changed (by rw [hmem])) (by rw [hmem]) (by rw [hmem]) (by rw [hmem])
      (by rw [hmem])
  | @finishes record b w' hf =>
    cases hf with
    | passed hsuccess hverifying hdisk htxn =>
      have hsame :
          ¬ (Event.mk (.finishVerification record) fates true w.mem.txn w'.mem.txn).changed :=
        not_changed (by rw [htxn]; rfl)
      have hchecked : Checked
          (⟨.finishVerification record, fates, true, w.mem.txn, w'.mem.txn⟩ :: past) :=
        ⟨[], _, past, rfl, hsuccess, rfl, hsame, h.verifying hverifying, by simp⟩
      exact ⟨fun hs => by simp [htxn, World.finished] at hs, fun _ => hchecked,
        fun _ _ => hchecked, fun hs => by simp [htxn, World.finished] at hs⟩
    | rejected hfailure hcan hdisk htxn => exact .of_dead (by simp [htxn, World.finished])
    | refused => exact h.same (not_changed rfl) rfl rfl rfl rfl
    | stale hsuccess _ htxn hstate => exact hfates ▸ h.stale hturn hsuccess htxn hstate
  | bound hcheck => exact h.approved hcheck (not_changed rfl) rfl rfl rfl
  | committed hc =>
    obtain ⟨a, htxn, -⟩ := hc.approval
    exact .of_dead (by simp [htxn])
  | notCommitted hc =>
    have hsame : ¬ (Event.mk .commit fates false w.mem.txn w'.mem.txn).changed :=
      not_changed (by rw [hc.sets])
    obtain hstate | hstate | hstate | hstate := hc.state
    · obtain happroval | ⟨a, happroval, hcheck⟩ := hc.approval
      · exact h.same hsame hstate hc.verification happroval hc.verificationRequired
      · exact h.approved hcheck hsame hstate hc.verification hc.verificationRequired
    all_goals exact .of_dead (by simp [hstate])
  | aborts ha =>
    obtain ⟨s, htxn, hs⟩ := ha.txn
    obtain rfl | rfl := hs
    · exact h.same (not_changed (by rw [htxn])) (by rw [htxn]) (by rw [htxn]) (by rw [htxn])
        (by rw [htxn])
    · exact .of_dead (by simp [htxn])

theorem Evidence.of_run (run : Run P w past) (hturn : ∀ e ∈ past, e.inTurn) :
    Evidence w.mem.txn past := by
  refine Run.invariant (I := fun w past => (∀ e ∈ past, e.inTurn) → Evidence w.mem.txn past)
    (fun id limits d j _ => ?_) (fun w past files version ih hturn => ih hturn) ?_ run hturn
  · constructor <;> simp [beginTransaction]
  · intro w past op fates b w' ih hdoes hturn
    exact (ih fun e he => hturn e (List.mem_cons_of_mem _ he)).step (w := w.facing fates) hdoes
      (hturn _ List.mem_cons_self)

/-- In every run in which passed checks are reported in their turn, a commit that returns although
verification is required publishes a patch that was checked: after its last change a verification
was begun and a passed check was reported and accepted. -/
theorem commit_verified {past : List Event} (fates : List (Medium → Fate TransactionError))
    (run : Run P w past) (hturn : ∀ e ∈ past, e.inTurn)
    (hcommit : perform P .commit (w.facing fates) = (.ok (), w'))
    (hrequired : w.mem.txn.verificationRequired = true) : Checked past := by
  have hevidence := Evidence.of_run run hturn
  cases perform_returned hcommit with
  | restaged hs => cases hs
  | committed hc =>
    obtain hstaged | hready := hc.ready
    · obtain ⟨a, -, hbound | hcheck⟩ := hc.approval
      · refine hevidence.checked hstaged (.inr ⟨?_, hrequired⟩)
        rw [show w.mem.txn.approval = some a from hbound]
        rfl
      · exact hevidence.checked hstaged
          (.inl (checkVerificationReady_iff.mp (checkApproval_ready hcheck) hrequired))
    · exact hevidence.ready hready

namespace Demo

/-- A check fails, the edit is repaired, and the repaired edit passes. -/
def checkedEdit : List Operation :=
  [.stageWriteFile ['a'] [1] false, .beginVerification, .finishVerification failedCheck,
    .stageWriteFile ['a'] [2] false, .beginVerification, .finishVerification passed]

/-- A check fails, the edit is repaired, and a passed check is reported without a new one being
begun; the report is refused. -/
def repairedEdit : List Operation :=
  [.stageWriteFile ['a'] [1] false, .beginVerification, .finishVerification failedCheck,
    .stageWriteFile ['a'] [2] false, .finishVerification passed]

end Demo
open Demo

theorem commit_verified_checkedEdit : Checked (after emptyTree checkedEdit).2 := by
  have hturn : (after emptyTree checkedEdit).2.all (fun e => !e.operation.passes ||
      e.before.state = .verifying && e.fates.isEmpty) = true := by
    decide +kernel
  refine commit_verified [] (run_after _ _) (fun e he hpasses => ?_)
    (eq_ok_of_isOk (by decide +kernel)) (by decide +kernel)
  have he := List.all_eq_true.mp hturn e he
  simp only [hpasses, Bool.not_true, Bool.false_or, Bool.and_eq_true, decide_eq_true_eq,
    List.isEmpty_iff] at he
  simp [he.1, he.2]

/-- The refused report stays in the transaction, and the commit takes it for evidence. -/
theorem refused_record_commits :
    ∃ (P : Platform) (w : World) (past : List Event) (w' : World),
      Run P w past ∧ perform P .commit (w.facing []) = (.ok (), w') ∧
        w.mem.txn.verificationRequired = true ∧ ¬ Checked past := by
  refine ⟨platform, (after emptyTree repairedEdit).1,
    (after emptyTree repairedEdit).2, _, run_after _ _,
    eq_ok_of_isOk (by decide +kernel), by decide +kernel, ?_⟩
  have hnone : (after emptyTree repairedEdit).2.all
      (fun e => !(e.operation.passes && e.returned)) = true := by decide +kernel
  rintro ⟨later, finish, earlier, hpast, hpass, hret, -⟩
  have := List.all_eq_true.mp hnone finish (by rw [hpast]; simp)
  simp [hpass, hret] at this

end Tetonic.Txn
