import Tetonic.Txn.Published
import Tetonic.Txn.Steps
set_option autoImplicit false

/-! Approval and patch: an approval is held only for the patch as it is, and what a commit
publishes is the approved patch. -/

namespace Tetonic.Txn
open Lib TransactionState

variable {t t' : WorkspaceTransaction} {past : List Event} {s : ReadWriteSets} {d : Disk}
variable {P : Platform} {w w' : World}

def Bound (P : Platform) (t : WorkspaceTransaction) : Prop :=
  ∀ a, t.approval = some a → a.patchDigest = t.patch P

theorem Bound.of_none (h : t.approval = none) : Bound P t := by
  intro a ha
  simp [h] at ha

theorem patch_eq (h : t'.sets.writes = t.sets.writes) : t'.patch P = t.patch P := by
  simp [WorkspaceTransaction.patch, ReadWriteSets.operationsInOrder, h]

theorem Bound.same (h : Bound P t) (happroval : t'.approval = t.approval)
    (hwrites : t'.sets.writes = t.sets.writes) :
    Bound P t' := by
  intro a ha
  rw [patch_eq hwrites]
  exact h a (happroval ▸ ha)

theorem Bound.checked {a : PatchApproval} (hcheck : checkApproval P t a = .ok ())
    (happroval : t'.approval = some a) (hwrites : t'.sets.writes = t.sets.writes) : Bound P t' := by
  intro b hb
  rw [happroval] at hb
  cases hb
  rw [patch_eq hwrites]
  exact checkApproval_patch hcheck

theorem Bound.step {op : Operation} {b : Bool} (h : Bound P w.mem.txn)
    (hdoes : Does P w op b w') : Bound P w'.mem.txn := by
  cases hdoes with
  | restaged hs hr => exact .of_none hr.approval
  | notRestaged hs hr =>
    obtain ⟨-, happroval, -⟩ | ⟨-, -, happroval, -⟩ := hr.control
    · exact h.same happroval (by rw [hr.sets])
    · exact .of_none happroval
  | read => exact h.same rfl recordedRead_writes
  | refused => exact h
  | begins hb => exact .of_none hb.approval
  | overlay hdisk hmem =>
    rw [hmem]
    exact h
  | finishes hf =>
    cases hf with
    | passed _ _ _ htxn | rejected _ _ _ htxn | stale _ _ htxn =>
      exact h.same (by rw [htxn]; rfl) (by rw [htxn]; rfl)
    | refused => exact h
  | bound hcheck => exact .checked hcheck rfl rfl
  | committed hc =>
    obtain ⟨a, htxn, hbound | hcheck⟩ := hc.approval
    · exact h.same (by rw [htxn, hbound]) (by rw [htxn])
    · exact .checked hcheck (by rw [htxn]) (by rw [htxn])
  | notCommitted hc =>
    obtain happroval | ⟨a, happroval, hcheck⟩ := hc.approval
    · exact h.same happroval (by rw [hc.sets])
    · exact .checked hcheck happroval (by rw [hc.sets])
  | aborts ha =>
    obtain ⟨s, htxn, -⟩ := ha.txn
    exact h.same (by rw [htxn]) (by rw [htxn])

theorem Bound.of_run (run : Run P w past) : Bound P w.mem.txn :=
  Run.invariant (I := fun w _ => Bound P w.mem.txn) (fun _ _ _ _ => .of_none rfl)
    (fun _ _ _ _ h => h) (fun w _ _ fates _ _ h hdoes => Bound.step
      (w := w.facing fates) h hdoes) run

def TransactionState.over : TransactionState → Bool
  | .committing | .committed | .aborted | .recoveryRequired => true
  | _ => false

theorem not_over_of_editable {s : TransactionState} (h : s.editable = true) : s.over = false := by
  cases s <;> simp_all [editable, TransactionState.over]

theorem not_over_of_canBecome {s s' : TransactionState} (h : s.canBecome s' = true)
    (h' : s'.over = false) : s.over = false := by
  cases s <;> cases s' <;> simp_all [canBecome, TransactionState.over]

/-- A pending write has its content staged, with the digest it claims. -/
def ContentStaged (P : Platform) (d : Disk) (s : ReadWriteSets) : Prop :=
  ∀ p op, s.writes[p]? = some op → op.path = p ∧ (op.kind.writes = true →
    op.newContentPath = some p ∧
      ∃ c, d.content p = some c ∧ op.newDigest = some (P.digest c))

def Intact (P : Platform) (w : World) : Prop :=
  w.mem.txn.state.over = false → ContentStaged P w.disk w.mem.txn.sets

theorem ContentStaged.of_change {s' : ReadWriteSets} {p : WorkspacePath} {op : StagedOperation}
    {c : Option Bytes} (h : ContentStaged P d s) (hchange : Change P d s p op c)
    (hwrites : s'.writes = s.writes.insert p op) :
    ContentStaged P (d.staged p c) s' := by
  intro q op' hq
  rw [hwrites, OrdMap.get_insert] at hq
  split at hq
  · rename_i heq
    subst heq
    cases hq
    cases hchange with
    | revised hpending =>
      exact ⟨(h p _ hpending).1, fun _ => ⟨rfl, _, by simp [Disk.staged, Disk.stage], rfl⟩⟩
    | created | replaced | edited =>
      exact ⟨rfl, fun _ => ⟨rfl, _, by simp [Disk.staged, Disk.stage], rfl⟩⟩
    | deleted | renamed | moded => exact ⟨rfl, fun hk => by cases hk⟩
  · rename_i hne
    obtain ⟨hpath, hcontent⟩ := h q op' hq
    refine ⟨hpath, fun hk => ?_⟩
    have hother : (d.staged p c).content q = d.content q := by
      cases c with
      | none => rfl
      | some => simp [Disk.staged, Disk.stage, Ne.symm hne]
    rw [hother]
    exact hcontent hk

theorem ContentStaged.same {d' : Disk} {s' : ReadWriteSets} (h : ContentStaged P d s)
    (hcontent : d'.content = d.content) (hwrites : s'.writes = s.writes) :
    ContentStaged P d' s' := by
  intro p op hp
  rw [hcontent]
  exact h p op (hwrites ▸ hp)

theorem Intact.step {op : Operation} {b : Bool} (h : Intact P w) (hdoes : Does P w op b w')
    (hwhole : ¬ TearsContent w.fates) : Intact P w' := by
  intro hlive
  cases hdoes with
  | restaged hs hr =>
    obtain ⟨p, op, c, hpends⟩ := hr.pends
    rw [hpends.disk]
    exact (h (not_over_of_editable hr.editable)).of_change hpends.change hpends.writes
  | notRestaged hs hr =>
    have hdisk : w'.disk = w.disk := hr.disk.elim id fun ht => absurd ht.1 hwhole
    have hbefore : w.mem.txn.state.over = false := by
      obtain ⟨hstate, -⟩ | ⟨hedit, -⟩ := hr.control
      · rwa [hstate] at hlive
      · exact not_over_of_editable hedit
    exact (h hbefore).same (by rw [hdisk]) (by rw [hr.sets])
  | read => exact (h hlive).same rfl recordedRead_writes
  | refused | bound => exact h hlive
  | begins hb =>
    have hbefore : w.mem.txn.state.over = false := by
      obtain hstate | ⟨hstate, hcan⟩ := hb.state
      · rwa [hstate] at hlive
      · exact not_over_of_canBecome hcan rfl
    exact (h hbefore).same (by rw [hb.disk]) (by rw [hb.sets])
  | overlay hdisk hmem =>
    rw [hdisk, hmem]
    exact h (hmem ▸ hlive)
  | finishes hf =>
    cases hf with
    | passed _ hv hdisk htxn =>
      exact (h (by rw [hv]; rfl)).same (by rw [hdisk]) (by rw [htxn]; rfl)
    | rejected _ hcan hdisk htxn =>
      exact (h (not_over_of_canBecome hcan rfl)).same (by rw [hdisk]) (by rw [htxn]; rfl)
    | refused => exact h hlive
    | stale _ hdisk htxn hstate =>
      rw [htxn] at hlive
      have hbefore : w.mem.txn.state.over = false := by
        obtain hsame | ⟨hcan, -⟩ := hstate
        · rw [← hsame]
          exact hlive
        · exact not_over_of_canBecome hcan hlive
      exact (h hbefore).same (by rw [hdisk]) (by rw [htxn]; rfl)
  | committed hc =>
    obtain ⟨a, htxn, -⟩ := hc.approval
    simp [htxn, TransactionState.over] at hlive
  | notCommitted hc =>
    obtain hstate | hstate | hstate | hstate := hc.state
    · have hcontent := hc.content.resolve_left fun hd => by
        simp [hd, TransactionState.over] at hlive
      exact (h (hstate ▸ hlive)).same hcontent (by rw [hc.sets])
    all_goals simp [hstate, TransactionState.over] at hlive
  | aborts ha =>
    obtain ⟨s, htxn, hs⟩ := ha.txn
    have hstate : w'.mem.txn.state = s := by rw [htxn]
    have hcontent : w'.disk.content = w.disk.content := by
      obtain hd | hd | hd := ha.content
      · simp [hd, TransactionState.over] at hlive
      · simp [hd, TransactionState.over] at hlive
      · exact hd
    obtain rfl | rfl := hs
    · exact (h (hstate ▸ hlive)).same hcontent (by rw [htxn])
    · simp [hstate, TransactionState.over] at hlive

theorem Intact.of_run (run : Run P w past) (hwhole : ∀ e ∈ past, ¬ TearsContent e.fates) :
    Intact P w := by
  refine Run.invariant (I := fun w past => (∀ e ∈ past, ¬ TearsContent e.fates) → Intact P w)
    (fun id limits d j _ _ p op hp => ?_) (fun w past files version ih hwhole => ?_) ?_ run hwhole
  · simp [beginTransaction] at hp
  · exact fun hlive => (ih hwhole hlive).same rfl rfl
  · intro w past op fates b w' ih hdoes hwhole
    have hbefore : Intact P (w.facing fates) := ih fun e he => hwhole e (List.mem_cons_of_mem _ he)
    exact hbefore.step hdoes (hwhole _ List.mem_cons_self)

/-- The staged content has the digests that the operations claim for it. -/
def Digested (P : Platform) (content : WorkspacePath → Option Bytes)
    (ops : List StagedOperation) : Prop :=
  ∀ op ∈ ops, op.kind.writes = true → ∃ c, op.newContentPath.bind content = some c ∧
    op.newDigest = some (P.digest c)

theorem ContentStaged.digested (h : ContentStaged P d s) :
    Digested P d.content s.operationsInOrder := by
  intro op hop hk
  obtain ⟨p, hp⟩ := mem_operationsInOrder.mp hop
  obtain ⟨hpath, c, hc, hdigest⟩ := (h p op hp).2 hk
  exact ⟨c, by rw [hpath]; exact hc, hdigest⟩

/-- A commit published the patch that `a` approves: its journal lists operations with the approved
digest, their contents have the digests the operations claim, and the workspace is what these
operations make of it. -/
def PublishesApproved (P : Platform) (w w' : World) (a : PatchApproval) : Prop :=
  ∃ j ops, w'.disk.journal = some j ∧ CommittedJournal j ops (patchDigest P ops) ∧
    a.patchDigest = patchDigest P ops ∧ Digested P w.disk.content ops ∧
    applyAll w.disk.content w.disk.files ops = some w'.disk.files

theorem committed_approval {fates : List (Medium → Fate TransactionError)} (run : Run P w past)
    (h : Committed P (w.facing fates) w') :
    ∃ a, w'.mem.txn.approval = some a ∧ a.patchDigest = w.mem.txn.patch P := by
  obtain ⟨a, htxn, hbound | hcheck⟩ := h.approval
  · exact ⟨a, by rw [htxn], Bound.of_run run a hbound⟩
  · exact ⟨a, by rw [htxn], checkApproval_patch hcheck⟩

/-- An approval is held only for the patch as it is. In every run in which no content was cut short
when it was stored, a commit that returns publishes the patch that was approved. -/
theorem approval_binds {past : List Event} (run : Run P w past) :
    (∀ a, w.mem.txn.approval = some a → a.patchDigest = w.mem.txn.patch P) ∧
    ((∀ e ∈ past, ¬ TearsContent e.fates) → ∀ fates w',
      perform P .commit (w.facing fates) = (.ok (), w') →
        ∃ a, w'.mem.txn.approval = some a ∧ PublishesApproved P w w' a) := by
  refine ⟨Bound.of_run run, fun hwhole fates w' hcommit => ?_⟩
  obtain ⟨hc, hfiles, j, hj, hjournal⟩ := commit_returned hcommit
  obtain ⟨a, ha, hpatch⟩ := committed_approval run hc
  have hlive : w.mem.txn.state.over = false := by
    obtain hs | hs := hc.ready
    · rw [show w.mem.txn.state = .staged from hs]
      rfl
    · rw [show w.mem.txn.state = .readyToCommit from hs]
      rfl
  exact ⟨a, ha, j, _, hj, hjournal, hpatch, (Intact.of_run run hwhole hlive).digested, hfiles⟩

namespace Demo

/-- A file is staged, the disk is full when it is staged again, and the work goes on with
another file. -/
def fullDisk : List (Operation × List (Medium → Fate TransactionError)) :=
  [(.stageWriteFile ['a'] [1] false, []),
    (.stageWriteFile ['a'] [2, 3] false,
      [fun _ => .made, fun _ => .fails (.io "No space left on device") 2]),
    (.stageWriteFile ['b'] [1] false, [])]

def afterFullDisk : World × List Event := play platform (start emptyTree) [] fullDisk

end Demo
open Demo

theorem approval_binds_edit : ∃ w' a, perform platform .commit
        ((after emptyTree [.stageWriteFile ['a'] [1] false]).1.facing []) = (.ok (), w') ∧
      w'.mem.txn.approval = some a ∧ PublishesApproved platform
        (after emptyTree [.stageWriteFile ['a'] [1] false]).1 w' a := by
  have hnone : (after emptyTree [.stageWriteFile ['a'] [1] false]).2.all
      (fun e => e.fates.isEmpty) = true := by decide +kernel
  have hcommit := eq_ok_of_isOk (m := perform platform .commit)
    (w := (after emptyTree [.stageWriteFile ['a'] [1] false]).1.facing [])
    (by decide +kernel)
  obtain ⟨a, ha⟩ := (approval_binds (run_after _ _)).2 (fun e he ht => by
    have hempty := List.isEmpty_iff.mp (List.all_eq_true.mp hnone e he)
    simp [TearsContent, hempty] at ht) [] _ hcommit
  exact ⟨_, a, hcommit, ha⟩

/-- The cut content is published under the approval of the whole one. -/
theorem cut_content_commits :
    ∃ (P : Platform) (w : World) (past : List Event) (w' : World),
      Run P w past ∧ perform P .commit (w.facing []) = (.ok (), w') ∧
        (∃ a, w'.mem.txn.approval = some a ∧ a.patchDigest = w.mem.txn.patch P) ∧
        ∀ a, ¬ PublishesApproved P w w' a := by
  have hcommit := eq_ok_of_isOk (m := perform platform .commit)
    (w := afterFullDisk.1.facing []) (by decide +kernel)
  refine ⟨platform, afterFullDisk.1, afterFullDisk.2, _, (run_start _).play _, hcommit, ?_, ?_⟩
  · exact committed_approval ((run_start _).play _) (commit_returned hcommit).1
  · rintro a ⟨j, ops, hj, hjournal, -, hdigested, -⟩
    obtain ⟨-, -, j', hj', hjournal'⟩ := commit_returned hcommit
    have hops : ops = afterFullDisk.1.mem.txn.sets.operationsInOrder := by
      rw [hj] at hj'
      cases hj'
      exact hjournal.operations.symm.trans hjournal'.operations
    have hcut : (afterFullDisk.1.mem.txn.sets.writes[['a']]?).any (fun op =>
        op.kind.writes &&
          decide (op.newContentPath.bind afterFullDisk.1.disk.content = some [2]) &&
          decide (op.newDigest = some (platform.digest [1]))) = true := by decide +kernel
    obtain ⟨op, hop, hcut⟩ := (Option.any_eq_true _ _).mp hcut
    simp only [Bool.and_eq_true, decide_eq_true_eq] at hcut
    obtain ⟨⟨hwrites, hcontent⟩, hdigest⟩ := hcut
    obtain ⟨c, hc, hd⟩ := hdigested op (hops ▸ mem_operationsInOrder.mpr ⟨_, hop⟩) hwrites
    rw [hcontent] at hc
    cases hc
    rw [hdigest] at hd
    revert hd
    decide

def Event.commits (e : Event) : Bool := e.returned && e.operation = .commit

theorem Does.over_of_over {op : Operation} {b : Bool} (h : Does P w op b w')
    (hover : w.mem.txn.state.over = true) : w'.mem.txn.state.over = true := by
  cases h with
  | restaged _ hr => simp [not_over_of_editable hr.editable] at hover
  | notRestaged _ hr =>
    obtain ⟨hstate, -⟩ | ⟨hedit, -⟩ := hr.control
    · rwa [hstate]
    · simp [not_over_of_editable hedit] at hover
  | read | refused | bound => exact hover
  | begins hb =>
    obtain hstate | ⟨-, hcan⟩ := hb.state
    · rwa [hstate]
    · simp [not_over_of_canBecome hcan rfl] at hover
  | overlay _ hmem => rwa [hmem]
  | finishes hf =>
    cases hf with
    | passed _ hv => simp [hv, TransactionState.over] at hover
    | rejected _ hcan => simp [not_over_of_canBecome hcan rfl] at hover
    | refused => exact hover
    | stale _ _ htxn hstate =>
      rw [htxn]
      obtain rfl | ⟨hcan, ⟨rfl, -⟩ | rfl⟩ := hstate
      · exact hover
      all_goals simp [not_over_of_canBecome hcan rfl] at hover
  | committed hc =>
    obtain ⟨a, htxn, -⟩ := hc.approval
    rw [htxn]
    rfl
  | notCommitted hc =>
    obtain hstate | hstate | hstate | hstate := hc.state
    · rwa [hstate]
    all_goals
      rw [hstate]
      rfl
  | aborts ha =>
    obtain ⟨s, htxn, rfl | rfl⟩ := ha.txn
    all_goals rw [htxn]
    · exact hover
    · rfl

theorem Does.committed_of_commit (h : Does P w .commit true w') : Committed P w w' := by
  cases h with
  | restaged hs => cases hs
  | committed hc => exact hc

/-- Whatever the calls and whatever fails, at most one commit of a transaction returns. -/
theorem one_commit (run : Run P w past) : past.countP Event.commits ≤ 1 := by
  refine le_trans ?_ w.mem.txn.state.over.toNat_le
  refine run.invariant
    (I := fun w past => past.countP Event.commits ≤ w.mem.txn.state.over.toNat) (by simp)
    (fun _ _ _ _ h => h) ?_
  intro w past op fates b w' ih hdoes
  by_cases hcommit : b = true ∧ op = .commit
  · obtain ⟨rfl, rfl⟩ := hcommit
    have hc := hdoes.committed_of_commit
    obtain ⟨a, htxn, -⟩ := hc.approval
    have hlive : w.mem.txn.state.over = false := by
      obtain hs | hs := hc.ready
      all_goals exact congrArg TransactionState.over hs
    rw [hlive] at ih
    rw [htxn, List.countP_cons_of_pos rfl]
    exact Nat.add_le_add_right ih 1
  · rw [List.countP_cons_of_neg (by simpa [Event.commits] using hcommit)]
    exact ih.trans (Bool.toNat_le_toNat hdoes.over_of_over)

theorem one_commit_repeated :
    (after emptyTree [.stageWriteFile ['a'] [1] false, .commit, .commit]).2.length = 3 ∧
      (after emptyTree [.stageWriteFile ['a'] [1] false, .commit, .commit]).2.countP
        Event.commits ≤ 1 :=
  ⟨by decide +kernel, one_commit (run_after _ _)⟩

end Tetonic.Txn
