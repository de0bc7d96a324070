import Tetonic.Txn.Building
set_option autoImplicit false

/-! A commit that returns: its journal lists the pending operations, all completed, and the
workspace is what these operations make of it one after the other. -/

namespace Tetonic.Txn
open Lib Proc CommitJournal

variable {P : Platform} {w w' : World}

def applyAll (content : WorkspacePath → Option Bytes) (fs : Workspace) :
    List StagedOperation → Option Workspace
  | [] => some fs
  | op :: rest => (effect (op.source content) op fs).bind fun fs => applyAll content fs rest

theorem applied_effect {d : Disk} {e : JournalOperation} {fs : Workspace}
    (h : applied P d e = some fs) :
    mayApply P d.files e = true ∧
      effect (d.source e.newContentPath) e.operation d.files = some fs := by
  unfold applied at h
  split at h
  · exact ⟨‹_›, h⟩
  · cases h

def finishedEntry (e : JournalOperation) : JournalOperation := markCompleted (markStarted e)

structure AppliesRest (w w' : World) (rest : List JournalOperation) : Prop where
  files : applyAll w.disk.content w.disk.files (rest.map (·.operation)) = some w'.disk.files
  txn : w'.mem.txn = w.mem.txn
  content : w'.disk.content = w.disk.content
  backups : w'.disk.backups = w.disk.backups
  patchDigest : w'.mem.journal.patchDigest = w.mem.journal.patchDigest

theorem applied_operations {j : CommitJournal} {pre post : List JournalOperation}
    {e : JournalOperation} (h : j.operations = pre ++ e :: post) (hdistinct : j.indices.Nodup) :
    (j.applied e.index).operations = pre ++ finishedEntry e :: post := by
  have hstarted := modify_of_split markStarted h hdistinct
  have hdistinct' : (j.modify e.index markStarted).indices.Nodup := by
    rw [indices, hstarted]
    rw [indices, h] at hdistinct
    simpa [markStarted] using hdistinct
  exact modify_of_split (e := markStarted e) markCompleted hstarted hdistinct'

theorem applyEntries_returns (rest done : List JournalOperation)
    (hops : w.mem.journal.operations = done ++ rest) (hdistinct : w.mem.journal.indices.Nodup)
    (hfresh : ∀ e ∈ rest, e.fresh)
    (hsource : ∀ e ∈ rest, w.disk.source e.newContentPath = e.operation.source w.disk.content) :
    (forEach (applyJournalOperation P) (rest.map (·.index))).wp (fun _ w' => AppliesRest w w' rest ∧
        w'.mem.journal.operations = done ++ rest.map finishedEntry)
      (fun _ _ => True) (fun _ => True) w := by
  induction rest generalizing w done with
  | nil => exact ⟨⟨rfl, rfl, rfl, rfl, rfl⟩, by simpa using hops⟩
  | cons e rest ih =>
    have hentry := entry_of_split hops hdistinct
    rw [List.map_cons, forEach, applyJournalOperation, wp_bind, wp_bind, wp_mem, hentry]
    dsimp only
    rw [if_neg (by simp [(hfresh e List.mem_cons_self).2.1])]
    refine wp_imp (applyEntry_returns e) fun _ w₁ h₁ => ?_
    have hmem := congrArg Memory.journal h₁.mem
    have hdisk := h₁.disk
    have hcontent : w₁.disk.content = w.disk.content := by rw [hdisk]
    have hbackups : w₁.disk.backups = w.disk.backups := by rw [hdisk]
    have hops₁ : w₁.mem.journal.operations = (done ++ [finishedEntry e]) ++ rest := by
      rw [hmem]
      simpa using applied_operations hops hdistinct
    have hdistinct₁ : w₁.mem.journal.indices.Nodup := by
      rw [indices, hops₁]
      rw [indices, hops] at hdistinct
      simpa [finishedEntry, markCompleted, markStarted] using hdistinct
    have hsource₁ : ∀ x ∈ rest,
        w₁.disk.source x.newContentPath = x.operation.source w₁.disk.content := by
      intro x hx
      rw [hcontent, ← hsource x (List.mem_cons_of_mem _ hx)]
      cases x.newContentPath <;> simp [Disk.source, hcontent, hbackups]
    refine wp_imp (ih (done ++ [finishedEntry e]) hops₁ hdistinct₁
      (fun x hx => hfresh x (List.mem_cons_of_mem _ hx)) hsource₁) fun _ w₂ hpost => ?_
    obtain ⟨h₂, hops₂⟩ := hpost
    refine ⟨⟨?_, ?_, h₂.content.trans hcontent, h₂.backups.trans hbackups, ?_⟩, ?_⟩
    · have heffect := (applied_effect h₁.files).2
      rw [hsource e List.mem_cons_self] at heffect
      have hrest := h₂.files
      rw [hcontent] at hrest
      simp [applyAll, heffect, hrest]
    · rw [h₂.txn, h₁.mem]
    · rw [h₂.patchDigest, hmem]
      rfl
    · simpa using hops₂

structure CommittedJournal (j : CommitJournal) (ops : List StagedOperation)
    (patch : ContentDigest) : Prop where
  state : j.state = .committed
  patchDigest : j.patchDigest = patch
  operations : j.operations.map (·.operation) = ops
  completed : ∀ e ∈ j.operations, e.completed = true ∧ e.rolledBack = false

theorem applyJournal_returns {ops : List StagedOperation}
    (h : BuiltJournal w.disk.files w.disk ops w.mem.journal.operations) :
    (applyJournal P).wp (fun _ w' => applyAll w.disk.content w.disk.files ops = some w'.disk.files ∧
        w'.mem.txn = w.mem.txn ∧ ∃ j, w'.disk.journal = some j ∧
          CommittedJournal j ops w.mem.journal.patchDigest)
      (fun _ _ => True) (fun _ => True) w := by
  have hdistinct : w.mem.journal.indices.Nodup := by
    rw [indices, h.indices]
    exact List.nodup_range
  rw [applyJournal, wp_bind, wp_mem]
  refine wp_seq (applyEntries_returns w.mem.journal.operations [] rfl hdistinct h.fresh
    fun e he => (h.built e he).source.1) fun _ w₁ hpost => ?_
  obtain ⟨h₁, hops⟩ := hpost
  rw [setJournal, wp_bind, wp_setMem]
  refine persistJournal_wp ?_ (fun _ _ => ⟨trivial, trivial⟩) fun _ => ⟨trivial, trivial⟩
  refine ⟨?_, h₁.txn, _, rfl, rfl, h₁.patchDigest, ?_, ?_⟩
  · rw [← h.operations]
    exact h₁.files
  · simp [hops, finishedEntry, markCompleted, markStarted, h.operations, Function.comp_def]
  · intro e he
    simp only [hops, List.nil_append, List.mem_map] at he
    obtain ⟨x, hx, rfl⟩ := he
    exact ⟨rfl, (h.fresh x hx).2.2⟩

structure Publishes (P : Platform) (w w' : World) : Prop where
  files : applyAll w.disk.content w.disk.files w.mem.txn.sets.operationsInOrder =
    some w'.disk.files
  journal : ∃ j, w'.disk.journal = some j ∧
    CommittedJournal j w.mem.txn.sets.operationsInOrder (w.mem.txn.patch P)

theorem commit_publishes : (commit P).wp (fun _ w' => Committed P w w' ∧ Publishes P w w')
    (fun _ _ => True) (fun _ => True) w := by
  rw [commit, wp_bind]
  refine wp_mono commitBegins_wp ?_ (fun _ _ _ => trivial) fun _ h => h
  intro _ w₁ hpost
  obtain ⟨h₁, hdisk₁⟩ := hpost
  have hsets : w₁.mem.txn.sets = w.mem.txn.sets := by
    obtain ⟨a, ha, -⟩ := h₁.approval
    rw [ha]
  have hpatch : w₁.mem.txn.patch P = w.mem.txn.patch P := by
    simp [WorkspaceTransaction.patch, hsets]
  rw [wp_bind, wp_mem, setJournal, wp_bind, wp_setMem, wp_bind]
  refine wp_mono buildJournal_wp ?_ (fun _ _ _ => trivial) fun _ _ => trivial
  intro _ w₂ hpost
  obtain ⟨h₂, _, hpatch₂, hbuilt⟩ := hpost
  rw [wp_bind]
  refine persistJournal_wp ?_ (fun _ _ => ⟨trivial, trivial⟩) fun _ => ⟨trivial, trivial⟩
  have hfiles₂ : w₂.disk.files = w.disk.files := h₂.files.trans (congrArg Disk.files hdisk₁)
  have hcontent₂ : w₂.disk.content = w.disk.content :=
    h₂.content.trans (congrArg Disk.content hdisk₁)
  have hbuilt₂ : BuiltJournal (World.persisted w₂).disk.files (World.persisted w₂).disk
      w.mem.txn.sets.operationsInOrder (World.persisted w₂).mem.journal.operations := by
    rw [hsets] at hbuilt
    refine ⟨hbuilt.operations, hbuilt.indices, hbuilt.fresh, fun e he => ?_⟩
    have hb : Built _ (World.persisted w₂).disk e := (hbuilt.built e he).mono (fun _ => rfl) rfl
    rwa [← h₂.files] at hb
  rw [wp_bind, wp_attempt]
  have hkeeps := wp_conj (applyJournal_returns (P := P) hbuilt₂)
    (applyJournal_keeps.wp (World.persisted w₂))
  have hcommitting : ∀ w₃, KeepsTxn (World.persisted w₂) w₃ → Committing P w w₃ := by
    intro w₃ hk
    obtain ⟨B, hB⟩ := h₂.disk
    have h₂' : KeepsTxn w₁ w₂ := ⟨h₂.txn, h₂.content, by rw [hB]⟩
    exact (h₁.mono h₂').mono ⟨hk.txn, hk.content, hk.version⟩
  refine wp_mono hkeeps ?_ ?_ fun _ _ => trivial
  · intro _ w₃ hpost
    obtain ⟨⟨hfiles₃, htxn₃, j, hj, hcommitted⟩, hkeeps₃⟩ := hpost
    have h₃ := hcommitting w₃ hkeeps₃
    refine wp_mono (commitApplied_wp h₃) ?_ (fun _ _ _ => trivial) fun _ _ => trivial
    intro _ w₄ hpost
    obtain ⟨hdone, hfiles₄, hjournal₄, _⟩ := hpost
    refine ⟨hdone, ?_, j, hjournal₄.trans hj, ?_⟩
    · rw [hfiles₄, ← hfiles₃]
      change _ = applyAll w₂.disk.content w₂.disk.files _
      rw [hfiles₂, hcontent₂]
    · change CommittedJournal j _ w₂.mem.journal.patchDigest at hcommitted
      rw [hpatch₂] at hcommitted
      change CommittedJournal j _ (w₁.mem.txn.patch P) at hcommitted
      rwa [hpatch] at hcommitted
  · intro e w₃ hpost
    obtain ⟨_, hkeeps₃⟩ := hpost
    exact wp_mono (commitFailed_wp (hcommitting w₃ hkeeps₃)) (fun _ _ h => h)
      (fun _ _ _ => trivial) fun _ h => h

theorem commit_returned (h : perform P .commit w = (.ok (), w')) :
    Committed P w w' ∧ Publishes P w w' := by
  have hwp : (perform P .commit).wp (fun _ w' => Committed P w w' ∧ Publishes P w w')
      (fun _ _ => True) (fun _ => True) w := by
    rw [perform, wp_bind]
    exact commit_publishes
  exact wp_ok hwp h

end Tetonic.Txn
