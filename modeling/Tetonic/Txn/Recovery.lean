import Tetonic.Txn.Applying
import Tetonic.Txn.Steps
set_option autoImplicit false

/-! Recovery at start-up, and what it leaves of the work of others: files whose content is in no
journal. Some branches of the rollback compare contents, others go by the flags of the journal. -/

namespace Tetonic.Txn
open Lib Proc JournalOperation

variable {P : Platform}

/-- An incomplete journal as recovery finds it, with its transaction's backups; `leased` says that
a live process holds the transaction. -/
structure StoredJournal where
  journal : CommitJournal
  backups : BackupName → Option FileData
  leased : Bool

structure RecoveryReport where
  (recovered requiresManual : List String)
  deriving DecidableEq, Repr

/-- `CommitJournal::load`: from here on the transaction's own files are those of the journal. -/
def openJournal (s : StoredJournal) : M Unit := fun w =>
  (.ok (), { w with
    disk := { w.disk with backups := s.backups, journal := some s.journal }
    mem := { w.mem with journal := s.journal } })

def finishRecovery (state : TransactionState) : M Unit := do
  setJournal fun j => { j with state }
  persistJournal

def recoverJournal (P : Platform) (report : RecoveryReport) (s : StoredJournal) :
    M RecoveryReport :=
  if s.leased then pure report
  else do
    openJournal s
    match s.journal.state with
    | .committing =>
      match ← (rollbackJournal P).attempt with
      | .ok _ =>
        finishRecovery .aborted
        pure { report with
          recovered := report.recovered ++ ["rolled back " ++ s.journal.transactionId] }
      | .error _ =>
        finishRecovery .recoveryRequired
        pure { report with
          requiresManual := report.requiresManual ++ [s.journal.transactionId] }
    | .recoveryRequired =>
      pure { report with requiresManual := report.requiresManual ++ [s.journal.transactionId] }
    | _ => pure report

/-- The loop of `recover_at_startup` over the incomplete journals. -/
def recoverJournals (P : Platform) : RecoveryReport → List StoredJournal → M RecoveryReport
  | report, [] => pure report
  | report, s :: rest => do
    let report ← recoverJournal P report s
    recoverJournals P report rest

def recoverAtStartup (P : Platform) (stored : List StoredJournal) : M RecoveryReport :=
  recoverJournals P ⟨[], []⟩ stored

def JournalOperation.touches (e : JournalOperation) : List WorkspacePath :=
  e.operation.path :: if e.operation.kind = .rename then e.operation.destination.toList else []

/-- The digest is that of the journaled state of `p` before or after the operation. -/
def JournalOperation.knows (P : Platform) (backups : BackupName → Option FileData)
    (e : JournalOperation) (p : WorkspacePath) (digest : ContentDigest) : Prop :=
  p = e.operation.path ∧ (e.expectedDigest = some digest ∨
      e.operation.kind.writes = true ∧ e.operation.newDigest = some digest) ∨
    e.operation.kind = .rename ∧ e.operation.destination = some p ∧
      (e.expectedDigest = some digest ∨ ∃ name file, e.renameDestination = some (.file name) ∧
        backups name = some file ∧ P.digest file.bytes = digest)

/-- Undoing the operation removes what is at `p`, a directory with all that is in it. -/
def JournalOperation.removes (e : JournalOperation) (p : WorkspacePath) : Prop :=
  e.operation.kind = .create ∧ e.backupPath = none ∧ p = e.operation.path ∨
    e.operation.kind = .rename ∧ e.renameDestination = some .absent ∧
      e.operation.destination = some p

/-- Undoing the operation at `p` concerns `q`. -/
def JournalOperation.reaches (e : JournalOperation) (p q : WorkspacePath) : Prop :=
  q = p ∨ e.removes p ∧ p ∈ Located.above q

/-- The paths of an operation at which recovery does not compare the content where it lets the
operation through: all of them where it is marked as completed, and those that the check of an
operation in progress leaves out. -/
def JournalOperation.unchecked (P : Platform) (fs : Workspace) (e : JournalOperation) :
    List WorkspacePath :=
  if e.rolledBack then []
  else if e.completed then e.touches
  else if e.started = some true then
    match e.operation.kind with
    | .create => []
    | .replace | .edit | .delete => if e.expectedDigest = none then [e.operation.path] else []
    | .rename =>
      if e.expectedDigest = none then e.touches
      else if (observe P (fs.node e.operation.path)).present then e.operation.destination.toList
      else []
    | .modeChange =>
      if e.expectedDigest = none ∨ (observe P (fs.node e.operation.path)).mode = e.operation.newMode
      then [e.operation.path] else []
  else []

variable {m : M Unit} {e e' : JournalOperation} {s : PathState}
  {backups : BackupName → Option FileData} {l' l : List JournalOperation}

section Guarded

/-- Files, each at its path. -/
abbrev Files := WorkspacePath → FileData → Prop

variable {R : Files} {fs fs' : Workspace} {p : WorkspacePath} {w : World}

def Guards (R : Files) (fs : Workspace) : Prop :=
  ∀ q f, R q f → fs.node q = some (.file f)

theorem Guards.makeParents (h : Guards R fs) (hp : fs.makeParents p = some fs') : Guards R fs' := by
  intro q f hq
  have hnode := h q f hq
  exact (FileTree.makeParents_keeps hp (by simp [hnode])).trans hnode

theorem Guards.put {n : Entry} (h : Guards R fs) (hput : fs.put p n = some fs')
    (hp : ∀ f, ¬ R p f) : Guards R fs' := by
  intro q f hq
  have hne : q ≠ p := fun heq => hp f (heq ▸ hq)
  exact (FileTree.put_frame hput hne).trans (h q f hq)

theorem Guards.remove (h : Guards R fs)
    (hp : ∀ q f, q = p ∨ p ∈ Located.above q → ¬ R q f) : Guards R (fs.remove p) := by
  intro q f hq
  have hclear : ¬ (q = p ∨ p ∈ Located.above q) := fun hbelow => hp q f hbelow hq
  simpa [FileTree.remove, hclear] using h q f hq

/-- The files of `R` are left alone, however the procedure ends; where it returns, `Q` holds. -/
def Leaves {α : Type} (R : Files) (Q : α → World → Prop) (w : World) (m : M α) : Prop :=
  m.wp (fun a w' => Guards R w'.disk.files ∧ Q a w') (fun _ w' => Guards R w'.disk.files)
    (fun w' => Guards R w'.disk.files) w

/-- The procedure leaves the files of `R`, and the journal and the backups too. -/
def Sparing (R : Files) (w : World) (m : M Unit) : Prop :=
  Leaves R (fun _ w' => w'.mem = w.mem ∧ w'.disk.backups = w.disk.backups) w m

theorem FileStep.leaves {g : Workspace → Option Workspace} {partly : Workspace → Workspace → Prop}
    {Q : Unit → World → Prop} (hm : FileStep g partly m)
    (hg : ∀ fs' w', g w.disk.files = some fs' → FilesTo w w' fs' → Guards R fs' ∧ Q () w')
    (hpartly : ∀ fs', partly w.disk.files fs' → Guards R fs') : Leaves R Q w m := by
  refine wp_mono (hm w) ?_ ?_ ?_
  · intro _ w' hpost
    obtain ⟨fs, hfs, h⟩ := hpost
    rw [h.files]
    exact hg fs w' hfs h
  · intro _ w' hpost
    obtain ⟨-, fs, hfs, h⟩ := hpost
    rw [h.files]
    exact hpartly fs hfs
  · intro w' hpost
    obtain ⟨-, fs, hfs, h⟩ := hpost
    rw [h.files]
    exact hpartly fs hfs

theorem Sparing.andThen {m' : M Unit} (hm : Sparing R w m)
    (hm' : ∀ w', Guards R w'.disk.files → Sparing R w' m') : Sparing R w (m >>= fun _ => m') := by
  refine wp_seq hm fun _ w₁ hpost => ?_
  obtain ⟨hguards, hmem, hbackups⟩ := hpost
  refine wp_imp (hm' w₁ hguards) fun _ w₂ hpost₂ => ?_
  exact ⟨hpost₂.1, hpost₂.2.1.trans hmem, hpost₂.2.2.trans hbackups⟩

/-- Undoing the operation concerns no file of `R`. -/
def Safe (R : Files) (e : JournalOperation) : Prop :=
  ∀ p ∈ e.touches, ∀ q f, e.reaches p q → ¬ R q f

theorem Safe.removes (h : Safe R e) (hp : p ∈ e.touches) (hremoves : e.removes p)
    (q : WorkspacePath) (f : FileData) (hq : q = p ∨ p ∈ Located.above q) : ¬ R q f :=
  h p hp q f (hq.imp_right fun hbelow => ⟨hremoves, hbelow⟩)

/-- The operation has nothing to be undone, or undoing it concerns no file of `R`. -/
def Cleared (R : Files) (e : JournalOperation) : Prop :=
  e.rolledBack = true ∨ e.completed = false ∧ e.started = some false ∨ Safe R e

/-- The files of `R` are unknown to the operation, and none is where recovery does not look. -/
structure Undisturbed (P : Platform) (R : Files)
    (backups : BackupName → Option FileData) (fs : Workspace) (e : JournalOperation) : Prop where
  unknown : ∀ q f, R q f → ¬ e.knows P backups q (P.digest f.bytes)
  unchecked : ∀ p ∈ e.unchecked P fs, ∀ q f, e.reaches p q → ¬ R q f

theorem pathState_ok (h : pathState P fs p = .ok s) : s = observe P (fs.node p) := by
  unfold pathState at h
  obtain ⟨q, hq, hs⟩ := bind_eq_ok.mp h
  rw [resolveUnderRoot_eq hq] at hs
  exact (Except.ok.inj hs).symm

abbrev JournalOperation.InProgress (e : JournalOperation) : Prop :=
  e.completed = false ∧ e.rolledBack = false ∧ e.started = some true

/-- What the check of an operation in progress has found where it lets recovery go on. -/
inductive Progress (P : Platform) (fs : Workspace) (e : JournalOperation) :
    JournalOperation → Prop where
  | settled (flags : (e.completed || e.rolledBack || e.started = some false) = true) :
      Progress P fs e e
  | applied (going : e.InProgress)
      (found : looksApplied P fs e (observe P (fs.node e.operation.path)) = .ok true) :
      Progress P fs e (markCompleted e)
  | untouched (going : e.InProgress) (found : revalidatePrecondition P fs e = .ok ()) :
      Progress P fs e e

theorem revalidate_digest {d : ContentDigest} (h : revalidatePrecondition P fs e = .ok ())
    (hd : e.expectedDigest = some d) :
    (observe P (fs.node e.operation.path)).digest = some d := by
  unfold revalidatePrecondition at h
  obtain ⟨s, hs, h⟩ := bind_eq_ok.mp h
  rw [pathState_ok hs, hd] at h
  dsimp only at h
  split at h
  · cases h
  · split at h
    · cases h
    · rename_i hsame
      exact Decidable.not_not.mp hsame

theorem revalidate_create (h : revalidatePrecondition P fs e = .ok ())
    (hd : e.expectedDigest = none) (hkind : e.operation.kind = .create) :
    (observe P (fs.node e.operation.path)).present = false := by
  unfold revalidatePrecondition at h
  obtain ⟨s, hs, h⟩ := bind_eq_ok.mp h
  rw [pathState_ok hs, hd] at h
  dsimp only at h
  split at h
  · cases h
  · rename_i hfree
    simpa [hkind] using hfree

theorem looksApplied_content (hwrites : e.operation.kind.writes = true)
    (h : looksApplied P fs e s = .ok true) :
    e.operation.newDigest ≠ none ∧ s.digest = e.operation.newDigest := by
  have hfound : (s.present && e.operation.newDigest.isSome &&
      decide (s.digest = e.operation.newDigest)) = true := by
    cases hkind : e.operation.kind with
    | create | replace | edit => simpa only [looksApplied, hkind, Except.ok.injEq] using h
    | delete | rename | modeChange => simp [hkind, StagedOperationKind.writes] at hwrites
  obtain ⟨hpresent, hsame⟩ := Bool.and_eq_true_iff.mp hfound
  obtain ⟨-, hsome⟩ := Bool.and_eq_true_iff.mp hpresent
  exact ⟨Option.isSome_iff_ne_none.mp hsome, of_decide_eq_true hsame⟩

theorem looksApplied_mode (hkind : e.operation.kind = .modeChange)
    (h : looksApplied P fs e s = .ok true) :
    s.mode = e.operation.newMode := by
  have hfound : (s.present && decide (s.mode = e.operation.newMode)) = true := by
    simpa only [looksApplied, hkind, Except.ok.injEq] using h
  exact of_decide_eq_true (Bool.and_eq_true_iff.mp hfound).2

theorem looksApplied_rename {d : WorkspacePath} (hkind : e.operation.kind = .rename)
    (hdest : e.operation.destination = some d) (h : looksApplied P fs e s = .ok true) :
    e.expectedDigest ≠ none ∧ (observe P (fs.node d)).digest = e.expectedDigest := by
  simp only [looksApplied, hkind, hdest] at h
  obtain ⟨t, ht, h⟩ := bind_eq_ok.mp h
  rw [← pathState_ok ht]
  have hfound : ((s.present = false ∧ t.present = true) ∧ e.expectedDigest.isSome = true) ∧
      t.digest = e.expectedDigest := by simpa using h
  exact ⟨Option.isSome_iff_ne_none.mp hfound.1.2, hfound.2⟩

theorem Progress.path_clear {f : FileData} (h : Progress P fs e e') (hgoing : e.InProgress)
    (hu : Undisturbed P R backups fs e) (hg : Guards R fs) : ¬ R e.operation.path f := by
  intro hR
  have hnode := hg _ f hR
  obtain ⟨hcompleted, hrolled, hstarted⟩ := hgoing
  have hunknown := hu.unknown _ f hR
  have hlooked : e.operation.path ∉ e.unchecked P fs := fun hmem =>
    hu.unchecked _ hmem _ f (.inl rfl) hR
  cases h with
  | settled flags => simp [hcompleted, hrolled, hstarted] at flags
  | applied _ found =>
    rw [hnode] at found
    cases hkind : e.operation.kind with
    | create | replace | edit =>
      have hwrites : e.operation.kind.writes = true := by
        rw [hkind]
        rfl
      have hdigest := (looksApplied_content hwrites found).2
      exact hunknown (.inl ⟨rfl, .inr ⟨hwrites, hdigest.symm⟩⟩)
    | delete => simp [looksApplied, hkind, observe] at found
    | rename =>
      cases hdest : e.operation.destination with
      | none => simp [looksApplied, hkind, hdest] at found
      | some =>
        simp only [looksApplied, hkind, hdest] at found
        obtain ⟨t, -, ht⟩ := bind_eq_ok.mp found
        simp [observe] at ht
    | modeChange =>
      have hmode := looksApplied_mode hkind found
      rw [← hnode] at hmode
      refine hlooked ?_
      simp [unchecked, hcompleted, hrolled, hstarted, hkind, hmode]
  | untouched _ found =>
    cases hexpected : e.expectedDigest with
    | some =>
      have hdigest := revalidate_digest found hexpected
      rw [hnode] at hdigest
      exact hunknown (.inl ⟨rfl, .inl (hexpected.trans hdigest.symm)⟩)
    | none =>
      cases hkind : e.operation.kind with
      | create =>
        have hfree := revalidate_create found hexpected hkind
        rw [hnode] at hfree
        cases hfree
      | _ =>
        refine hlooked ?_
        simp [unchecked, touches, hcompleted, hrolled, hstarted, hkind, hexpected]

section
variable (h : Progress P fs e e')
include h

theorem Progress.create_no_dir (hgoing : e.InProgress) (hkind : e.operation.kind = .create) :
    fs.node e.operation.path ≠ some .dir := by
  intro hdir
  cases h with
  | settled flags => simp [hgoing] at flags
  | applied _ found =>
    have hwrites : e.operation.kind.writes = true := by
      rw [hkind]
      rfl
    rw [hdir] at found
    obtain ⟨hsome, hdigest⟩ := looksApplied_content hwrites found
    exact hsome hdigest.symm
  | untouched _ found =>
    cases hexpected : e.expectedDigest with
    | some =>
      have hdigest := revalidate_digest found hexpected
      rw [hdir] at hdigest
      cases hdigest
    | none =>
      have hfree := revalidate_create found hexpected hkind
      rw [hdir] at hfree
      cases hfree

theorem Progress.destination_clear {q : WorkspacePath} {f : FileData} (hgoing : e.InProgress)
    (hu : Undisturbed P R backups fs e) (hg : Guards R fs) (hkind : e.operation.kind = .rename)
    (hdest : e.operation.destination = some p) (hreach : e.reaches p q) : ¬ R q f := by
  intro hR
  have hlooked : p ∉ e.unchecked P fs := fun hmem => hu.unchecked p hmem q f hreach hR
  cases h with
  | settled flags => simp [hgoing] at flags
  | applied _ found =>
    obtain ⟨hsome, hdigest⟩ := looksApplied_rename hkind hdest found
    obtain rfl | ⟨-, hbelow⟩ := hreach
    · rw [hg q f hR] at hdigest
      exact hu.unknown q f hR (.inr ⟨hkind, hdest, .inl hdigest.symm⟩)
    · rw [fs.closed q _ (hg q f hR) p hbelow] at hdigest
      exact hsome hdigest.symm
  | untouched _ found =>
    refine hlooked ?_
    cases hexpected : e.expectedDigest with
    | none => simp [unchecked, touches, hgoing, hkind, hexpected, hdest]
    | some =>
      have hdigest := revalidate_digest found hexpected
      have hpresent : (observe P (fs.node e.operation.path)).present = true := by
        cases hnode : fs.node e.operation.path with
        | none => simp [hnode, observe] at hdigest
        | some => cases ‹Entry› <;> rfl
      simp [unchecked, hgoing, hkind, hexpected, hpresent, hdest]

theorem Progress.cleared (hu : Undisturbed P R backups fs e) (hg : Guards R fs) : Cleared R e := by
  by_cases hrolled : e.rolledBack = true
  · exact .inl hrolled
  by_cases hcompleted : e.completed = true
  · refine .inr (.inr fun p hp => hu.unchecked p ?_)
    simpa [unchecked, hrolled, hcompleted] using hp
  by_cases hwaiting : e.started = some false
  · exact .inr (.inl ⟨by simpa using hcompleted, hwaiting⟩)
  have hgoing : e.InProgress := by
    cases h with
    | settled flags => simp [hrolled, hcompleted, hwaiting] at flags
    | applied going | untouched going => exact going
  refine .inr (.inr fun p hp q f hreach hR => ?_)
  obtain rfl | hp := List.mem_cons.mp hp
  · obtain rfl | ⟨hremoves, hbelow⟩ := hreach
    · exact h.path_clear hgoing hu hg hR
    · -- a file below the path makes it a directory
      have hdir := fs.closed q _ (hg q f hR) _ hbelow
      obtain ⟨hkind, -, -⟩ | ⟨hkind, habsent, hdest⟩ := hremoves
      · exact h.create_no_dir hgoing hkind hdir
      · exact h.destination_clear hgoing hu hg hkind hdest
          (.inr ⟨.inr ⟨hkind, habsent, hdest⟩, hbelow⟩) hR
  · have hkind : e.operation.kind = .rename := by
      by_contra hne
      simp [hne] at hp
    simp only [hkind, if_true] at hp
    exact h.destination_clear hgoing hu hg hkind (Option.mem_toList.mp hp) hreach hR

theorem Progress.same : e' = e ∨ e' = markCompleted e := by
  cases h with
  | settled | untouched => exact .inl rfl
  | applied => exact .inr rfl

end

end Guarded

namespace Demo

/-- The creation of a file with the content `[1]`, marked as completed. -/
def creation (path : WorkspacePath) : JournalOperation where
  index := 0
  operation := ⟨.create, path, none, none, some (platform.digest [1]), some path, none, none⟩
  backupPath := none
  renameDestination := none
  expectedDigest := none
  newContentPath := .none
  started := some true
  completed := true
  rolledBack := false

/-- The renaming of `a`, with the content `[1]`, to `b`, begun. -/
def moving : JournalOperation :=
  { creation ['a'] with
    operation := ⟨.rename, ['a'], some ['b'], some (platform.digest [1]), none, none, none, none⟩
    expectedDigest := some (platform.digest [1])
    completed := false }

def interrupted (transactionId : String) (e : JournalOperation) : StoredJournal :=
  ⟨{ journal with transactionId, state := .committing, operations := [e] }, fun _ => none, false⟩

def stored : List StoredJournal := [interrupted "txn" moving, interrupted "other" (creation ['c'])]

end Demo

end Tetonic.Txn
