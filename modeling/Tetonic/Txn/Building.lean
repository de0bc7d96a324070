import Tetonic.Txn.Applying
set_option autoImplicit false

/-! Building the journal of a commit: its entries are the pending operations in order, each with
backups of what it is going to change. Nothing else is written. -/

namespace Tetonic.Txn
open Lib Proc

variable {P : Platform} {w w' : World}

/-- Only the journal in memory and the backups have changed. -/
structure Prepares (w w' : World) : Prop where
  txn : w'.mem.txn = w.mem.txn
  disk : ∃ B, w'.disk = { w.disk with backups := B }
  calm : w.Calm → w'.Calm

theorem Prepares.refl (w : World) : Prepares w w := ⟨rfl, ⟨w.disk.backups, rfl⟩, id⟩

variable {v u : World}

theorem Prepares.trans (h : Prepares u v) (h' : Prepares v w) : Prepares u w := by
  obtain ⟨B, hB⟩ := h.disk
  obtain ⟨B', hB'⟩ := h'.disk
  exact ⟨h'.txn.trans h.txn, ⟨B', by rw [hB', hB]⟩, fun hc => h'.calm (h.calm hc)⟩

theorem Prepares.files (h : Prepares w w') : w'.disk.files = w.disk.files := by
  obtain ⟨B, hB⟩ := h.disk
  rw [hB]

theorem Prepares.content (h : Prepares w w') : w'.disk.content = w.disk.content := by
  obtain ⟨B, hB⟩ := h.disk
  rw [hB]

structure BacksUp (w w' : World) (name : BackupName) (file : FileData) : Prop where
  prepares : Prepares w w'
  journal : w'.mem.journal = w.mem.journal
  stored : w'.disk.backups name = some file
  others : ∀ n, n ≠ name → w'.disk.backups n = w.disk.backups n

variable {file : FileData} {name : BackupName}

theorem writeBackup_wp :
    (writeBackup name file).wp (fun _ w' => BacksUp w w' name file) (fun _ => Prepares w)
      (Prepares w) w := by
  have hkept : Prepares w (w.wrote w.disk) := ⟨rfl, ⟨_, rfl⟩, fun hc => Machine.Calm.wrote hc _⟩
  have hmade : ∀ d, d = { w.disk with
      backups := fun n => if n = name then some file else w.disk.backups n } →
      BacksUp w (w.wrote d) name file := by
    rintro d rfl
    exact ⟨⟨rfl, ⟨_, rfl⟩, fun hc => Machine.Calm.wrote hc _⟩, rfl, by simp,
      fun n hn => by simp [hn]⟩
  refine wp_atomic (fun e he => by cases he) (fun d hd _ => ?_) (fun d e _ hd _ => ?_)
    (fun d _ hd _ => ?_) <;> cases hd
  · exact hmade _ rfl
  · exact ⟨hkept, (hmade _ rfl).prepares⟩
  · exact ⟨hkept, (hmade _ rfl).prepares⟩

/-- Backups written for the operation of index `i` only. -/
structure PreparesAt (i : Nat) (w w' : World) : Prop where
  prepares : Prepares w w'
  journal : w'.mem.journal = w.mem.journal
  others : ∀ n : BackupName, n.1 ≠ i → w'.disk.backups n = w.disk.backups n

theorem PreparesAt.refl (i : Nat) (w : World) : PreparesAt i w w :=
  ⟨.refl w, rfl, fun _ _ => rfl⟩

variable {i : Nat}

theorem PreparesAt.trans (h : PreparesAt i u v) (h' : PreparesAt i v w) : PreparesAt i u w :=
  ⟨h.prepares.trans h'.prepares, h'.journal.trans h.journal,
    fun n hn => (h'.others n hn).trans (h.others n hn)⟩

theorem BacksUp.preparesAt (h : BacksUp w w' name file) : PreparesAt name.1 w w' :=
  ⟨h.prepares, h.journal, fun n hn => h.others n fun heq => hn (by rw [heq])⟩

/-- The backup of the original: nothing where there is no file, or nothing to lose. -/
def OriginalBacked (o : Workspace) (B : BackupName → Option FileData) (i : Nat)
    (op : StagedOperation) : Option BackupName → Prop
  | none => op.kind = .create ∨ openFile o op.path = none
  | some name => op.kind ≠ .create ∧ name = (i, .original) ∧
      ∃ file, B name = some file ∧ openFile o op.path = some file

variable {op : StagedOperation}

theorem backupOriginal_wp :
    (backupOriginal i op).wp
      (fun r w' => PreparesAt i w w' ∧ OriginalBacked w.disk.files w'.disk.backups i op r)
      (fun _ => Prepares w) (Prepares w) w := by
  unfold backupOriginal
  split
  · exact ⟨.refl i w, .inl ‹_›⟩
  · rename_i hkind
    refine resolved_wp ?_ fun _ => .refl w
    cases hopen : openFile w.disk.files op.path with
    | none => exact ⟨.refl i w, .inr hopen⟩
    | some file =>
      dsimp only
      refine wp_seq writeBackup_wp fun _ w' h => ?_
      exact ⟨h.preparesAt, hkind, rfl, file, h.stored, hopen⟩

def DestinationBacked (o : Workspace) (B : BackupName → Option FileData) (i : Nat)
    (op : StagedOperation) (backup : Option RenameDestinationBackup) : Prop :=
  op.kind = .rename → ∃ target, op.destination = some target ∧
    (backup = some .absent ∧ pathExists o target = false ∨
      ∃ file, backup = some (.file (i, .destination)) ∧ B (i, .destination) = some file ∧
        openFile o target = some file)

theorem backupDestination_wp :
    (backupDestination i op).wp (fun r w' => PreparesAt i w w' ∧ (∀ r, r ≠ .destination →
          w'.disk.backups (i, r) = w.disk.backups (i, r)) ∧
        DestinationBacked w.disk.files w'.disk.backups i op r)
      (fun _ => Prepares w) (Prepares w) w := by
  unfold backupDestination
  split
  · rename_i hkind
    cases hdest : op.destination with
    | none => exact .refl w
    | some target =>
      dsimp only
      refine resolved_wp ?_ fun _ => .refl w
      split
      · cases hopen : openFile w.disk.files target with
        | none => exact .refl w
        | some file =>
          cases hlink : isSymlinkOrReparse w.disk.files target with
          | true => exact .refl w
          | false =>
            dsimp only
            refine wp_seq writeBackup_wp fun _ w' h => ?_
            refine ⟨h.preparesAt, fun r hr => h.others _ (by simpa using hr), fun _ => ?_⟩
            exact ⟨target, hdest, .inr ⟨file, rfl, h.stored, hopen⟩⟩
      · rename_i hexists
        refine ⟨.refl i w, fun _ _ => rfl, fun _ => ⟨target, hdest, .inl ⟨rfl, ?_⟩⟩⟩
        simpa using hexists
  · rename_i hkind
    exact ⟨.refl i w, fun _ _ => rfl, fun h => absurd h hkind⟩

def ContentBacked (d : Disk) (i : Nat) (op : StagedOperation) (source : ContentSource) : Prop :=
  d.source source = op.source d.content ∧ ∀ name, source = .copy name → name = (i, .content)

theorem copyContent_wp :
    (copyContent i op).wp (fun r w' => PreparesAt i w w' ∧ (∀ r, r ≠ .content →
          w'.disk.backups (i, r) = w.disk.backups (i, r)) ∧ ContentBacked w'.disk i op r)
      (fun _ => Prepares w) (Prepares w) w := by
  unfold copyContent
  cases hpath : op.newContentPath with
  | none =>
    refine ⟨.refl i w, fun _ _ => rfl, ?_, fun _ h => by cases h⟩
    simp [Disk.source, StagedOperation.source, hpath]
  | some source =>
    dsimp only
    rw [wp_bind, wp_disk]
    cases hcontent : w.disk.content source with
    | none =>
      refine ⟨.refl i w, fun _ _ => rfl, ?_, fun _ h => by cases h⟩
      simp [Disk.source, StagedOperation.source, hpath]
    | some =>
      dsimp only
      refine wp_seq writeBackup_wp fun _ w' h => ?_
      refine ⟨h.preparesAt, fun r hr => h.others _ (by simpa using hr), ?_, ?_⟩
      · simp [Disk.source, StagedOperation.source, hpath, h.prepares.content, hcontent, h.stored]
      · intro name hname
        cases hname
        rfl

/-- An entry as it is built for `op`: nothing done yet, everything backed up from `o`. -/
structure Built (o : Workspace) (d : Disk) (e : JournalOperation) : Prop where
  expected : e.expectedDigest = e.operation.baseDigest
  original : OriginalBacked o d.backups e.index e.operation e.backupPath
  destination : DestinationBacked o d.backups e.index e.operation e.renameDestination
  source : ContentBacked d e.index e.operation e.newContentPath

def JournalOperation.fresh (e : JournalOperation) : Prop :=
  e.started = some false ∧ e.completed = false ∧ e.rolledBack = false

variable {d : Disk} {e : JournalOperation} {o : Workspace}

theorem Built.mono {d' : Disk} (h : Built o d e)
    (hbackups : ∀ r, d'.backups (e.index, r) = d.backups (e.index, r))
    (hcontent : d'.content = d.content) : Built o d' e where
  expected := h.expected
  original := by
    have horiginal := h.original
    unfold OriginalBacked at horiginal ⊢
    split at horiginal
    · exact horiginal
    · obtain ⟨hkind, rfl, file, hfile⟩ := horiginal
      exact ⟨hkind, rfl, file, by rw [hbackups]; exact hfile⟩
  destination := by
    intro hkind
    obtain ⟨target, htarget, hcase⟩ := h.destination hkind
    refine ⟨target, htarget, hcase.imp_right ?_⟩
    rintro ⟨file, hfile⟩
    exact ⟨file, by rw [hbackups]; exact hfile⟩
  source := by
    obtain ⟨hsource, hname⟩ := h.source
    refine ⟨?_, hname⟩
    rw [hcontent, ← hsource]
    cases hs : e.newContentPath with
    | none => rfl
    | staged => simp [Disk.source, hcontent]
    | copy name =>
      rw [hname name hs]
      simp [Disk.source, hbackups]

structure BuildsEntry (i : Nat) (op : StagedOperation) (w w' : World) : Prop where
  prepares : Prepares w w'
  others : ∀ n : BackupName, n.1 ≠ i → w'.disk.backups n = w.disk.backups n
  entry : ∃ e, w'.mem.journal = w.mem.journal.push e ∧ e.index = i ∧ e.operation = op ∧ e.fresh ∧
    Built w.disk.files w'.disk e

theorem buildEntry_wp :
    (buildEntry i op).wp (fun _ => BuildsEntry i op w) (fun _ => Prepares w) (Prepares w) w := by
  rw [buildEntry]
  refine wp_seq backupOriginal_wp fun backupPath w₁ hpost => ?_
  obtain ⟨h₁, horiginal⟩ := hpost
  rw [wp_bind]
  refine wp_mono backupDestination_wp ?_ (fun _ _ h => h₁.prepares.trans h)
    fun _ h => h₁.prepares.trans h
  intro renameDestination w₂ hpost
  obtain ⟨h₂, hroles₂, hdestination⟩ := hpost
  rw [wp_bind]
  have h₁₂ := h₁.trans h₂
  refine wp_mono copyContent_wp ?_ (fun _ _ h => h₁₂.prepares.trans h)
    fun _ h => h₁₂.prepares.trans h
  intro source w₃ hpost
  obtain ⟨h₃, hroles₃, hsource⟩ := hpost
  have h := h₁₂.trans h₃
  rw [setJournal, wp_setMem]
  refine ⟨⟨h.prepares.txn, h.prepares.disk, h.prepares.calm⟩, h.others,
    ⟨i, op, backupPath, renameDestination, op.baseDigest, source, some false, false, false⟩,
    congrArg (CommitJournal.push · _) h.journal, rfl, rfl, ⟨rfl, rfl, rfl⟩, rfl, ?_, ?_, hsource⟩
  · -- the original of this operation was written first and is not overwritten
    have hkept : w₃.disk.backups (i, .original) = w₁.disk.backups (i, .original) :=
      (hroles₃ _ (by simp)).trans (hroles₂ _ (by simp))
    cases backupPath with
    | none => exact horiginal
    | some =>
      obtain ⟨hkind, rfl, file, hfile, hopen⟩ := horiginal
      exact ⟨hkind, rfl, file, hkept.trans hfile, hopen⟩
  · intro hkind
    obtain ⟨target, htarget, hcase⟩ := hdestination hkind
    rw [h₁.prepares.files] at hcase
    refine ⟨target, htarget, hcase.imp_right ?_⟩
    intro hpost
    obtain ⟨file, hname, hfile, hopen⟩ := hpost
    exact ⟨file, hname, (hroles₃ _ (by simp)).trans hfile, hopen⟩

/-- A journal built for `ops` on the workspace `o`. -/
structure BuiltJournal (o : Workspace) (d : Disk) (ops : List StagedOperation)
    (entries : List JournalOperation) : Prop where
  operations : entries.map (·.operation) = ops
  indices : entries.map (·.index) = List.range ops.length
  fresh : ∀ e ∈ entries, e.fresh
  built : ∀ e ∈ entries, Built o d e

variable {ops : List StagedOperation}

theorem BuiltJournal.index_lt {entries : List JournalOperation} (h : BuiltJournal o d ops entries)
    (he : e ∈ entries) : e.index < ops.length := by
  have hmem : e.index ∈ entries.map (·.index) := List.mem_map_of_mem he
  rwa [h.indices, List.mem_range] at hmem

theorem BuiltJournal.push (h : BuiltJournal w.disk.files w.disk ops w.mem.journal.operations)
    (hentry : BuildsEntry ops.length op w w') :
    BuiltJournal w.disk.files w'.disk (ops ++ [op]) w'.mem.journal.operations := by
  obtain ⟨e, hjournal, hindex, hoperation, hfresh, hbuilt⟩ := hentry.entry
  rw [hjournal]
  constructor
  · simp [CommitJournal.push, h.operations, hoperation]
  · simp [CommitJournal.push, h.indices, hindex, List.range_succ]
  · intro x hx
    simp only [CommitJournal.push, List.mem_append, List.mem_singleton] at hx
    obtain hx | rfl := hx
    · exact h.fresh x hx
    · exact hfresh
  · intro x hx
    simp only [CommitJournal.push, List.mem_append, List.mem_singleton] at hx
    obtain hx | rfl := hx
    · have hlt := h.index_lt hx
      refine (h.built x hx).mono (fun r => hentry.others _ ?_) hentry.prepares.content
      simp only
      omega
    · exact hbuilt

theorem buildEntries_wp (rest done : List StagedOperation)
    (h : BuiltJournal w.disk.files w.disk done w.mem.journal.operations) :
    (forEach (fun e : StagedOperation × Nat => buildEntry e.2 e.1)
      (rest.zipIdx done.length)).wp
      (fun _ w' => Prepares w w' ∧
        (∃ entries, w'.mem.journal = { w.mem.journal with operations := entries }) ∧
        BuiltJournal w.disk.files w'.disk (done ++ rest) w'.mem.journal.operations)
      (fun _ => Prepares w) (Prepares w) w := by
  induction rest generalizing w done with
  | nil => exact ⟨.refl w, ⟨_, rfl⟩, by simpa using h⟩
  | cons op rest ih =>
    rw [List.zipIdx_cons, forEach]
    refine wp_seq buildEntry_wp fun _ w₁ h₁ => ?_
    obtain ⟨e, hjournal, -⟩ := h₁.entry
    have hbuilt := h.push h₁
    rw [← h₁.prepares.files] at hbuilt
    have hrest := ih (done ++ [op]) hbuilt
    rw [List.length_append, List.length_singleton] at hrest
    refine wp_mono hrest ?_ (fun _ _ h => h₁.prepares.trans h) fun _ h => h₁.prepares.trans h
    intro _ w₂ hpost
    obtain ⟨hprepares, ⟨entries, hentries⟩, hall⟩ := hpost
    refine ⟨h₁.prepares.trans hprepares, ⟨entries, ?_⟩, ?_⟩
    · rw [hentries, hjournal]
      rfl
    · rw [h₁.prepares.files] at hall
      simpa using hall

theorem buildJournal_wp {sets : ReadWriteSets} :
    (buildJournal sets).wp (fun _ w' => Prepares w w' ∧ w'.mem.journal.state = .committing ∧
        w'.mem.journal.patchDigest = w.mem.journal.patchDigest ∧
        BuiltJournal w.disk.files w'.disk sets.operationsInOrder w'.mem.journal.operations)
      (fun _ => Prepares w) (Prepares w) w := by
  rw [buildJournal, setJournal, wp_bind, wp_setMem, wp_bind]
  have hempty : BuiltJournal w.disk.files w.disk [] [] :=
    ⟨rfl, rfl, by simp, by simp⟩
  refine wp_mono (buildEntries_wp sets.operationsInOrder [] hempty) ?_
    (fun _ _ h => ⟨h.txn, h.disk, h.calm⟩) fun _ h => ⟨h.txn, h.disk, h.calm⟩
  intro _ w₁ hpost
  obtain ⟨h₁, ⟨entries, hentries⟩, hbuilt⟩ := hpost
  have hprepares : Prepares w w₁ := ⟨h₁.txn, h₁.disk, h₁.calm⟩
  have hwrote : Prepares w (w₁.wrote w₁.disk) :=
    ⟨h₁.txn, h₁.disk, fun hc => Machine.Calm.wrote (h₁.calm hc) _⟩
  rw [wp_bind]
  refine wp_atomic (fun e he => by cases he) (fun d hd _ => ?_) (fun d e _ hd _ => ?_)
    (fun d _ hd _ => ?_) <;> cases hd
  · rw [setJournal, wp_setMem]
    refine ⟨⟨hwrote.txn, hwrote.disk, hwrote.calm⟩, rfl, ?_, hbuilt⟩
    simp [hentries]
  all_goals exact ⟨hwrote, hwrote⟩

end Tetonic.Txn
