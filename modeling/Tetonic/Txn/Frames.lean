import Tetonic.Txn.History
set_option autoImplicit false

/-! What the journal's procedures leave alone: the transaction in memory, staged content and the
repository, whatever happens to them on the way. -/

namespace Tetonic.Txn
open Lib

variable {P : Platform} {w w' : World}

structure KeepsTxn (w w' : World) : Prop where
  txn : w'.mem.txn = w.mem.txn
  content : w'.disk.content = w.disk.content
  version : w'.disk.version = w.disk.version

variable {α β : Type} {m : M α}

namespace KeepsTxn

theorem refl (w : World) : KeepsTxn w w := ⟨rfl, rfl, rfl⟩

theorem trans {u v : World} (h : KeepsTxn u v) (h' : KeepsTxn v w) : KeepsTxn u w :=
  ⟨h'.txn.trans h.txn, h'.content.trans h.content, h'.version.trans h.version⟩

theorem andThen {f : α → M β} (hm : m.Within KeepsTxn) (hf : ∀ a, (f a).Within KeepsTxn) :
    (m >>= f).Within KeepsTxn :=
  Proc.Within.bind (fun h h' => trans h h') hm hf

theorem disk_bind {f : Disk → M β} (hf : ∀ d, (f d).Within KeepsTxn) :
    (Proc.disk >>= f).Within KeepsTxn :=
  andThen (fun w => refl w) hf

theorem mem_bind {f : Memory → M β} (hf : ∀ m, (f m).Within KeepsTxn) :
    (Proc.mem >>= f).Within KeepsTxn :=
  andThen (fun w => refl w) hf

theorem check_bind (r : Except TransactionError α) {f : α → M β} (hf : ∀ a, (f a).Within KeepsTxn) :
    (Proc.ofExcept r >>= f).Within KeepsTxn :=
  andThen (Proc.within_ofExcept refl r) hf

theorem done (a : α) : (pure a : M α).Within KeepsTxn := fun w => refl w

theorem stopped (e : TransactionError) : (Proc.fail e : M α).Within KeepsTxn :=
  fun w => refl w

theorem forEach {f : α → M Unit} (hf : ∀ a, (f a).Within KeepsTxn) (l : List α) :
    (Proc.forEach f l).Within KeepsTxn :=
  Proc.Within.forEach refl (fun h h' => trans h h') hf l

end KeepsTxn

open KeepsTxn

theorem changeFiles_keeps {f : Workspace → Option Workspace} {text : String} :
    (changeFiles f text).Within KeepsTxn := by
  refine Proc.within_atomic refl (fun w d hd => ?_) fun w => ⟨rfl, rfl, rfl⟩
  obtain ⟨fs, -, rfl⟩ := changedFiles_eq_ok.mp hd
  exact ⟨rfl, rfl, rfl⟩

variable {p : WorkspacePath}

theorem publish_keeps {source : Option FileData} {restoring : Bool} :
    (publish p source restoring).Within KeepsTxn :=
  andThen changeFiles_keeps fun _ => check_bind _ fun _ => disk_bind fun _ => changeFiles_keeps

theorem publicationRemove_keeps : (publicationRemove p).Within KeepsTxn := by
  refine disk_bind fun d => ?_
  split
  · split
    · exact done ()
    · exact stopped _
  · exact changeFiles_keeps

theorem publicationRename_keeps {q : WorkspacePath} : (publicationRename p q).Within KeepsTxn :=
  andThen changeFiles_keeps fun _ => changeFiles_keeps

theorem changeMode_keeps {mode : Nat} : (changeMode p mode).Within KeepsTxn := by
  refine disk_bind fun d => ?_
  split
  · exact changeFiles_keeps
  · exact changeFiles_keeps
  · exact stopped _

theorem setJournal_keeps {f : CommitJournal → CommitJournal} : (setJournal f).Within KeepsTxn :=
  fun _ => ⟨rfl, rfl, rfl⟩

theorem persistJournal_keeps : persistJournal.Within KeepsTxn := by
  refine mem_bind fun m => Proc.within_atomic refl (fun w d hd => ?_) fun w => ⟨rfl, rfl, rfl⟩
  cases hd
  exact ⟨rfl, rfl, rfl⟩

theorem writeBackup_keeps {name : BackupName} {file : FileData} :
    (writeBackup name file).Within KeepsTxn := by
  refine Proc.within_atomic refl (fun w d hd => ?_) fun w => ⟨rfl, rfl, rfl⟩
  cases hd
  exact ⟨rfl, rfl, rfl⟩

variable {i : Nat} {op : StagedOperation}

theorem backupOriginal_keeps : (backupOriginal i op).Within KeepsTxn := by
  unfold backupOriginal
  split
  · exact done _
  · refine disk_bind fun d => check_bind _ fun abs => ?_
    split
    · exact done _
    · exact andThen writeBackup_keeps fun _ => done _

theorem backupDestination_keeps : (backupDestination i op).Within KeepsTxn := by
  unfold backupDestination
  split
  · split
    · exact stopped _
    · refine disk_bind fun d => check_bind _ fun dest => ?_
      split
      · split
        · exact andThen writeBackup_keeps fun _ => done _
        · exact stopped _
      · exact done _
  · exact done _

theorem copyContent_keeps : (copyContent i op).Within KeepsTxn := by
  unfold copyContent
  split
  · exact done _
  · refine disk_bind fun d => ?_
    split
    · exact done _
    · exact andThen writeBackup_keeps fun _ => done _

theorem buildEntry_keeps : (buildEntry i op).Within KeepsTxn :=
  andThen backupOriginal_keeps fun _ => andThen backupDestination_keeps fun _ =>
    andThen copyContent_keeps fun _ => setJournal_keeps

theorem buildJournal_keeps {sets : ReadWriteSets} : (buildJournal sets).Within KeepsTxn := by
  refine andThen setJournal_keeps fun _ => andThen (forEach (fun _ => buildEntry_keeps) _) fun _ =>
    andThen (Proc.within_atomic refl (fun w d hd => ?_) fun w => ⟨rfl, rfl, rfl⟩) fun _ =>
      setJournal_keeps
  cases hd
  exact ⟨rfl, rfl, rfl⟩

variable {e : JournalOperation}

theorem applyOne_keeps : (applyOne P e).Within KeepsTxn := by
  refine disk_bind fun d => check_bind _ fun _ => check_bind _ fun abs => ?_
  cases e.operation.kind with
  | create | replace | edit => exact publish_keeps
  | delete => exact publicationRemove_keeps
  | rename =>
    cases e.operation.destination with
    | none => exact stopped _
    | some => exact check_bind _ fun dest => publicationRename_keeps
  | modeChange =>
    cases e.operation.newMode with
    | none => exact stopped _
    | some => exact changeMode_keeps

theorem applyEntry_keeps : (applyEntry P e).Within KeepsTxn :=
  disk_bind fun _ => check_bind _ fun _ => andThen setJournal_keeps fun _ =>
    andThen persistJournal_keeps fun _ => andThen applyOne_keeps fun _ =>
      andThen setJournal_keeps fun _ => persistJournal_keeps

theorem applyJournalOperation_keeps : (applyJournalOperation P i).Within KeepsTxn := by
  refine mem_bind fun m => ?_
  split
  · exact stopped _
  · split
    · exact done _
    · exact applyEntry_keeps

theorem applyJournal_keeps : (applyJournal P).Within KeepsTxn :=
  mem_bind fun _ => andThen (forEach (fun _ => applyJournalOperation_keeps) _) fun _ =>
    andThen setJournal_keeps fun _ => persistJournal_keeps

theorem reconcileIndex_keeps : (reconcileIndex P i).Within KeepsTxn := by
  refine mem_bind fun m => ?_
  split
  · exact done _
  · exact disk_bind fun _ => check_bind _ fun _ => setJournal_keeps

theorem rollbackRename_keeps {abs : WorkspacePath} : (rollbackRename e abs).Within KeepsTxn := by
  unfold rollbackRename
  split
  · exact stopped _
  · refine disk_bind fun d => check_bind _ fun dest => ?_
    split
    · exact stopped _
    · exact stopped _
    · exact andThen publish_keeps fun _ => publicationRemove_keeps
    · split
      · exact stopped _
      · exact andThen publish_keeps fun _ => publish_keeps

theorem rollbackOne_keeps : (rollbackOne e).Within KeepsTxn := by
  refine disk_bind fun d => check_bind _ fun abs => ?_
  split
  · exact rollbackRename_keeps
  · split
    · exact publish_keeps
    · split
      · exact publicationRemove_keeps
      · exact stopped _

theorem rollbackIndex_keeps : (rollbackIndex i).Within KeepsTxn := by
  refine mem_bind fun m => ?_
  split
  · exact stopped _
  · exact andThen rollbackOne_keeps fun _ => andThen setJournal_keeps fun _ => persistJournal_keeps

theorem rollbackJournal_keeps : (rollbackJournal P).Within KeepsTxn :=
  andThen (mem_bind fun _ => forEach (fun _ => reconcileIndex_keeps) _) fun _ =>
    mem_bind fun _ => forEach (fun _ => rollbackIndex_keeps) _

/-- What a commit makes of the transaction when it fails: an approval may have been bound to the
patch as it is, and the state may have moved on towards the commit. -/
structure CommitKeeps (P : Platform) (w w' : World) : Prop where
  sets : w'.mem.txn.sets = w.mem.txn.sets
  id : w'.mem.txn.id = w.mem.txn.id
  baseVersion : w'.mem.txn.baseVersion = w.mem.txn.baseVersion
  verification : w'.mem.txn.verification = w.mem.txn.verification
  verificationRequired : w'.mem.txn.verificationRequired = w.mem.txn.verificationRequired
  approval : w'.mem.txn.approval = w.mem.txn.approval ∨
    ∃ a, w'.mem.txn.approval = some a ∧ checkApproval P w.mem.txn a = .ok ()
  state : w'.mem.txn.state = w.mem.txn.state ∨ w'.mem.txn.state = .committing ∨
    w'.mem.txn.state = .committed ∨ w'.mem.txn.state = .recoveryRequired
  content : w'.mem.txn.state = .committed ∨ w'.disk.content = w.disk.content

structure CommitReady (P : Platform) (w w' : World) : Prop where
  disk : w'.disk = w.disk
  approval : ∃ a, w'.mem.txn = { w.mem.txn with approval := some a } ∧
    (w.mem.txn.approval = some a ∨ checkApproval P w.mem.txn a = .ok ())
  conflicts : detectConflicts P w.disk w.mem.txn.baseVersion w.mem.txn.sets = .ok ()
  fates : w'.fates = w.fates.tail

variable {C : World → Prop} {E : TransactionError → World → Prop}

theorem ensureCommitApproval_wp {Q : Unit → World → Prop}
    (hbound : ∀ a, w.mem.txn.approval = some a → Q () w)
    (hown : ∀ a, checkApproval P w.mem.txn a = .ok () → Q () (w.approved a)) (herr : ∀ e, E e w) :
    (ensureCommitApproval P).wp Q E C w := by
  rw [ensureCommitApproval, Proc.wp_bind, Proc.wp_mem]
  cases ha : w.mem.txn.approval with
  | some a => exact hbound a ha
  | none => exact bindApproval_wp (fun h => hown _ h) herr

theorem CommitKeeps.refl (w : World) : CommitKeeps P w w :=
  ⟨rfl, rfl, rfl, rfl, rfl, .inl rfl, .inl rfl, .inr rfl⟩

variable {s : TransactionState}

theorem CommitKeeps.of_approved {a : PatchApproval}
    (htxn : w'.mem.txn = { w.mem.txn with approval := some a, state := s })
    (ha : w.mem.txn.approval = some a ∨ checkApproval P w.mem.txn a = .ok ())
    (hs : s = w.mem.txn.state ∨ s = .committing ∨ s = .committed ∨ s = .recoveryRequired)
    (hcontent : s = .committed ∨ w'.disk.content = w.disk.content) : CommitKeeps P w w' := by
  refine ⟨by rw [htxn], by rw [htxn], by rw [htxn], by rw [htxn], by rw [htxn], ?_, by rwa [htxn],
    by rwa [htxn]⟩
  obtain ha | ha := ha
  · exact .inl (by rw [htxn, ha])
  · exact .inr ⟨a, by rw [htxn], ha⟩

theorem commitChecks_wp :
    (commitChecks P).wp (fun _ => CommitReady P w) (fun _ => CommitKeeps P w)
      (fun _ => True) w := by
  have hrest : ∀ w₁ : World, w₁.disk = w.disk → w₁.fates = w.fates →
      (∃ a, w₁.mem.txn = { w.mem.txn with approval := some a } ∧
        (w.mem.txn.approval = some a ∨ checkApproval P w.mem.txn a = .ok ())) →
      (do let m ← Proc.mem
          if m.txn.state ≠ .readyToCommit && m.txn.state ≠ .staged &&
              m.txn.sets.writes.isEmpty then
            Proc.fail (.other "empty transaction")
          else
            persistRecord
            let d ← Proc.disk
            Proc.ofExcept (detectConflicts P d m.txn.baseVersion m.txn.sets) : M Unit).wp
        (fun _ => CommitReady P w) (fun _ => CommitKeeps P w) (fun _ => True) w₁ := by
    rintro w₁ hdisk hfates ⟨a, htxn, ha⟩
    have hkeeps : ∀ w' : World, w'.mem = w₁.mem → w'.disk = w.disk → CommitKeeps P w w' := by
      intro w' hmem hdisk'
      exact .of_approved (by rw [hmem, htxn]) ha (.inl rfl) (.inr (by rw [hdisk']))
    rw [Proc.wp_bind, Proc.wp_mem]
    split
    · exact hkeeps w₁ rfl hdisk
    · rw [Proc.wp_bind]
      refine persistRecord_wp ?_ (fun _ _ => hkeeps _ rfl hdisk) trivial
      rw [Proc.wp_bind, Proc.wp_disk]
      refine Proc.wp_ofExcept (fun _ hc =>
        ⟨hdisk, ⟨a, htxn, ha⟩, ?_, by simp [Machine.wrote, hfates]⟩)
        fun _ _ => hkeeps _ rfl hdisk
      rwa [htxn, Machine.wrote_disk, hdisk] at hc
  rw [commitChecks, Proc.wp_bind]
  refine ensureCommitApproval_wp (fun a ha => ?_) (fun a ha => ?_) fun _ => .refl w
  · exact hrest w rfl rfl ⟨a, by rw [← ha], .inl ha⟩
  · exact hrest _ rfl rfl ⟨a, rfl, .inr ha⟩

/-- A commit that has begun to commit: the state it is in now. -/
structure Committing (P : Platform) (w w' : World) : Prop where
  ready : w.mem.txn.state = .staged ∨ w.mem.txn.state = .readyToCommit
  conflicts : detectConflicts P w.disk w.mem.txn.baseVersion w.mem.txn.sets = .ok ()
  approval : ∃ a, w'.mem.txn = { w.mem.txn with approval := some a, state := .committing } ∧
    (w.mem.txn.approval = some a ∨ checkApproval P w.mem.txn a = .ok ())
  content : w'.disk.content = w.disk.content
  version : w'.disk.version = w.disk.version

theorem canBecome_committing (h : s.canBecome .committing = true) :
    s = .staged ∨ s = .readyToCommit := by
  cases s <;> simp_all [TransactionState.canBecome]

variable {w'' : World}

theorem Committing.mono (h : Committing P w w') (hk : KeepsTxn w' w'') :
    Committing P w w'' where
  ready := h.ready
  conflicts := h.conflicts
  approval := by
    obtain ⟨a, htxn, ha⟩ := h.approval
    exact ⟨a, hk.txn.trans htxn, ha⟩
  content := hk.content.trans h.content
  version := hk.version.trans h.version

theorem Committing.keeps (h : Committing P w w')
    (htxn : w''.mem.txn = { w'.mem.txn with state := s })
    (hs : s = .committing ∨ s = .committed ∨ s = .recoveryRequired)
    (hcontent : s = .committed ∨ w''.disk.content = w'.disk.content) : CommitKeeps P w w'' := by
  obtain ⟨a, ha, hbound⟩ := h.approval
  rw [ha] at htxn
  exact .of_approved htxn hbound (.inr hs) (hcontent.imp_right fun hc => hc.trans h.content)

theorem Committing.keeps_self (h : Committing P w w') : CommitKeeps P w w' := by
  obtain ⟨a, ha, -⟩ := h.approval
  exact h.keeps (s := .committing) (by rw [ha]) (.inl rfl) (.inr rfl)

theorem Committing.wp_bind {f : α → M β} {Q : β → World → Prop} (h : Committing P w w')
    (hm : m.Within KeepsTxn)
    (hf : ∀ a u, Committing P w u → (f a).wp Q (fun _ => CommitKeeps P w) (fun _ => True) u) :
    (m >>= f).wp Q (fun _ => CommitKeeps P w) (fun _ => True) w' := by
  rw [Proc.wp_bind]
  exact Proc.wp_mono (hm.wp w') (fun a u hk => hf a u (h.mono hk))
    (fun _ _ hk => (h.mono hk).keeps_self) fun _ _ => trivial

/-- What a commit that returned has done to the transaction, and what it has checked. -/
structure Committed (P : Platform) (w w' : World) : Prop where
  ready : w.mem.txn.state = .staged ∨ w.mem.txn.state = .readyToCommit
  conflicts : detectConflicts P w.disk w.mem.txn.baseVersion w.mem.txn.sets = .ok ()
  approval : ∃ a, w'.mem.txn = { w.mem.txn with approval := some a, state := .committed } ∧
    (w.mem.txn.approval = some a ∨ checkApproval P w.mem.txn a = .ok ())

variable {w₁ : World}

theorem commitApplied_wp (h : Committing P w w₁) :
    (commitApplied P).wp (fun _ w' => Committed P w w' ∧ w'.disk.files = w₁.disk.files ∧
        w'.disk.journal = w₁.disk.journal ∧ w'.disk.backups = w₁.disk.backups)
      (fun _ => CommitKeeps P w) (fun _ => True) w₁ := by
  obtain ⟨a, ha, hbound⟩ := h.approval
  rw [commitApplied, Proc.wp_bind]
  refine transition_wp (fun hno => ?_) (fun _ => ?_) (fun _ _ _ => ?_) trivial
  · simp [ha, TransactionState.canBecome] at hno
  · rw [Proc.wp_bind]
    refine removeStagingDir_wp ?_ (fun _ => ⟨?_, ?_⟩) ⟨trivial, trivial⟩
    · rw [Proc.wp_bind, Proc.wp_mem, Proc.wp_bind, Proc.wp_disk, Proc.wp_bind]
      refine persistRecord_wp ?_ (fun _ _ => ?_) trivial
      · refine ⟨⟨h.ready, h.conflicts, a, ?_, hbound⟩, rfl, rfl, rfl⟩
        simp [World.inState, ha]
      · exact h.keeps rfl (.inr (.inl rfl)) (.inl rfl)
    all_goals exact h.keeps rfl (.inr (.inl rfl)) (.inl rfl)
  · exact h.keeps rfl (.inr (.inl rfl)) (.inl rfl)

theorem commitFailed_wp {e : TransactionError} {Q : CommitResult → World → Prop}
    (h : Committing P w w₁) :
    (commitFailed P e).wp Q (fun _ => CommitKeeps P w) (fun _ => True) w₁ := by
  unfold commitFailed
  refine h.wp_bind rollbackJournal_keeps.attempt fun _ w₂ h₂ => ?_
  refine h₂.wp_bind setJournal_keeps fun _ w₃ h₃ => ?_
  refine h₃.wp_bind persistJournal_keeps fun _ w₄ hlast => ?_
  rw [Proc.wp_bind]
  exact transition_wp (fun _ _ => hlast.keeps_self)
    (fun _ => hlast.keeps rfl (.inr (.inr rfl)) (.inr rfl))
    (fun _ _ _ => hlast.keeps rfl (.inr (.inr rfl)) (.inr rfl)) trivial

theorem commitBegins_wp :
    (commitBegins P).wp (fun _ w' => Committing P w w' ∧ w'.disk = w.disk)
      (fun _ => CommitKeeps P w) (fun _ => True) w := by
  rw [commitBegins]
  refine Proc.wp_seq commitChecks_wp fun _ w₁ h => ?_
  obtain ⟨a, ha, hbound⟩ := h.approval
  have hcommitting : w₁.mem.txn.state.canBecome .committing = true →
      Committing P w ((World.inState w₁ .committing).wrote w₁.disk) := fun hcan =>
    ⟨canBecome_committing (by rwa [ha] at hcan), h.conflicts,
      ⟨a, by simp [World.inState, ha], hbound⟩, by simp [h.disk], by simp [h.disk]⟩
  refine transition_wp (fun _ _ => ?_) (fun hcan => ⟨hcommitting hcan, h.disk⟩)
    (fun hcan _ _ => (hcommitting hcan).keeps_self) trivial
  exact .of_approved ha hbound (.inl rfl) (.inr (by rw [h.disk]))

theorem commit_wp :
    (commit P).wp (fun _ w' => Committed P w w') (fun _ => CommitKeeps P w) (fun _ => True) w := by
  rw [commit, Proc.wp_bind]
  refine Proc.wp_mono commitBegins_wp ?_ (fun _ _ h => h) fun _ h => h
  rintro _ w₁ ⟨h₁, -⟩
  rw [Proc.wp_bind, Proc.wp_mem]
  refine h₁.wp_bind setJournal_keeps fun _ w₂ h₂ => ?_
  refine h₂.wp_bind buildJournal_keeps fun _ w₃ h₃ => ?_
  refine h₃.wp_bind persistJournal_keeps fun _ w₄ h₄ => ?_
  refine h₄.wp_bind applyJournal_keeps.attempt fun r w₅ h₅ => ?_
  cases r with
  | ok =>
    exact Proc.wp_mono (commitApplied_wp h₅) (fun _ _ h => h.1) (fun _ _ h => h) fun _ h => h
  | error => exact commitFailed_wp h₅

end Tetonic.Txn
