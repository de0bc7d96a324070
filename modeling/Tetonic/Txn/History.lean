import Tetonic.Txn.Changes
set_option autoImplicit false

/-! The life of a transaction: its operations, in any order and with any outcome, between changes
of the workspace by others. -/

namespace Tetonic.Txn
open Lib Proc

variable {P : Platform} {w w' : World}

/-- One operation that came back: what it was, what became of its writes, whether it returned
`Ok`, and the transaction before and after. -/
structure Event where
  operation : Operation
  fates : List (Medium → Fate TransactionError)
  returned : Bool
  (before after : WorkspaceTransaction)

def Event.changed (e : Event) : Prop := e.after.sets.writes ≠ e.before.sets.writes

def World.outside (w : World) (files : Workspace) (version : WorkspaceVersion) : World :=
  { w with disk := { w.disk with files, version } }

def World.facing (w : World) (fates : List (Medium → Fate TransactionError)) : World :=
  { w with fates }

/-- The worlds a transaction comes to, with its past, the latest operation first. A crash ends the
process and the transaction with it. -/
inductive Run (P : Platform) : World → List Event → Prop where
  | begins (id : TransactionId) (limits : SecurityLimits) (d : Disk) (j : CommitJournal) :
      Run P ⟨d, ⟨beginTransaction id limits d, j⟩, []⟩ []
  | outside {w : World} {past : List Event} (run : Run P w past) (files : Workspace)
      (version : WorkspaceVersion) : Run P (w.outside files version) past
  | returned {w w' : World} {past : List Event} (run : Run P w past) (op : Operation)
      (fates : List (Medium → Fate TransactionError))
      (call : perform P op (w.facing fates) = (.ok (), w')) :
      Run P w' (⟨op, fates, true, w.mem.txn, w'.mem.txn⟩ :: past)
  | failed {w w' : World} {past : List Event} (run : Run P w past) (op : Operation)
      (fates : List (Medium → Fate TransactionError)) {e : TransactionError}
      (call : perform P op (w.facing fates) = (.error (.failed e), w')) :
      Run P w' (⟨op, fates, false, w.mem.txn, w'.mem.txn⟩ :: past)

variable {C : World → Prop} {Q : Unit → World → Prop} {E : TransactionError → World → Prop}

theorem overlay_wp (hok : Q () (w.wrote w.disk)) (herr : ∀ e, E e (w.wrote w.disk))
    (hno : ∀ e, E e w) (hcrash : C (w.wrote w.disk)) : (materializeOverlay P).wp Q E C w := by
  rw [materializeOverlay, wp_bind, wp_mem, wp_bind, wp_disk, wp_bind]
  exact wp_ofExcept (fun _ _ => persistRecord_wp hok (fun e _ => herr e) hcrash) fun e _ => hno e

/-- What beginning a verification does, however it ends. -/
structure Begins (w w' : World) : Prop where
  disk : w'.disk = w.disk
  sets : w'.mem.txn.sets = w.mem.txn.sets
  id : w'.mem.txn.id = w.mem.txn.id
  baseVersion : w'.mem.txn.baseVersion = w.mem.txn.baseVersion
  approval : w'.mem.txn.approval = none
  verification : w'.mem.txn.verification = none
  verificationRequired : w'.mem.txn.verificationRequired = true
  state : w'.mem.txn.state = w.mem.txn.state ∨
    w'.mem.txn.state = .verifying ∧ w.mem.txn.state.canBecome .verifying = true

theorem beginVerification_wp :
    (beginVerification P).wp (fun _ => Begins w) (fun _ => Begins w) (fun _ => True) w := by
  rw [beginVerification, setTxn, wp_bind, wp_setMem, wp_bind, wp_mem]
  split
  · refine overlay_wp ?_ (fun _ => ?_) (fun _ => ?_) trivial <;>
      exact ⟨rfl, rfl, rfl, rfl, rfl, rfl, rfl, .inl rfl⟩
  · rw [wp_bind]
    refine transition_wp (fun _ _ => ⟨rfl, rfl, rfl, rfl, rfl, rfl, rfl, .inl rfl⟩) (fun hcan => ?_)
      (fun hcan _ _ => ⟨rfl, rfl, rfl, rfl, rfl, rfl, rfl, .inr ⟨rfl, hcan⟩⟩) trivial
    rw [wp_bind, wp_disk, wp_bind]
    refine wp_ofExcept (fun snapshot _ => ?_) fun _ _ =>
      ⟨rfl, rfl, rfl, rfl, rfl, rfl, rfl, .inr ⟨rfl, hcan⟩⟩
    rw [setTxn, wp_bind, wp_setMem]
    refine overlay_wp ?_ (fun _ => ?_) (fun _ => ?_) trivial <;>
      exact ⟨rfl, rfl, rfl, rfl, rfl, rfl, rfl, .inr ⟨rfl, hcan⟩⟩

def World.finished (w : World) (record : VerificationRecord) (s : TransactionState) : World :=
  { w with mem := { w.mem with txn :=
    { w.mem.txn with verification := some record, state := s } } }

/-- What finishing a verification does, by how it ends. -/
inductive Finishes (w : World) (record : VerificationRecord) : Bool → World → Prop where
  | passed {w' : World} (success : record.success = true)
      (verifying : w.mem.txn.state = .verifying) (disk : w'.disk = w.disk)
      (txn : w'.mem.txn = (w.finished record .readyToCommit).mem.txn) :
      Finishes w record true w'
  | rejected {w' : World} (failure : record.success = false)
      (can : w.mem.txn.state.canBecome .rejected = true) (disk : w'.disk = w.disk)
      (txn : w'.mem.txn = (w.finished record .rejected).mem.txn) : Finishes w record true w'
  | refused : Finishes w record false w
  | stale {w' : World} {r : VerificationRecord} {s : TransactionState}
      (same : r.success = record.success) (disk : w'.disk = w.disk)
      (txn : w'.mem.txn = (w.finished r s).mem.txn)
      (state : s = w.mem.txn.state ∨ w.mem.txn.state.canBecome s = true ∧
        (s = .readyToCommit ∧ record.success = true ∧ w.fate .records ≠ .made ∨ s = .rejected)) :
      Finishes w record false w'

theorem canBecome_ready {s : TransactionState} (h : s.canBecome .readyToCommit = true) :
    s = .verifying := by
  cases s <;> simp_all [TransactionState.canBecome]

theorem finishVerification_wp {record : VerificationRecord} :
    (finishVerification P record).wp (fun _ => Finishes w record true)
      (fun _ => Finishes w record false) (fun _ => True) w := by
  rw [finishVerification, wp_bind, wp_mem, wp_bind, wp_disk, wp_bind]
  refine wp_ofExcept (fun unexpected _ => ?_) fun _ _ => .refused
  split
  · rw [setTxn, wp_bind, wp_setMem]
    split
    · rename_i hsuccess
      exact transition_wp (fun _ _ => .stale rfl rfl rfl (.inl rfl))
        (fun hcan => .passed hsuccess (canBecome_ready hcan) rfl rfl)
        (fun hcan _ hfate => .stale rfl rfl rfl (.inr ⟨hcan, .inl ⟨rfl, hsuccess, hfate⟩⟩)) trivial
    · rename_i hsuccess
      exact transition_wp (fun _ _ => .stale rfl rfl rfl (.inl rfl))
        (fun hcan => .rejected (by simpa using hsuccess) hcan rfl rfl)
        (fun hcan _ _ => .stale rfl rfl rfl (.inr ⟨hcan, .inr rfl⟩)) trivial
  · rw [setTxn, wp_bind, wp_setMem, wp_bind]
    have hstale : ∀ s w', w'.disk = w.disk →
        w'.mem.txn = (w.finished { record with unexpectedMutations := unexpected } s).mem.txn →
        (s = w.mem.txn.state ∨ w.mem.txn.state.canBecome s = true ∧
          (s = .readyToCommit ∧ record.success = true ∧ w.fate .records ≠ .made ∨ s = .rejected)) →
        Finishes w record false w' :=
      fun s w' hdisk htxn hs =>
        .stale (r := { record with unexpectedMutations := unexpected }) rfl hdisk htxn hs
    exact transition_wp (fun _ _ => hstale _ _ rfl rfl (.inl rfl))
      (fun hcan => hstale _ _ rfl rfl (.inr ⟨hcan, .inr rfl⟩))
      (fun hcan _ _ => hstale _ _ rfl rfl (.inr ⟨hcan, .inr rfl⟩)) trivial

def World.approved (w : World) (a : PatchApproval) : World :=
  { w with mem := { w.mem with txn := { w.mem.txn with approval := some a } } }

variable {a : PatchApproval}

theorem bindApproval_wp (hok : checkApproval P w.mem.txn a = .ok () → Q () (w.approved a))
    (herr : ∀ e, E e w) :
    (bindApproval P a).wp Q E C w := by
  rw [bindApproval, wp_bind, wp_mem, wp_bind]
  exact wp_ofExcept (fun _ h => hok h) fun e _ => herr e

variable {t : WorkspaceTransaction}

theorem checkApproval_patch (h : checkApproval P t a = .ok ()) : a.patchDigest = t.patch P := by
  unfold checkApproval at h
  cases hready : checkVerificationReady t with
  | error => simp [hready, bind, Except.bind] at h
  | ok =>
    simp only [hready, bind, Except.bind] at h
    by_contra hne
    split at h <;> cases h

theorem checkApproval_ready (h : checkApproval P t a = .ok ()) :
    checkVerificationReady t = .ok () := by
  unfold checkApproval at h
  cases hready : checkVerificationReady t with
  | error => simp [hready, bind, Except.bind] at h
  | ok => rfl

theorem checkVerificationReady_iff :
    checkVerificationReady t = .ok () ↔ (t.verificationRequired = true → t.verified = true) := by
  unfold checkVerificationReady
  cases t.verificationRequired <;> cases t.verified <;> simp

theorem recordRead_wp {rel : List Char}
    (hok : ∀ p, validatePath w.disk.files rel = .ok p → Q () { w with mem := { w.mem with txn :=
      { w.mem.txn with sets := recordedRead P w.disk.files w.mem.txn.sets p } } })
    (herr : ∀ e, E e w) : (recordRead P rel).wp Q E C w := by
  rw [recordRead, wp_bind]
  refine checkedPath_wp (fun p hp => ?_) herr
  rw [wp_bind, wp_disk, setSets, wp_setMem]
  exact hok p hp

theorem recordedRead_writes {fs : Workspace} {s : ReadWriteSets} {p : WorkspacePath} :
    (recordedRead P fs s p).writes = s.writes := by
  simp only [recordedRead, ReadWriteSets.read]
  split
  · rfl
  · split
    · rfl
    · split
      · split <;> rfl
      · rfl

/-- What aborting does, however it ends: the state is the old one or aborted, and staged content
is only removed in an end state. -/
structure Aborts (w w' : World) : Prop where
  files : w'.disk.files = w.disk.files
  version : w'.disk.version = w.disk.version
  content : w'.mem.txn.state = .committed ∨ w'.mem.txn.state = .aborted ∨
    w'.disk.content = w.disk.content
  txn : ∃ s, w'.mem.txn = { w.mem.txn with state := s } ∧ (s = w.mem.txn.state ∨ s = .aborted)

theorem removeStagingDir_wp (hok : Q () (w.wrote { w.disk with content := fun _ => none }))
    (herr : ∀ e, E e (w.wrote w.disk) ∧ E e (w.wrote { w.disk with content := fun _ => none }))
    (hcrash : C (w.wrote w.disk) ∧ C (w.wrote { w.disk with content := fun _ => none })) :
    removeStagingDir.wp Q E C w := by
  refine wp_atomic (fun e he => by cases he) (fun d hd _ => ?_) (fun d e _ hd _ => ?_)
    (fun d _ hd _ => ?_) <;> cases hd
  · exact hok
  · exact herr e
  · exact hcrash

theorem abort_wp : abort.wp (fun _ => Aborts w) (fun _ => Aborts w) (fun _ => True) w := by
  have hremove : ∀ w₁ : World, w₁.disk = w.disk →
      (∃ s, w₁.mem.txn = { w.mem.txn with state := s } ∧ (s = w.mem.txn.state ∨ s = .aborted)) →
      (w₁.mem.txn.state = .committed ∨ w₁.mem.txn.state = .aborted) →
      removeStagingDir.wp (fun _ => Aborts w) (fun _ => Aborts w) (fun _ => True) w₁ := by
    intro w₁ hdisk htxn hstate
    have hend : ∀ d : Disk, d.files = w.disk.files → d.version = w.disk.version →
        Aborts w (w₁.wrote d) := fun d hfiles hversion =>
      ⟨hfiles, hversion, hstate.imp_right .inl, htxn⟩
    have hkept := hend w₁.disk (by rw [hdisk]) (by rw [hdisk])
    have hgone := hend { w₁.disk with content := fun _ => none } (by simp [hdisk]) (by simp [hdisk])
    exact removeStagingDir_wp hgone (fun _ => ⟨hkept, hgone⟩) ⟨trivial, trivial⟩
  have hsame : Aborts w w := ⟨rfl, rfl, .inr (.inr rfl), w.mem.txn.state, rfl, .inl rfl⟩
  have htransition : (do transition .aborted
                         removeStagingDir : M Unit).wp (fun _ => Aborts w) (fun _ => Aborts w)
      (fun _ => True) w := by
    rw [wp_bind]
    refine transition_wp (fun _ _ => hsame) (fun _ => ?_) (fun _ _ _ => ?_) trivial
    · exact hremove _ rfl ⟨.aborted, rfl, .inr rfl⟩ (.inr rfl)
    · exact ⟨rfl, rfl, .inr (.inl rfl), .aborted, rfl, .inr rfl⟩
  rw [abort, wp_bind, wp_mem]
  cases hs : w.mem.txn.state with
  | committed => exact hremove w rfl ⟨_, rfl, .inl rfl⟩ (.inl hs)
  | aborted => exact hremove w rfl ⟨_, rfl, .inl rfl⟩ (.inr hs)
  | committing | recoveryRequired => exact hsame
  | created | staging | staged | verifying | readyToCommit | rejected | conflict =>
    exact htransition

end Tetonic.Txn
