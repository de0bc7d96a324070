import Tetonic.Txn.Service
set_option autoImplicit false

/-! What the operations do to a transaction: the pending operations and the staged content on one
side, the state, the approval and the verification on the other. -/

namespace Tetonic.Txn
open Lib Proc

variable {P : Platform} {w w' : World}

/-- The operation that a successful change leaves pending for `p`, and the content it stores. -/
inductive Change (P : Platform) (d : Disk) (s : ReadWriteSets) (p : WorkspacePath) :
    StagedOperation → Option Bytes → Prop where
  | revised {op : StagedOperation} {c : Bytes} (pending : s.writes[p]? = some op)
      (writes : op.kind.writes = true) :
      Change P d s p { op with newContentPath := some p, newDigest := some (P.digest c) } (some c)
  | created {c : Bytes} (free : s.writes[p]? = none) :
      Change P d s p (writeOperation P .create p none c) (some c)
  | replaced {c : Bytes} (free : s.writes[p]? = none) :
      Change P d s p (writeOperation P (replaceKind (d.files.node p)) p
        (replaceBase P (d.files.node p)) c) (some c)
  | edited {old new text c : Bytes} (free : s.writes[p]? = none)
      (prepared : prepareEdit P d s p old new = .ok (text, c)) :
      Change P d s p (writeOperation P (replaceKind (d.files.node p)) p (some (P.digest text)) c)
        (some c)
  | deleted : Change P d s p (plainOperation .delete p (deleteBase P d.files p)) none
  | renamed {target : WorkspacePath} {base : ContentDigest}
      (source : digestFile P d.files p = .ok base) :
      Change P d s p { plainOperation .rename p (some base) with destination := some target } none
  | moded {base : ContentDigest} {mode : Nat} (file : digestFile P d.files p = .ok base) :
      Change P d s p { plainOperation .modeChange p (some base) with
        baseMode := (d.files.node p).map fileMode, newMode := some mode } none

def Disk.staged (d : Disk) (p : WorkspacePath) : Option Bytes → Disk
  | some c => d.stage p c
  | none => d

/-- From `w` to `w'` one operation became the pending one of `p`. -/
structure Pends (P : Platform) (w w' : World) (p : WorkspacePath) (op : StagedOperation)
    (c : Option Bytes) : Prop where
  change : Change P w.disk w.mem.txn.sets p op c
  writes : w'.mem.txn.sets.writes = w.mem.txn.sets.writes.insert p op
  baselines : w'.mem.txn.sets.readBaselines = w.mem.txn.sets.readBaselines
  reads : ∀ q, w.mem.txn.sets.reads.contains q = true → w'.mem.txn.sets.reads.contains q = true
  read : w.mem.txn.sets.writes[p]? = none → w'.mem.txn.sets.reads.contains p = true
  disk : w'.disk = w.disk.staged p c

def TearsContent (fates : List (Medium → Fate TransactionError)) : Prop :=
  ∃ f ∈ fates, ∃ e k, f .content = .fails e (k + 1)

/-- The disk as it was, or with content in it whose write was cut short. -/
def Torn (w : World) (d : Disk) : Prop :=
  d = w.disk ∨ TearsContent w.fates ∧ ∃ p b, d = w.disk.stage p b

/-- The fields that staging itself leaves alone. -/
structure SameControl (t t' : WorkspaceTransaction) : Prop where
  id : t'.id = t.id
  state : t'.state = t.state
  baseVersion : t'.baseVersion = t.baseVersion
  approval : t'.approval = t.approval
  verification : t'.verification = t.verification
  verificationRequired : t'.verificationRequired = t.verificationRequired
  readSnapshot : t'.readSnapshot = t.readSnapshot

theorem SameControl.refl (t : WorkspaceTransaction) : SameControl t t :=
  ⟨rfl, rfl, rfl, rfl, rfl, rfl, rfl⟩

theorem SameControl.of_sets (t : WorkspaceTransaction) (s : ReadWriteSets) (n : Nat) :
    SameControl t { t with sets := s, stagedBytes := n } :=
  ⟨rfl, rfl, rfl, rfl, rfl, rfl, rfl⟩

theorem SameControl.trans {t t' t'' : WorkspaceTransaction} (h : SameControl t t')
    (h' : SameControl t' t'') : SameControl t t'' where
  id := h'.id.trans h.id
  state := h'.state.trans h.state
  baseVersion := h'.baseVersion.trans h.baseVersion
  approval := h'.approval.trans h.approval
  verification := h'.verification.trans h.verification
  verificationRequired := h'.verificationRequired.trans h.verificationRequired
  readSnapshot := h'.readSnapshot.trans h.readSnapshot

def Changed (P : Platform) (w w' : World) : Prop :=
  SameControl w.mem.txn w'.mem.txn ∧ ∃ p op c, Pends P w w' p op c

def Unchanged (w w' : World) : Prop :=
  SameControl w.mem.txn w'.mem.txn ∧ w'.mem.txn.sets = w.mem.txn.sets ∧ Torn w w'.disk

theorem Unchanged.refl (w : World) : Unchanged w w := ⟨.refl _, rfl, .inl rfl⟩

/-- The part of a staging operation between entering and leaving the staging state. -/
def Changes (P : Platform) (m : M Unit) : Prop :=
  ∀ w, m.wp (fun _ => Changed P w) (fun _ => Unchanged w) (fun _ => True) w

variable {C : World → Prop} {rel : List Char} {E : TransactionError → World → Prop}

theorem checkedPath_wp {Q : WorkspacePath → World → Prop}
    (hok : ∀ p, validatePath w.disk.files rel = .ok p → Q p w) (herr : ∀ e, E e w) :
    (checkedPath rel).wp Q E C w := by
  rw [checkedPath, wp_bind, wp_disk]
  exact wp_ofExcept hok fun e _ => herr e

theorem storeContent_wp {rel : WorkspacePath} {data : Bytes} :
    (storeContent rel data).wp (fun _ w' => w' = w.wrote (w.disk.stage rel data))
      (fun _ w' => w'.mem = w.mem ∧ Torn w w'.disk) (fun _ => True) w := by
  refine wp_write (fun e he => by cases he) (fun d hd _ => by cases hd; rfl)
    (fun d e n hd hf => ⟨rfl, ?_⟩) fun _ _ _ _ => trivial
  cases n with
  | zero => exact .inl rfl
  | succ k =>
    refine .inr ⟨?_, rel, data.take k, rfl⟩
    unfold Machine.fate at hf
    split at hf
    · cases hf
    · rename_i f rest hfates
      exact ⟨f, by simp [hfates], e, k, hf⟩

variable {p : WorkspacePath}

theorem resolveUnderRoot_eq {fs : Workspace} {abs : WorkspacePath}
    (h : resolveUnderRoot fs p = .ok abs) : abs = p := by
  unfold resolveUnderRoot at h
  split at h
  · cases h
  · exact (Except.ok.inj h).symm

/-- A path that resolves on the disk resolves to itself. -/
theorem resolved_wp {α : Type} {f : Disk → WorkspacePath → M α} {Q : α → World → Prop}
    (hok : (f w.disk p).wp Q E C w) (herr : ∀ e, E e w) :
    (do let d : Disk ← disk
        let abs ← ofExcept (resolveUnderRoot d.files p)
        f d abs : M α).wp Q E C w := by
  rw [wp_bind, wp_disk, wp_bind]
  refine wp_ofExcept (fun abs habs => ?_) fun e _ => herr e
  rw [resolveUnderRoot_eq habs]
  exact hok

theorem contains_read {s : ReadWriteSets} {q : WorkspacePath} (h : s.reads.contains q = true) :
    (s.read p).reads.contains q = true := by
  simp only [ReadWriteSets.read, Std.ExtTreeMap.contains_insert, Bool.or_eq_true]
  exact .inr h

def Revised (P : Platform) (w : World) (p : WorkspacePath) (done : Bool) (w' : World) : Prop :=
  if done then Changed P w w' else w' = w ∧ w.mem.txn.sets.writes[p]? = none

variable {content : Bytes}

theorem revisePendingContent_wp :
    (revisePendingContent P p content).wp (Revised P w p) (fun _ => Unchanged w)
      (fun _ => True) w := by
  rw [revisePendingContent, wp_bind, wp_mem]
  cases hop : w.mem.txn.sets.writes[p]? with
  | none => exact ⟨rfl, hop⟩
  | some op =>
    dsimp only
    split
    · rename_i hwrites
      rw [wp_bind]
      refine wp_mono storeContent_wp ?_ ?_ fun _ _ => trivial
      · rintro _ _ rfl
        rw [setSets, wp_bind, wp_setMem]
        refine ⟨.of_sets _ _ _, p, _, some content, .revised hop hwrites, rfl, rfl,
          fun q hq => hq, ?_, rfl⟩
        intro hnone
        rw [hop] at hnone
        cases hnone
      · rintro _ w' ⟨hmem, htorn⟩
        exact ⟨by rw [hmem]; exact .refl _, by rw [hmem], htorn⟩
    · exact Unchanged.refl w

variable {op : StagedOperation}

theorem put_wp (hpath : op.path = p) (h : Change P w.disk w.mem.txn.sets p op (some content)) :
    (do storeContent p content
        setSets fun s => (s.put op).read p : M Unit).wp (fun _ => Changed P w)
      (fun _ => Unchanged w) (fun _ => True) w := by
  rw [wp_bind]
  refine wp_mono storeContent_wp ?_ ?_ fun _ _ => trivial
  · rintro _ _ rfl
    rw [setSets, wp_setMem]
    refine ⟨.of_sets _ _ _, p, op, some content, h, ?_, rfl, ?_, ?_, rfl⟩
    · simp [ReadWriteSets.put, ReadWriteSets.read, hpath]
    · exact fun q hq => contains_read hq
    · intro _
      simp [ReadWriteSets.read]
  · rintro _ w' ⟨hmem, htorn⟩
    exact ⟨by rw [hmem]; exact .refl _, by rw [hmem], htorn⟩

theorem stageCreate_changes : Changes P (stageCreate P p content none) := by
  intro w
  rw [stageCreate]
  refine wp_seq revisePendingContent_wp fun done w' h => ?_
  cases done with
  | true => exact h
  | false =>
    obtain ⟨rfl, hfree⟩ := h
    rw [if_neg Bool.false_ne_true, wp_bind]
    exact wp_ofExcept (fun _ _ => put_wp rfl (.created hfree)) fun _ _ => .refl _

theorem stageReplace_wp {base : Option ContentDigest} (hbase : w.mem.txn.sets.writes[p]? = none →
      Change P w.disk w.mem.txn.sets p (writeOperation P (replaceKind (w.disk.files.node p)) p
        (base.orElse fun _ => replaceBase P (w.disk.files.node p)) content) (some content)) :
    (stageReplace P p content base).wp (fun _ => Changed P w) (fun _ => Unchanged w)
      (fun _ => True) w := by
  rw [stageReplace]
  refine wp_seq revisePendingContent_wp fun done w' h => ?_
  cases done with
  | true => exact h
  | false =>
    obtain ⟨rfl, hfree⟩ := h
    rw [if_neg Bool.false_ne_true, wp_bind]
    refine wp_ofExcept (fun _ _ => ?_) fun _ _ => .refl _
    exact resolved_wp (put_wp rfl (hbase hfree)) fun _ => .refl _

theorem stagingDelete_changes : Changes P (stagingDelete P p) := by
  intro w
  refine resolved_wp ?_ fun _ => .refl _
  rw [setSets, wp_setMem]
  exact ⟨.of_sets _ _ _, p, _, none, .deleted, rfl, rfl, fun q => contains_read,
    by simp [ReadWriteSets.read], rfl⟩

theorem stagingRename_changes {target : WorkspacePath} : Changes P (stagingRename P p target) := by
  intro w
  refine resolved_wp ?_ fun _ => .refl _
  rw [wp_bind]
  refine wp_ofExcept (fun base hbase => ?_) fun _ _ => .refl _
  rw [setSets, wp_setMem]
  exact ⟨.of_sets _ _ _, p, _, none, .renamed hbase, rfl, rfl,
    fun q hq => contains_read (contains_read hq), by simp [ReadWriteSets.read], rfl⟩

variable {mode : Nat}

theorem stagingModeChange_changes : Changes P (stagingModeChange P p mode) := by
  intro w
  refine resolved_wp ?_ fun _ => .refl _
  split
  · rw [wp_bind]
    refine wp_ofExcept (fun base hbase => ?_) fun _ _ => .refl _
    rw [setSets, wp_setMem]
    exact ⟨.of_sets _ _ _, p, _, none, .moded hbase, rfl, rfl, fun q => contains_read,
      by simp [ReadWriteSets.read], rfl⟩
  · exact Unchanged.refl w

variable {m : M Unit}

theorem wp_counted {n : Nat → Nat} (h : Changes P m) :
    m.wp (fun _ => Changed P w) (fun _ => Unchanged w) (fun _ => True)
      { w with mem := { w.mem with txn :=
        { w.mem.txn with stagedBytes := n w.mem.txn.stagedBytes } } } := by
  refine wp_mono (h _) ?_ ?_ fun _ hc => hc
  · rintro _ w' ⟨hsame, p, op, c, hpends⟩
    exact ⟨(SameControl.of_sets w.mem.txn w.mem.txn.sets _).trans hsame, p, op, c, hpends.change,
      hpends.writes, hpends.baselines, hpends.reads, hpends.read, hpends.disk⟩
  · rintro _ w' ⟨hsame, hsets, htorn⟩
    exact ⟨(SameControl.of_sets w.mem.txn w.mem.txn.sets _).trans hsame, hsets, htorn⟩

variable {existed : Bool}

theorem writeChange_changes : Changes P (writeChange P rel content existed) := by
  intro w
  rw [writeChange, wp_bind]
  refine checkedPath_wp (fun p _ => ?_) fun _ => .refl w
  rw [wp_bind, wp_mem, wp_bind]
  refine wp_ofExcept (fun _ _ => ?_) fun _ _ => .refl w
  rw [setTxn, wp_bind, wp_setMem]
  cases existed with
  | true => exact wp_counted (n := (· + content.length)) fun w => stageReplace_wp .replaced
  | false => exact wp_counted (n := (· + content.length)) stageCreate_changes

theorem editChange_changes {old new : Bytes} : Changes P (editChange P rel old new) := by
  intro w
  rw [editChange, wp_bind]
  refine checkedPath_wp (fun p _ => ?_) fun _ => .refl w
  rw [wp_bind, wp_mem, wp_bind, wp_disk, wp_bind]
  refine wp_ofExcept (fun texts htexts => ?_) fun _ _ => .refl w
  rw [wp_bind]
  refine wp_ofExcept (fun _ _ => ?_) fun _ _ => .refl w
  rw [wp_bind]
  refine wp_mono (stageReplace_wp fun hfree => .edited hfree htexts) ?_ (fun _ _ h => h)
    fun _ h => h
  rintro _ w' ⟨hsame, q, op, c, hpends⟩
  rw [setTxn, wp_setMem]
  exact ⟨hsame.trans (.of_sets _ _ _), q, op, c, hpends.change, hpends.writes, hpends.baselines,
    hpends.reads, hpends.read, hpends.disk⟩

theorem deleteChange_changes : Changes P (deleteChange P rel) := by
  intro w
  rw [deleteChange, wp_bind]
  exact checkedPath_wp (fun p _ => stagingDelete_changes w) fun _ => .refl w

theorem renameChange_changes {source target : List Char} :
    Changes P (renameChange P source target) := by
  intro w
  rw [renameChange, wp_bind]
  refine checkedPath_wp (fun p _ => ?_) fun _ => .refl w
  rw [wp_bind]
  exact checkedPath_wp (fun q _ => stagingRename_changes w) fun _ => .refl w

theorem modeChange_changes : Changes P (modeChange P rel mode) := by
  intro w
  rw [modeChange, wp_bind]
  exact checkedPath_wp (fun p _ => stagingModeChange_changes w) fun _ => .refl w

def TransactionState.editable : TransactionState → Bool
  | .created | .staged | .rejected | .readyToCommit | .staging => true
  | _ => false

/-- The evidence that editing keeps: none, unless an edit was under way already. -/
def WorkspaceTransaction.keptVerification (t : WorkspaceTransaction) : Option VerificationRecord :=
  if t.state = .staging then t.verification else none

/-- A staging operation after which its change is pending. -/
structure Restaged (P : Platform) (w w' : World) : Prop where
  editable : w.mem.txn.state.editable = true
  pends : ∃ p op c, Pends P w w' p op c
  id : w'.mem.txn.id = w.mem.txn.id
  baseVersion : w'.mem.txn.baseVersion = w.mem.txn.baseVersion
  state : w'.mem.txn.state = .staged
  approval : w'.mem.txn.approval = none
  verification : w'.mem.txn.verification = w.mem.txn.keptVerification
  verificationRequired : w'.mem.txn.verificationRequired = w.mem.txn.verificationRequired
  readSnapshot : w'.mem.txn.readSnapshot = w.mem.txn.readSnapshot

/-- A staging operation without effect on the pending operations: it was refused, or it ended in
the staging state. -/
structure NotRestaged (w w' : World) : Prop where
  sets : w'.mem.txn.sets = w.mem.txn.sets
  disk : Torn w w'.disk
  id : w'.mem.txn.id = w.mem.txn.id
  baseVersion : w'.mem.txn.baseVersion = w.mem.txn.baseVersion
  verificationRequired : w'.mem.txn.verificationRequired = w.mem.txn.verificationRequired
  readSnapshot : w'.mem.txn.readSnapshot = w.mem.txn.readSnapshot
  control : w'.mem.txn.state = w.mem.txn.state ∧ w'.mem.txn.approval = w.mem.txn.approval ∧
      w'.mem.txn.verification = w.mem.txn.verification ∨
    w.mem.txn.state.editable = true ∧ w'.mem.txn.state = .staging ∧
      w'.mem.txn.approval = none ∧ w'.mem.txn.verification = none

theorem NotRestaged.refl (w : World) : NotRestaged w w :=
  ⟨rfl, .inl rfl, rfl, rfl, rfl, rfl, .inl ⟨rfl, rfl, rfl⟩⟩

variable {Q : Unit → World → Prop}

theorem persistRecord_wp (hok : Q () (w.wrote w.disk))
    (herr : ∀ e, w.fate .records ≠ .made → E e (w.wrote w.disk))
    (hcrash : C (w.wrote w.disk)) : persistRecord.wp Q E C w := by
  refine wp_atomic (fun e he => by cases he) (fun d hd _ => ?_) (fun d e _ hd hfate => ?_)
    (fun d _ hd _ => ?_) <;> cases hd
  · exact hok
  · have hcut := herr e (by simp [hfate])
    exact ⟨hcut, hcut⟩
  · exact ⟨hcrash, hcrash⟩

def World.inState (w : World) (s : TransactionState) : World :=
  { w with mem := { w.mem with txn := { w.mem.txn with state := s } } }

theorem transition_wp {s : TransactionState}
    (hno : w.mem.txn.state.canBecome s = false → ∀ e, E e w)
    (hok : w.mem.txn.state.canBecome s = true → Q () ((w.inState s).wrote w.disk))
    (herr : w.mem.txn.state.canBecome s = true → ∀ e, w.fate .records ≠ .made →
      E e ((w.inState s).wrote w.disk))
    (hcrash : C ((w.inState s).wrote w.disk)) : (transition s).wp Q E C w := by
  rw [transition, wp_bind, wp_mem]
  by_cases h : w.mem.txn.state.canBecome s = true
  · rw [if_pos h, setTxn, wp_bind, wp_setMem, persistMeta]
    exact persistRecord_wp (hok h) (herr h) hcrash
  · rw [if_neg h]
    exact hno (by simpa using h) _

structure Entered (w w' : World) : Prop where
  disk : w'.disk = w.disk
  fates : w'.fates = w.fates ∨ w'.fates = w.fates.tail
  sets : w'.mem.txn.sets = w.mem.txn.sets
  id : w'.mem.txn.id = w.mem.txn.id
  baseVersion : w'.mem.txn.baseVersion = w.mem.txn.baseVersion
  verificationRequired : w'.mem.txn.verificationRequired = w.mem.txn.verificationRequired
  readSnapshot : w'.mem.txn.readSnapshot = w.mem.txn.readSnapshot
  editable : w.mem.txn.state.editable = true
  state : w'.mem.txn.state = .staging
  verification : w'.mem.txn.verification = w.mem.txn.keptVerification
  control : w.mem.txn.state = .staging ∧ w'.mem.txn.approval = w.mem.txn.approval ∨
    w'.mem.txn.approval = none ∧ w'.mem.txn.verification = none

theorem enterStaging_wp :
    enterStaging.wp (fun _ => Entered w) (fun _ => NotRestaged w) (fun _ => True) w := by
  have hcleared : w.mem.txn.state.canBecome .staging = true → w.mem.txn.state ≠ .staging →
      w.mem.txn.state.editable = true →
      (do setTxn fun t => { t with verification := none, approval := none }
          transition .staging : M Unit).wp (fun _ => Entered w) (fun _ => NotRestaged w)
        (fun _ => True) w := by
    intro hcan hne hedit
    rw [setTxn, wp_bind, wp_setMem]
    refine transition_wp (fun hno => ?_) (fun _ => ?_) (fun _ _ _ => ?_) trivial
    · rw [hcan] at hno
      cases hno
    · exact ⟨rfl, .inr rfl, rfl, rfl, rfl, rfl, rfl, hedit, rfl,
        by simp [WorkspaceTransaction.keptVerification, hne, World.inState], .inr ⟨rfl, rfl⟩⟩
    · exact ⟨rfl, .inl rfl, rfl, rfl, rfl, rfl, .inr ⟨hedit, rfl, rfl, rfl⟩⟩
  rw [enterStaging, wp_bind, wp_mem]
  cases hs : w.mem.txn.state with
  | created | staged | rejected | readyToCommit =>
    exact hcleared (by rw [hs]; rfl) (by rw [hs]; decide) (by rw [hs]; rfl)
  | staging =>
    exact ⟨rfl, .inl rfl, rfl, rfl, rfl, rfl, rfl, by rw [hs]; rfl, hs,
      by simp [WorkspaceTransaction.keptVerification, hs], .inl ⟨hs, rfl⟩⟩
  | verifying | committing | committed | aborted | conflict | recoveryRequired =>
    exact NotRestaged.refl w

theorem Entered.torn {d : Disk} (h : Entered w w') (ht : Torn w' d) : Torn w d := by
  unfold Torn at *
  rw [h.disk] at ht
  refine ht.imp_right fun ⟨⟨f, hf, hcut⟩, hstaged⟩ => ⟨⟨f, ?_, hcut⟩, hstaged⟩
  obtain heq | heq := h.fates
  · rwa [heq] at hf
  · rw [heq] at hf
    exact List.mem_of_mem_tail hf

variable {w'' : World}

theorem Entered.pends {c : Option Bytes} (h : Entered w w') (hp : Pends P w' w'' p op c) :
    Pends P w w'' p op c where
  change := by
    have := hp.change
    rwa [h.disk, h.sets] at this
  writes := by rw [hp.writes, h.sets]
  baselines := by rw [hp.baselines, h.sets]
  reads := by
    intro q hq
    exact hp.reads q (by rwa [h.sets])
  read := by
    intro hnone
    exact hp.read (by rwa [h.sets])
  disk := by rw [hp.disk, h.disk]

theorem Entered.restaged {w₁ w₂ : World} (h : Entered w w₁) (hc : Changed P w₁ w₂)
    (hdisk : w'.disk = w₂.disk)
    (htxn : w'.mem.txn = { w₂.mem.txn with approval := none, state := .staged }) :
    Restaged P w w' := by
  obtain ⟨hsame, p, op, c, hp⟩ := hc
  have hp := h.pends hp
  exact
    { editable := h.editable
      pends := ⟨p, op, c, hp.change, by rw [htxn, hp.writes], by rw [htxn, hp.baselines],
        fun q hq => by rw [htxn]; exact hp.reads q hq,
        fun hq => by rw [htxn]; exact hp.read hq, by rw [hdisk, hp.disk]⟩
      id := by rw [htxn, ← h.id]; exact hsame.id
      baseVersion := by rw [htxn, ← h.baseVersion]; exact hsame.baseVersion
      state := by rw [htxn]
      approval := by rw [htxn]
      verification := by rw [htxn, ← h.verification]; exact hsame.verification
      verificationRequired := by
        rw [htxn, ← h.verificationRequired]; exact hsame.verificationRequired
      readSnapshot := by rw [htxn, ← h.readSnapshot]; exact hsame.readSnapshot }

theorem Entered.notRestaged (h : Entered w w') (hu : Unchanged w' w'') : NotRestaged w w'' := by
  obtain ⟨hsame, hsets, htorn⟩ := hu
  refine ⟨hsets.trans h.sets, h.torn htorn, hsame.id.trans h.id,
    hsame.baseVersion.trans h.baseVersion,
    hsame.verificationRequired.trans h.verificationRequired,
    hsame.readSnapshot.trans h.readSnapshot, ?_⟩
  obtain ⟨hstate, happroval⟩ | ⟨happroval, hverification⟩ := h.control
  · have hkept : w.mem.txn.keptVerification = w.mem.txn.verification := by
      simp [WorkspaceTransaction.keptVerification, hstate]
    refine .inl ⟨?_, hsame.approval.trans happroval, ?_⟩
    · rw [hsame.state, h.state, hstate]
    · rw [hsame.verification, h.verification, hkept]
  · exact .inr ⟨h.editable, hsame.state.trans h.state, hsame.approval.trans happroval,
      hsame.verification.trans hverification⟩

theorem staging_wp (hm : Changes P m) :
    (staging m).wp (fun _ => Restaged P w) (fun _ w' => Restaged P w w' ∨ NotRestaged w w')
      (fun _ => True) w := by
  rw [staging, wp_bind]
  refine wp_mono enterStaging_wp ?_ (fun _ _ h => .inr h) fun _ h => h
  intro _ w₁ hentered
  rw [wp_bind]
  refine wp_mono (hm w₁) ?_ (fun _ _ h => .inr (hentered.notRestaged h)) fun _ h => h
  intro _ w₂ hchanged
  have hstaging : w₂.mem.txn.state = .staging := hchanged.1.state.trans hentered.state
  rw [leaveStaging, setTxn, wp_bind, wp_setMem]
  refine transition_wp (fun hno => ?_) (fun _ => ?_) (fun _ _ _ => .inl ?_) trivial
  · simp [hstaging, TransactionState.canBecome] at hno
  · exact hentered.restaged hchanged rfl rfl
  · exact hentered.restaged hchanged rfl rfl

theorem stageFileTransition_wp {expected desired : Option Bytes} :
    (stageFileTransition P rel expected desired).wp (fun _ => Restaged P w)
      (fun _ w' => Restaged P w w' ∨ NotRestaged w w') (fun _ => True) w := by
  rw [stageFileTransition, wp_bind]
  refine checkedPath_wp (fun p _ => ?_) fun _ => .inr (.refl w)
  rw [wp_bind, wp_disk]
  split
  · exact .inr (.refl w)
  · cases desired
    on_goal 1 => refine wp_seq (staging_wp deleteChange_changes) fun _ w' h => ?_
    on_goal 2 => refine wp_seq (staging_wp writeChange_changes) fun _ w' h => ?_
    -- whatever the expectation turns out to be, the change stays pending
    all_goals
      rw [wp_bind, wp_mem]
      cases w'.mem.txn.sets.writes[p]? with
      | none => exact .inl h
      | some =>
        dsimp only
        split
        · exact h
        · exact .inl h

end Tetonic.Txn
