import Tetonic.Txn.Frames
set_option autoImplicit false

/-! What an operation can do, said once for all operations, and the induction over a
transaction's life that goes with it. -/

namespace Tetonic.Txn
open Lib

variable {P : Platform} {w w' : World}

def Operation.stages : Operation → Bool
  | .stageWriteFile .. | .stageEditFile .. | .stageDelete .. | .stageFileTransition ..
  | .stageRename .. | .stageModeChange .. => true
  | _ => false

def World.afterRead (P : Platform) (w : World) (p : WorkspacePath) : World :=
  { w with mem := { w.mem with txn :=
    { w.mem.txn with sets := recordedRead P w.disk.files w.mem.txn.sets p } } }

inductive Does (P : Platform) (w : World) : Operation → Bool → World → Prop where
  | restaged {op : Operation} {b : Bool} {w' : World} (stages : op.stages = true)
      (h : Restaged P w w') : Does P w op b w'
  | notRestaged {op : Operation} {w' : World} (stages : op.stages = true)
      (h : NotRestaged w w') : Does P w op false w'
  | read {rel : List Char} {p : WorkspacePath} (valid : validatePath w.disk.files rel = .ok p) :
      Does P w (.recordRead rel) true (w.afterRead P p)
  | refused {op : Operation} : Does P w op false w
  | begins {b : Bool} {w' : World} (h : Begins w w') : Does P w .beginVerification b w'
  | overlay {b : Bool} {w' : World} (disk : w'.disk = w.disk) (mem : w'.mem = w.mem) :
      Does P w .stagedOverlayPath b w'
  | finishes {record : VerificationRecord} {b : Bool} {w' : World}
      (h : Finishes w record b w') : Does P w (.finishVerification record) b w'
  | bound {a : PatchApproval} (checked : checkApproval P w.mem.txn a = .ok ()) :
      Does P w (.bindApproval a) true (w.approved a)
  | committed {w' : World} (h : Committed P w w') : Does P w .commit true w'
  | notCommitted {w' : World} (h : CommitKeeps P w w') : Does P w .commit false w'
  | aborts {b : Bool} {w' : World} (h : Aborts w w') : Does P w .abort b w'

theorem perform_wp (op : Operation) :
    (perform P op).wp (fun _ => Does P w op true) (fun _ => Does P w op false)
      (fun _ => True) w := by
  have hstaging : ∀ {m : M Unit}, op.stages = true →
      m.wp (fun _ => Restaged P w) (fun _ w' => Restaged P w w' ∨ NotRestaged w w')
        (fun _ => True) w →
      m.wp (fun _ => Does P w op true) (fun _ => Does P w op false) (fun _ => True) w :=
    fun hs h => Proc.wp_mono h (fun _ _ => .restaged hs)
      (fun _ _ h => h.elim (.restaged hs) (.notRestaged hs)) fun _ h => h
  cases op with
  | recordRead => exact recordRead_wp (fun p hp => .read hp) fun _ => .refused
  | stageWriteFile => exact hstaging rfl (staging_wp writeChange_changes)
  | stageEditFile => exact hstaging rfl (staging_wp editChange_changes)
  | stageDelete => exact hstaging rfl (staging_wp deleteChange_changes)
  | stageFileTransition => exact hstaging rfl stageFileTransition_wp
  | stageRename => exact hstaging rfl (staging_wp renameChange_changes)
  | stageModeChange => exact hstaging rfl (staging_wp modeChange_changes)
  | beginVerification =>
    exact Proc.wp_mono beginVerification_wp (fun _ _ => .begins) (fun _ _ => .begins) fun _ h => h
  | stagedOverlayPath =>
    exact overlay_wp (.overlay rfl rfl) (fun _ => .overlay rfl rfl) (fun _ => .overlay rfl rfl)
      trivial
  | finishVerification =>
    exact Proc.wp_mono finishVerification_wp (fun _ _ => .finishes) (fun _ _ => .finishes)
      fun _ h => h
  | bindApproval => exact bindApproval_wp .bound fun _ => .refused
  | commit =>
    rw [perform, Proc.wp_bind]
    exact Proc.wp_mono commit_wp (fun _ _ => .committed) (fun _ _ => .notCommitted) fun _ h => h
  | abort => exact Proc.wp_mono abort_wp (fun _ _ => .aborts) (fun _ _ => .aborts) fun _ h => h

theorem perform_returned {op : Operation} (h : perform P op w = (.ok (), w')) :
    Does P w op true w' := by
  have hwp := perform_wp (P := P) (w := w) op
  simpa [Proc.wp, h] using hwp

theorem perform_failed {op : Operation} {e : TransactionError}
    (h : perform P op w = (.error (.failed e), w')) : Does P w op false w' := by
  have hwp := perform_wp (P := P) (w := w) op
  simpa [Proc.wp, h] using hwp

theorem Run.invariant {I : World → List Event → Prop}
    (begins : ∀ id limits d j, I ⟨d, ⟨beginTransaction id limits d, j⟩, []⟩ [])
    (outside : ∀ w past files version, I w past → I (w.outside files version) past)
    (step : ∀ w past op fates b w', I w past → Does P (w.facing fates) op b w' →
      I w' (⟨op, fates, b, w.mem.txn, w'.mem.txn⟩ :: past))
    {past : List Event} (run : Run P w past) : I w past := by
  induction run with
  | begins id limits d j => exact begins id limits d j
  | outside run files version ih => exact outside _ _ files version ih
  | returned run op fates call ih => exact step _ _ op fates true _ ih (perform_returned call)
  | failed run op fates call ih => exact step _ _ op fates false _ ih (perform_failed call)

def play (P : Platform) : World → List Event →
    List (Operation × List (Medium → Fate TransactionError)) → World × List Event
  | w, past, [] => (w, past)
  | w, past, (op, fates) :: rest =>
    match perform P op (w.facing fates) with
    | (.ok _, w') => play P w' (⟨op, fates, true, w.mem.txn, w'.mem.txn⟩ :: past) rest
    | (.error (.failed _), w') => play P w' (⟨op, fates, false, w.mem.txn, w'.mem.txn⟩ :: past) rest
    | (.error .crashed, _) => (w, past)

theorem Run.play (calls : List (Operation × List (Medium → Fate TransactionError)))
    {past : List Event} (run : Run P w past) :
    Run P (play P w past calls).1 (play P w past calls).2 := by
  induction calls generalizing w past with
  | nil => exact run
  | cons c rest ih =>
    obtain ⟨op, fates⟩ := c
    unfold Txn.play
    match hr : perform P op (w.facing fates) with
    | (.ok _, w') => exact ih (run.returned op fates hr)
    | (.error (.failed e), w') => exact ih (run.failed op fates hr)
    | (.error .crashed, w') => exact run

theorem eq_ok_of_isOk {m : M Unit} (h : (m w).1.isOk = true) : m w = (.ok (), (m w).2) := by
  cases hr : m w with
  | mk r =>
    cases r with
    | ok => rfl
    | error => simp [hr, Except.isOk, Except.toBool] at h

namespace Demo

def platform : Platform where
  digest b := b.map fun x => Char.ofNat x.toNat
  isText _ := true
  operationsJson ops := ops.flatMap fun op =>
    (op.path ++ op.newDigest.getD []).map fun c => UInt8.ofNat c.toNat
  applyFuzzyEdit _ _ new := .ok new

def emptyTree : Workspace := ⟨fun _ => none, fun _ _ h => by cases h⟩

def workspace (nodes : List (WorkspacePath × Entry)) : Workspace :=
  nodes.foldl (fun t e => ((t.makeParents e.1).bind (·.put e.1 e.2)).getD t) emptyTree

def version : WorkspaceVersion := ⟨"manifest", .manifest, none, [], [], []⟩

def disk (files : Workspace) : Disk := ⟨files, version, fun _ => none, fun _ => none, none⟩

def journal : CommitJournal := ⟨"txn", version, [], .created, [], 0⟩

def start (files : Workspace) : World :=
  ⟨disk files, ⟨beginTransaction "txn" SecurityLimits.default (disk files), journal⟩, []⟩

theorem run_start (files : Workspace) : Run platform (start files) [] :=
  .begins _ _ _ _

def calm (ops : List Operation) : List (Operation × List (Medium → Fate TransactionError)) :=
  ops.map fun op => (op, [])

def after (files : Workspace) (ops : List Operation) : World × List Event :=
  play platform (start files) [] (calm ops)

theorem run_after (files : Workspace) (ops : List Operation) :
    Run platform (after files ops).1 (after files ops).2 :=
  (run_start files).play _

def passed : VerificationRecord := ⟨"check", [], true, []⟩

def failedCheck : VerificationRecord := ⟨"check", [], false, []⟩

end Demo

end Tetonic.Txn
