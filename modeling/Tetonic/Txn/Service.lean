import Tetonic.Txn.Commit
set_option autoImplicit false

/-! The public operations of a workspace transaction. -/

namespace Tetonic.Txn
open Lib Proc

variable (P : Platform)

def setTxn (f : WorkspaceTransaction → WorkspaceTransaction) : M Unit :=
  setMem fun m => { m with txn := f m.txn }

/-- A write of records that nothing here reads back; it may still fail. -/
def persistRecord : M Unit := atomic .records .ok

def persistMeta : M Unit := persistRecord

def TransactionState.canBecome : TransactionState → TransactionState → Bool
  | .created, .staging | .staged, .staging | .staging, .staging | .staging, .staged
  | .staged, .verifying | .verifying, .readyToCommit | .verifying, .rejected
  | .staged, .committing | .readyToCommit, .committing | .committing, .committed
  | .committing, .recoveryRequired | .created, .aborted | .staging, .aborted | .staged, .aborted
  | .verifying, .aborted | .readyToCommit, .aborted | .rejected, .aborted | .rejected, .staging
  | .readyToCommit, .staging | .readyToCommit, .verifying | .rejected, .verifying
  | .staged, .rejected | .readyToCommit, .conflict => true
  | _, _ => false

def transition (target : TransactionState) : M Unit := do
  let m ← mem
  if m.txn.state.canBecome target then
    setTxn fun t => { t with state := target }
    persistMeta
  else fail (.invalidTransition m.txn.state target)

def enterStaging : M Unit := do
  let m ← mem
  match m.txn.state with
  | .created | .staged | .rejected | .readyToCommit =>
    setTxn fun t => { t with verification := none, approval := none }
    transition .staging
  | .staging => pure ()
  | other => fail (.invalidTransition other .staging)

def checkedPath (rel : List Char) : M WorkspacePath := do
  let d ← disk
  ofExcept (validatePath d.files rel)

def recordRead (rel : List Char) : M Unit := do
  let path ← checkedPath rel
  let d ← disk
  setSets fun s => recordedRead P d.files s path

/-- The end of every staging operation: the approval was for another patch. -/
def leaveStaging : M Unit := do
  setTxn fun t => { t with approval := none }
  transition .staged

/-- A staging operation: `change` between entering and leaving the staging state. -/
def staging (change : M Unit) : M Unit := do
  enterStaging
  change
  leaveStaging

def writeChange (rel : List Char) (content : Bytes) (existed : Bool) : M Unit := do
  let path ← checkedPath rel
  let m ← mem
  ofExcept (checkContentSize m.txn.limits m.txn.stagedBytes content.length)
  setTxn fun t => { t with stagedBytes := t.stagedBytes + content.length }
  if existed then stageReplace P path content none else stageCreate P path content none

def stageWriteBytes (rel : List Char) (content : Bytes) (existed : Bool) : M Unit :=
  staging (writeChange P rel content existed)

def stageWriteFile (rel : List Char) (content : Bytes) (existed : Bool) : M Unit :=
  stageWriteBytes P rel content existed

def editChange (rel : List Char) (old new : Bytes) : M Unit := do
  let path ← checkedPath rel
  let m ← mem
  let d ← disk
  let texts ← ofExcept (prepareEdit P d m.txn.sets path old new)
  ofExcept (checkContentSize m.txn.limits m.txn.stagedBytes texts.2.length)
  stageReplace P path texts.2 (some (P.digest texts.1))
  setTxn fun t => { t with stagedBytes := t.stagedBytes + texts.2.length }

def stageEditFile (rel : List Char) (old new : Bytes) : M Unit :=
  staging (editChange P rel old new)

def deleteChange (rel : List Char) : M Unit := do
  let path ← checkedPath rel
  stagingDelete P path

def stageDelete (rel : List Char) : M Unit := staging (deleteChange P rel)

def renameChange (source target : List Char) : M Unit := do
  let sourcePath ← checkedPath source
  let targetPath ← checkedPath target
  stagingRename P sourcePath targetPath

def stageRename (source target : List Char) : M Unit := staging (renameChange P source target)

def modeChange (rel : List Char) (newMode : Nat) : M Unit := do
  let path ← checkedPath rel
  stagingModeChange P path newMode

def stageModeChange (rel : List Char) (newMode : Nat) : M Unit := staging (modeChange P rel newMode)

/-- A file is staged against the content the caller expects; the check of the expectation comes
after the operation is pending. -/
def stageFileTransition (rel : List Char) (expected desired : Option Bytes) : M Unit := do
  let path ← checkedPath rel
  let d ← disk
  if expected.isNone && pathExists d.files path then
    fail (.other ("workspace conflict: " ++ pathText rel ++ " already exists"))
  else
    match desired with
    | some content => stageWriteFile P rel content expected.isSome
    | none => stageDelete P rel
    let m ← mem
    match m.txn.sets.writes[path]? with
    | none => fail (.other ("missing staged transition: " ++ pathText rel))
    | some op =>
      if op.baseDigest = expected.map P.digest then pure ()
      else fail (.other
        ("workspace conflict: " ++ pathText rel ++ " no longer matches the expected content"))

def readDigest (fs : Workspace) (p : WorkspacePath) :
    Except TransactionError (Option ContentDigest) := do
  let abs ← resolveUnderRoot fs p
  if isFile fs abs then (digestFile P fs abs).map some else .ok none

def snapshotReadDigests (fs : Workspace) :
    List WorkspacePath → Except TransactionError (OrdMap WorkspacePath ContentDigest)
  | [] => .ok ∅
  | p :: rest => do
    let digest ← readDigest P fs p
    let others ← snapshotReadDigests fs rest
    match digest with
    | some d => .ok (others.insert p d)
    | none => .ok others

def beginVerification : M Unit := do
  setTxn fun t => { t with verificationRequired := true, approval := none, verification := none }
  let m ← mem
  if m.txn.state = .verifying then materializeOverlay P
  else
    transition .verifying
    let d ← disk
    let snapshot ← ofExcept
      (snapshotReadDigests P d.files (m.txn.sets.reads.toList.map Prod.fst))
    setTxn fun t => { t with readSnapshot := snapshot }
    materializeOverlay P

def stagedOverlayPath : M Unit := materializeOverlay P

/-- Files that were read, are not written, and are not as they were when the check began. -/
def detectUnexpectedMutations (fs : Workspace) (sets : ReadWriteSets)
    (before : OrdMap WorkspacePath ContentDigest) : Except TransactionError (List WorkspacePath) :=
  collect (fun entry =>
    if sets.writes.contains entry.1 then .ok []
    else do
      let now ← readDigest P fs entry.1
      .ok (if now.all (· = entry.2) then [] else [entry.1])) before.toList

/-- The record is kept before the transition that may be refused. -/
def finishVerification (record : VerificationRecord) : M Unit := do
  let m ← mem
  let d ← disk
  let unexpected ← ofExcept
    (detectUnexpectedMutations P d.files m.txn.sets m.txn.readSnapshot)
  if unexpected = [] then
    setTxn fun t => { t with verification := some record }
    if record.success then transition .readyToCommit else transition .rejected
  else
    setTxn fun t =>
      { t with verification := some { record with unexpectedMutations := unexpected } }
    transition .rejected
    fail (.other "verification modified unexpected source files")

def WorkspaceTransaction.verified (t : WorkspaceTransaction) : Bool :=
  t.verification.any (·.success)

def checkVerificationReady (t : WorkspaceTransaction) : Except TransactionError Unit :=
  if t.verificationRequired && !t.verified then
    .error (.approvalInvalid ("Pending edits need a successful staged check before delivery. " ++
      "Repair the failure and check again."))
  else .ok ()

def WorkspaceTransaction.patch (t : WorkspaceTransaction) : ContentDigest :=
  patchDigest P t.sets.operationsInOrder

def checkApproval (t : WorkspaceTransaction) (a : PatchApproval) :
    Except TransactionError Unit := do
  checkVerificationReady t
  if a.transactionId ≠ t.id then .error (.approvalInvalid "transaction id mismatch")
  else if a.patchDigest ≠ t.patch P then .error (.approvalInvalid "patch digest mismatch")
  else if a.baseVersion ≠ t.baseVersion then
    .error (.approvalInvalid "base workspace version mismatch")
  else if a.verificationRequired && !a.verificationPassed then
    .error (.approvalInvalid "verification required but not passed")
  else .ok ()

def bindApproval (a : PatchApproval) : M Unit := do
  let m ← mem
  ofExcept (checkApproval P m.txn a)
  setTxn fun t => { t with approval := some a }

def ownApproval (t : WorkspaceTransaction) : PatchApproval where
  transactionId := t.id
  patchDigest := t.patch P
  baseVersion := t.baseVersion
  verificationRequired := t.verificationRequired
  verificationPassed := (t.verification.map (·.success)).getD !t.verificationRequired

def ensureCommitApproval : M Unit := do
  let m ← mem
  match m.txn.approval with
  | some _ => pure ()
  | none => bindApproval P (ownApproval P m.txn)

structure CommitResult where
  transactionId : TransactionId
  (baseVersion resultVersion : WorkspaceVersion)
  patchDigest : ContentDigest
  deriving DecidableEq, Repr

def removeStagingDir : M Unit := atomic .content fun d => .ok { d with content := fun _ => none }

def freshJournal (t : WorkspaceTransaction) : CommitJournal where
  transactionId := t.id
  baseVersion := t.baseVersion
  patchDigest := t.patch P
  state := .committing
  operations := []
  progress := 0

def commitChecks : M Unit := do
  ensureCommitApproval P
  let m ← mem
  if m.txn.state ≠ .readyToCommit && m.txn.state ≠ .staged && m.txn.sets.writes.isEmpty then
    fail (.other "empty transaction")
  else
    -- the writer lock, and the capture of the current version
    persistRecord
    let d ← disk
    ofExcept (detectConflicts P d m.txn.baseVersion m.txn.sets)

/-- The part of a commit that follows a journal applied to its end. -/
def commitApplied : M CommitResult := do
  transition .committed
  removeStagingDir
  let m ← mem
  let d ← disk
  persistRecord
  pure ⟨m.txn.id, m.txn.baseVersion, d.version, m.txn.patch P⟩

/-- The part of a commit that follows an operation that failed; the rollback may fail too. -/
def commitFailed (e : TransactionError) : M CommitResult := do
  let _ ← (rollbackJournal P).attempt
  setJournal fun j => { j with state := .recoveryRequired }
  persistJournal
  transition .recoveryRequired
  fail e

/-- The start of a commit, up to the state `committing`. -/
def commitBegins : M Unit := do
  commitChecks P
  transition .committing

def commit : M CommitResult := do
  commitBegins P
  let m ← mem
  setJournal fun _ => freshJournal P m.txn
  buildJournal m.txn.sets
  persistJournal
  let r ← (applyJournal P).attempt
  match r with
  | .ok _ => commitApplied P
  | .error e => commitFailed P e

def abort : M Unit := do
  let m ← mem
  match m.txn.state with
  | .committed | .aborted => removeStagingDir
  | .committing | .recoveryRequired => fail (.other
      "cannot abort while commit recovery is required; use resume_recovery")
  | _ =>
    transition .aborted
    removeStagingDir

def beginTransaction (id : TransactionId) (limits : SecurityLimits) (d : Disk) :
    WorkspaceTransaction where
  id
  state := .created
  baseVersion := { d.version with relevantPathDigests := [] }
  sets := ⟨∅, ∅, ∅⟩
  stagedBytes := 0
  limits
  approval := none
  verification := none
  verificationRequired := false
  readSnapshot := ∅

inductive Operation where
  | recordRead (rel : List Char)
  | stageWriteFile (rel : List Char) (content : Bytes) (existed : Bool)
  | stageEditFile (rel : List Char) (old new : Bytes)
  | stageDelete (rel : List Char)
  | stageFileTransition (rel : List Char) (expected desired : Option Bytes)
  | stageRename (source target : List Char)
  | stageModeChange (rel : List Char) (newMode : Nat)
  | beginVerification
  | stagedOverlayPath
  | finishVerification (record : VerificationRecord)
  | bindApproval (approval : PatchApproval)
  | commit
  | abort
  deriving DecidableEq, Repr

def perform : Operation → M Unit
  | .recordRead rel => recordRead P rel
  | .stageWriteFile rel content existed => stageWriteFile P rel content existed
  | .stageEditFile rel old new => stageEditFile P rel old new
  | .stageDelete rel => stageDelete P rel
  | .stageFileTransition rel expected desired => stageFileTransition P rel expected desired
  | .stageRename source target => stageRename P source target
  | .stageModeChange rel newMode => stageModeChange P rel newMode
  | .beginVerification => beginVerification P
  | .stagedOverlayPath => stagedOverlayPath P
  | .finishVerification record => finishVerification P record
  | .bindApproval approval => bindApproval P approval
  | .commit => do
    let _ ← commit P
    pure ()
  | .abort => abort

end Tetonic.Txn
