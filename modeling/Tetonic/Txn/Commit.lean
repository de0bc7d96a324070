import Mathlib.Data.List.Sort
import Tetonic.Txn.Staging
set_option autoImplicit false

/-! Conflict detection, and the journal of a commit: built before anything is changed, written
before and after each change, undone from its backups. -/

namespace Tetonic.Txn
open Lib Proc

variable (P : Platform)

def collect {α β ε : Type} (f : α → Except ε (List β)) : List α → Except ε (List β)
  | [] => .ok []
  | a :: rest => do
    let x ← f a
    let y ← collect f rest
    .ok (x ++ y)

def conflictIf (condition : Bool) (conflict : WorkspaceConflict) : List WorkspaceConflict :=
  if condition then [conflict] else []

/-- The digest an operation is held against first: its own, or the one of the base version. -/
def versionDigest (base : WorkspaceVersion) (op : StagedOperation) : Option ContentDigest :=
  op.baseDigest.orElse fun _ => base.relevantPathDigests.lookup op.path

/-- The part of the check that concerns the destination of a rename. -/
def destinationConflicts (fs : Workspace) (op : StagedOperation) :
    Except TransactionError (List WorkspaceConflict) :=
  match op.destination with
  | none => .ok []
  | some dest =>
    if op.kind = .rename then do
      let s ← pathState P fs dest
      .ok (conflictIf s.present ⟨dest, ⟨none, false, none⟩, s, .renameDestinationOccupied⟩)
    else .ok []

def operationConflicts (fs : Workspace) (base : WorkspaceVersion) (op : StagedOperation) :
    Except TransactionError (List WorkspaceConflict) := do
  let s ← pathState P fs op.path
  let retargeted := conflictIf
    (isSymlinkOrReparse fs op.path && symlinkTargetEscapesWorkspace fs linkLimit op.path)
    ⟨op.path, ⟨op.baseDigest, true, s.mode⟩, ⟨none, true, s.mode⟩, .symlinkRetargeted⟩
  let versioned := (versionDigest base op).toList.flatMap fun d => conflictIf
    (s.present && s.digest.any (· ≠ d))
    ⟨op.path, ⟨some d, true, none⟩, ⟨s.digest, true, s.mode⟩, .contentChanged⟩
  let occupied := conflictIf (op.kind = .create && s.present)
    ⟨op.path, ⟨none, false, none⟩, ⟨s.digest, true, s.mode⟩, .newFileDestinationOccupied⟩
  let changed := op.baseDigest.toList.flatMap fun d =>
    if s.present then
      conflictIf (s.digest ≠ some d)
        ⟨op.path, ⟨some d, true, s.mode⟩, ⟨s.digest, true, s.mode⟩, .contentChanged⟩
    else [⟨op.path, ⟨some d, true, none⟩, ⟨none, false, none⟩, .deleteTargetChanged⟩]
  let destination ← destinationConflicts P fs op
  .ok (retargeted ++ versioned ++ occupied ++ changed ++ destination)

/-- Paths that were read and are not written have to be as they were read. -/
def readConflicts (fs : Workspace) (sets : ReadWriteSets) (p : WorkspacePath) :
    Except TransactionError (List WorkspaceConflict) :=
  if sets.writes.contains p then .ok []
  else
    match sets.readBaselines[p]? with
    | none => .ok []
    | some d => do
      let s ← pathState P fs p
      if s.present then
        .ok (conflictIf (s.digest ≠ some d)
          ⟨p, ⟨some d, true, none⟩, ⟨s.digest, true, s.mode⟩, .contentChanged⟩)
      else .ok [⟨p, ⟨some d, true, none⟩, ⟨none, false, none⟩, .contentChanged⟩]

def refuseConflicts : List WorkspaceConflict → Except TransactionError Unit
  | [] => .ok ()
  | conflicts => .error (.conflict conflicts)

def detectConflicts (d : Disk) (base : WorkspaceVersion) (sets : ReadWriteSets) :
    Except TransactionError Unit := do
  let current := d.version
  refuseConflicts (conflictIf (current.repositoryId ≠ base.repositoryId)
    ⟨['.'], ⟨none, true, none⟩, ⟨none, true, none⟩, .workspaceIdentityChanged⟩)
  refuseConflicts (conflictIf (base.versionScheme = .git && current.gitHead ≠ base.gitHead)
    ⟨".git/HEAD".toList, ⟨base.gitHead, true, none⟩, ⟨current.gitHead, true, none⟩, .headChanged⟩)
  let written ← collect (operationConflicts P d.files base) sets.operationsInOrder
  let read ← collect (readConflicts P d.files sets) (sets.reads.toList.map Prod.fst)
  refuseConflicts (written ++ read)

def setJournal (f : CommitJournal → CommitJournal) : M Unit :=
  setMem fun m => { m with journal := f m.journal }

def persistJournal : M Unit := do
  let m ← mem
  atomic .journal fun d => .ok { d with journal := some m.journal }

def CommitJournal.entry (j : CommitJournal) (index : Nat) : Option JournalOperation :=
  j.operations.find? (·.index = index)

/-- The entry of an index changed; the indices of a journal are distinct. -/
def CommitJournal.modify (j : CommitJournal) (index : Nat)
    (f : JournalOperation → JournalOperation) : CommitJournal :=
  { j with operations := j.operations.map fun e => if e.index = index then f e else e }

def CommitJournal.push (j : CommitJournal) (e : JournalOperation) : CommitJournal :=
  { j with operations := j.operations ++ [e] }

def CommitJournal.indices (j : CommitJournal) : List Nat := j.operations.map (·.index)

def writeBackup (name : BackupName) (file : FileData) : M Unit :=
  atomic .backups fun d =>
    .ok { d with backups := fun n => if n = name then some file else d.backups n }

/-- The copy of the file an operation changes or removes, taken through links. -/
def backupOriginal (i : Nat) (op : StagedOperation) : M (Option BackupName) := do
  if op.kind = .create then pure none
  else
    let d ← disk
    let abs ← ofExcept (resolveUnderRoot d.files op.path)
    match openFile d.files abs with
    | none => pure none
    | some file =>
      writeBackup (i, .original) file
      pure (some (i, .original))

def backupDestination (i : Nat) (op : StagedOperation) : M (Option RenameDestinationBackup) := do
  if op.kind = .rename then
    match op.destination with
    | none => fail (.other "rename missing destination")
    | some target =>
      let d ← disk
      let dest ← ofExcept (resolveUnderRoot d.files target)
      if pathExists d.files dest then
        match openFile d.files dest, isSymlinkOrReparse d.files dest with
        | some file, false =>
          writeBackup (i, .destination) file
          pure (some (.file (i, .destination)))
        | _, _ => fail (.other "rename destination must be a regular file")
      else pure (some .absent)
  else pure none

/-- The copy of the staged content, so that the journal outlives the staging area. -/
def copyContent (i : Nat) (op : StagedOperation) : M ContentSource := do
  match op.newContentPath with
  | none => pure .none
  | some source =>
    let d ← disk
    match d.content source with
    | none => pure (.staged source)
    | some bytes =>
      writeBackup (i, .content) (stagedFile bytes)
      pure (.copy (i, .content))

def buildEntry (i : Nat) (op : StagedOperation) : M Unit := do
  let backupPath ← backupOriginal i op
  let renameDestination ← backupDestination i op
  let newContentPath ← copyContent i op
  setJournal (·.push
    { index := i, operation := op, backupPath, renameDestination,
      expectedDigest := op.baseDigest, newContentPath,
      started := some false, completed := false, rolledBack := false })

def buildJournal (sets : ReadWriteSets) : M Unit := do
  setJournal fun j => { j with operations := [] }
  forEach (fun e => buildEntry e.2 e.1) sets.operationsInOrder.zipIdx
  atomic .backups .ok
  setJournal fun j => { j with state := .committing }

def revalidatePrecondition (fs : Workspace) (e : JournalOperation) :
    Except TransactionError Unit := do
  let path := e.operation.path
  let s ← pathState P fs path
  match e.expectedDigest with
  | some d =>
    if !s.present then
      .error (.conflict [⟨path, ⟨some d, true, none⟩, ⟨none, false, none⟩, .fileRemoved⟩])
    else if s.digest ≠ some d then
      .error (.conflict
        [⟨path, ⟨some d, true, s.mode⟩, ⟨s.digest, true, s.mode⟩, .contentChanged⟩])
    else .ok ()
  | none =>
    if e.operation.kind = .create && s.present then
      .error (.conflict [⟨path, ⟨none, false, none⟩, ⟨s.digest, true, s.mode⟩,
        .newFileDestinationOccupied⟩])
    else .ok ()
  if isSymlinkOrReparse fs path && symlinkTargetEscapesWorkspace fs linkLimit path then
    .error (.conflict [⟨path, ⟨e.expectedDigest, true, s.mode⟩, ⟨none, true, s.mode⟩,
      .symlinkRetargeted⟩])
  else .ok ()

def Disk.source (d : Disk) : ContentSource → Option FileData
  | .none => none
  | .staged path => (d.content path).map stagedFile
  | .copy name => d.backups name

def applyOne (e : JournalOperation) : M Unit := do
  let d ← disk
  ofExcept (revalidatePrecondition P d.files e)
  let abs ← ofExcept (resolveUnderRoot d.files e.operation.path)
  match e.operation.kind with
  | .create | .replace | .edit => publicationReplace abs (d.source e.newContentPath)
  | .delete => publicationRemove abs
  | .rename =>
    match e.operation.destination with
    | none => fail (.other "rename missing destination")
    | some target =>
      let dest ← ofExcept (resolveUnderRoot d.files target)
      publicationRename abs dest
  | .modeChange =>
    match e.operation.newMode with
    | none => fail (.other "mode change missing target mode")
    | some mode => changeMode abs mode

def markStarted (e : JournalOperation) : JournalOperation := { e with started := some true }

def markCompleted (e : JournalOperation) : JournalOperation := { e with completed := true }

def markRolledBack (e : JournalOperation) : JournalOperation := { e with rolledBack := true }

def CommitJournal.complete (index : Nat) (j : CommitJournal) : CommitJournal :=
  { j.modify index markCompleted with progress := index + 1 }

/-- One operation that is not completed: marked as started, applied, marked as completed. -/
def applyEntry (e : JournalOperation) : M Unit := do
  let d ← disk
  ofExcept (revalidatePrecondition P d.files e)
  setJournal (·.modify e.index markStarted)
  persistJournal
  applyOne P (markStarted e)
  setJournal (·.complete e.index)
  persistJournal

def applyJournalOperation (index : Nat) : M Unit := do
  let m ← mem
  match m.journal.entry index with
  | none => fail (.other "missing journal operation")
  | some e => if e.completed then pure () else applyEntry P e

def applyJournal : M Unit := do
  let m ← mem
  forEach (applyJournalOperation P) m.journal.indices
  setJournal fun j => { j with state := .committed }
  persistJournal

def looksApplied (fs : Workspace) (e : JournalOperation) (s : PathState) :
    Except TransactionError Bool :=
  match e.operation.kind with
  | .create | .replace | .edit =>
    .ok (s.present && e.operation.newDigest.isSome && s.digest = e.operation.newDigest)
  | .delete => .ok !s.present
  | .rename =>
    match e.operation.destination with
    | none => .ok false
    | some dest => do
      let t ← pathState P fs dest
      .ok (!s.present && t.present && e.expectedDigest.isSome && t.digest = e.expectedDigest)
  | .modeChange => .ok (s.present && s.mode = e.operation.newMode)

/-- Whether an entry that was started, and not marked as completed, was in fact applied. -/
def reconcileEntry (fs : Workspace) (e : JournalOperation) :
    Except TransactionError JournalOperation :=
  if e.completed || e.rolledBack || e.started = some false then .ok e
  else if e.started = none then
    .error (.recoveryRequired "legacy journal has unknown mutation progress")
  else do
    let s ← pathState P fs e.operation.path
    let applied ← looksApplied P fs e s
    if applied then .ok (markCompleted e)
    else
      match revalidatePrecondition P fs e with
      | .ok _ => .ok e
      | .error _ => .error (.recoveryRequired "filesystem differs from both journal states")

def reconcileIndex (index : Nat) : M Unit := do
  let m ← mem
  match m.journal.entry index with
  | none => pure ()
  | some e =>
    let d ← disk
    let e' ← ofExcept (reconcileEntry P d.files e)
    setJournal (·.modify index fun _ => e')

def reconcileProgress : M Unit := do
  let m ← mem
  forEach (reconcileIndex P) m.journal.indices

/-- Undo a rename: the source from its backup, then the destination. -/
def rollbackRename (e : JournalOperation) (abs : WorkspacePath) : M Unit := do
  match e.operation.destination with
  | none => fail (.other "rename missing destination")
  | some target =>
    let d ← disk
    let dest ← ofExcept (resolveUnderRoot d.files target)
    match e.renameDestination, e.backupPath.bind d.backups with
    | none, _ => fail (.other
        "legacy rename journal lacks destination backup; manual recovery required")
    | _, none => fail (.other "rename source backup missing; manual recovery required")
    | some .absent, some original =>
      publicationRestore abs (some original)
      publicationRemove dest
    | some (.file backup), some original =>
      match d.backups backup with
      | none => fail (.other
          "rename destination backup missing; manual recovery required")
      | some replaced =>
        publicationRestore abs (some original)
        publicationRestore dest (some replaced)

def rollbackOne (e : JournalOperation) : M Unit := do
  let d ← disk
  let abs ← ofExcept (resolveUnderRoot d.files e.operation.path)
  if e.operation.kind = .rename then rollbackRename e abs
  else
    match e.backupPath with
    | some backup => publicationRestore abs (d.backups backup)
    | none =>
      if e.operation.kind = .create then publicationRemove abs
      else fail (.recoveryRequired "original file backup missing; manual recovery required")

def rollbackIndex (index : Nat) : M Unit := do
  let m ← mem
  match m.journal.entry index with
  | none => fail (.other "journal index missing")
  | some e =>
    rollbackOne e
    setJournal (·.modify index markRolledBack)
    persistJournal

def CommitJournal.toUndo (j : CommitJournal) : List Nat :=
  ((j.operations.filter fun e => e.completed && !e.rolledBack).map (·.index)).insertionSort (· ≥ ·)

def rollbackJournal : M Unit := do
  reconcileProgress P
  let m ← mem
  forEach rollbackIndex m.journal.toUndo

end Tetonic.Txn
