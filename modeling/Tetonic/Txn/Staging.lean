import Tetonic.Txn.Workspace
set_option autoImplicit false

/-! The staging area: one pending operation for each path. -/

namespace Tetonic.Txn
open Lib Proc

variable (P : Platform)

def setSets (f : ReadWriteSets → ReadWriteSets) : M Unit :=
  setMem fun m => { m with txn := { m.txn with sets := f m.txn.sets } }

def ReadWriteSets.read (s : ReadWriteSets) (p : WorkspacePath) : ReadWriteSets :=
  { s with reads := s.reads.insert p () }

def ReadWriteSets.put (s : ReadWriteSets) (op : StagedOperation) : ReadWriteSets :=
  { s with writes := s.writes.insert op.path op }

def ReadWriteSets.operationsInOrder (s : ReadWriteSets) : List StagedOperation :=
  s.writes.toList.map Prod.snd

theorem mem_operationsInOrder {s : ReadWriteSets} {op : StagedOperation} :
    op ∈ s.operationsInOrder ↔ ∃ p : WorkspacePath, s.writes[p]? = some op := by
  simp [ReadWriteSets.operationsInOrder, Std.ExtTreeMap.mem_toList_iff_getElem?_eq_some]

def patchDigest (ops : List StagedOperation) : ContentDigest := P.digest (P.operationsJson ops)

def Disk.stage (d : Disk) (rel : WorkspacePath) (data : Bytes) : Disk :=
  { d with content := fun q => if q = rel then some data else d.content q }

/-- `std::fs::write`: the file is emptied first and then written from the front. -/
def storeContent (rel : WorkspacePath) (data : Bytes) : M Unit :=
  write .content
    (fun n d =>
      match n with
      | 0 => d
      | k + 1 => d.stage rel (data.take k))
    fun d => .ok (d.stage rel data)

def revisePendingContent (rel : WorkspacePath) (content : Bytes) : M Bool := do
  let m ← mem
  match m.txn.sets.writes[rel]? with
  | none => pure false
  | some op =>
    if op.kind.writes then
      storeContent rel content
      setSets fun s =>
        { s with
          writes := s.writes.insert rel
            { op with newContentPath := some rel, newDigest := some (P.digest content) } }
      pure true
    else
      fail (.other
        ("cannot overwrite a pending " ++ op.kind.debug ++ " operation: " ++ pathText rel))

def writeOperation (kind : StagedOperationKind) (rel : WorkspacePath)
    (base : Option ContentDigest) (content : Bytes) : StagedOperation where
  kind
  path := rel
  destination := none
  baseDigest := base
  newDigest := some (P.digest content)
  newContentPath := some rel
  baseMode := none
  newMode := none

def refuseArtifact (rel : WorkspacePath) : Except TransactionError Unit :=
  if isExcludedArtifact rel then
    .error (.other ("refusing to stage build artifact: " ++ pathText rel))
  else .ok ()

def stageCreate (rel : WorkspacePath) (content : Bytes) (base : Option ContentDigest) :
    M Unit := do
  let revised ← revisePendingContent P rel content
  if revised then pure ()
  else
    ofExcept (refuseArtifact rel)
    storeContent rel content
    setSets fun s => (s.put (writeOperation P .create rel base content)).read rel

/-- The digest a replacement is based on when the caller gives none. -/
def replaceBase (entry : Option Entry) : Option ContentDigest :=
  match entry with
  | some (.link l) => some (P.digest l.text)
  | some (.file f) => some (P.digest f.bytes)
  | some .dir => none
  | none => none

def replaceKind (entry : Option Entry) : StagedOperationKind :=
  if entry.isSome then .replace else .create

def stageReplace (rel : WorkspacePath) (content : Bytes) (base : Option ContentDigest) :
    M Unit := do
  let revised ← revisePendingContent P rel content
  if revised then pure ()
  else
    ofExcept (refuseArtifact rel)
    let d ← disk
    let abs ← ofExcept (resolveUnderRoot d.files rel)
    let entry := d.files.node abs
    let base := base.orElse fun _ => replaceBase P entry
    storeContent rel content
    setSets fun s => (s.put (writeOperation P (replaceKind entry) rel base content)).read rel

def readToString (fs : Workspace) (p : WorkspacePath) : Except TransactionError Bytes :=
  match fs.node p with
  | some (.file f) =>
    if P.isText f.bytes then .ok f.bytes else .error (.io "stream did not contain valid UTF-8")
  | some (.link _) => .error (.outsideWorkspace (pathText p))
  | some .dir => .error (.io "is a directory")
  | none => .error (.io "no such file")

def stagedText (d : Disk) (op : StagedOperation) (rel : List Char) :
    Except TransactionError (Option Bytes) :=
  match op.kind, op.newContentPath with
  | .delete, _ | .rename, _ =>
    .error (.other ("file removed in this transaction: " ++ pathText rel))
  | _, none => .ok none
  | _, some source =>
    match d.content source with
    | none => .error (.io "no such file")
    | some text =>
      if !P.isText text then .error (.io "stream did not contain valid UTF-8")
      else if op.newDigest = some (P.digest text) then .ok (some text)
      else .error (.other ("staged content changed unexpectedly: " ++ pathText rel))

def readStagedFile (d : Disk) (sets : ReadWriteSets) (rel : List Char) :
    Except TransactionError (Option Bytes) := do
  let path ← validatePath d.files rel
  if isSymlinkOrReparse d.files path then .error (.outsideWorkspace (pathText rel))
  else
    match sets.writes[path]? with
    | some op => stagedText P d op rel
    | none =>
      match sets.operationsInOrder.find? fun op =>
          op.kind = .rename && op.destination = some path with
      | some op => (readToString P d.files op.path).map some
      | none => .ok none

def prepareEdit (d : Disk) (sets : ReadWriteSets) (rel : WorkspacePath) (old new : Bytes) :
    Except TransactionError (Bytes × Bytes) := do
  let abs ← resolveUnderRoot d.files rel
  let staged ← readStagedFile P d sets rel
  let text ←
    match staged with
    | some text => .ok text
    | none =>
      if isFile d.files abs then readToString P d.files abs
      else .error (.other ("file not found: " ++ pathText rel))
  match P.applyFuzzyEdit text old new with
  | .ok updated => .ok (text, updated)
  | .error e => .error (.other e)

def plainOperation (kind : StagedOperationKind) (rel : WorkspacePath)
    (base : Option ContentDigest) : StagedOperation where
  kind
  path := rel
  destination := none
  baseDigest := base
  newDigest := none
  newContentPath := none
  baseMode := none
  newMode := none

/-- The digest a deletion is based on; what exists but is not a plain file counts as empty. -/
def deleteBase (fs : Workspace) (p : WorkspacePath) : Option ContentDigest :=
  if pathExists fs p then
    match digestFile P fs p with
    | .ok digest => some digest
    | .error _ => some (P.digest [])
  else none

def stagingDelete (rel : WorkspacePath) : M Unit := do
  let d ← disk
  let abs ← ofExcept (resolveUnderRoot d.files rel)
  setSets fun s => (s.put (plainOperation .delete rel (deleteBase P d.files abs))).read rel

def stagingRename (source target : WorkspacePath) : M Unit := do
  let d ← disk
  let abs ← ofExcept (resolveUnderRoot d.files source)
  let base ← ofExcept (digestFile P d.files abs)
  setSets fun s =>
    ((s.put { plainOperation .rename source (some base) with
        destination := some target }).read source).read target

def stagingModeChange (rel : WorkspacePath) (newMode : Nat) : M Unit := do
  let d ← disk
  let abs ← ofExcept (resolveUnderRoot d.files rel)
  if isFile d.files abs then
    let base ← ofExcept (digestFile P d.files abs)
    setSets fun s =>
      (s.put { plainOperation .modeChange rel (some base) with
        baseMode := (d.files.node abs).map fileMode, newMode := some newMode }).read rel
  else fail (.other ("file not found: " ++ pathText rel))

/-- The read of a path, with the digest of the file that is there when it is first read. -/
def recordedRead (fs : Workspace) (s : ReadWriteSets) (rel : WorkspacePath) : ReadWriteSets :=
  let s' :=
    if s.reads.contains rel then s
    else
      match resolveUnderRoot fs rel with
      | .error _ => s
      | .ok abs =>
        if isFile fs abs then
          match digestFile P fs abs with
          | .ok digest => { s with readBaselines := s.readBaselines.insert rel digest }
          | .error _ => s
        else s
  s'.read rel

/-- Whether the overlay can be made: staged content has to be there with its digest. -/
def overlayContent (d : Disk) (op : StagedOperation) : Except TransactionError Unit :=
  match op.kind, op.newContentPath with
  | .delete, _ | .rename, _ | _, none => .ok ()
  | _, some source =>
    match d.content source with
    | none => .error (.io "no such file")
    | some bytes =>
      if op.newDigest = some (P.digest bytes) then .ok ()
      else .error (.other ("staged content changed unexpectedly: " ++ pathText op.path))

/-- The copy of the workspace with the pending operations applied, for checks to run in. -/
def materializeOverlay : M Unit := do
  let m ← mem
  let d ← disk
  ofExcept (m.txn.sets.operationsInOrder.forM (overlayContent P d))
  atomic .records .ok

end Tetonic.Txn
