import Tetonic.Txn.Domain
set_option autoImplicit false

/-! Reading and changing the workspace: `fs_ops`, `version::path_state`, `publication` and the
path check of `security`. The texts of errors that come from the operating system are stand-ins. -/

namespace Tetonic.Txn
open Lib

/-- What a path leads to when links are followed. -/
inductive Found where
  | inside (path : WorkspacePath) (entry : Entry)
  | outside (file : FileData)

/-- Follow at most `n` links. -/
def follow (fs : Workspace) : Nat → WorkspacePath → Option Found
  | 0, _ => none
  | n + 1, p =>
    match fs.node p with
    | none => none
    | some (.link l) =>
      match l.target with
      | .inside q => follow fs n q
      | .outside found => found.map .outside
    | some e => some (.inside p e)

def linkLimit : Nat := 40

def Found.file? : Found → Option FileData
  | .inside _ (.file f) => some f
  | .inside _ _ => none
  | .outside f => some f

def pathExists (fs : Workspace) (p : WorkspacePath) : Bool := (follow fs linkLimit p).isSome

def openFile (fs : Workspace) (p : WorkspacePath) : Option FileData :=
  (follow fs linkLimit p).bind Found.file?

def isFile (fs : Workspace) (p : WorkspacePath) : Bool := (openFile fs p).isSome

def isLink : Option Entry → Bool
  | some (.link _) => true
  | _ => false

def isSymlinkOrReparse (fs : Workspace) (p : WorkspacePath) : Bool := isLink (fs.node p)

def pathText (p : WorkspacePath) : String := String.ofList p

def resolveUnderRoot (fs : Workspace) (p : WorkspacePath) : Except TransactionError WorkspacePath :=
  if (ancestors p).any (isSymlinkOrReparse fs) then .error (.outsideWorkspace (pathText p))
  else .ok p

/-- `file_mode`: the whole mode, with the bits of the file's type. -/
def fileMode : Entry → Nat
  | .file f => 32768 + f.perm.val
  | .link _ => 41471
  | .dir => 16877

def digestFile (P : Platform) (fs : Workspace) (p : WorkspacePath) :
    Except TransactionError ContentDigest :=
  match fs.node p with
  | some (.file f) => .ok (P.digest f.bytes)
  | some (.link _) => .error (.outsideWorkspace (pathText p))
  | some .dir => .error (.io "is a directory")
  | none => .error (.io "no such file")

/-- What `path_state` reports of a node; a link is told by the text of its target. -/
def observe (P : Platform) : Option Entry → PathState
  | none => ⟨none, false, none⟩
  | some (.file f) => ⟨some (P.digest f.bytes), true, some (fileMode (.file f))⟩
  | some (.link l) => ⟨some (P.digest l.text), true, some (fileMode (.link l))⟩
  | some .dir => ⟨none, true, some (fileMode .dir)⟩

def pathState (P : Platform) (fs : Workspace) (p : WorkspacePath) :
    Except TransactionError PathState := do
  let p ← resolveUnderRoot fs p
  .ok (observe P (fs.node p))

def symlinkTargetEscapesWorkspace (fs : Workspace) : Nat → WorkspacePath → Bool
  | 0, _ => false
  | n + 1, p =>
    match fs.node p with
    | some (.link l) =>
      match l.target with
      | .inside q => symlinkTargetEscapesWorkspace fs n q
      | .outside _ => true
    | _ => false

def components (text : List Char) : List (List Char) := text.splitOn '/'

def trimEnd (component : List Char) : List Char :=
  (component.reverse.dropWhile fun c => c == ' ' || c == '.').reverse

def forbiddenComponent (component : List Char) : Bool :=
  component == ['.', '.'] ||
    [".lokai", ".ssh", ".aws", "lokai.db", "lokai.db-wal", "lokai.db-shm", "lokai.db-journal"].any
      fun name => (trimEnd component).map Char.toLower == name.toList

/-- A path with its empty and `.` components left out. -/
def normalize (text : List Char) : WorkspacePath :=
  List.intercalate ['/'] ((components text).filter fun c => !(c == [] || c == ['.']))

def validatePath (fs : Workspace) (rel : List Char) : Except TransactionError WorkspacePath :=
  let outside := .error (.outsideWorkspace (pathText rel))
  let norm := rel.map fun c => if c = '\\' then '/' else c
  if norm.isEmpty || (components norm).any forbiddenComponent then outside
  else if norm.head? = some '/' then outside
  else
    let path := normalize norm
    match resolveUnderRoot fs path with
    | .error _ => outside
    | .ok _ =>
      -- only the last component may be a link; what it leads to is checked too
      match follow fs linkLimit path with
      | some (.outside _) => outside
      | some (.inside target _) =>
        if (components target).any forbiddenComponent then outside else .ok path
      | none => .ok path

def isExcludedArtifact (rel : WorkspacePath) : Bool :=
  let lower := (rel.map fun c => if c = '\\' then '/' else c).map Char.toLower
  let parts := (components lower).filter (· ≠ [])
  let inner := parts.dropLast
  -- a directory of that name anywhere above the file, or the only component
  (["target", "node_modules", "__pycache__", ".git"].any fun name =>
      parts == [name.toList] || inner.contains name.toList) ||
    [".o", ".pyc", ".exe", ".dll", ".so", ".dylib"].any fun ext => ext.toList.isSuffixOf lower

def checkContentSize (limits : SecurityLimits) (stagedTotal newBytes : Nat) :
    Except TransactionError Unit :=
  if limits.maxFileBytes < newBytes then
    .error (.sizeLimit ("file exceeds " ++ toString limits.maxFileBytes ++ " bytes"))
  else if limits.maxTotalBytes < stagedTotal + newBytes then
    .error (.sizeLimit ("transaction exceeds " ++ toString limits.maxTotalBytes ++ " bytes"))
  else .ok ()

def orIo {α : Type} (text : String) : Option α → Except TransactionError α
  | some a => .ok a
  | none => .error (.io text)

def changeFiles (f : Workspace → Option Workspace) (text : String) : M Unit :=
  Proc.atomic .files fun d => do
    let files ← orIo text (f d.files)
    .ok { d with files }

def World.wroteFiles (w : World) (fs : Workspace) : World := w.wrote { w.disk with files := fs }

theorem changedFiles_eq_ok {d d' : Disk} {o : Option Workspace} {text : String} :
    (do let files ← orIo text o
        .ok { d with files } : Except TransactionError Disk) = .ok d' ↔
      ∃ fs, o = some fs ∧ d' = { d with files := fs } := by
  cases o with
  | none => simp [orIo, bind, Except.bind]
  | some => simp [orIo, bind, Except.bind, eq_comm]

theorem changeFiles_wp {w : World} {f : Workspace → Option Workspace} {text : String}
    {Q : Unit → World → Prop} {E : TransactionError → World → Prop} {C : World → Prop}
    (hno : f w.disk.files = none → ∀ e, E e w)
    (hok : ∀ fs, f w.disk.files = some fs → Q () (w.wroteFiles fs))
    (hfails : ∀ fs, f w.disk.files = some fs → w.fates ≠ [] →
      ∀ e, E e (w.wrote w.disk) ∧ E e (w.wroteFiles fs))
    (hcrash : ∀ fs, f w.disk.files = some fs → w.fates ≠ [] →
      C (w.wrote w.disk) ∧ C (w.wroteFiles fs)) : (changeFiles f text).wp Q E C w := by
  have hfaulty : ∀ {x : Fate TransactionError}, w.fate .files = x → x ≠ .made → w.fates ≠ [] := by
    rintro x rfl hne hcalm
    exact hne (Machine.Calm.fate hcalm _)
  refine Proc.wp_atomic (fun e he => hno ?_ e) (fun d hd _ => ?_) (fun d e n hd hf => ?_)
    fun d n hd hf => ?_
  · cases hf : f w.disk.files with
    | none => rfl
    | some => simp [hf, orIo, bind, Except.bind] at he
  · obtain ⟨fs, hfs, rfl⟩ := changedFiles_eq_ok.mp hd
    exact hok fs hfs
  · obtain ⟨fs, hfs, rfl⟩ := changedFiles_eq_ok.mp hd
    exact hfails fs hfs (hfaulty hf (by simp)) e
  · obtain ⟨fs, hfs, rfl⟩ := changedFiles_eq_ok.mp hd
    exact hcrash fs hfs (hfaulty hf (by simp))

/-- `create_dir_all` of the directory a path lies in. -/
def createParents (p : WorkspacePath) : M Unit :=
  changeFiles (·.makeParents p) "not a directory"

def privatePerm : Perm := 384

def stagedFile (bytes : Bytes) : FileData := ⟨bytes, 420⟩

/-- The permissions `publish` gives a replacement: those found under the path. -/
def keptPerm (fs : Workspace) (p : WorkspacePath) : Perm :=
  match follow fs linkLimit p with
  | some (.inside _ (.file f)) => f.perm
  | some (.inside _ _) => Perm.ofMode (fileMode .dir)
  | some (.outside f) => f.perm
  | none => privatePerm

/-- `publish_with_sync`: a temporary file with the source's bytes, renamed over the destination. -/
def publish (destination : WorkspacePath) (source : Option FileData) (restoring : Bool) :
    M Unit := do
  createParents destination
  let file ← Proc.ofExcept (orIo "no such file" source)
  let d ← Proc.disk
  let perm := if restoring then file.perm else keptPerm d.files destination
  changeFiles (·.put destination (.file ⟨file.bytes, perm⟩)) "is a directory"

def publicationReplace (destination : WorkspacePath) (source : Option FileData) : M Unit :=
  publish destination source false

def publicationRestore (destination : WorkspacePath) (backup : Option FileData) : M Unit :=
  publish destination backup true

def publicationRemove (p : WorkspacePath) : M Unit := do
  let d ← Proc.disk
  match d.files.node p with
  | none => if d.files.openTo p then pure () else Proc.fail (.io "not a directory")
  | some _ => changeFiles (fun fs => some (fs.remove p)) "not removed"

def publicationRename (source destination : WorkspacePath) : M Unit := do
  createParents destination
  changeFiles (·.move source destination) "not renamed"

/-- `chmod` through an open handle, so on what a link leads to. -/
def changeMode (p : WorkspacePath) (mode : Nat) : M Unit := do
  let d ← Proc.disk
  match follow d.files linkLimit p with
  | some (.inside q (.file f)) =>
    changeFiles (·.put q (.file { f with perm := Perm.ofMode mode })) "not a file"
  | some _ => changeFiles some "not a file"
  | none => Proc.fail (.io "no such file")

end Tetonic.Txn
