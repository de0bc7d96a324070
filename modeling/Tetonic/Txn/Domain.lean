import Tetonic.Lib.FileTree
import Tetonic.Lib.OrdMap
import Tetonic.Lib.Outcome
import Tetonic.Lib.Storage
set_option autoImplicit false

/-! The records of a workspace transaction and the workspace it works on. Paths and digests are
kept as the texts they are, so that the map of pending writes runs through them in the order of
the source; digesting, the patch encoding and the fuzzy edit are left to the platform. -/

namespace Tetonic.Txn
open Lib

/-- A path relative to the root, its components separated by `/`. -/
abbrev WorkspacePath := List Char

abbrev ContentDigest := List Char

abbrev Bytes := List UInt8

abbrev TransactionId := String

/-- The directories of the root that a path lies in: what stands before each of its `/`. -/
def ancestors : WorkspacePath → List WorkspacePath
  | [] => []
  | c :: rest => (if c = '/' then [[]] else []) ++ (ancestors rest).map (c :: ·)

theorem mem_ancestors {a p : WorkspacePath} : a ∈ ancestors p ↔ ∃ rest, p = a ++ '/' :: rest := by
  induction p generalizing a with
  | nil => simp [ancestors]
  | cons c rest ih =>
    simp only [ancestors, List.mem_append, List.mem_map, ih]
    constructor
    · rintro (h | ⟨b, ⟨tail, rfl⟩, rfl⟩)
      · split at h
        · simp only [List.mem_singleton] at h
          subst h
          exact ⟨rest, by simp [*]⟩
        · cases h
      · exact ⟨tail, rfl⟩
    · rintro ⟨tail, h⟩
      cases a with
      | nil =>
        simp only [List.nil_append, List.cons.injEq] at h
        exact .inl (by simp [h.1])
      | cons b a =>
        simp only [List.cons_append, List.cons.injEq] at h
        exact .inr ⟨a, ⟨tail, h.2⟩, by rw [h.1]⟩

instance : Located WorkspacePath where
  above := ancestors
  above_trans := by
    intro p a b ha hb
    obtain ⟨rest, rfl⟩ := mem_ancestors.mp ha
    obtain ⟨tail, rfl⟩ := mem_ancestors.mp hb
    exact mem_ancestors.mpr ⟨tail ++ '/' :: rest, by simp⟩
  not_above_self := by
    intro p h
    obtain ⟨rest, h⟩ := mem_ancestors.mp h
    have := congrArg List.length h
    simp at this

abbrev Perm := Fin 4096

def Perm.ofMode (mode : Nat) : Perm := ⟨mode % 4096, Nat.mod_lt _ (by decide)⟩

structure FileData where
  bytes : Bytes
  perm : Perm
  deriving DecidableEq, Repr

/-- Where a link leads: to a path of the workspace, or out of it, to a file that may be there. -/
inductive LinkTarget where
  | inside (path : WorkspacePath)
  | outside (found : Option FileData)
  deriving DecidableEq, Repr

structure Link where
  text : Bytes
  target : LinkTarget
  deriving DecidableEq, Repr

abbrev Entry := Node FileData Link

abbrev Workspace := FileTree WorkspacePath FileData Link

inductive TransactionState where
  | created | staging | staged | verifying | readyToCommit | committing | committed | aborted
  | rejected | conflict | recoveryRequired
  deriving DecidableEq, Repr

inductive ConflictKind where
  | contentChanged | headChanged | fileAppeared | fileRemoved | symlinkRetargeted | modeChanged
  | workspaceIdentityChanged | newFileDestinationOccupied | deleteTargetChanged
  | renameDestinationOccupied | permissionChanged | cancelled
  deriving DecidableEq, Repr

structure PathState where
  digest : Option ContentDigest
  present : Bool
  mode : Option Nat
  deriving DecidableEq, Repr

structure WorkspaceConflict where
  path : WorkspacePath
  (expected actual : PathState)
  conflictKind : ConflictKind
  deriving DecidableEq, Repr

inductive TransactionError where
  | outsideWorkspace (path : String)
  | lockContention (text : String)
  | recoveryRequired (text : String)
  | conflict (conflicts : List WorkspaceConflict)
  | invalidTransition (source target : TransactionState)
  | approvalInvalid (text : String)
  | sizeLimit (text : String)
  | io (text : String)
  | git (text : String)
  | other (text : String)
  deriving DecidableEq, Repr

inductive StagedOperationKind where
  | create | replace | edit | delete | rename | modeChange
  deriving DecidableEq, Repr

def StagedOperationKind.debug : StagedOperationKind → String
  | .create => "Create"
  | .replace => "Replace"
  | .edit => "Edit"
  | .delete => "Delete"
  | .rename => "Rename"
  | .modeChange => "ModeChange"

def StagedOperationKind.writes : StagedOperationKind → Bool
  | .create | .replace | .edit => true
  | .delete | .rename | .modeChange => false

/-- A pending operation. Staged content is stored under the path it is for. -/
structure StagedOperation where
  kind : StagedOperationKind
  path : WorkspacePath
  destination : Option WorkspacePath
  (baseDigest newDigest : Option ContentDigest)
  newContentPath : Option WorkspacePath
  (baseMode newMode : Option Nat)
  deriving DecidableEq, Repr

inductive WorkspaceVersionScheme where
  | git | manifest
  deriving DecidableEq, Repr

structure WorkspaceVersion where
  repositoryId : String
  versionScheme : WorkspaceVersionScheme
  gitHead : Option ContentDigest
  (dirtyStateDigest trackedStateDigest : ContentDigest)
  relevantPathDigests : List (WorkspacePath × ContentDigest)
  deriving DecidableEq, Repr

structure VerificationRecord where
  command : String
  outputDigest : ContentDigest
  success : Bool
  unexpectedMutations : List WorkspacePath
  deriving DecidableEq, Repr

structure PatchApproval where
  transactionId : TransactionId
  patchDigest : ContentDigest
  baseVersion : WorkspaceVersion
  (verificationRequired verificationPassed : Bool)
  deriving DecidableEq, Repr

/-- The files of a backup directory: for the operation of an index the original of its path, the
original of a rename's destination, and the new content. -/
inductive BackupRole where
  | original | destination | content
  deriving DecidableEq, Repr

abbrev BackupName := Nat × BackupRole

inductive RenameDestinationBackup where
  | absent
  | file (backup : BackupName)
  deriving DecidableEq, Repr

/-- The file a journaled write takes its content from; `none` is the empty path. -/
inductive ContentSource where
  | none
  | staged (path : WorkspacePath)
  | copy (backup : BackupName)
  deriving DecidableEq, Repr

structure JournalOperation where
  index : Nat
  operation : StagedOperation
  backupPath : Option BackupName
  renameDestination : Option RenameDestinationBackup
  expectedDigest : Option ContentDigest
  newContentPath : ContentSource
  started : Option Bool
  (completed rolledBack : Bool)
  deriving DecidableEq, Repr

structure CommitJournal where
  transactionId : TransactionId
  baseVersion : WorkspaceVersion
  patchDigest : ContentDigest
  state : TransactionState
  operations : List JournalOperation
  progress : Nat
  deriving DecidableEq, Repr

structure ReadWriteSets where
  reads : OrdMap WorkspacePath Unit
  writes : OrdMap WorkspacePath StagedOperation
  readBaselines : OrdMap WorkspacePath ContentDigest

structure SecurityLimits where
  (maxFileBytes maxTotalBytes : Nat)
  deriving DecidableEq, Repr

def SecurityLimits.default : SecurityLimits where
  maxFileBytes := 8 * 1024 * 1024
  maxTotalBytes := 32 * 1024 * 1024

structure WorkspaceTransaction where
  id : TransactionId
  state : TransactionState
  baseVersion : WorkspaceVersion
  sets : ReadWriteSets
  stagedBytes : Nat
  limits : SecurityLimits
  approval : Option PatchApproval
  verification : Option VerificationRecord
  verificationRequired : Bool
  readSnapshot : OrdMap WorkspacePath ContentDigest

/-- What the code takes from elsewhere: SHA-256, UTF-8, `serde_json` on a list of operations, and
the fuzzy edit of a text. -/
structure Platform where
  digest : Bytes → ContentDigest
  isText : Bytes → Bool
  operationsJson : List StagedOperation → Bytes
  applyFuzzyEdit : Bytes → Bytes → Bytes → Except String Bytes

/-- The workspace, its repository, and the transaction's own files under `.lokai`. -/
structure Disk where
  files : Workspace
  version : WorkspaceVersion
  content : WorkspacePath → Option Bytes
  backups : BackupName → Option FileData
  journal : Option CommitJournal

/-- What a write goes to: the workspace, the commit journal, the backup directory, staged
content, or records that nothing here reads back (metadata, locks, overlays, artifacts). -/
inductive Medium where
  | files | journal | backups | content | records
  deriving DecidableEq, Repr

/-- The transaction in memory, and the journal its commit or a recovery works with. -/
structure Memory where
  txn : WorkspaceTransaction
  journal : CommitJournal

abbrev World := Machine Disk Memory Medium TransactionError

abbrev M := Proc Disk Memory Medium TransactionError

end Tetonic.Txn
