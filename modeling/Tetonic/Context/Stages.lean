import Tetonic.Context.Paths
import Tetonic.Run.Domain
set_option autoImplicit false

/-! The stages of the context pipeline between retrieval and the sealed pack, and what they let
through. Retrieval and ranking are given from outside: what the sources answer, and in which order
the scores put it. -/

namespace Tetonic.Context
open Run (DataClass WorkspaceVersion WorkspaceVersionScheme)

def schemeNumber : WorkspaceVersionScheme → Nat
  | .git => 0
  | .manifest => 1

def stateFingerprint (v : WorkspaceVersion) : String :=
  v.repositoryId ++ ":" ++ toString (schemeNumber v.versionScheme) ++ ":" ++ v.dirtyStateDigest ++
    ":" ++ v.trackedStateDigest

/-- The parts of a piece of evidence that the stages after ranking read. -/
structure ContextEvidence where
  evidenceId : String
  (repositoryPath symbolId : Option String)
  byteRange : Option (Nat × Nat)
  contentDigest : String
  workspaceVersion : WorkspaceVersion
  dataClass : DataClass
  text : String
  deriving DecidableEq

structure ContextOmission where
  reason : String
  path : Option String
  deriving DecidableEq, Repr

structure TokenBudget where
  (maxTokens safetyReserve : Nat)

structure ContextRequest where
  (sessionId runId taskId : String)
  workspaceVersion : WorkspaceVersion
  dataClassCeiling : DataClass
  (allowedPaths excludedPaths : PathPolicy)
  tokenBudget : TokenBudget

def classRank : DataClass → Nat
  | .public => 0
  | .repositorySource => 1
  | .sensitiveSource => 2
  | .secret => 3

def classExceedsCeiling (c ceiling : DataClass) : Bool := decide (classRank c > classRank ceiling)

section
variable (F : CaseFolding)

def omission (ev : ContextEvidence) (ceiling : DataClass) (allowed excluded : PathPolicy) :
    Except String (Option ContextOmission) :=
  if classExceedsCeiling ev.dataClass ceiling then
    .ok (some ⟨"data-class " ++ ev.dataClass.debug ++ " exceeds ceiling " ++ ceiling.debug,
      ev.repositoryPath⟩)
  else
    match ev.repositoryPath with
    | some path =>
      match pathIsAllowed F path allowed excluded with
      | .error e => .error e
      | .ok true => .ok none
      | .ok false => .ok (some ⟨"path is outside the permitted scope", ev.repositoryPath⟩)
    | none =>
      if allowed ≠ [] ∨ excluded ≠ [] then
        .ok (some ⟨"pathless evidence cannot satisfy path restrictions", none⟩)
      else .ok none

def filter (ceiling : DataClass) (allowed excluded : PathPolicy) :
    List ContextEvidence → Except String (List ContextEvidence × List ContextOmission)
  | [] => .ok ([], [])
  | ev :: rest =>
    match omission F ev ceiling allowed excluded with
    | .error e => .error e
    | .ok left =>
      match filter ceiling allowed excluded rest with
      | .error e => .error e
      | .ok (accepted, omissions) =>
        match left with
        | some reason => .ok (accepted, reason :: omissions)
        | none => .ok (ev :: accepted, omissions)

/-- The evidence is for those who may see this class and these paths. -/
structure Within (ceiling : DataClass) (allowed excluded : PathPolicy) (ev : ContextEvidence) :
    Prop where
  dataClass : classRank ev.dataClass ≤ classRank ceiling
  path : ∀ path, ev.repositoryPath = some path → Permits F allowed excluded path
  pathless : ev.repositoryPath = none → allowed = [] ∧ excluded = []

theorem within_of_omission {ev : ContextEvidence} {ceiling : DataClass}
    {allowed excluded : PathPolicy} (h : omission F ev ceiling allowed excluded = .ok none) :
    Within F ceiling allowed excluded ev := by
  unfold omission at h
  split at h
  · cases h
  · rename_i hclass
    have hrank : classRank ev.dataClass ≤ classRank ceiling := by
      simpa [classExceedsCeiling] using hclass
    split at h
    · rename_i path hpath
      split at h
      · cases h
      · rename_i hallowed
        refine ⟨hrank, ?_, ?_⟩
        · intro path' hpath'
          rw [hpath] at hpath'
          cases hpath'
          exact permits_of_allowed F hallowed
        · intro hnone
          rw [hpath] at hnone
          cases hnone
      · cases h
    · rename_i hpath
      split at h
      · cases h
      · rename_i hfree
        refine ⟨hrank, ?_, ?_⟩
        · intro path hpath'
          rw [hpath] at hpath'
          cases hpath'
        · intro _
          simpa using hfree

theorem filter_within {ceiling : DataClass} {allowed excluded : PathPolicy}
    {candidates accepted : List ContextEvidence} {omissions : List ContextOmission}
    (h : filter F ceiling allowed excluded candidates = .ok (accepted, omissions)) :
    ∀ ev ∈ accepted, Within F ceiling allowed excluded ev := by
  induction candidates generalizing accepted omissions with
  | nil =>
    cases h
    simp
  | cons ev rest ih =>
    unfold filter at h
    split at h
    · cases h
    · rename_i left hleft
      split at h
      · cases h
      · rename_i accepted' omissions' hrest
        split at h
        · cases h
          exact ih hrest
        · cases h
          intro ev' hev'
          obtain rfl | hev' := List.mem_cons.mp hev'
          · exact within_of_omission F hleft
          · exact ih hrest ev' hev'

end

def overlaps (ev existing : ContextEvidence) : Bool :=
  match ev.repositoryPath, ev.byteRange, existing.byteRange with
  | some path, some range, some other =>
    decide (existing.repositoryPath = some path) && decide (range.1 < other.2) &&
      decide (other.1 < range.2)
  | _, _, _ => false

/-- What was seen so far: digests, symbols with their paths, and what was kept. -/
structure Seen where
  digests : List String
  symbols : List (String × String)
  kept : List ContextEvidence

def Seen.symbolOf (ev : ContextEvidence) : Option (String × String) :=
  match ev.repositoryPath, ev.symbolId with
  | some path, some symbol => some (path, symbol)
  | _, _ => none

/-- A candidate marks its digest as seen even when it is dropped for its symbol or its range, and
its symbol even when it is dropped for its range. -/
def Seen.add (seen : Seen) (ev : ContextEvidence) : Seen :=
  if seen.digests.contains ev.contentDigest then seen
  else
    let digests := ev.contentDigest :: seen.digests
    match Seen.symbolOf ev with
    | some key =>
      if seen.symbols.contains key then { seen with digests }
      else if seen.kept.any (overlaps ev) then { seen with digests, symbols := key :: seen.symbols }
      else ⟨digests, key :: seen.symbols, seen.kept ++ [ev]⟩
    | none =>
      if seen.kept.any (overlaps ev) then { seen with digests }
      else { seen with digests, kept := seen.kept ++ [ev] }

def deduplicate (ranked : List ContextEvidence) : List ContextEvidence :=
  (ranked.foldl Seen.add ⟨[], [], []⟩).kept

def estimateTokens (text : String) : Nat := (text.utf8ByteSize + 3) / 4

def budgetFrom (effective : Nat) :
    Nat → List ContextEvidence → List ContextEvidence × List ContextOmission
  | _, [] => ([], [])
  | used, ev :: rest =>
    let tokens := estimateTokens ev.text
    if used + tokens ≤ effective then
      let result := budgetFrom effective (used + tokens) rest
      (ev :: result.1, result.2)
    else
      let result := budgetFrom effective used rest
      (result.1, ⟨"budget exhausted: needed " ++ toString tokens ++ " tokens, " ++
        toString (effective - used) ++ " remaining", ev.repositoryPath⟩ :: result.2)

def applyBudget (budget : TokenBudget) (deduped : List ContextEvidence) :
    Except String (List ContextEvidence × List ContextOmission) :=
  if budget.safetyReserve ≥ budget.maxTokens then
    .error ("safety_reserve (" ++ toString budget.safetyReserve ++
      ") must be less than max_tokens (" ++ toString budget.maxTokens ++ ")")
  else .ok (budgetFrom (budget.maxTokens - budget.safetyReserve) 0 deduped)

/-- What the scanner for secrets answers: an error, nothing, or the text that is left. -/
abbrev Scan := String → Option String → Except String (Option String)

/-- The evidence with what the scanner left of its text, under the digest of that text. -/
def redact (digest : String → String) (scan : Scan) (ev : ContextEvidence) :
    Except String (Option ContextEvidence) :=
  match scan ev.text ev.repositoryPath with
  | .error e => .error e
  | .ok none => .ok (some ev)
  | .ok (some text) =>
    if text.isEmpty then .ok none else .ok (some { ev with text, contentDigest := digest text })

def revalidate (digest : String → String) (scan : Scan) (fingerprint : String) :
    List ContextEvidence → Except String (List ContextEvidence)
  | [] => .ok []
  | ev :: rest =>
    if ev.contentDigest.isEmpty then
      .error ("evidence EvidenceId(" ++ ev.evidenceId.quote ++
        ") has empty content_digest — rejecting pack")
    else if ev.repositoryPath.isSome ∧ stateFingerprint ev.workspaceVersion ≠ fingerprint then
      .error "workspace changed during compilation"
    else
      match redact digest scan ev with
      | .error e => .error e
      | .ok none => revalidate digest scan fingerprint rest
      | .ok (some ev) => (revalidate digest scan fingerprint rest).map (ev :: ·)

structure ExpansionHandle where
  (sessionId runId taskId : String)
  workspaceVersion : WorkspaceVersion
  (kind target : String)
  (allowedPaths excludedPaths : PathPolicy)
  dataClassCeiling : DataClass
  expiresAt : Int
  maxUses : Nat
  deriving DecidableEq

def handleLifetime : Int := 3600000000000

def newHandle (request : ContextRequest) (now : Int) (kind target : String) : ExpansionHandle where
  sessionId := request.sessionId
  runId := request.runId
  taskId := request.taskId
  workspaceVersion := request.workspaceVersion
  kind := kind
  target := target
  allowedPaths := request.allowedPaths
  excludedPaths := request.excludedPaths
  dataClassCeiling := request.dataClassCeiling
  expiresAt := now + handleLifetime
  maxUses := 3

/-- A handle for each path of the first ten pieces, and one for each symbol there. -/
def generateExpansionHandles (request : ContextRequest) (now : Int)
    (evidence : List ContextEvidence) : List ExpansionHandle :=
  let top := evidence.take 10
  (top.filterMap (·.repositoryPath)).eraseDups.map (newHandle request now "file") ++
    (top.filterMap (·.symbolId)).map (newHandle request now "symbol")

def selectEvidence (F : CaseFolding) (rank : List ContextEvidence → List ContextEvidence)
    (request : ContextRequest) (candidates : List ContextEvidence) :
    Except String (List ContextEvidence) := do
  let filtered ← filter F request.dataClassCeiling request.allowedPaths request.excludedPaths
    candidates
  let budgeted ← applyBudget request.tokenBudget (deduplicate (rank filtered.1))
  return budgeted.1

def sealHandles (digest : String → String) (scan : Scan) (request : ContextRequest) (now : Int)
    (budgeted : List ContextEvidence) : Except String (List ExpansionHandle) := do
  let evidence ← revalidate digest scan (stateFingerprint request.workspaceVersion) budgeted
  return generateExpansionHandles request now evidence

/-- The handle is for those who made the request, and shows no more than it may. -/
structure IssuedFor (request : ContextRequest) (handle : ExpansionHandle) : Prop where
  sessionId : handle.sessionId = request.sessionId
  runId : handle.runId = request.runId
  taskId : handle.taskId = request.taskId
  dataClassCeiling : handle.dataClassCeiling = request.dataClassCeiling
  allowedPaths : handle.allowedPaths = request.allowedPaths
  excludedPaths : handle.excludedPaths = request.excludedPaths

theorem newHandle_issuedFor (request : ContextRequest) (now : Int) (kind target : String) :
    IssuedFor request (newHandle request now kind target) := ⟨rfl, rfl, rfl, rfl, rfl, rfl⟩

theorem sealHandles_issuedFor {digest : String → String} {scan : Scan} {request : ContextRequest}
    {now : Int} {budgeted : List ContextEvidence} {handles : List ExpansionHandle}
    (h : sealHandles digest scan request now budgeted = .ok handles) :
    ∀ handle ∈ handles, IssuedFor request handle := by
  unfold sealHandles at h
  cases hvalid : revalidate digest scan (stateFingerprint request.workspaceVersion) budgeted with
  | error =>
    rw [hvalid] at h
    cases h
  | ok =>
    rw [hvalid] at h
    cases h
    intro handle hmem
    obtain hmem | hmem := List.mem_append.mp hmem
    · obtain ⟨path, -, rfl⟩ := List.mem_map.mp hmem
      exact newHandle_issuedFor request now "file" path
    · obtain ⟨symbol, -, rfl⟩ := List.mem_map.mp hmem
      exact newHandle_issuedFor request now "symbol" symbol

end Tetonic.Context
