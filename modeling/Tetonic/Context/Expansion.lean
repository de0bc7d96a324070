import Tetonic.Context.Stages
import Mathlib.Algebra.GroupWithZero.Nat
set_option autoImplicit false

/-! Expansion handles: how they are issued, used and revoked, while compilations and expansions
interleave. A use of a handle is counted before the retrieval, under the lock on the handles; the
result is released after it, when the handle is looked up once more. In between other calls have
their turn. Handles are numbered when they are registered, which is before anybody sees their id. -/

namespace Tetonic.Context
open Lib
open Run (DataClass WorkspaceVersion)

structure HandleState where
  handle : ExpansionHandle
  uses : Nat
  deriving DecidableEq

structure ExpansionLimits where
  (maxConcurrent maxConcurrentPerOwner maxLiveHandles maxEvidenceItems maxTextBytes : Nat)

structure ContextExpansionRequest where
  handleId : Nat
  (sessionId runId taskId currentWorkspaceFp : String)
  deriving DecidableEq

abbrev Owner := String × String × String

def ContextExpansionRequest.owner (q : ContextExpansionRequest) : Owner :=
  (q.sessionId, q.runId, q.taskId)

structure Flight where
  request : ContextExpansionRequest
  handle : ExpansionHandle
  /-- How often the handle had been used before. -/
  earlier : Nat
  deriving DecidableEq

/-- Where a call of `compile` or of `expand_pack` is. -/
inductive Task where
  | compiling (request : ContextRequest)
  /-- The session was not revoked when it was looked at. -/
  | retrieving (request : ContextRequest)
  | packed (request : ContextRequest) (handles : List ExpansionHandle)
  | entering (q : ContextExpansionRequest)
  | entered (q : ContextExpansionRequest)
  | fetching (f : Flight)
  | fetched (f : Flight) (results : List ContextEvidence)
  | compiled
  | expanded
  | failed (message : String)
  | gone

structure Input where
  /-- The gate lets the session through; it does if there is no gate. -/
  authorized : Bool
  candidates : List ContextEvidence
  rank : List ContextEvidence → List ContextEvidence
  scan : Scan
  /-- What the search for the handle's target answers. -/
  found : Except String (List ContextEvidence)
  /-- What the file under the handle's target holds. -/
  content : Except String String
  /-- The id of a new piece of evidence. -/
  evidenceId : String

structure Yield where
  flight : Flight
  results : List ContextEvidence

structure Issue where
  request : ContextRequest
  handle : ExpansionHandle

structure Pipeline where
  limits : ExpansionLimits
  handles : OrdMap Nat HandleState
  /-- `None` once there were too many. -/
  revoked : Option (List String)
  /-- The owners of the permits that are out. -/
  active : List Owner
  tasks : OrdMap Nat Task
  (nextTask nextHandle : Nat)
  now : Int
  /-- The handles that were given out so far. -/
  issued : OrdMap Nat Issue
  /-- The expansions that succeeded so far, the last first. -/
  yields : List Yield

inductive Move where
  | compile (request : ContextRequest)
  | expand (q : ContextExpansionRequest)
  | invalidateSession (sessionId : String)
  | proceed (t : Nat) (input : Input)
  /-- The call is dropped at an `await`, or its time is up. -/
  | drop (t : Nat)
  | clock (now : Int)

namespace Pipeline

section
variable (F : CaseFolding) (digest : String → String)

def new (limits : ExpansionLimits) (now : Int) : Pipeline :=
  ⟨limits, ∅, some [], [], ∅, 0, 0, now, ∅, []⟩

def goTo (p : Pipeline) (t : Nat) (task : Task) : Pipeline :=
  { p with tasks := p.tasks.insert t task }

def spawn (p : Pipeline) (task : Task) : Pipeline :=
  { p with tasks := p.tasks.insert p.nextTask task, nextTask := p.nextTask + 1 }

def accessDenied : String := "context access denied"

/-- Nothing is let through any more once the registry of revocations is full. -/
def sessionRevoked (p : Pipeline) (sessionId : String) : Bool :=
  match p.revoked with
  | none => true
  | some sessions => sessions.contains sessionId

def liveHandle (now : Int) (state : HandleState) : Bool :=
  decide (state.handle.expiresAt > now) && decide (state.uses < state.handle.maxUses)

def insertHandles (p : Pipeline) (request : ContextRequest) : List ExpansionHandle → Pipeline
  | [] => p
  | handle :: rest =>
    insertHandles
      { p with
        handles := p.handles.insert p.nextHandle ⟨handle, 0⟩
        issued := p.issued.insert p.nextHandle ⟨request, handle⟩
        nextHandle := p.nextHandle + 1 } request rest

/-- The last part of `compile`, under both locks. -/
def register (p : Pipeline) (t : Nat) (request : ContextRequest) (handles : List ExpansionHandle) :
    Pipeline :=
  if p.sessionRevoked request.sessionId then p.goTo t (.failed "context session revoked")
  else
    let live := { p with handles := p.handles.filter fun _ state => liveHandle p.now state }
    if live.handles.size + handles.length > p.limits.maxLiveHandles then
      live.goTo t (.failed "live expansion handle limit reached")
    else (live.insertHandles request handles).goTo t .compiled

def concurrencyLimit : String :=
  "context expansion concurrency limit reached; retry after active work completes"

def enter (p : Pipeline) (t : Nat) (q : ContextExpansionRequest) : Pipeline :=
  if p.active.length ≥ p.limits.maxConcurrent ∨
      p.active.count q.owner ≥ p.limits.maxConcurrentPerOwner then
    p.goTo t (.failed concurrencyLimit)
  else { p with active := q.owner :: p.active }.goTo t (.entered q)

def leave (p : Pipeline) (t : Nat) (q : ContextExpansionRequest) (task : Task) : Pipeline :=
  { p with active := p.active.erase q.owner }.goTo t task

def unknownHandle : String := "invalid or unknown expansion handle"

/-- What is wrong with a handle that is on file, for this request. -/
def handleRefusal (now : Int) (q : ContextExpansionRequest) (state : HandleState) : Option String :=
  if state.handle.sessionId ≠ q.sessionId ∨ state.handle.runId ≠ q.runId ∨
      state.handle.taskId ≠ q.taskId then some unknownHandle
  else if now > state.handle.expiresAt then some unknownHandle
  else if state.uses ≥ state.handle.maxUses then some "expansion handle exhausted"
  else if q.currentWorkspaceFp.isEmpty ∨
      stateFingerprint state.handle.workspaceVersion ≠ q.currentWorkspaceFp then
    some "workspace changed"
  else none

/-- The first part of `expand_within_limits` under the lock: a use is counted. -/
def useHandle (p : Pipeline) (t : Nat) (q : ContextExpansionRequest) : Pipeline :=
  if p.handles[q.handleId]?.any fun state => decide (p.now ≥ state.handle.expiresAt) then
    { p with handles := p.handles.erase q.handleId }.leave t q (.failed unknownHandle)
  else
    let live := p.handles.filter fun _ state => decide (state.handle.expiresAt > p.now)
    match live[q.handleId]? with
    | none => { p with handles := live }.leave t q (.failed unknownHandle)
    | some state =>
      match handleRefusal p.now q state with
      | some message => { p with handles := live }.leave t q (.failed message)
      | none =>
        { p with handles := live.insert q.handleId { state with uses := state.uses + 1 } }.goTo t
          (.fetching ⟨q, state.handle, state.uses⟩)

def fileEvidence (handle : ExpansionHandle) (evidenceId content : String) : ContextEvidence where
  evidenceId := evidenceId
  repositoryPath := some handle.target
  symbolId := none
  byteRange := none
  contentDigest := digest content
  workspaceVersion := handle.workspaceVersion
  dataClass := .repositorySource
  text := content

def retrieve (handle : ExpansionHandle) (input : Input) : Except String (List ContextEvidence) :=
  if handle.kind = "file" then
    match pathIsAllowed F handle.target handle.allowedPaths handle.excludedPaths with
    | .error e => .error e
    | .ok false => .error "expansion target is outside the permitted scope"
    | .ok true =>
      match input.content with
      | .error e => .error e
      | .ok content =>
        if content.isEmpty then .ok []
        else .ok [fileEvidence digest handle input.evidenceId content]
  else input.found

def checkExpansionSize (limits : ExpansionLimits) (evidence : List ContextEvidence) :
    Except String Unit :=
  if evidence.length > limits.maxEvidenceItems ∨
      (evidence.map (·.text.utf8ByteSize)).sum > limits.maxTextBytes then
    .error "context expansion output exceeds configured limit"
  else .ok ()

/-- The texts after the scan for secrets, each under the digest of what is left of it. -/
def redactAll (scan : Scan) : List ContextEvidence → Except String (List ContextEvidence)
  | [] => .ok []
  | ev :: rest =>
    match scan ev.text ev.repositoryPath with
    | .error e => .error e
    | .ok none =>
      (redactAll scan rest).map ({ ev with contentDigest := digest ev.text } :: ·)
    | .ok (some text) =>
      if text.isEmpty then redactAll scan rest
      else (redactAll scan rest).map ({ ev with text, contentDigest := digest text } :: ·)

def fetch (limits : ExpansionLimits) (handle : ExpansionHandle) (input : Input) :
    Except String (List ContextEvidence) := do
  let results ← retrieve F digest handle input
  checkExpansionSize limits results
  let filtered ← filter F handle.dataClassCeiling handle.allowedPaths handle.excludedPaths results
  let redacted ← redactAll digest input.scan filtered.1
  checkExpansionSize limits redacted
  return redacted

/-- The last part of `expand_within_limits`, under the lock. -/
def release (p : Pipeline) (t : Nat) (f : Flight) (results : List ContextEvidence) : Pipeline :=
  if p.handles[f.request.handleId]?.isNone then
    p.leave t f.request (.failed "context expansion authority was revoked")
  else { p with yields := ⟨f, results⟩ :: p.yields }.leave t f.request .expanded

def advance (p : Pipeline) (t : Nat) (input : Input) : Task → Pipeline
  | .compiling request =>
    if !input.authorized then p.goTo t (.failed accessDenied)
    else if p.sessionRevoked request.sessionId then p.goTo t (.failed "context session revoked")
    else p.goTo t (.retrieving request)
  | .retrieving request =>
    match selectEvidence F input.rank request input.candidates with
    | .error e => p.goTo t (.failed e)
    | .ok budgeted =>
      if !input.authorized then p.goTo t (.failed accessDenied)
      else
        match sealHandles digest input.scan request p.now budgeted with
        | .error e => p.goTo t (.failed e)
        | .ok handles => p.goTo t (.packed request handles)
  | .packed request handles =>
    if !input.authorized then p.goTo t (.failed accessDenied) else p.register t request handles
  | .entering q => p.enter t q
  | .entered q =>
    if !input.authorized then p.leave t q (.failed accessDenied)
    else if Text.blank q.sessionId || Text.blank q.runId || Text.blank q.taskId then
      p.leave t q (.failed "expansion requires a nonempty session, run and task")
    else p.useHandle t q
  | .fetching f =>
    match fetch F digest p.limits f.handle input with
    | .error e => p.leave t f.request (.failed e)
    | .ok results => p.goTo t (.fetched f results)
  | .fetched f results =>
    if !input.authorized then p.leave t f.request (.failed accessDenied) else p.release t f results
  | .compiled | .expanded | .failed _ | .gone => p

def dropTask (p : Pipeline) (t : Nat) : Task → Pipeline
  | .compiling _ | .retrieving _ | .packed _ _ | .entering _ => p.goTo t .gone
  | .entered q => p.leave t q (.failed "context expansion deadline exceeded")
  | .fetching f | .fetched f _ =>
    p.leave t f.request (.failed "context expansion deadline exceeded")
  | .compiled | .expanded | .failed _ | .gone => p

def maxRevokedSessions : Nat := 1024

def invalidateSession (p : Pipeline) (sessionId : String) : Pipeline :=
  let kept := p.handles.filter fun _ state => decide (state.handle.sessionId ≠ sessionId)
  match p.revoked with
  | none => { p with handles := kept }
  | some sessions =>
    if sessions.length ≥ maxRevokedSessions ∧ !sessions.contains sessionId then
      { p with handles := ∅, revoked := none }
    else if sessions.contains sessionId then { p with handles := kept }
    else { p with handles := kept, revoked := some (sessionId :: sessions) }

def move (p : Pipeline) : Move → Pipeline
  | .compile request => p.spawn (.compiling request)
  | .expand q => p.spawn (.entering q)
  | .invalidateSession sessionId => p.invalidateSession sessionId
  | .proceed t input =>
    match p.tasks[t]? with
    | none => p
    | some task => p.advance F digest t input task
  | .drop t =>
    match p.tasks[t]? with
    | none => p
    | some task => p.dropTask t task
  | .clock now => { p with now }

def moves (p : Pipeline) (xs : List Move) : Pipeline := xs.foldl (move F digest) p

end

end Pipeline

end Tetonic.Context
