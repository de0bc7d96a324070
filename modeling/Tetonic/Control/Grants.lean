import Mathlib.Data.List.Sort
import Tetonic.Control.Budget
set_option autoImplicit false

/-! Execution grants: issued for a job of their own, or derived from the grant of a running parent
and valid only along with it. -/

namespace Tetonic.Control
open Lib Run

def subset (child parent : List String) : Bool := child.all parent.contains

theorem subset_iff {child parent : List String} :
    subset child parent = true ↔ ∀ item ∈ child, item ∈ parent := by
  simp [subset]

def Store.grantLineage (s : Store) (id : String) : Option DelegatedGrantLineage :=
  s.lineages[id]?.map (·.lineage)

def Store.isDelegated (s : Store) (id : String) : Bool := (s.grantLineage id).isSome

def Store.liveRow (s : Store) (id : String) (now : Int) : Option GrantRow :=
  s.grants[id]?.filter fun row => row.revokedAt = none && row.expiresAt > now

def Store.liveGrant (s : Store) (E : Surroundings) (id : String) (now : Int) :
    Result ExecutionGrant := do
  let row ← orDeny (s.liveRow id now)
  let grant := row.payload
  denyIf (grant.grantId ≠ id || now < 0 || !E.contextAccess grant.scope.principalId
    grant.scope.informationContextId grant.scope.organizationId)
  denyIf !E.registered grant.scope.organizationId grant.job.identityId grant.job.definitionDigest
  .ok grant

def requireSharedGrantContext (E : Surroundings) (scope : ExecutionScope) (org team : String) :
    Result Unit :=
  denyIf (scope.organizationId ≠ org || !E.sharedContext scope.informationContextId org team)

def leaseMatches (l : DelegatedGrantLineage) (attempt : AttemptRecord) : Bool :=
  attempt.lease.any fun lease =>
    lease.attemptId = l.parentAttemptId && lease.leaseId = l.parentLease.leaseId &&
      lease.leaseEpoch = l.parentLease.leaseEpoch && lease.holder = l.parentLease.holder

def currentTime (task : TaskRecord) (attempt : AttemptRecord) (now : Int) : Bool :=
  now ≥ 0 &&
    (attempt.lease.any fun lease =>
      lease.attemptId = attempt.attemptId && (lease.expiresAt.toNat : Int) > now) &&
    task.binding.deadline.all fun deadline => (deadline.toNat : Int) > now

def isRunning (task : TaskRecord) (attempt : AttemptRecord) (now : Int) : Bool :=
  attempt.state = .running && task.state = .running && attempt.executionClaimed &&
    !attempt.executionQuiesced && attempt.suspension.isNone && currentTime task attempt now

def isParked (task : TaskRecord) (attempt : AttemptRecord) (now : Int) : Bool :=
  attempt.state = .suspended && task.state = .parked && attempt.executionClaimed &&
    attempt.executionQuiesced &&
    attempt.suspension.any fun wait =>
      wait.reason = .humanInput && wait.remainingSeconds > 0 && now ≥ 0 &&
        (wait.suspendedAt.toNat : Int) ≤ now &&
        (task.binding.deadline.any fun d =>
          wait.suspendedAt ≤ d && d - wait.suspendedAt = wait.remainingSeconds) &&
        wait.checkpoint.artifactId ≠ "" && wait.checkpoint.digest ≠ ""

def isResuming (l : DelegatedGrantLineage) (task : TaskRecord) (attempt : AttemptRecord)
    (now : Int) : Bool :=
  attempt.state = .starting && task.state = .leased && !attempt.executionClaimed &&
    !attempt.executionQuiesced && attempt.suspension.isNone &&
    (attempt.lease.any fun lease => lease.leaseEpoch > l.parentLease.leaseEpoch) &&
    currentTime task attempt now

def validateParentLifetime (l : DelegatedGrantLineage) (task : TaskRecord) (attempt : AttemptRecord)
    (now : Int) : Result Unit :=
  match l.lifetime with
  | .parentLease => denyIf !(leaseMatches l attempt && isRunning task attempt now)
  | .parentWork =>
    let leaseValid := attempt.lease.any fun lease =>
      lease.attemptId = l.parentAttemptId && lease.leaseId = l.parentLease.leaseId &&
        (lease.leaseEpoch > l.parentLease.leaseEpoch || leaseMatches l attempt)
    denyIf !(leaseValid && (isParked task attempt now || isResuming l task attempt now ||
      isRunning task attempt now))

def validateLiveParent (l : DelegatedGrantLineage) (run : RunSnapshot) (now : Int) :
    Result Unit := do
  let attempt ← orDeny run.attempts[l.parentAttemptId]?
  let task ← orDeny run.tasks[l.parentTaskId]?
  denyIf (!leaseMatches l attempt || !isRunning task attempt now)

def Store.validateParentAttempt (s : Store) (E : Surroundings) (l : DelegatedGrantLineage)
    (parent : ExecutionGrant) (now : Int) : Result Unit := do
  let work ← orDeny (s.workItem l.orgId l.teamId l.parentWorkId)
  denyIf (work.status ≠ .running || work.runId ≠ some l.parentRunId ||
    work.attemptId ≠ some l.parentAttemptId)
  let run ← orDeny (E.run l.parentRunId)
  let attempt ← orDeny run.attempts[l.parentAttemptId]?
  let task ← orDeny run.tasks[l.parentTaskId]?
  denyIf (run.state ≠ .active || run.cancellation.runCanceled ||
    attempt.taskId ≠ l.parentTaskId || attempt.taskVersion ≠ l.parentTaskVersion ||
    task.binding.taskDefinitionVersion ≠ l.parentTaskVersion ||
    task.activeAttempt ≠ some l.parentAttemptId || task.finalizationClaim.isSome ||
    task.binding.executionScope ≠ some parent.scope ||
    task.binding.executionGrantId ≠ some parent.grantId ||
    task.binding.jobSpec ≠ some parent.job)
  validateParentLifetime l task attempt now

def ScopeKind.text : ScopeKind → String
  | .org => "org"
  | .team => "team"
  | .goal => "goal"
  | .work => "work"
  | .agent => "agent"

def scopeLe (a b : ScopeKind × String) : Prop :=
  a.1.text < b.1.text ∨ a.1 = b.1 ∧ a.2 ≤ b.2

instance : DecidableRel scopeLe := fun a b =>
  inferInstanceAs (Decidable (a.1.text < b.1.text ∨ a.1 = b.1 ∧ a.2 ≤ b.2))

def scopeSet (scopes : List (ScopeKind × String)) : List (ScopeKind × String) :=
  (scopes.insertionSort scopeLe).eraseDups

theorem mem_scopeSet {scopes : List (ScopeKind × String)} {x : ScopeKind × String} :
    x ∈ scopeSet scopes ↔ x ∈ scopes := by
  simp [scopeSet]

def Store.generations (s : Store) (org : String) : List (ScopeKind × String) → Result StopBinding
  | [] => .ok []
  | (kind, id) :: rest => do
    denyIf (s.activeControlStop org kind id).isSome
    let others ← s.generations org rest
    .ok ((kind, id, s.stopGeneration org kind id) :: others)

def Store.workScopes (s : Store) (org team : String) : List String →
    Result (List (ScopeKind × String))
  | [] => .ok []
  | id :: rest => do
    let work ← orDeny (s.workItem org team id)
    let others ← s.workScopes org team rest
    .ok ((.work, id) :: work.goalId.toList.map (ScopeKind.goal, ·) ++ others)

def agentKeyOf (E : Surroundings) (org : String) (job : AgentJobSpec) : Result String :=
  match E.agentKey org job.identityId with
  | some key => .ok key
  | none => .error .sqlite

def Store.delegationScopes (s : Store) (E : Surroundings) (l : DelegatedGrantLineage)
    (parent child : AgentJobSpec) : Result (List (ScopeKind × String)) := do
  let ancestors ← s.workAncestors l.orgId l.teamId l.childWorkId
  let works ← s.workScopes l.orgId l.teamId ancestors
  let parentKey ← agentKeyOf E l.orgId parent
  let childKey ← agentKeyOf E l.orgId child
  .ok ([(.org, l.orgId), (.team, l.teamId)] ++ works ++ [(.agent, parentKey), (.agent, childKey)])

section Chain

-- SHA-256 of the JSON of the generations, in hexadecimal
variable (D : StopBinding → String)

def Store.delegationStopBinding (s : Store) (E : Surroundings) (l : DelegatedGrantLineage)
    (parent child : AgentJobSpec) : Result String := do
  let scopes ← s.delegationScopes E l parent child
  let generations ← s.generations l.orgId (scopeSet scopes)
  .ok (D generations)

/-- A grant of work authority has the stop generations it was issued under. -/
def Store.validateStopBinding (s : Store) (E : Surroundings) (l : DelegatedGrantLineage)
    (parent child : AgentJobSpec) : Result Unit :=
  match l.lifetime with
  | .parentLease => .ok ()
  | .parentWork => do
    let binding ← s.delegationStopBinding D E l parent child
    denyIf (l.stopBinding ≠ some binding)

/-- The allocation and the delegation are those the grant was derived for. -/
def Store.validateAllocation (s : Store) (l : DelegatedGrantLineage) : Result Unit := do
  s.requireWorkAllocationOpen l.orgId l.teamId l.childWorkId
  let allocation ← s.workBudgetUnchecked l.orgId l.teamId l.childWorkId
  let delegation ← orDeny (s.delegation l.orgId l.teamId l.delegationId)
  denyIf (allocation.payerPrincipalId ≠ l.payerPrincipalId ||
    allocation.stopScope ≠ l.stopScope || allocation.tokenLimit ≠ l.allocatedTokens ||
    delegation.childWorkId ≠ l.childWorkId || delegation.parentWorkId ≠ l.parentWorkId)

/-- The parent's grant, if it was derived, was derived for the parent's work. -/
def Store.validateParentLineage (s : Store) (l : DelegatedGrantLineage) (parent : ExecutionGrant) :
    Result Unit :=
  match s.grantLineage parent.grantId with
  | none => .ok ()
  | some m => denyIf (m.childWorkId ≠ l.parentWorkId || m.orgId ≠ l.orgId || m.teamId ≠ l.teamId)

def exceedsParent (l : DelegatedGrantLineage) (child parent : ExecutionGrant) : Bool :=
  child.scope ≠ parent.scope || child.expiresAt > parent.expiresAt ||
    (l.approvedEnvironment.isNone &&
      !subset child.job.capabilityBindings parent.job.capabilityBindings) ||
    !subset child.job.artifactBindings parent.job.artifactBindings

/-- One turn of the loop of `validate_delegated_chain`; the parent's grant comes next. -/
def Store.validateLink (s : Store) (E : Surroundings) (l : DelegatedGrantLineage)
    (child : ExecutionGrant) (now : Int) : Result ExecutionGrant := do
  let parent ← s.liveGrant E l.parentGrantId now
  s.validateStopBinding D E l parent.job child.job
  requireSharedGrantContext E child.scope l.orgId l.teamId
  denyIf (exceedsParent l child parent)
  denyIf (l.approvedEnvironment.isSome &&
    !E.controlAccess parent.scope.principalId .manageOrganization l.orgId "")
  s.validateParentAttempt E l parent now
  s.validateAllocation l
  s.validateParentLineage l parent
  .ok parent

/-- The loop, with the room that is left of 32 turns and the grants seen. -/
def Store.validateChainFrom (s : Store) (E : Surroundings) (now : Int) : Nat → List String →
    ExecutionGrant → Result Unit
  | room, visited, child =>
    match s.grantLineage child.grantId with
    | none => .ok ()
    | some l =>
      match room with
      | 0 => deny
      | room + 1 =>
        if child.grantId ∈ visited then deny
        else do
          let parent ← s.validateLink D E l child now
          s.validateChainFrom E now room (visited ++ [child.grantId]) parent

def Store.validateDelegatedChain (s : Store) (E : Surroundings) (grant : ExecutionGrant)
    (now : Int) : Result Unit :=
  s.validateChainFrom D E now 32 [] grant

def ExecutionGrant.row (grant : ExecutionGrant) : GrantRow :=
  ⟨grant, grant.scope.organizationId, grant.expiresAt, none⟩

/-- `insert_execution_grant`: the same grant again is accepted, unless it was revoked. -/
def Store.insertExecutionGrant (s : Store) (grant : ExecutionGrant) : Result Store :=
  match s.grants[grant.grantId]? with
  | some old =>
    if old.payload ≠ grant || old.revokedAt.isSome then .error .controlResourceConflict else .ok s
  | none =>
    .ok { s with grants := s.grants.insert grant.grantId grant.row }

def Store.issueExecutionGrant (s : Store) (E : Surroundings) (actor : String)
    (grant : ExecutionGrant) (now : Int) : Result Store := do
  failIf (.invalidControlResource "execution grant") (E.grantJsonLength grant > 65536 ||
    !E.issuableId grant.grantId || now < 0 || grant.expiresAt ≤ now)
  denyIf (!E.controlAccess actor .manageOrganization grant.scope.organizationId "" ||
    !E.contextAccess grant.scope.principalId grant.scope.informationContextId
      grant.scope.organizationId)
  denyIf !E.registered grant.scope.organizationId grant.job.identityId grant.job.definitionDigest
  -- a derived grant is not issued again as one of its own
  denyIf (s.isDelegated grant.grantId)
  s.insertExecutionGrant grant

def Store.revokeExecutionGrant (s : Store) (E : Surroundings) (actor org id : String) (now : Int) :
    Result Store := do
  denyIf !E.controlAccess actor .manageOrganization org ""
  let row ← orDeny (s.grants[id]?.filter (·.orgId = org))
  match row.revokedAt with
  | none => .ok { s with grants := s.grants.insert id { row with revokedAt := some now } }
  | some _ => .ok s

/-- What is required of the parent, whether the request is new or repeated. -/
def Store.deriveParent (s : Store) (E : Surroundings) (actor org team : String)
    (r : DelegatedGrantRequest) (now : Int) : Result ExecutionGrant := do
  failIf (.invalidControlResource "delegated grant") (E.requestJsonLength r > 65536 || now < 0 ||
    r.expiresAt ≤ now ||
    [r.requestId, r.grantId, r.parentGrantId, r.delegationId].any (fun id => !E.boundedId id) ||
    r.grantId = r.parentGrantId)
  denyIf !E.controlAccess actor .manageTeam org team
  denyIf (r.approvedEnvironment.any fun binding => binding.length ≠ 64 ||
    !(binding.toList.all fun c => c.isDigit || ('a' ≤ c && c ≤ 'f') || ('A' ≤ c && c ≤ 'F')) ||
    !E.controlAccess actor .manageOrganization org "")
  let parent ← s.liveGrant E r.parentGrantId now
  requireSharedGrantContext E parent.scope org team
  denyIf (parent.scope.principalId ≠ actor || r.expiresAt > parent.expiresAt ||
    (r.approvedEnvironment.isNone &&
      !subset r.job.capabilityBindings parent.job.capabilityBindings) ||
    !subset r.job.artifactBindings parent.job.artifactBindings)
  s.validateDelegatedChain D E parent now
  .ok parent

def Store.derivedFor (s : Store) (org team requestId : String) : Option LineageRow :=
  (s.lineages.toList.find? fun e => e.2.lineage.orgId = org && e.2.lineage.teamId = team &&
    e.2.request.requestId = requestId).map Prod.snd

def Store.newLineage (s : Store) (E : Surroundings) (org team : String) (r : DelegatedGrantRequest)
    (parent : ExecutionGrant) (now : Int) : Result DelegatedGrantLineage := do
  let delegation ← orDeny (s.delegation org team r.delegationId)
  s.requireWorkAllocationOpen org team delegation.childWorkId
  let childWork ← orDeny (s.workItem org team delegation.childWorkId)
  denyIf (childWork.status ≠ .opened || childWork.runId.isSome || childWork.attemptId.isSome)
  let allocation ← s.workBudgetUnchecked org team delegation.childWorkId
  let work ← orDeny (s.workItem org team delegation.parentWorkId)
  let runId ← orDeny work.runId
  let attemptId ← orDeny work.attemptId
  let run ← orDeny (E.run runId)
  let attempt ← orDeny run.attempts[attemptId]?
  let lease ← orDeny attempt.lease
  let lineage : DelegatedGrantLineage :=
    { lifetime := r.lifetime, stopBinding := none, approvedEnvironment := r.approvedEnvironment
      orgId := org, teamId := team, delegationId := r.delegationId
      parentGrantId := r.parentGrantId, parentWorkId := delegation.parentWorkId
      childWorkId := delegation.childWorkId, parentRunId := runId, parentTaskId := attempt.taskId
      parentAttemptId := attemptId, parentTaskVersion := attempt.taskVersion
      parentLease := ⟨lease.leaseId, lease.leaseEpoch, lease.holder⟩
      payerPrincipalId := allocation.payerPrincipalId, stopScope := allocation.stopScope
      allocatedTokens := allocation.tokenLimit }
  validateLiveParent lineage run now
  s.validateParentAttempt E lineage parent now
  match r.lifetime with
  | .parentLease => .ok lineage
  | .parentWork =>
    let binding ← s.delegationStopBinding D E lineage parent.job r.job
    .ok { lineage with stopBinding := some binding }

/-- The rows of a new derived grant; a delegation has one grant at most. -/
def Store.insertDerived (s : Store) (r : DelegatedGrantRequest) (grant : ExecutionGrant)
    (l : DelegatedGrantLineage) : Result Store := do
  let s ← s.insertExecutionGrant grant
  failIf .sqlite (s.lineages.toList.any fun e => e.2.lineage.orgId = l.orgId &&
    e.2.lineage.teamId = l.teamId && e.2.lineage.delegationId = l.delegationId)
  failIf .sqlite (s.isDelegated r.grantId)
  .ok { s with lineages := s.lineages.insert r.grantId ⟨r, l⟩ }

/-- `derive_execution_grant`; a call that fails leaves the store as it was. -/
def Store.deriveExecutionGrant (s : Store) (E : Surroundings) (actor org team : String)
    (r : DelegatedGrantRequest) (now : Int) :
    Result ((ExecutionGrant × DelegatedGrantLineage) × Store) := do
  let parent ← s.deriveParent D E actor org team r now
  match s.derivedFor org team r.requestId with
  | some existing =>
    failIf .controlResourceConflict (existing.request ≠ r)
    let grant ← s.liveGrant E r.grantId now
    s.validateDelegatedChain D E grant now
    let lineage ← orDeny (s.grantLineage grant.grantId)
    .ok ((grant, lineage), s)
  | none =>
    failIf .controlResourceConflict s.grants[r.grantId]?.isSome
    let lineage ← s.newLineage D E org team r parent now
    let grant : ExecutionGrant := ⟨r.grantId, parent.scope, r.job, r.expiresAt⟩
    let s' ← s.insertDerived r grant lineage
    let _ ← s'.liveGrant E grant.grantId now
    s'.validateDelegatedChain D E grant now
    .ok ((grant, lineage), s')

def Store.executionGrantAllows (s : Store) (E : Surroundings) (id : String) (scope : ExecutionScope)
    (job : AgentJobSpec) (now : Int) : Bool :=
  !s.isDelegated id &&
    (s.liveRow id now).any fun row => row.payload.scope = scope && row.payload.job = job &&
      E.contextAccess scope.principalId scope.informationContextId scope.organizationId

def Store.checkDelegated (s : Store) (E : Surroundings) (id : String) (scope : ExecutionScope)
    (job : AgentJobSpec) (parentRun parentAttempt : String) (now : Int) :
    Result DelegationLifetime := do
  let lineage ← orDeny (s.grantLineage id)
  denyIf (lineage.parentRunId ≠ parentRun || lineage.parentAttemptId ≠ parentAttempt)
  let grant ← s.liveGrant E id now
  denyIf (grant.scope ≠ scope || grant.job ≠ job)
  s.validateDelegatedChain D E grant now
  .ok lineage.lifetime

def Store.delegatedExecutionGrantLifetime (s : Store) (E : Surroundings) (id : String)
    (scope : ExecutionScope) (job : AgentJobSpec) (parentRun parentAttempt : String) (now : Int) :
    Result (Option DelegationLifetime) :=
  match s.checkDelegated D E id scope job parentRun parentAttempt now with
  | .ok lifetime => .ok (some lifetime)
  | .error .controlAccessDenied => .ok none
  | .error e => .error e

def Store.delegatedExecutionGrantAllows (s : Store) (E : Surroundings) (id : String)
    (scope : ExecutionScope) (job : AgentJobSpec) (parentRun parentAttempt : String) (now : Int) :
    Result Bool :=
  (s.delegatedExecutionGrantLifetime D E id scope job parentRun parentAttempt now).map Option.isSome

end Chain

end Tetonic.Control
