import Tetonic.Run.Domain
set_option autoImplicit false

/-! The control store: grants and their lineage, work items and delegations, stops, and the budget
of work. What the store keeps in other tables (memberships, contexts, agents, runs) is read through
`Surroundings` and may be anything at each call. -/

namespace Tetonic.Control
open Lib Run

inductive StoreError where
  | controlAccessDenied
  | controlResourceConflict
  | invalidControlResource (field : String)
  | sqlite
  deriving DecidableEq, Repr

abbrev Result (α : Type) := Except StoreError α

def deny {α : Type} : Result α := .error .controlAccessDenied

def failIf (e : StoreError) (condition : Bool) : Result Unit :=
  if condition then .error e else .ok ()

def denyIf (condition : Bool) : Result Unit := failIf .controlAccessDenied condition

def orDeny {α : Type} : Option α → Result α
  | some a => .ok a
  | none => deny

@[simp] theorem failIf_eq_ok {e : StoreError} {condition : Bool} {u : Unit} :
    failIf e condition = .ok u ↔ condition = false := by
  cases condition <;> simp [failIf]

@[simp] theorem denyIf_eq_ok {condition : Bool} {u : Unit} :
    denyIf condition = .ok u ↔ condition = false :=
  failIf_eq_ok

@[simp] theorem orDeny_eq_ok {α : Type} {o : Option α} {a : α} : orDeny o = .ok a ↔ o = some a := by
  cases o <;> simp [orDeny, deny]

inductive WorkStatus where
  | opened | running | parked | other (status : String)
  deriving DecidableEq, Repr

structure TeamWorkItem where
  (orgId teamId workId : String)
  goalId : Option String
  title : String
  status : WorkStatus
  requestId : String
  (attemptId runId : Option String)
  version : Int
  deriving DecidableEq, Repr

structure WorkDelegation where
  (orgId teamId delegationId parentWorkId childWorkId : String)
  goalId : Option String
  (payerPrincipalId stopScope : String)
  (parentBudgetTokens childBudgetTokens : Int)
  (requestId createdBy : String)
  deriving DecidableEq, Repr

inductive ScopeKind where
  | org | team | goal | work | agent
  deriving DecidableEq, Repr

inductive StopMode where
  | pause | cancel | estop | other (mode : String)
  deriving DecidableEq, Repr

structure ControlStop where
  orgId : String
  scopeKind : ScopeKind
  scopeId : String
  mode : StopMode
  generation : Nat
  (reason createdBy : String)
  cleared : Bool
  deriving DecidableEq, Repr

structure ExecutionGrant where
  grantId : String
  scope : ExecutionScope
  job : AgentJobSpec
  expiresAt : Int
  deriving DecidableEq, Repr

/-- A row of `execution_grants`: the payload, and the columns that queries read. -/
structure GrantRow where
  payload : ExecutionGrant
  orgId : String
  expiresAt : Int
  revokedAt : Option Int
  deriving DecidableEq, Repr

inductive DelegationLifetime where
  | parentLease | parentWork
  deriving DecidableEq, Repr

/-- The generations that a stop binding is the digest of, in the order of the scopes. -/
abbrev StopBinding := List (ScopeKind × String × Nat)

structure DelegatedGrantRequest where
  lifetime : DelegationLifetime
  approvedEnvironment : Option String
  (requestId grantId parentGrantId delegationId : String)
  job : AgentJobSpec
  expiresAt : Int
  deriving DecidableEq, Repr

structure DelegatedGrantLineage where
  lifetime : DelegationLifetime
  (stopBinding approvedEnvironment : Option String)
  (orgId teamId delegationId parentGrantId parentWorkId childWorkId parentRunId : String)
  parentTaskId : TaskId
  parentAttemptId : AttemptId
  parentTaskVersion : UInt64
  parentLease : LeaseProof
  (payerPrincipalId stopScope : String)
  allocatedTokens : Int
  deriving DecidableEq, Repr

/-- A row of `execution_grant_lineage`, with the request it was derived for. -/
structure LineageRow where
  request : DelegatedGrantRequest
  lineage : DelegatedGrantLineage
  deriving DecidableEq, Repr

structure WorkBudgetEnvelope where
  (orgId teamId workId : String)
  tokenLimit : Int
  (payerPrincipalId requestId : String)
  deriving DecidableEq, Repr

structure WorkBudgetReservation where
  (orgId teamId workId requestId : String)
  tokens : Int
  createdBy : String
  deriving DecidableEq, Repr

/-- `execution_fence`: the lease and the version of the task that an execution belongs to. -/
structure ExecutionFence where
  leaseId : LeaseId
  leaseEpoch : UInt64
  holder : ExecutionTargetId
  taskVersion : UInt64
  deriving DecidableEq, Repr

structure WorkBudgetExecution where
  (attemptId orgId teamId workId runId taskId : String)
  fence : ExecutionFence
  reservationId : Option String
  allowance : Option Int
  releasedTokens : Int
  deriving DecidableEq, Repr

inductive CallState where
  | pending | reported | unknown
  deriving DecidableEq, Repr

structure WorkUsageCall where
  (callId attemptId model : String)
  (inputTokens outputTokens : Option Int)
  state : CallState
  deriving DecidableEq, Repr

structure Store where
  grants : OrdMap String GrantRow
  lineages : OrdMap String LineageRow
  works : List TeamWorkItem
  delegations : List WorkDelegation
  stops : List ControlStop
  envelopes : List WorkBudgetEnvelope
  reservations : List WorkBudgetReservation
  executions : List WorkBudgetExecution
  calls : List WorkUsageCall
  deriving DecidableEq

def Store.empty : Store := ⟨∅, ∅, [], [], [], [], [], [], []⟩

inductive ControlPermission where
  | manageOrganization | manageTeam
  deriving DecidableEq, Repr

/-- What a call reads from the other tables, and the checks of texts: the length of a record's JSON
and the form of an id (up to 128 bytes, up to 256 for an issued grant) or a title. -/
structure Surroundings where
  requestJsonLength : DelegatedGrantRequest → Nat
  grantJsonLength : ExecutionGrant → Nat
  (boundedId issuableId boundedTitle : String → Bool)
  activationRequestId : String → String
  stopReason : String → Bool
  controlAccess : String → ControlPermission → String → String → Bool
  teamParticipant : String → String → String → Bool
  orgMember : String → String → Bool
  (contextAccess sharedContext : String → String → String → Bool)
  agentKey : String → String → Option String
  definitionRevision : String → String → Bool
  run : String → Option RunSnapshot

/-- The agent is one of the organization's, and the definition one of its revisions. -/
def Surroundings.registered (E : Surroundings) (org identity digest : String) : Bool :=
  (E.agentKey org identity).isSome && E.definitionRevision identity digest

def Store.workItem (s : Store) (org team work : String) : Option TeamWorkItem :=
  s.works.find? fun w => w.orgId = org && w.teamId = team && w.workId = work

def Store.delegation (s : Store) (org team id : String) : Option WorkDelegation :=
  s.delegations.find? fun d => d.orgId = org && d.teamId = team && d.delegationId = id

def Store.parents (s : Store) (org team work : String) : List String :=
  ((s.delegations.filter fun d => d.orgId = org && d.teamId = team && d.childWorkId = work).map
    (·.parentWorkId)).take 2

/-- The loop of `work_ancestors` with the ancestors found so far; at most 32 are taken. -/
def Store.ancestorsFrom (s : Store) (org team : String) : Nat → List String → String →
    Result (List String)
  | 0, _, _ => deny
  | room + 1, found, next =>
    if next ∈ found then deny
    else
      match s.parents org team next with
      | [] => .ok (found ++ [next])
      | [parent] => s.ancestorsFrom org team room (found ++ [next]) parent
      | _ => deny

def Store.workAncestors (s : Store) (org team work : String) : Result (List String) :=
  s.ancestorsFrom org team 32 [] work

def ControlStop.isOn (c : ControlStop) (org : String) (kind : ScopeKind) (id : String) : Bool :=
  c.orgId = org && c.scopeKind = kind && c.scopeId = id

def newest : List ControlStop → Option ControlStop
  | [] => none
  | c :: rest =>
    match newest rest with
    | none => some c
    | some d => if d.generation ≤ c.generation then some c else some d

def Store.activeControlStop (s : Store) (org : String) (kind : ScopeKind) (id : String) :
    Option ControlStop :=
  newest (s.stops.filter fun c => c.isOn org kind id && !c.cleared)

/-- `COALESCE(MAX(generation),0)` over the stops of a scope. -/
def Store.stopGeneration (s : Store) (org : String) (kind : ScopeKind) (id : String) : Nat :=
  ((s.stops.filter fun c => c.isOn org kind id).map (·.generation)).foldr max 0

def Store.firstStop (s : Store) (org : String) (scopes : List (ScopeKind × String)) :
    Option ControlStop :=
  scopes.findSome? fun scope => s.activeControlStop org scope.1 scope.2

def Store.activationBlockedByStop (s : Store) (org team work : String)
    (goal agent : Option String) :
    Result (Option ControlStop) :=
  match s.firstStop org ([(.org, org), (.team, team)] ++ goal.toList.map (ScopeKind.goal, ·)) with
  | some stop => .ok (some stop)
  | none => do
    let ancestors ← s.workAncestors org team work
    .ok (s.firstStop org (ancestors.map (ScopeKind.work, ·) ++
      agent.toList.map (ScopeKind.agent, ·)))

def WorkStatus.isLive : WorkStatus → Bool
  | .opened | .running => true
  | .parked | .other _ => false

def Store.requireOpenAt (s : Store) (org team id : String) : Result Unit := do
  let work ← orDeny (s.workItem org team id)
  denyIf !work.status.isLive
  let stop ← s.activationBlockedByStop org team id work.goalId none
  denyIf stop.isSome

def requireAll {α : Type} (check : α → Result Unit) : List α → Result Unit
  | [] => .ok ()
  | a :: rest => do
    check a
    requireAll check rest

def Store.requireWorkAllocationOpen (s : Store) (org team work : String) : Result Unit := do
  let ancestors ← s.workAncestors org team work
  requireAll (s.requireOpenAt org team) ancestors

end Tetonic.Control
