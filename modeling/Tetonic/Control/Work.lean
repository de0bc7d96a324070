import Tetonic.Control.Budget
import Tetonic.Run.Lease
set_option autoImplicit false

/-! What is done with work: delegating a part of it, binding it to an attempt, resuming it, and the
inference that an attempt of it asks for. -/

namespace Tetonic.Control
open Run

structure CreateWorkDelegation where
  (actor org team delegationId parentWorkId childWorkId childTitle requestId : String)
  (parentBudgetTokens childBudgetTokens : Int)
  stopScope : String
  (peerOrg peerTeam : Option String)

def Store.delegationByRequest (s : Store) (org team request : String) : Option WorkDelegation :=
  s.delegations.find? fun d => d.orgId = org && d.teamId = team && d.requestId = request

def Store.workItemByRequest (s : Store) (org team request : String) : Option TeamWorkItem :=
  s.works.find? fun w => w.orgId = org && w.teamId = team && w.requestId = request

def CreateWorkDelegation.check (c : CreateWorkDelegation) (E : Surroundings) : Result Unit := do
  requireIds E [("delegation_id", c.delegationId), ("parent_work_id", c.parentWorkId),
    ("child_work_id", c.childWorkId), ("request_id", c.requestId)]
  failIf (.invalidControlResource "title") !E.boundedTitle c.childTitle
  requireIds E [("stop_scope", c.stopScope)]
  failIf (.invalidControlResource "budget")
    (c.parentBudgetTokens ≤ 0 || c.childBudgetTokens ≤ 0)
  failIf (.invalidControlResource "budget") (c.childBudgetTokens > c.parentBudgetTokens)
  denyIf ((c.peerOrg.isSome || c.peerTeam.isSome) &&
    (c.peerOrg ≠ some c.org || c.peerTeam ≠ some c.team))
  denyIf !E.controlAccess c.actor .manageTeam c.org c.team

def Store.delegationReplay (s : Store) (c : CreateWorkDelegation) (budget : WorkBudget)
    (existing : WorkDelegation) : Result Unit :=
  failIf .controlResourceConflict (existing.delegationId ≠ c.delegationId ||
    existing.parentWorkId ≠ c.parentWorkId || existing.childWorkId ≠ c.childWorkId ||
    existing.childBudgetTokens ≠ c.childBudgetTokens ||
    existing.parentBudgetTokens ≠ budget.tokenLimit || existing.stopScope ≠ budget.stopScope ||
    existing.payerPrincipalId ≠ budget.payerPrincipalId || existing.createdBy ≠ c.actor ||
    !(s.workItem c.org c.team c.childWorkId).any (·.title = c.childTitle))

def Store.insertChildWork (s : Store) (c : CreateWorkDelegation) (goalId : Option String) :
    Result Store :=
  let request := c.requestId ++ "/child"
  match s.workItemByRequest c.org c.team request with
  | some old => do
    failIf .controlResourceConflict (old.workId ≠ c.childWorkId || old.title ≠ c.childTitle)
    .ok s
  | none =>
    .ok { s with works := s.works ++ [⟨c.org, c.team, c.childWorkId, goalId, c.childTitle, .opened,
      request, none, none, 1⟩] }

def CreateWorkDelegation.row (c : CreateWorkDelegation) (goalId : Option String)
    (budget : WorkBudget) : WorkDelegation where
  orgId := c.org
  teamId := c.team
  delegationId := c.delegationId
  parentWorkId := c.parentWorkId
  childWorkId := c.childWorkId
  goalId
  payerPrincipalId := budget.payerPrincipalId
  stopScope := budget.stopScope
  parentBudgetTokens := budget.tokenLimit
  childBudgetTokens := c.childBudgetTokens
  requestId := c.requestId
  createdBy := c.actor

def Store.createWorkDelegation (s : Store) (E : Surroundings) (c : CreateWorkDelegation) :
    Result (WorkDelegation × Store) := do
  c.check E
  let budget ← s.workBudgetUnchecked c.org c.team c.parentWorkId
  failIf .controlResourceConflict (c.parentBudgetTokens ≠ budget.tokenLimit)
  failIf (.invalidControlResource "stop_scope")
    (c.stopScope ≠ "inherit" && c.stopScope ≠ budget.stopScope)
  match s.delegationByRequest c.org c.team c.requestId with
  | some existing =>
    s.delegationReplay c budget existing
    .ok (existing, s)
  | none =>
    let parent ← orDeny (s.workItem c.org c.team c.parentWorkId)
    s.requireWorkAllocationOpen c.org c.team c.parentWorkId
    s.requireBoundedWorkReports c.org c.team c.parentWorkId
    let ancestors ← s.workAncestors c.org c.team c.parentWorkId
    failIf .controlResourceConflict
      ((s.workItem c.org c.team c.childWorkId).isSome || ancestors.length ≥ 32)
    failIf (.invalidControlResource "work budget exhausted")
      (c.childBudgetTokens > budget.availableTokens)
    let s₁ ← s.insertChildWork c parent.goalId
    failIf .sqlite (s₁.delegation c.org c.team c.delegationId).isSome
    let row := c.row parent.goalId budget
    .ok (row, { s₁ with delegations := s₁.delegations ++ [row] })

def TeamWorkItem.isItem (w : TeamWorkItem) (org team work : String) : Bool :=
  w.orgId = org && w.teamId = team && w.workId = work

def Store.updateWork (s : Store) (org team work : String)
    (f : TeamWorkItem → TeamWorkItem) : Store :=
  { s with works := s.works.map fun w => if w.isItem org team work then f w else w }

/-- No stop in force on the item, and the allocation of its parent open. -/
def Store.requireActivation (s : Store) (E : Surroundings) (actor org team work : String) :
    Result TeamWorkItem := do
  denyIf !E.teamParticipant actor org team
  let current ← orDeny (s.workItem org team work)
  let stop ← s.activationBlockedByStop org team work current.goalId none
  denyIf stop.isSome
  let ancestors ← s.workAncestors org team work
  match ancestors[1]? with
  | none => .ok current
  | some parent =>
    s.requireWorkAllocationOpen org team parent
    .ok current

def Store.activateTeamWorkItem (s : Store) (E : Surroundings) (actor org team work attempt run :
    String) : Result (TeamWorkItem × Store) := do
  requireIds E [("attempt_id", attempt), ("run_id", run)]
  let current ← s.requireActivation E actor org team work
  match current.status with
  | .running =>
    failIf .controlResourceConflict
      (current.attemptId ≠ some attempt || current.runId ≠ some run)
    .ok (current, s)
  | .other _ => deny
  | .opened | .parked =>
    let s' := s.updateWork org team work fun w => { w with
      status := .running, attemptId := some attempt, runId := some run, version := w.version + 1 }
    let row ← orDeny (s'.workItem org team work)
    .ok (row, s')

def Store.resumeTeamWorkItem (s : Store) (E : Surroundings) (actor org team work : String) :
    Result (TeamWorkItem × Store) := do
  let current ← s.requireActivation E actor org team work
  denyIf (current.status ≠ .parked)
  let s' := s.updateWork org team work fun w => { w with
    status := .opened, attemptId := none, runId := none, version := w.version + 1 }
  let row ← orDeny (s'.workItem org team work)
  .ok (row, s')

def Store.liveWorkExecutionDeadline (s : Store) (E : Surroundings) (org team work attempt : String)
    (now : UInt64) : Result UInt64 := do
  s.requireWorkAllocationOpen org team work
  let w ← orDeny (s.workItem org team work)
  denyIf (w.attemptId ≠ some attempt)
  let runId ← orDeny w.runId
  let run ← orDeny (E.run runId)
  let a ← orDeny run.attempts[attempt]?
  let t ← orDeny run.tasks[a.taskId]?
  let deadline ← orDeny t.binding.deadline
  denyIf (run.state ≠ .active || run.cancellation.runCanceled || a.state ≠ .running ||
    t.state ≠ .running || now ≥ deadline)
  .ok deadline

structure BeginWorkInference where
  (actor org team work run task attempt call model : String)
  now : UInt64

def executionFence (attempt : AttemptRecord) : Result ExecutionFence := do
  let lease ← orDeny attempt.lease
  .ok ⟨lease.leaseId, lease.leaseEpoch, lease.holder, attempt.taskVersion⟩

/-- The attempt that asks is at work on the item, under a lease of its own. -/
def TeamWorkItem.requireAttempt (row : TeamWorkItem) (E : Surroundings) (c : BeginWorkInference) :
    Result ExecutionFence := do
  let snapshot ← orDeny (E.run c.run)
  let task ← orDeny snapshot.tasks[c.task]?
  let attempt ← orDeny snapshot.attempts[c.attempt]?
  let scope ← orDeny task.binding.executionScope
  let lease ← orDeny attempt.lease
  let activation ← orDeny (task.binding.activation.or (task.binding.delegation.map (·.activation)))
  denyIf (snapshot.state ≠ .active || snapshot.cancellation.runCanceled ||
    attempt.state ≠ .running || !attempt.executionClaimed || attempt.executionQuiesced ||
    attempt.taskId ≠ c.task || task.activeAttempt ≠ some c.attempt ||
    task.binding.taskDefinitionVersion ≠ attempt.taskVersion ||
    task.binding.deadline.any (· ≤ c.now) || lease.expiresAt ≤ c.now ||
    lease.attemptId ≠ c.attempt || scope.principalId ≠ c.actor || scope.organizationId ≠ c.org ||
    row.runId.any (· ≠ c.run) || row.attemptId.any (· ≠ c.attempt) ||
    E.activationRequestId row.requestId ≠ activation.requestId ||
    !E.contextAccess c.actor scope.informationContextId c.org)
  executionFence attempt

/-- The allowance of a new execution, if its root is funded: all that is left, up to a cap. -/
def Store.newAllowance (s : Store) (c : BeginWorkInference) (ownLimit : Option Int) :
    Result (Option Int) := do
  let ancestors ← s.workAncestors c.org c.team c.work
  let root ← orDeny ancestors.getLast?
  match s.envelope c.org c.team root with
  | none => .ok none
  | some _ =>
    let budget ← s.workBudgetUnchecked c.org c.team c.work
    failIf (.invalidControlResource "work token allowance exhausted") (budget.availableTokens ≤ 0)
    .ok (some (ownLimit.elim budget.availableTokens (min · budget.availableTokens)))

def Store.reserveAllowance (s : Store) (E : Surroundings) (c : BeginWorkInference) :
    Option Int → Result Store
  | none => .ok s
  | some tokens =>
    s.reserveWorkBudget E c.actor c.org c.team c.work ("execution/" ++ c.attempt) tokens

/-- The allowance of the attempt's execution, which begins with its first call. -/
def Store.enterExecution (s : Store) (E : Surroundings) (c : BeginWorkInference)
    (fence : ExecutionFence) (ownLimit : Option Int) : Result (Option Int × Store) :=
  match s.executions.find? (·.attemptId = c.attempt) with
  | some old => do
    denyIf (old.workId ≠ c.work || old.runId ≠ c.run || old.fence ≠ fence ||
      old.releasedTokens ≠ 0 || old.orgId ≠ c.org || old.teamId ≠ c.team || old.taskId ≠ c.task)
    .ok (old.allowance, s)
  | none => do
    let allowance ← s.newAllowance c ownLimit
    let s₁ ← s.reserveAllowance E c allowance
    .ok (allowance, { s₁ with executions := s₁.executions ++
      [⟨c.attempt, c.org, c.team, c.work, c.run, c.task, fence,
        allowance.map fun _ => "execution/" ++ c.attempt, allowance, 0⟩] })

def remainingTokens (used : Int) : Option Int → Option Int → Option Int
  | some limit, some shared => some (min (limit - used) (max shared 0))
  | some limit, none => some (limit - used)
  | none, shared => shared.map (max · 0)

def Store.beginWorkInferenceWithHeadroom (s : Store) (E : Surroundings) (c : BeginWorkInference)
    (ownLimit : Option Int) (minimumCallTokens : Int) : Result (Option Int × Store) := do
  failIf (.invalidControlResource "work token allowance")
    (ownLimit.any (· ≤ 0) || minimumCallTokens < 0)
  denyIf !E.controlAccess c.actor .manageTeam c.org c.team
  s.requireWorkAllocationOpen c.org c.team c.work
  s.requireBoundedWorkReports c.org c.team c.work
  let row ← orDeny (s.workItem c.org c.team c.work)
  let fence ← row.requireAttempt E c
  let (allowance, s₁) ← s.enterExecution E c fence ownLimit
  let used := s₁.used c.attempt
  failIf (.invalidControlResource "work token allowance exhausted or usage unconfirmed")
    (allowance.any fun limit => s₁.unresolved c.attempt || used ≥ limit)
  let headroom ← s₁.workInferenceHeadroom c.org c.team c.work
  let remaining := remainingTokens used allowance headroom
  failIf (.invalidControlResource ("work token allowance cannot fit the next request input and " ++
      "completion headroom (need " ++ toString minimumCallTokens ++ ", remaining " ++
      toString (remaining.getD 0) ++ ")"))
    (remaining.any fun n => n ≤ 0 || n < minimumCallTokens)
  failIf .sqlite (s₁.calls.any (·.callId = c.call))
  .ok (remaining, { s₁ with calls := s₁.calls ++
    [⟨c.call, c.attempt, c.model, none, none, .pending⟩] })

def Store.finishWorkInference (s : Store) (call : String) (input output : Option Int) :
    Result Store := do
  failIf (.invalidControlResource "usage") (input.any (· < 0) || output.any (· < 0))
  match s.calls.find? (·.callId = call) with
  | none => .error .sqlite
  | some row =>
    match row.state with
    | .reported | .unknown =>
      failIf .controlResourceConflict (row.inputTokens ≠ input || row.outputTokens ≠ output)
      .ok s
    | .pending =>
      let state := if input.isSome && output.isSome then .reported else .unknown
      .ok { s with calls := s.calls.map fun c =>
        if c.callId = call then { c with inputTokens := input, outputTokens := output, state }
        else c }

def WorkBudgetExecution.requireEnded (e : WorkBudgetExecution) (E : Surroundings) :
    Result Unit := do
  let snapshot ← orDeny (E.run e.runId)
  let owner ← orDeny snapshot.attempts[e.attemptId]?
  let fence ← executionFence owner
  denyIf (!owner.executionQuiesced || owner.taskId ≠ e.taskId || fence ≠ e.fence ||
    !isTerminalAttempt owner.state)

def Store.settleWorkInference (s : Store) (E : Surroundings) (attempt : String) : Result Store :=
  match s.executions.find? (·.attemptId = attempt) with
  | none => .ok s
  | some e =>
    match e.allowance with
    | none => .ok s
    | some allowance => do
      e.requireEnded E
      let used := s.used attempt
      if s.unresolved attempt || used > allowance then .ok s
      else .ok { s with executions := s.executions.map fun e =>
        if e.attemptId = attempt then { e with releasedTokens := allowance - used } else e }

end Tetonic.Control
