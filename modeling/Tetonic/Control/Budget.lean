import Tetonic.Lib.Sums
import Tetonic.Control.Store
set_option autoImplicit false

/-! The budget of a tree of work: what is delegated, reserved and used, and what is left to each. -/

namespace Tetonic.Control
open Lib Run

def inI64 (n : Int) : Bool := -9223372036854775808 ≤ n && n ≤ 9223372036854775807

/-- `SUM` of a column; the database fails if the sum is no `i64`. -/
def sqlSum {α : Type} (f : α → Int) (rows : List α) : Result Int := do
  failIf .sqlite !inI64 (total f rows)
  .ok (total f rows)

def checked (n : Int) : Result Int := do
  denyIf !inI64 n
  .ok n

def Store.envelope (s : Store) (org team work : String) : Option WorkBudgetEnvelope :=
  s.envelopes.find? fun e => e.orgId = org && e.teamId = team && e.workId = work

def Store.delegationForChild (s : Store) (org team child : String) : Option WorkDelegation :=
  s.delegations.find? fun d => d.orgId = org && d.teamId = team && d.childWorkId = child

def Store.delegationsUnder (s : Store) (org team work : String) : List WorkDelegation :=
  s.delegations.filter fun d => d.orgId = org && d.teamId = team && d.parentWorkId = work

def Store.reservationsOf (s : Store) (org team work : String) : List WorkBudgetReservation :=
  s.reservations.filter fun r => r.orgId = org && r.teamId = team && r.workId = work

def Store.executionsOf (s : Store) (org team work : String) : List WorkBudgetExecution :=
  s.executions.filter fun e => e.orgId = org && e.teamId = team && e.workId = work

def WorkUsageCall.tokens (c : WorkUsageCall) : Int := c.inputTokens.getD 0 + c.outputTokens.getD 0

def Store.callsOf (s : Store) (attempt : String) : List WorkUsageCall :=
  s.calls.filter (·.attemptId = attempt)

def Store.used (s : Store) (attempt : String) : Int := total (·.tokens) (s.callsOf attempt)

def Store.unresolved (s : Store) (attempt : String) : Bool :=
  (s.callsOf attempt).any (·.state ≠ .reported)

structure TreeRow where
  workId : String
  parentId : Option String
  allocation : Int
  depth : Nat
  deriving DecidableEq, Repr

def Store.childRows (s : Store) (org team : String) (row : TreeRow) : List TreeRow :=
  (s.delegationsUnder org team row.workId).map fun d =>
    ⟨d.childWorkId, some row.workId, d.childBudgetTokens, row.depth + 1⟩

def Store.treeFrom (s : Store) (org team : String) : Nat → List TreeRow → List TreeRow
  | 0, level => level
  | depth + 1, level => s.treeFrom org team depth (level.flatMap (s.childRows org team)) ++ level

/-- The recursive query `tree`, which goes down to depth 31. -/
def Store.tree (s : Store) (org team work : String) : List TreeRow :=
  s.treeFrom org team 31 [⟨work, none, 0, 0⟩]

structure OverflowRow extends TreeRow where
  (reserved ownOverflow delegated : Int)

def Store.overrun (s : Store) (e : WorkBudgetExecution) : Int :=
  match e.allowance with
  | none => 0
  | some allowance => max 0 (s.used e.attemptId - (allowance - e.releasedTokens))

def Store.netReserved (s : Store) (org team work : String) : Result Int := do
  let tokens ← sqlSum (·.tokens) (s.reservationsOf org team work)
  let released ← sqlSum (·.releasedTokens) (s.executionsOf org team work)
  .ok (tokens - released)

def Store.delegatedTokens (s : Store) (org team work : String) : Result Int :=
  sqlSum (·.childBudgetTokens) (s.delegationsUnder org team work)

def Store.overflowRow (s : Store) (org team : String) (row : TreeRow) : Result OverflowRow := do
  let reserved ← s.netReserved org team row.workId
  let ownOverflow ← sqlSum s.overrun (s.executionsOf org team row.workId)
  let delegated ← s.delegatedTokens org team row.workId
  .ok { row with reserved, ownOverflow, delegated }

def collect {α β : Type} (f : α → Result β) : List α → Result (List β)
  | [] => .ok []
  | a :: rest => do
    let b ← f a
    let others ← collect f rest
    .ok (b :: others)

/-- The loop of `work_budget_overflow`, with the items seen and what spilled to each. -/
def overflowFrom : List OverflowRow → List String → OrdMap String Int → Result Int
  | [], _, _ => deny
  | row :: rest, seen, overflow => do
    denyIf (seen.contains row.workId || row.reserved < 0 || row.delegated < 0 ||
      (row.depth = 31 && row.delegated > 0))
    let extra ← checked (row.ownOverflow + overflow[row.workId]?.getD 0)
    match row.parentId with
    | none => .ok extra
    | some parent => do
      denyIf (row.allocation ≤ 0)
      let committed ← checked (row.reserved + row.delegated)
      let liability ← checked (committed + extra)
      let spilled ← checked (overflow[parent]?.getD 0 + max (liability - row.allocation) 0)
      overflowFrom rest (row.workId :: seen) ((overflow.erase row.workId).insert parent spilled)

def Store.workBudgetOverflow (s : Store) (org team work : String) : Result Int := do
  let rows ← collect (s.overflowRow org team) (s.tree org team work)
  overflowFrom rows [] ∅

structure WorkBudget where
  (rootWorkId payerPrincipalId stopScope : String)
  (tokenLimit delegatedTokens reservedTokens availableTokens : Int)
  deriving DecidableEq, Repr

/-- The limit of the last of the items, each the child of the one before it. -/
def Store.limitFrom (s : Store) (org team payer stopScope : String) : Int → List String → Result Int
  | limit, [] => .ok limit
  | limit, id :: rest => do
    let d ← orDeny (s.delegationForChild org team id)
    denyIf (d.parentBudgetTokens ≠ limit || d.childBudgetTokens ≤ 0 ||
      d.childBudgetTokens > limit ||
      d.payerPrincipalId ≠ payer || d.stopScope ≠ stopScope)
    s.limitFrom org team payer stopScope d.childBudgetTokens rest

def Store.workBudgetUnchecked (s : Store) (org team work : String) : Result WorkBudget := do
  let ancestors ← s.workAncestors org team work
  let root ← orDeny ancestors.getLast?
  let envelope ← orDeny (s.envelope org team root)
  let payer := envelope.payerPrincipalId
  let stopScope := "work/" ++ root
  let limit ← s.limitFrom org team payer stopScope envelope.tokenLimit (ancestors.reverse.drop 1)
  let delegated ← s.delegatedTokens org team work
  let reserved ← s.netReserved org team work
  denyIf (delegated < 0 || reserved < 0)
  let overflow ← s.workBudgetOverflow org team work
  let reserved ← checked (reserved + overflow)
  let undelegated ← checked (limit - delegated)
  let available ← checked (undelegated - reserved)
  .ok ⟨root, payer, stopScope, limit, delegated, reserved, max available 0⟩

/-- What an execution is charged with: its use, or what is held for it while a call is open. -/
def Store.charge (s : Store) (includeHolds : Bool) (limit : Int) (e : WorkBudgetExecution) : Int :=
  if s.unresolved e.attemptId && includeHolds then
    max (s.used e.attemptId) (e.allowance.getD limit - e.releasedTokens)
  else s.used e.attemptId

/-- The executions of the items of a tree; an item is in a tree once. -/
def Store.executionsUnder (s : Store) (org team work : String) : List WorkBudgetExecution :=
  s.executions.filter fun e => e.orgId = org && e.teamId = team &&
    (s.tree org team work).any (·.workId = e.workId)

def Store.headroomOver (s : Store) (org team : String) (includeHolds : Bool) : Int → List String →
    Result Int
  | headroom, [] => .ok headroom
  | headroom, id :: rest => do
    let budget ← s.workBudgetUnchecked org team id
    let limit := budget.tokenLimit
    let committed ← sqlSum (s.charge includeHolds limit) (s.executionsUnder org team id)
    s.headroomOver org team includeHolds (min headroom (limit - committed)) rest

def Store.workUsageHeadroom (s : Store) (org team work : String) (includeHolds : Bool) :
    Result (Option Int) := do
  let ancestors ← s.workAncestors org team work
  let root ← orDeny ancestors.getLast?
  match s.envelope org team root with
  | none => .ok none
  | some _ =>
    let headroom ← s.headroomOver org team includeHolds 9223372036854775807 ancestors
    .ok (some headroom)

def Store.workInferenceHeadroom (s : Store) (org team work : String) : Result (Option Int) :=
  s.workUsageHeadroom org team work true

def Store.workReportedOverrun (s : Store) (org team work : String) : Result Bool := do
  let headroom ← s.workUsageHeadroom org team work false
  .ok (headroom.any (· < 0))

def Store.requireBoundedWorkReports (s : Store) (org team work : String) : Result Unit := do
  let overrun ← s.workReportedOverrun org team work
  failIf (.invalidControlResource "work allocation token allowance exhausted by reported usage")
    overrun

/-- The identifiers of a call, each checked under the name of its field. -/
def requireIds (E : Surroundings) : List (String × String) → Result Unit
  | [] => .ok ()
  | (field, id) :: rest => do
    failIf (.invalidControlResource field) !E.boundedId id
    requireIds E rest

def Store.reserveWorkBudget (s : Store) (E : Surroundings) (actor org team work request : String)
    (tokens : Int) : Result Store := do
  requireIds E [("budget identifier", work), ("budget identifier", request)]
  failIf (.invalidControlResource "tokens") (tokens ≤ 0)
  denyIf !E.controlAccess actor .manageTeam org team
  match s.reservations.find? fun r => r.orgId = org && r.teamId = team && r.requestId = request with
  | some old =>
    failIf .controlResourceConflict (old ≠ ⟨org, team, work, request, tokens, actor⟩)
    .ok s
  | none =>
    s.requireWorkAllocationOpen org team work
    s.requireBoundedWorkReports org team work
    let budget ← s.workBudgetUnchecked org team work
    failIf (.invalidControlResource "work budget exhausted") (budget.availableTokens < tokens)
    .ok { s with reservations := s.reservations ++ [⟨org, team, work, request, tokens, actor⟩] }

end Tetonic.Control
