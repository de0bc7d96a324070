import Tetonic.Control.Grants
set_option autoImplicit false

/-! Stops: requesting and clearing them, the work they park, and the runs they name. -/

namespace Tetonic.Control
open Lib Run

def requireStopAuthority (E : Surroundings) (actor org : String) (kind : ScopeKind) (id : String) :
    Result Unit :=
  match kind with
  | .org => do
    failIf (.invalidControlResource "scope_id") (id ≠ org)
    denyIf !E.controlAccess actor .manageOrganization org ""
  | .team => denyIf !E.teamParticipant actor org id
  | .goal | .work => denyIf !E.orgMember actor org
  | .agent => denyIf !E.controlAccess actor .manageOrganization org ""

/-- The children by delegation of some work items, each with its team. -/
def Store.childrenOf (s : Store) (org : String) (items : List (String × String)) :
    List (String × String) :=
  (s.delegations.filter fun d => d.orgId = org && items.contains (d.teamId, d.parentWorkId)).map
    fun d => (d.teamId, d.childWorkId)

/-- Rounds of the recursive query: each adds the children of what was found. -/
def Store.affectedIn (s : Store) (org : String) : Nat → List (String × String) →
    List (String × String)
  | 0, items => items
  | rounds + 1, items => s.affectedIn org rounds (items ++ s.childrenOf org items)

/-- The work items of an id, in any team, and everything delegated from them. A delegation adds one
item at most, so as many rounds as there are delegations find all. -/
def Store.affected (s : Store) (org work : String) : List (String × String) :=
  s.affectedIn org s.delegations.length
    ((s.works.filter fun w => w.orgId = org && w.workId = work).map fun w => (w.teamId, w.workId))

/-- The items `park_work_under_stop` parks if they are live; for an agent there are none. -/
def Store.parkedBy (s : Store) (org : String) (kind : ScopeKind) (id : String) (w : TeamWorkItem) :
    Bool :=
  match kind with
  | .org => w.orgId = org
  | .team => w.orgId = org && w.teamId = id
  | .goal => w.orgId = org && w.goalId = some id
  | .work => w.orgId = org && (s.affected org id).contains (w.teamId, w.workId)
  | .agent => false

def TeamWorkItem.park (w : TeamWorkItem) : TeamWorkItem :=
  { w with status := .parked, attemptId := none, runId := none, version := w.version + 1 }

def Store.parkWorkUnderStop (s : Store) (org : String) (kind : ScopeKind) (id : String) : Store :=
  { s with works := s.works.map fun w =>
      if s.parkedBy org kind id w && w.status.isLive then w.park else w }

/-- The items whose runs `run_ids_under_stop` names: the same ones, whatever their status. -/
def Store.runIdsUnderStop (s : Store) (org : String) (kind : ScopeKind) (id : String) :
    List String :=
  ((s.works.filter (s.parkedBy org kind id)).filterMap (·.runId)).eraseDups

def StopMode.parks : StopMode → Bool
  | .pause | .cancel | .estop => true
  | .other _ => false

def clearOn (org : String) (kind : ScopeKind) (id : String) (c : ControlStop) : ControlStop :=
  if c.isOn org kind id then { c with cleared := true } else c

/-- A stop of the next generation, in the place of those in force on the scope. -/
def Store.putStop (s : Store) (actor org : String) (kind : ScopeKind) (id : String)
    (mode : StopMode)
    (reason : String) : Store :=
  { s with stops := s.stops.map (clearOn org kind id) ++
      [⟨org, kind, id, mode, s.stopGeneration org kind id + 1, reason, actor, false⟩] }

def Store.requestControlStopWithRuns (s : Store) (E : Surroundings) (actor org : String)
    (kind : ScopeKind) (id : String) (mode : StopMode) (reason : String) :
    Result ((ControlStop × List String) × Store) := do
  failIf (.invalidControlResource "org_id") !E.boundedId org
  failIf (.invalidControlResource "scope_id") !E.boundedId id
  failIf (.invalidControlResource "mode") !mode.parks
  failIf (.invalidControlResource "reason") !E.stopReason reason
  requireStopAuthority E actor org kind id
  let runs := s.runIdsUnderStop org kind id
  let s' := (s.putStop actor org kind id mode reason).parkWorkUnderStop org kind id
  match s'.activeControlStop org kind id with
  | none => .error .controlResourceConflict
  | some stop => .ok ((stop, runs), s')

def Store.clearControlStop (s : Store) (E : Surroundings) (actor org : String) (kind : ScopeKind)
    (id : String) : Result Store := do
  requireStopAuthority E actor org kind id
  denyIf !(s.stops.any fun c => c.isOn org kind id && !c.cleared)
  .ok { s with stops := s.stops.map (clearOn org kind id) }

section
variable {s s' : Store} {E : Surroundings} {actor org : String} {kind : ScopeKind} {id : String}

theorem requestControlStop_ok {mode : StopMode} {reason : String} {x : ControlStop × List String}
    (h : s.requestControlStopWithRuns E actor org kind id mode reason = .ok (x, s')) :
    s' = (s.putStop actor org kind id mode reason).parkWorkUnderStop org kind id ∧
      x.2 = s.runIdsUnderStop org kind id ∧ s'.activeControlStop org kind id = some x.1 := by
  unfold Store.requestControlStopWithRuns at h
  simp only [bind_eq_ok] at h
  obtain ⟨-, -, -, -, -, -, -, -, -, -, h⟩ := h
  split at h
  · cases h
  · rename_i stop hstop
    cases h
    exact ⟨rfl, rfl, hstop⟩

theorem clearControlStop_ok (h : s.clearControlStop E actor org kind id = .ok s') :
    s' = { s with stops := s.stops.map (clearOn org kind id) } := by
  unfold Store.clearControlStop at h
  simp only [bind_eq_ok] at h
  obtain ⟨-, -, -, -, h⟩ := h
  exact (Except.ok.inj h).symm

end

end Tetonic.Control
