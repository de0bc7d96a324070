import Tetonic.Managed.Service
import Tetonic.Run.Interleaving
set_option autoImplicit false

/-! Calls of several manager instances on one run. A caller runs its program; an operation on
the supervisor waits for the run lock of its instance and then takes as many turns as the call
needs, and anything may happen in between. -/

namespace Tetonic.Managed
open Lib Run

variable {ρ : Type}

abbrev CallerId := Nat

inductive CallState (ρ : Type) where
  | running (prog : Call ρ)
  | waiting (command : RunCommand) (k : RunOutcome RunCommandResult → Call ρ)

structure Session (ρ : Type) where
  host : InstanceId
  state : CallState ρ

/-- The shared run, the calls in progress, and what they have done: the invocations of the
effect driver, the identifiers drawn, and how calls ended. -/
structure Cluster (ρ : Type) where
  shared : Shared CallerId := {}
  sessions : OrdMap CallerId (Session ρ) := ∅
  spawned : CallerId := 0
  effects : List (TaskId × AttemptId) := []
  uuids : List String := []
  results : List (CallerId × Except (Fault ManagedRunError) ρ) := []

/-- What the host answers at one moment. -/
structure Surroundings where
  storeFault : Option (Fault RunSupervisorError) := none
  committed : Except String (Option TransactionId) := .ok none
  verified : Except String (Except (String × Option String) Unit) := .ok (.ok ())
  sealedOutput : Except ManagedRunError ArtifactRef := .error (.internalViolation "")
  registered : Option ActiveAttempt := none
  actives : List ActiveAttempt := []
  clock : ClockReading := {}
  now : UInt64 := 0
  uuid : String := ""
  yes : Bool := false
  performed : Except ManagedRunError Unit := .ok ()

/-- A read of the projection is the one answer that comes from the store. -/
def Surroundings.answer (env : Surroundings) (projection : Option RunSnapshot) :
    (o : Op) → o.Ans
  | .handle _ => .error .panicked
  | .load _ =>
    match env.storeFault with
    | some e => .error e
    | none => .ok projection
  | .commitWorkspace _ _ => env.committed
  | .runVerify _ => env.verified
  | .sealOutput => env.sealedOutput
  | .registered _ => env.registered
  | .actives _ => env.actives
  | .clock => env.clock
  | .unixNow => env.now
  | .newUuid => env.uuid
  | .test _ => env.yes
  | .perform _ => env.performed

inductive Action (ρ : Type) where
  | spawn (host : InstanceId) (prog : Call ρ)
  | call (id : CallerId)
  | answer (id : CallerId) (env : Surroundings)
  | turn (host : InstanceId) (env : TurnEnv)
  | finish (id : CallerId)
  | drop (id : CallerId)
  | restart (host : InstanceId) (now : UInt64)

namespace Cluster

/-- An operation the host answers at once: it concerns this run, and an identifier is new. -/
def answerable (c : Cluster ρ) (r : RunId) (env : Surroundings) : Op → Bool
  | .handle _ => false
  | .load runId => decide (runId = r)
  | .newUuid => !c.uuids.contains env.uuid
  | _ => true

def effectsAfter (c : Cluster ρ) : Op → List (TaskId × AttemptId)
  | .commitWorkspace taskId attemptId => c.effects ++ [(taskId, attemptId)]
  | _ => c.effects

def uuidsAfter (c : Cluster ρ) (env : Surroundings) : Op → List String
  | .newUuid => env.uuid :: c.uuids
  | _ => c.uuids

/-- An answer of the supervisor reaches the call that waits for it. -/
def deliver (c : Cluster ρ) : Option (CallerId × RunOutcome RunCommandResult) →
    OrdMap CallerId (Session ρ)
  | none => c.sessions
  | some (id, result) =>
    match c.sessions[id]? with
    | some ⟨host, .waiting _ k⟩ => c.sessions.insert id ⟨host, .running (k result)⟩
    | _ => c.sessions

def step (P : Platform) (r : RunId) (c : Cluster ρ) : Action ρ → Option (Cluster ρ)
  | .spawn host prog => some { c with
      sessions := c.sessions.insert c.spawned ⟨host, .running prog⟩
      spawned := c.spawned + 1 }
  | .call id =>
    match c.sessions[id]? with
    | some ⟨host, .running (.ask (.handle command) k)⟩ =>
      if command.runId = r then
        (c.shared.serve host id command).map fun shared => { c with
          shared
          sessions := c.sessions.insert id ⟨host, .waiting command k⟩ }
      else none
    | _ => none
  | .answer id env =>
    match c.sessions[id]? with
    | some ⟨host, .running (.ask o k)⟩ =>
      if c.answerable r env o = true then some { c with
        sessions := c.sessions.insert id ⟨host, .running (k (env.answer c.shared.projection o))⟩
        effects := c.effectsAfter o
        uuids := c.uuidsAfter env o }
      else none
    | _ => none
  | .turn host env =>
    (c.shared.turn P host env).map fun (shared, ans) =>
      { c with shared, sessions := c.deliver ans }
  | .finish id =>
    match c.sessions[id]? with
    | some ⟨_, .running (.done a)⟩ => some { c with
        sessions := c.sessions.erase id
        results := c.results ++ [(id, .ok a)] }
    | some ⟨_, .running (.stop e)⟩ => some { c with
        sessions := c.sessions.erase id
        results := c.results ++ [(id, .error e)] }
    | _ => none
  | .drop id =>
    match c.sessions[id]? with
    | some ⟨_, .running _⟩ => some { c with sessions := c.sessions.erase id }
    | some ⟨host, .waiting _ _⟩ => some { c with
        shared := c.shared.release host
        sessions := c.sessions.erase id }
    | none => none
  | .restart host now => some { c with
      shared := c.shared.restart P host now
      sessions := c.sessions.filter fun _ s => decide (s.host ≠ host) }

variable {P : Platform} {r : RunId} {c c' : Cluster ρ}

variable (P r c) in
/-- All that a step can do. -/
inductive Stepped : Action ρ → Cluster ρ → Prop where
  | spawn (host : InstanceId) (prog : Call ρ) : Stepped (.spawn host prog) { c with
      sessions := c.sessions.insert c.spawned ⟨host, .running prog⟩
      spawned := c.spawned + 1 }
  | call {id : CallerId} {host : InstanceId} {command : RunCommand}
      {k : RunOutcome RunCommandResult → Call ρ} {shared : Shared CallerId}
      (hat : c.sessions[id]? = some ⟨host, .running (.ask (.handle command) k)⟩)
      (hrun : command.runId = r) (hserve : c.shared.serve host id command = some shared) :
      Stepped (.call id) { c with
        shared
        sessions := c.sessions.insert id ⟨host, .waiting command k⟩ }
  | answer {id : CallerId} {env : Surroundings} {host : InstanceId} {o : Op} {k : o.Ans → Call ρ}
      (hat : c.sessions[id]? = some ⟨host, .running (.ask o k)⟩)
      (hanswer : c.answerable r env o = true) :
      Stepped (.answer id env) { c with
        sessions := c.sessions.insert id ⟨host, .running (k (env.answer c.shared.projection o))⟩
        effects := c.effectsAfter o
        uuids := c.uuidsAfter env o }
  | turn {host : InstanceId} {env : TurnEnv} {shared : Shared CallerId}
      {ans : Option (CallerId × RunOutcome RunCommandResult)}
      (hturn : c.shared.turn P host env = some (shared, ans)) :
      Stepped (.turn host env) { c with shared, sessions := c.deliver ans }
  | finish {id : CallerId} {host : InstanceId} {res : Except (Fault ManagedRunError) ρ}
      (hat : c.sessions[id]? = some ⟨host, .running (.ofExcept res)⟩) :
      Stepped (.finish id) { c with
        sessions := c.sessions.erase id
        results := c.results ++ [(id, res)] }
  | dropRunning {id : CallerId} {host : InstanceId} {p : Call ρ}
      (hat : c.sessions[id]? = some ⟨host, .running p⟩) :
      Stepped (.drop id) { c with sessions := c.sessions.erase id }
  | dropWaiting {id : CallerId} {host : InstanceId} {command : RunCommand}
      {k : RunOutcome RunCommandResult → Call ρ}
      (hat : c.sessions[id]? = some ⟨host, .waiting command k⟩) :
      Stepped (.drop id) { c with
        shared := c.shared.release host
        sessions := c.sessions.erase id }
  | restart (host : InstanceId) (now : UInt64) : Stepped (.restart host now) { c with
      shared := c.shared.restart P host now
      sessions := c.sessions.filter fun _ s => decide (s.host ≠ host) }

theorem finished {id : CallerId} {host : InstanceId} (res : Except (Fault ManagedRunError) ρ)
    (hat : c.sessions[id]? = some ⟨host, .running (.ofExcept res)⟩) :
    c.Stepped P r (.finish id) { c with
      sessions := c.sessions.erase id
      results := c.results ++ [(id, res)] } := .finish hat

theorem stepped {a : Action ρ} (hs : c.step P r a = some c') : c.Stepped P r a c' := by
  cases a with
  | spawn host prog =>
    cases hs
    exact .spawn host prog
  | call =>
    simp only [step] at hs
    split at hs
    · split at hs
      · obtain ⟨shared, hserve, rfl⟩ := Option.map_eq_some_iff.mp hs
        exact .call ‹_› ‹_› hserve
      · cases hs
    · cases hs
  | answer =>
    simp only [step] at hs
    split at hs
    · split at hs
      · cases hs
        exact .answer ‹_› ‹_›
      · cases hs
    · cases hs
  | turn =>
    simp only [step] at hs
    obtain ⟨⟨shared, ans⟩, hturn, rfl⟩ := Option.map_eq_some_iff.mp hs
    exact .turn hturn
  | finish id =>
    simp only [step] at hs
    split at hs
    · rename_i host a hat
      cases hs
      exact finished (.ok a) hat
    · rename_i host e hat
      cases hs
      exact finished (.error e) hat
    · cases hs
  | drop =>
    simp only [step] at hs
    split at hs
    · cases hs
      exact .dropRunning ‹_›
    · cases hs
      exact .dropWaiting ‹_›
    · cases hs
  | restart host now =>
    cases hs
    exact .restart host now

end Cluster

def Action.Spawns (ok : Call ρ → Prop) : Action ρ → Prop
  | .spawn _ prog => ok prog
  | _ => True

/-- A turn that writes meets the projection its snapshot was computed from. -/
def Action.Timely (c c' : Cluster ρ) : Action ρ → Prop
  | .turn host _ => c'.shared.tables = c.shared.tables ∨ c.shared.timely host = true
  | _ => True

variable (P : Platform) (r : RunId)

/-- One step of a cluster whose callers run programs of `ok`. -/
def Step (ok : Call ρ → Prop) (c c' : Cluster ρ) : Prop :=
  ∃ a : Action ρ, c.step P r a = some c' ∧ a.Spawns ok

def TimelyStep (ok : Call ρ → Prop) (c c' : Cluster ρ) : Prop :=
  ∃ a : Action ρ, c.step P r a = some c' ∧ a.Spawns ok ∧ a.Timely c c'

def runActions (c : Cluster ρ) : List (Action ρ) → Option (Cluster ρ)
  | [] => some c
  | a :: as => (c.step P r a).bind fun c' => runActions c' as

def Action.upToDate (c : Cluster ρ) : Action ρ → Bool
  | .turn host _ => c.shared.timely host
  | _ => true

def runTimely (c : Cluster ρ) : List (Action ρ) → Option (Cluster ρ)
  | [] => some c
  | a :: as => if a.upToDate c = true then (c.step P r a).bind fun c' => runTimely c' as else none

variable {P r} {ok : Call ρ → Prop} {c c' : Cluster ρ} {actions : List (Action ρ)}

theorem runActions_reaches (hspawn : ∀ a ∈ actions, a.Spawns ok)
    (h : runActions P r c actions = some c') : Relation.ReflTransGen (Step P r ok) c c' := by
  induction actions generalizing c with
  | nil =>
    cases h
    exact .refl
  | cons a as ih =>
    obtain ⟨hfirst, hrest⟩ := List.forall_mem_cons.mp hspawn
    obtain ⟨c₁, hstep, hrun⟩ := Option.bind_eq_some_iff.mp h
    exact .head ⟨a, hstep, hfirst⟩ (ih hrest hrun)

theorem runTimely_reaches (hspawn : ∀ a ∈ actions, a.Spawns ok)
    (h : runTimely P r c actions = some c') : Relation.ReflTransGen (TimelyStep P r ok) c c' := by
  induction actions generalizing c with
  | nil =>
    cases h
    exact .refl
  | cons a as ih =>
    obtain ⟨hfirst, hrest⟩ := List.forall_mem_cons.mp hspawn
    simp only [runTimely] at h
    split at h
    · rename_i htimely
      obtain ⟨c₁, hstep, hrun⟩ := Option.bind_eq_some_iff.mp h
      refine .head ⟨a, hstep, hfirst, ?_⟩ (ih hrest hrun)
      cases a with
      | turn => exact .inr htimely
      | _ => trivial
    · cases h

end Tetonic.Managed
