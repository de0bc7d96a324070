import Tetonic.Lib.Sums
set_option autoImplicit false

/-! The hierarchical budget ledger: what is reserved is counted in five scopes, globally and for
its run, task, worker and project, in machine words. A map from ids to usages reads as empty where
it has no entry, so it is a function here. -/

namespace Tetonic.Broker
open Lib

abbrev Instant := Int

structure GpuRequirement where
  deviceIndex : Option Nat
  exclusive : Bool
  minVramBytes : UInt64
  deriving DecidableEq, Repr

structure DurationEstimate where
  (expectedMs hardLimitMs : UInt64)
  deriving DecidableEq, Repr

structure ResourceRequest where
  (cpuMilliCores memoryBytes : UInt64)
  gpuDevices : List GpuRequirement
  vramBytes : UInt64
  (processSlots inferenceSlots : UInt32)
  (inputTokens maximumOutputTokens totalTokenBudget inputBytes outputBytes
    temporaryStorageBytes : UInt64)
  estimatedDuration : DurationEstimate
  deriving DecidableEq, Repr

def ResourceRequest.default : ResourceRequest where
  cpuMilliCores := 500
  memoryBytes := 512 * 1024 * 1024
  gpuDevices := []
  vramBytes := 0
  processSlots := 0
  inferenceSlots := 1
  inputTokens := 4096
  maximumOutputTokens := 4096
  totalTokenBudget := 8192
  inputBytes := 256 * 1024
  outputBytes := 256 * 1024
  temporaryStorageBytes := 64 * 1024 * 1024
  estimatedDuration := ⟨30000, 300000⟩

structure BudgetLimits where
  (maxActiveTasksPerRun maxAttemptsPerTask maxLocalProcesses maxProcessesPerWorker
    maxProcessesPerAttempt maxConcurrentInference maxInferenceSlotsPerAttempt : UInt32)
  (maxMemoryBytesGlobal maxMemoryBytesPerRun maxMemoryBytesPerAttempt maxVramBytesGlobal
    maxVramBytesPerWorker maxVramBytesPerAttempt maxTokensPerTask maxTokensPerRun
    maxTempStorageBytes : UInt64)
  maxSpeculationSlots : UInt32
  reservationTtl : Nat
  deriving DecidableEq, Repr

def BudgetLimits.default : BudgetLimits where
  maxActiveTasksPerRun := 32
  maxAttemptsPerTask := 8
  maxLocalProcesses := 16
  maxProcessesPerWorker := 8
  maxProcessesPerAttempt := 2
  maxConcurrentInference := 8
  maxInferenceSlotsPerAttempt := 2
  maxMemoryBytesGlobal := 16 * 1024 * 1024 * 1024
  maxMemoryBytesPerRun := 4 * 1024 * 1024 * 1024
  maxMemoryBytesPerAttempt := 2 * 1024 * 1024 * 1024
  maxVramBytesGlobal := 24 * 1024 * 1024 * 1024
  maxVramBytesPerWorker := 24 * 1024 * 1024 * 1024
  maxVramBytesPerAttempt := 24 * 1024 * 1024 * 1024
  maxTokensPerTask := 200000
  maxTokensPerRun := 2000000
  maxTempStorageBytes := 8 * 1024 * 1024 * 1024
  maxSpeculationSlots := 4
  reservationTtl := 300000000000

def ResourceRequest.exceedsHardLimits (r : ResourceRequest) (limits : BudgetLimits) : Bool :=
  r.memoryBytes > limits.maxMemoryBytesPerAttempt ||
    r.vramBytes > limits.maxVramBytesPerAttempt ||
    r.totalTokenBudget > limits.maxTokensPerTask ||
    r.processSlots > limits.maxProcessesPerAttempt ||
    r.inferenceSlots > limits.maxInferenceSlotsPerAttempt ||
    r.temporaryStorageBytes > limits.maxTempStorageBytes

inductive ReservationTarget where
  | localTarget
  | worker (workerId : String)
  deriving DecidableEq, Repr

def ReservationTarget.workerKey : ReservationTarget → String
  | .localTarget => "local"
  | .worker workerId => workerId

structure ReservedResources where
  (memoryBytes vramBytes : UInt64)
  (processSlots inferenceSlots : UInt32)
  (tokenBudget temporaryStorageBytes : UInt64)
  exclusiveGpuIndices : List Nat
  deriving DecidableEq, Repr

def ResourceRequest.reserved (r : ResourceRequest) : ReservedResources where
  memoryBytes := r.memoryBytes
  vramBytes := r.vramBytes
  processSlots := r.processSlots
  inferenceSlots := r.inferenceSlots
  tokenBudget := r.totalTokenBudget
  temporaryStorageBytes := r.temporaryStorageBytes
  exclusiveGpuIndices := (r.gpuDevices.filter (·.exclusive)).filterMap (·.deviceIndex)

inductive ReservationState where
  | proposed | reserved | dispatched | running | released | expired | canceled | overBudget
  deriving DecidableEq, Repr

def ReservationState.isTerminal : ReservationState → Bool
  | .released | .expired | .canceled | .overBudget => true
  | _ => false

def ReservationState.isActive : ReservationState → Bool
  | .reserved | .dispatched | .running => true
  | _ => false

structure ResourceReservation where
  (reservationId runId taskId attemptId : String)
  targetScope : ReservationTarget
  resources : ReservedResources
  (issuedAt expiresAt : Instant)
  reservationEpoch : UInt64
  state : ReservationState
  speculative : Bool
  deriving DecidableEq, Repr

structure ScopeUsage where
  (memoryBytes vramBytes : UInt64)
  (processSlots inferenceSlots : UInt32)
  tokenBudget : UInt64
  (activeTasks speculationSlots : UInt32)
  exclusiveGpus : Nat → Option String

def ScopeUsage.empty : ScopeUsage := ⟨0, 0, 0, 0, 0, 0, 0, fun _ => none⟩

structure ReservationBinding where
  projectId : Option String
  request : ResourceRequest
  deriving DecidableEq, Repr

structure BudgetState where
  limits : BudgetLimits
  global : ScopeUsage
  (projects runs tasks workers : String → ScopeUsage)
  reservations : OrdMap String ResourceReservation
  byAttempt : OrdMap String String
  bindings : OrdMap String ReservationBinding
  epoch : UInt64

def BudgetState.new (limits : BudgetLimits) : BudgetState where
  limits
  global := .empty
  projects _ := .empty
  runs _ := .empty
  tasks _ := .empty
  workers _ := .empty
  reservations := ∅
  byAttempt := ∅
  bindings := ∅
  epoch := 1

inductive BudgetReject where
  | reservationConflict | resourceRequestTooLarge | runConcurrencyLimit | workerConcurrencyLimit
  | memoryBudgetExceeded | vramBudgetExceeded | processLimitExceeded | tokenBudgetExceeded
  | speculationBudgetExceeded | unknownReservation | overBudget
  deriving DecidableEq, Repr

/-- `apply_usage`; every reservation counts as a task. The additions wrap. -/
def applyUsage (u : ScopeUsage) (r : ReservedResources) (speculative : Bool) (attempt : String) :
    ScopeUsage where
  memoryBytes := u.memoryBytes + r.memoryBytes
  vramBytes := u.vramBytes + r.vramBytes
  processSlots := u.processSlots + r.processSlots
  inferenceSlots := u.inferenceSlots + r.inferenceSlots
  tokenBudget := u.tokenBudget + r.tokenBudget
  activeTasks := u.activeTasks + 1
  speculationSlots := if speculative then u.speculationSlots + 1 else u.speculationSlots
  exclusiveGpus i := if r.exclusiveGpuIndices.contains i then some attempt else u.exclusiveGpus i

def saturatingSub64 (a b : UInt64) : UInt64 := if b ≤ a then a - b else 0

def saturatingSub32 (a b : UInt32) : UInt32 := if b ≤ a then a - b else 0

def reverseUsage (u : ScopeUsage) (r : ReservedResources) (speculative : Bool) (attempt : String) :
    ScopeUsage where
  memoryBytes := saturatingSub64 u.memoryBytes r.memoryBytes
  vramBytes := saturatingSub64 u.vramBytes r.vramBytes
  processSlots := saturatingSub32 u.processSlots r.processSlots
  inferenceSlots := saturatingSub32 u.inferenceSlots r.inferenceSlots
  tokenBudget := saturatingSub64 u.tokenBudget r.tokenBudget
  activeTasks := saturatingSub32 u.activeTasks 1
  speculationSlots :=
    if speculative then saturatingSub32 u.speculationSlots 1 else u.speculationSlots
  exclusiveGpus i := (u.exclusiveGpus i).filter (· ≠ attempt)

def changeAt (m : String → ScopeUsage) (id : String) (f : ScopeUsage → ScopeUsage) :
    String → ScopeUsage :=
  fun k => if k = id then f (m k) else m k

def BudgetState.changeScopes (g : BudgetState) (run task worker : String) (project : Option String)
    (f : ScopeUsage → ScopeUsage) : BudgetState :=
  { g with
    global := f g.global
    runs := changeAt g.runs run f
    tasks := changeAt g.tasks task f
    workers := changeAt g.workers worker f
    projects := project.elim g.projects fun id => changeAt g.projects id f }

def BudgetState.dropReservation (g : BudgetState) (rid : String) (terminal : ReservationState) :
    BudgetState :=
  match g.reservations[rid]? with
  | none => g
  | some rec =>
    if rec.state.isTerminal then g
    else
      let project := g.bindings[rid]?.bind (·.projectId)
      let g := g.changeScopes rec.runId rec.taskId rec.targetScope.workerKey project
        fun u => reverseUsage u rec.resources rec.speculative rec.attemptId
      { g with
        bindings := g.bindings.erase rid
        reservations := g.reservations.insert rid { rec with state := terminal }
        byAttempt := g.byAttempt.erase rec.attemptId }

def BudgetState.dropAll (g : BudgetState) (rids : List String) (terminal : ReservationState) :
    BudgetState :=
  rids.foldl (fun g rid => g.dropReservation rid terminal) g

def BudgetState.idsWhere (g : BudgetState) (p : ResourceReservation → Bool) : List String :=
  ((g.reservations.toList.map Prod.snd).filter p).map (·.reservationId)

def BudgetState.expireIn (g : BudgetState) (now : Instant) : BudgetState :=
  g.dropAll (g.idsWhere fun r =>
    (r.state = .reserved || r.state = .proposed) && r.expiresAt ≤ now) .expired

def BudgetState.release (g : BudgetState) (rid : String) (terminal : ReservationState) :
    BudgetState :=
  g.dropReservation rid terminal

def BudgetState.releaseAttempt (g : BudgetState) (attempt : String) (terminal : ReservationState) :
    BudgetState :=
  match g.byAttempt[attempt]? with
  | none => g
  | some rid => g.release rid terminal

def BudgetState.releaseForRun (g : BudgetState) (run : String) (terminal : ReservationState) :
    BudgetState :=
  g.dropAll (g.idsWhere fun r => r.runId = run &&
    (r.state.isActive || r.state = .proposed)) terminal

def BudgetState.releaseForWorker (g : BudgetState) (worker : String)
    (terminal : ReservationState) : BudgetState :=
  g.dropAll (g.idsWhere fun r => r.targetScope = .worker worker && r.state.isActive) terminal

def BudgetState.reconcileUncertain (g : BudgetState) (now : Instant) : BudgetState :=
  let g := g.expireIn now
  g.dropAll (g.idsWhere fun r => r.state = .dispatched || r.state = .running) .canceled

def BudgetState.transition (g : BudgetState) (rid : String) (state : ReservationState) :
    Except BudgetReject Unit × BudgetState :=
  match g.reservations[rid]? with
  | none => (.error .unknownReservation, g)
  | some rec =>
    if state.isTerminal then (.ok (), g.dropReservation rid state)
    else if rec.state.isTerminal then (.ok (), g)
    else (.ok (), { g with reservations := g.reservations.insert rid { rec with state } })

def BudgetState.getByAttempt (g : BudgetState) (attempt : String) : Option ResourceReservation :=
  g.byAttempt[attempt]?.bind fun rid => g.reservations[rid]?

def exceeds (actual reserved : ReservedResources) : Bool :=
  actual.memoryBytes > reserved.memoryBytes || actual.vramBytes > reserved.vramBytes ||
    actual.processSlots > reserved.processSlots ||
    actual.inferenceSlots > reserved.inferenceSlots ||
    actual.tokenBudget > reserved.tokenBudget ||
    actual.temporaryStorageBytes > reserved.temporaryStorageBytes

def BudgetState.enforceActualUsage (g : BudgetState) (attempt : String)
    (actual : ReservedResources) : Except BudgetReject Unit × BudgetState :=
  match g.getByAttempt attempt with
  | none => (.error .unknownReservation, g)
  | some res =>
    if exceeds actual res.resources then
      (.error .overBudget, g.release res.reservationId .overBudget)
    else (.ok (), g)

structure ReserveCall where
  (runId taskId attemptId : String)
  projectId : Option String
  target : ReservationTarget
  request : ResourceRequest
  speculative : Bool
  now : Instant
  deriving DecidableEq, Repr

def firstReject : List (Bool × BudgetReject) → Except BudgetReject Unit
  | [] => .ok ()
  | (condition, reject) :: rest => if condition then .error reject else firstReject rest

theorem firstReject_eq_ok {l : List (Bool × BudgetReject)} :
    firstReject l = .ok () ↔ ∀ c ∈ l, c.1 = false := by
  induction l with
  | nil => simp [firstReject]
  | cons c rest ih =>
    obtain ⟨condition, reject⟩ := c
    cases condition <;> simp [firstReject, ih]

/-- One of the devices is wanted exclusively and held so by another attempt. -/
def gpuTaken (u : ScopeUsage) (attempt : String) (devices : List GpuRequirement) : Bool :=
  devices.any fun gpu => gpu.deviceIndex.any fun i =>
    gpu.exclusive && (u.exclusiveGpus i).any (· ≠ attempt)

/-- The checks of the scopes, in the order in which they are made. The additions wrap. -/
def BudgetState.checks (g : BudgetState) (c : ReserveCall) : List (Bool × BudgetReject) :=
  let l := g.limits
  let r := c.request
  let run := g.runs c.runId
  let task := g.tasks c.taskId
  let worker := g.workers c.target.workerKey
  [(r.exceedsHardLimits l, .resourceRequestTooLarge),
    (c.speculative && g.global.speculationSlots ≥ l.maxSpeculationSlots,
      .speculationBudgetExceeded),
    (run.activeTasks ≥ l.maxActiveTasksPerRun, .runConcurrencyLimit),
    (run.tokenBudget + r.totalTokenBudget > l.maxTokensPerRun, .tokenBudgetExceeded),
    (run.memoryBytes + r.memoryBytes > l.maxMemoryBytesPerRun, .memoryBudgetExceeded),
    (task.activeTasks ≥ l.maxAttemptsPerTask, .runConcurrencyLimit),
    (task.tokenBudget + r.totalTokenBudget > l.maxTokensPerTask, .tokenBudgetExceeded),
    (g.global.inferenceSlots + r.inferenceSlots > l.maxConcurrentInference,
      .workerConcurrencyLimit),
    (g.global.memoryBytes + r.memoryBytes > l.maxMemoryBytesGlobal, .memoryBudgetExceeded),
    (g.global.vramBytes + r.vramBytes > l.maxVramBytesGlobal, .vramBudgetExceeded),
    (g.global.processSlots + r.processSlots > l.maxLocalProcesses, .processLimitExceeded),
    (worker.processSlots + r.processSlots > l.maxProcessesPerWorker, .processLimitExceeded),
    (worker.vramBytes + r.vramBytes > l.maxVramBytesPerWorker, .vramBudgetExceeded),
    (worker.inferenceSlots + r.inferenceSlots > l.maxConcurrentInference, .workerConcurrencyLimit),
    (gpuTaken worker c.attemptId r.gpuDevices, .vramBudgetExceeded),
    (c.projectId.any fun id => (g.projects id).memoryBytes + r.memoryBytes > l.maxMemoryBytesGlobal,
      .memoryBudgetExceeded)]

/-- `chrono::Duration::from_std`, with five minutes for what does not fit. -/
def chronoDuration (ttl : Nat) : Int :=
  if ttl ≤ 9223372036854775807000000 then ttl else 300000000000

def BudgetState.reservation (g : BudgetState) (rid : String) (c : ReserveCall) :
    ResourceReservation where
  reservationId := rid
  runId := c.runId
  taskId := c.taskId
  attemptId := c.attemptId
  targetScope := c.target
  resources := c.request.reserved
  issuedAt := c.now
  expiresAt := c.now + chronoDuration g.limits.reservationTtl
  reservationEpoch := g.epoch + 1
  state := .reserved
  speculative := c.speculative

def BudgetState.book (g : BudgetState) (rid : String) (c : ReserveCall) : BudgetState :=
  let g' := g.changeScopes c.runId c.taskId c.target.workerKey c.projectId
    fun u => applyUsage u c.request.reserved c.speculative c.attemptId
  { g' with
    epoch := g.epoch + 1
    bindings := g.bindings.insert rid ⟨c.projectId, c.request⟩
    byAttempt := g.byAttempt.insert c.attemptId rid
    reservations := g.reservations.insert rid (g.reservation rid c) }

def BudgetState.activeOf (g : BudgetState) (attempt : String) :
    Option (String × ResourceReservation) :=
  g.byAttempt[attempt]?.bind fun rid =>
    (g.reservations[rid]?.filter (·.state.isActive)).map (rid, ·)

/-- The reservation an attempt has is only given again for the same call. -/
def BudgetState.reuse (g : BudgetState) (rid : String) (existing : ResourceReservation)
    (c : ReserveCall) : Except BudgetReject ResourceReservation :=
  match g.bindings[rid]? with
  | none => .error .unknownReservation
  | some binding =>
    if existing.runId ≠ c.runId || existing.taskId ≠ c.taskId ||
        existing.targetScope ≠ c.target || existing.speculative ≠ c.speculative ||
        binding.projectId ≠ c.projectId || binding.request ≠ c.request then
      .error .reservationConflict
    else .ok existing

/-- `reserve`; `rid` is the id that is drawn for a new reservation. -/
def BudgetState.reserve (g : BudgetState) (rid : String) (c : ReserveCall) :
    Except BudgetReject ResourceReservation × BudgetState :=
  let g := g.expireIn c.now
  match g.activeOf c.attemptId with
  | some (existingId, existing) => (g.reuse existingId existing c, g)
  | none =>
    match firstReject (g.checks c) with
    | .error e => (.error e, g)
    | .ok _ => (.ok (g.reservation rid c), g.book rid c)

inductive BudgetOp where
  | reserve (rid : String) (call : ReserveCall)
  | transition (rid : String) (state : ReservationState)
  | release (rid : String) (terminal : ReservationState)
  | releaseAttempt (attempt : String) (terminal : ReservationState)
  | releaseForRun (run : String) (terminal : ReservationState)
  | releaseForWorker (worker : String) (terminal : ReservationState)
  | enforceActualUsage (attempt : String) (actual : ReservedResources)
  | reconcileUncertain (now : Instant)

def BudgetState.perform (g : BudgetState) : BudgetOp → BudgetState
  | .reserve rid call => (g.reserve rid call).2
  | .transition rid state => (g.transition rid state).2
  | .release rid terminal => g.release rid terminal
  | .releaseAttempt attempt terminal => g.releaseAttempt attempt terminal
  | .releaseForRun run terminal => g.releaseForRun run terminal
  | .releaseForWorker worker terminal => g.releaseForWorker worker terminal
  | .enforceActualUsage attempt actual => (g.enforceActualUsage attempt actual).2
  | .reconcileUncertain now => g.reconcileUncertain now

/-- The calls the ledger is made for: a reservation goes on to be dispatched or running or comes
to an end, a release ends it, and the id drawn for a reservation is a new one. -/
def BudgetState.admits (g : BudgetState) : BudgetOp → Prop
  | .reserve rid _ => g.reservations[rid]? = none
  | .transition _ state => state = .dispatched ∨ state = .running ∨ state.isTerminal = true
  | .release _ terminal | .releaseAttempt _ terminal | .releaseForRun _ terminal
  | .releaseForWorker _ terminal => terminal.isTerminal = true
  | .enforceActualUsage _ _ | .reconcileUncertain _ => True

/-- The states a ledger with these limits comes to by calls that meet `C`. -/
inductive Reaches (C : BudgetState → BudgetOp → Prop) (limits : BudgetLimits) :
    BudgetState → Prop where
  | new : Reaches C limits (.new limits)
  | performs {g : BudgetState} {op : BudgetOp} (reaches : Reaches C limits g)
      (admitted : g.admits op) (meets : C g op) : Reaches C limits (g.perform op)

inductive Drops (g : BudgetState) : BudgetState → Prop where
  | refl : Drops g g
  | drop {g' : BudgetState} (drops : Drops g g') (rid : String) {terminal : ReservationState}
      (ends : terminal.isTerminal = true) : Drops g (g'.dropReservation rid terminal)

theorem Drops.dropAll {g g' : BudgetState} (h : Drops g g') (rids : List String)
    {terminal : ReservationState} (ends : terminal.isTerminal = true) :
    Drops g (g'.dropAll rids terminal) := by
  induction rids generalizing g' with
  | nil => exact h
  | cons rid rest ih => exact ih (h.drop rid ends)

theorem dropReservation_free {g : BudgetState} {rid rid' : String} {terminal : ReservationState}
    (h : g.reservations[rid']? = none) :
    (g.dropReservation rid terminal).reservations[rid']? = none := by
  unfold BudgetState.dropReservation
  split
  · exact h
  · rename_i rec hrec
    split
    · exact h
    · have hne : rid ≠ rid' := by
        intro heq
        rw [heq, h] at hrec
        cases hrec
      exact (OrdMap.get_insert_ne _ _ hne).trans h

theorem Drops.free {g g' : BudgetState} {rid : String} (h : Drops g g')
    (hfree : g.reservations[rid]? = none) : g'.reservations[rid]? = none := by
  induction h with
  | refl => exact hfree
  | drop _ _ _ ih => exact dropReservation_free ih

theorem drops_expireIn (g : BudgetState) (now : Instant) : Drops g (g.expireIn now) :=
  Drops.refl.dropAll _ rfl

theorem Drops.invariant {I : BudgetState → Prop}
    (drop : ∀ g rid terminal, I g → terminal.isTerminal = true → I (g.dropReservation rid terminal))
    {g g' : BudgetState} (hg : I g) (h : Drops g g') : I g' := by
  induction h with
  | refl => exact hg
  | drop _ rid ends ih => exact drop _ rid _ ih ends

def BudgetState.mark (g : BudgetState) (rid : String) (rec : ResourceReservation)
    (state : ReservationState) : BudgetState :=
  { g with reservations := g.reservations.insert rid { rec with state } }

/-- What a call can do: release reservations, move one on, or book one after releasing those that
have expired. -/
inductive Does (g : BudgetState) (op : BudgetOp) : BudgetState → Prop where
  | drops {g' : BudgetState} (drops : Drops g g') : Does g op g'
  | marks {rid : String} {rec : ResourceReservation} {state : ReservationState}
      (found : g.reservations[rid]? = some rec) (live : rec.state.isTerminal = false)
      (active : state.isActive = true) : Does g op (g.mark rid rec state)
  | books {rid : String} {c : ReserveCall} {g' : BudgetState} (call : op = .reserve rid c)
      (expired : g' = g.expireIn c.now) (free : g'.activeOf c.attemptId = none)
      (fits : firstReject (g'.checks c) = .ok ()) : Does g op (g'.book rid c)

theorem perform_does {g : BudgetState} {op : BudgetOp} (h : g.admits op) :
    Does g op (g.perform op) := by
  cases op with
  | reserve rid c =>
    rw [BudgetState.perform, BudgetState.reserve]
    cases hactive : (g.expireIn c.now).activeOf c.attemptId with
    | some => exact .drops (drops_expireIn g c.now)
    | none =>
      cases hfits : firstReject ((g.expireIn c.now).checks c) with
      | error => exact .drops (drops_expireIn g c.now)
      | ok => exact .books rfl rfl hactive hfits
  | transition rid state =>
    rw [BudgetState.perform, BudgetState.transition]
    cases hfound : g.reservations[rid]? with
    | none => exact .drops .refl
    | some rec =>
      dsimp only
      split
      · exact .drops (Drops.refl.drop rid ‹_›)
      · rename_i hends
        split
        · exact .drops .refl
        · rename_i hlive
          refine .marks hfound (by simpa using hlive) ?_
          obtain rfl | rfl | hterminal := h
          · rfl
          · rfl
          · exact absurd hterminal hends
  | release rid => exact .drops (Drops.refl.drop rid h)
  | releaseAttempt =>
    rw [BudgetState.perform, BudgetState.releaseAttempt]
    split
    · exact .drops .refl
    · exact .drops (Drops.refl.drop _ h)
  | releaseForRun | releaseForWorker => exact .drops (Drops.refl.dropAll _ h)
  | enforceActualUsage =>
    rw [BudgetState.perform, BudgetState.enforceActualUsage]
    split
    · exact .drops .refl
    · split
      · exact .drops (Drops.refl.drop _ rfl)
      · exact .drops .refl
  | reconcileUncertain now => exact .drops ((drops_expireIn g now).dropAll _ rfl)

theorem Reaches.invariant {C : BudgetState → BudgetOp → Prop} {limits : BudgetLimits}
    {I : BudgetState → Prop} (new : I (.new limits))
    (drop : ∀ g rid terminal, I g → terminal.isTerminal = true → I (g.dropReservation rid terminal))
    (mark : ∀ g rid rec state, I g → g.reservations[rid]? = some rec →
      rec.state.isTerminal = false → state.isActive = true → I (g.mark rid rec state))
    (book : ∀ g rid c, I (g.expireIn c.now) → (g.expireIn c.now).reservations[rid]? = none →
      C g (.reserve rid c) → (g.expireIn c.now).activeOf c.attemptId = none →
      firstReject ((g.expireIn c.now).checks c) = .ok () → I ((g.expireIn c.now).book rid c))
    {g : BudgetState} (h : Reaches C limits g) : I g := by
  induction h with
  | new => exact new
  | @performs g op _ admitted meets ih =>
    have hdoes := perform_does admitted
    generalize g.perform op = g' at hdoes ⊢
    cases hdoes with
    | drops hd => exact hd.invariant drop ih
    | marks found live active => exact mark g _ _ _ ih found live active
    | books call expired free fits =>
      subst call expired
      have hd := drops_expireIn g
      exact book g _ _ ((hd _).invariant drop ih) ((hd _).free admitted) meets free fits

end Tetonic.Broker
