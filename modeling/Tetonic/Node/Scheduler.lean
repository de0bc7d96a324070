import Tetonic.Lib.OrdMap
set_option autoImplicit false

/-! The worker's scheduler: one slot on the GPU, a queue by priority, and an owner who comes before
the circle. What runs under the scheduler's lock is one step. Between two steps a call of `acquire`
waits for its grant, and it can be dropped there; a grant that was sent is not yet one that was
taken. Calls of `acquire` and channels for cancellation are numbered as they are made. -/

namespace Tetonic.Node
open Lib

inductive JobPriority where
  | ownerInteractive | ownerBackground | circleInteractive | circleBackground
  deriving DecidableEq, Repr

def priorityRank : JobPriority → Nat
  | .ownerInteractive => 4
  | .ownerBackground => 3
  | .circleInteractive => 2
  | .circleBackground => 1

def isCirclePriority : JobPriority → Bool
  | .circleInteractive | .circleBackground => true
  | .ownerInteractive | .ownerBackground => false

def shouldPreempt (running incoming : JobPriority) : Bool :=
  decide (priorityRank incoming > priorityRank running)

inductive SchedulerError where
  | ownerActiveBlocksCircle
  | preempted
  deriving DecidableEq, Repr

structure RunningJob where
  jobId : String
  priority : JobPriority
  /-- The sender of the channel whose receiver the job got. -/
  cancel : Nat
  deriving DecidableEq, Repr

structure WaitEntry where
  jobId : String
  priority : JobPriority
  /-- The call that waits at the other end of the grant. -/
  grant : Nat
  deriving DecidableEq, Repr

inductive Phase where
  | waiting
  /-- The grant's channel holds an answer that the call has not read. -/
  | sent (answer : Except SchedulerError Nat)
  /-- `acquire` has returned the receiver of this channel. -/
  | holding (cancel : Nat)
  | refused (e : SchedulerError)
  | released
  | dropped
  deriving DecidableEq, Repr

def Phase.channel : Phase → Option Nat
  | .sent (.ok cancel) => some cancel
  | .holding cancel => some cancel
  | .waiting | .sent (.error _) | .refused _ | .released | .dropped => none

structure Call where
  jobId : String
  priority : JobPriority
  phase : Phase
  deriving DecidableEq, Repr

/-- The scheduler with its calls and channels; instants are nanoseconds. -/
structure Scheduler where
  running : Option RunningJob
  ownerActiveUntil : Option Int
  /-- In the order in which they are granted. -/
  waiters : List WaitEntry
  calls : OrdMap Nat Call
  (nextCall nextChannel : Nat)
  /-- The channels that carry `true`. -/
  canceled : List Nat
  now : Int

namespace Scheduler

def new (now : Int) : Scheduler := ⟨none, none, [], ∅, 0, 0, [], now⟩

def ownerSlotActive (s : Scheduler) : Bool := s.ownerActiveUntil.any fun t => decide (s.now < t)

def pushWaiter : List WaitEntry → WaitEntry → List WaitEntry
  | [], entry => [entry]
  | w :: ws, entry =>
    if priorityRank w.priority < priorityRank entry.priority then entry :: w :: ws
    else w :: pushWaiter ws entry

def setPhase (s : Scheduler) (c : Nat) (phase : Phase) : Scheduler :=
  match s.calls[c]? with
  | none => s
  | some call => { s with calls := s.calls.insert c { call with phase } }

def isClosed (s : Scheduler) (c : Nat) : Bool :=
  !s.calls[c]?.any fun call => decide (call.phase = .waiting)

/-- `let _ = grant.send(..)`: an answer that nobody waits for is lost. -/
def answer (s : Scheduler) (c : Nat) (result : Except SchedulerError Nat) : Scheduler :=
  if s.isClosed c then s else s.setPhase c (.sent result)

def take (s : Scheduler) (jobId : String) (priority : JobPriority) : Scheduler :=
  { s with running := some ⟨jobId, priority, s.nextChannel⟩, nextChannel := s.nextChannel + 1 }

/-- A job that is running already gets the receiver of a new channel, whose sender is dropped. -/
def tryTakeSlot (s : Scheduler) (jobId : String) (priority : JobPriority) :
    Except SchedulerError (Option Nat) × Scheduler :=
  if isCirclePriority priority && s.ownerSlotActive then (.error .ownerActiveBlocksCircle, s)
  else
    match s.running with
    | none => (.ok (some s.nextChannel), s.take jobId priority)
    | some running =>
      if running.jobId = jobId then
        (.ok (some s.nextChannel), { s with nextChannel := s.nextChannel + 1 })
      else if shouldPreempt running.priority priority then
        (.ok (some s.nextChannel),
          { s with canceled := running.cancel :: s.canceled }.take jobId priority)
      else (.ok none, s)

/-- `grant_next_waiter`, over the waiters that are left. The calls in `gone` are dropped after
their receiver was looked at and before the grant is sent. -/
def grantFrom (gone : List Nat) : List WaitEntry → Scheduler → Scheduler
  | [], s => { s with waiters := [] }
  | next :: rest, s =>
    if s.isClosed next.grant then grantFrom gone rest s
    else
      match s.tryTakeSlot next.jobId next.priority with
      | (.ok (some cancel), s') =>
        if next.grant ∈ gone then
          grantFrom gone rest ({ s' with running := none }.setPhase next.grant .dropped)
        else { s' with waiters := rest }.setPhase next.grant (.sent (.ok cancel))
      | (.ok none, s') => { s' with waiters := next :: rest }
      | (.error e, s') => grantFrom gone rest (s'.answer next.grant (.error e))

def grantNextWaiter (gone : List Nat) (s : Scheduler) : Scheduler := grantFrom gone s.waiters s

/-- The locked part of `acquire`, for a call that is known by this number. -/
def acquireAs (s : Scheduler) (c : Nat) (jobId : String) (priority : JobPriority) : Scheduler :=
  match s.tryTakeSlot jobId priority with
  | (.error e, s') => { s' with calls := s'.calls.insert c ⟨jobId, priority, .refused e⟩ }
  | (.ok (some cancel), s') =>
    { s' with calls := s'.calls.insert c ⟨jobId, priority, .holding cancel⟩ }
  | (.ok none, s') =>
    { s' with
      calls := s'.calls.insert c ⟨jobId, priority, .waiting⟩
      waiters := pushWaiter s'.waiters ⟨jobId, priority, c⟩ }

def acquire (s : Scheduler) (jobId : String) (priority : JobPriority) : Scheduler :=
  { s with nextCall := s.nextCall + 1 }.acquireAs s.nextCall jobId priority

/-- The call is polled: it reads its answer, or finds that no answer can come any more and starts
again. -/
def poll (s : Scheduler) (c : Nat) : Scheduler :=
  match s.calls[c]? with
  | none => s
  | some call =>
    match call.phase with
    | .sent (.ok cancel) => s.setPhase c (.holding cancel)
    | .sent (.error e) => s.setPhase c (.refused e)
    | .waiting =>
      if s.waiters.any fun w => decide (w.grant = c) then s
      else
        { s with waiters := s.waiters.filter fun w => decide (w.jobId ≠ call.jobId) }.acquireAs c
          call.jobId call.priority
    | .holding _ | .refused _ | .released | .dropped => s

/-- The call is dropped at its `await`, with the answer if one was sent. -/
def drop (s : Scheduler) (c : Nat) : Scheduler :=
  match s.calls[c]? with
  | none => s
  | some call =>
    match call.phase with
    | .waiting | .sent _ => s.setPhase c .dropped
    | .holding _ | .refused _ | .released | .dropped => s

def giveBack (s : Scheduler) (c : Nat) (call : Call) : Scheduler :=
  if call.phase.channel.isSome then s.setPhase c .released else s

/-- `release` with the job id of this call. -/
def release (s : Scheduler) (c : Nat) (gone : List Nat) : Scheduler :=
  match s.calls[c]? with
  | none => s
  | some call =>
    if s.running.any fun r => decide (r.jobId = call.jobId) then
      grantNextWaiter gone { s.giveBack c call with running := none }
    else s.giveBack c call

/-- `running.cancel.send(true)`. -/
def signal (s : Scheduler) (r : RunningJob) : Scheduler :=
  { s with canceled := r.cancel :: s.canceled }

def cancelRunning (s : Scheduler) : Scheduler :=
  match s.running with
  | none => s
  | some r => s.signal r

def cancelJob (s : Scheduler) (jobId : String) : Scheduler × Bool :=
  match s.running with
  | none => (s, false)
  | some r => if r.jobId = jobId then (s.signal r, true) else (s, false)

def rejectCircleWaiters (s : Scheduler) : Scheduler :=
  (s.waiters.filter fun w => isCirclePriority w.priority).foldl
    (fun s w => s.answer w.grant (.error .ownerActiveBlocksCircle))
    { s with waiters := s.waiters.filter fun w => !isCirclePriority w.priority }

def signalCircle (s : Scheduler) : Scheduler :=
  match s.running with
  | none => s
  | some r => if isCirclePriority r.priority then s.signal r else s

def signalOwnerActivity (s : Scheduler) (ttl : Nat) : Scheduler :=
  { s with ownerActiveUntil := some (s.now + ttl) }.signalCircle.rejectCircleWaiters

def isRunning (s : Scheduler) (jobId : String) : Bool :=
  s.running.any fun r => decide (r.jobId = jobId)

end Scheduler

inductive Event where
  | acquire (jobId : String) (priority : JobPriority)
  | poll (c : Nat)
  | drop (c : Nat)
  | release (c : Nat) (gone : List Nat)
  | cancelRunning
  | cancelJob (jobId : String)
  | ownerActivity (ttl : Nat)
  | tick (span : Nat)
  deriving DecidableEq, Repr

def Scheduler.step (s : Scheduler) : Event → Scheduler
  | .acquire jobId priority => s.acquire jobId priority
  | .poll c => s.poll c
  | .drop c => s.drop c
  | .release c gone => s.release c gone
  | .cancelRunning => s.cancelRunning
  | .cancelJob jobId => (s.cancelJob jobId).1
  | .ownerActivity ttl => s.signalOwnerActivity ttl
  | .tick span => { s with now := s.now + span }

end Tetonic.Node
