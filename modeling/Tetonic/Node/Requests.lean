import Tetonic.Node.Leases
import Tetonic.Node.Slots
set_option autoImplicit false

/-! The worker's requests as they interleave. A handler gives up its turn at each `await`, so that
it is a task that goes on from one lock to the next; between two of its steps any other task can
have its turn. What the run of a chat computes, and what saving a record comes to, is given with
the step. -/

namespace Tetonic.Node
open Lib
open Fabric

inductive Route where
  | jobs
  | chat (attemptId : Option String) (priority : JobPriority) (stream : Bool)
  deriving DecidableEq

structure ChatJob where
  jobId : String
  attemptId : Option String
  priority : JobPriority
  stream : Bool
  envelope : JobEnvelope
  deriving DecidableEq

def Route.chatJob (o : Offer) : Route → ChatJob
  | .jobs => ⟨o.jobId, some o.envelope.attemptId, .ownerInteractive, true, o.envelope⟩
  | .chat attemptId priority stream => ⟨o.jobId, attemptId, priority, stream, o.envelope⟩

/-- Where a handler, or the watch on a lease, is. -/
inductive Task where
  | submitted (route : Route) (o : Offer)
  | checked (route : Route) (o : Offer)
  /-- The ingress has the delivery on file, and its record is being saved. -/
  | saving (route : Route) (o : Offer)
  | accepted (o : Offer)
  | mapped (o : Offer)
  | ready (job : ChatJob)
  /-- In `acquire`. -/
  | queued (job : ChatJob) (call : Nat)
  /-- In `run_cancellable_chat`. -/
  | running (job : ChatJob) (call : Nat)
  | released (job : ChatJob) (outcome : TerminalOutcome)
  | unmapped (job : ChatJob) (attemptId : String) (outcome : TerminalOutcome)
  | closing (job : ChatJob) (outcome : TerminalOutcome)
  | canceling (r : CancellationRequest)
  | cancelFound (r : CancellationRequest) (jobId : Option String)
  | cancelSignaled (r : CancellationRequest) (jobId : Option String)
  | renewing (ctx : LifecycleContext)
  | renewable (ctx : LifecycleContext)
  | located (ctx : LifecycleContext) (known : Bool)
  | found (ctx : LifecycleContext)
  | watching (jobId attemptId : String)
  | expired (jobId attemptId : String)
  | signaled (attemptId : String)
  | ended
  deriving DecidableEq

structure Machine where
  worker : Worker
  tasks : OrdMap Nat Task
  nextTask : Nat

structure Input where
  saved : Except String Unit
  /-- The calls that are dropped while the slot is handed on. -/
  gone : List Nat
  outcome : TerminalOutcome
  cached : Option String

inductive Move where
  | submit (route : Route) (o : Offer)
  | cancel (r : CancellationRequest)
  | renew (ctx : LifecycleContext)
  | proceed (t : Nat) (input : Input)
  /-- The client has gone, and the handler's future is dropped. -/
  | drop (t : Nat)
  | ownerActivity (ttl : Nat)
  /-- The coordinator was revoked. -/
  | revoke
  | tick (span : Nat)

def SchedulerError.outcome : SchedulerError → TerminalOutcome
  | .ownerActiveBlocksCircle => .rejected "owner_active"
  | .preempted => .rejected "owner_preempt"

variable {m : Machine}

namespace Machine

def new (peerId : String) (leaseTtl : Nat) (pinnedEpoch : Option UInt64) (now : Int) : Machine :=
  ⟨.new peerId leaseTtl pinnedEpoch now, ∅, 0⟩

def spawn (m : Machine) (task : Task) : Machine :=
  { m with tasks := m.tasks.insert m.nextTask task, nextTask := m.nextTask + 1 }

/-- The task stands at its next step, with the worker as this one left it. -/
def goTo (m : Machine) (t : Nat) (worker : Worker) (task : Task) : Machine :=
  { m with worker, tasks := m.tasks.insert t task }

def schedule (m : Machine) (e : Event) : Worker :=
  { m.worker with scheduler := m.worker.scheduler.step e }

def afterPoll (job : ChatJob) (call : Nat) (s : Scheduler) : Task :=
  match s.phaseOf call with
  | some (.holding _) => .running job call
  | some (.refused e) => .closing job e.outcome
  | _ => .queued job call

def advance (m : Machine) (t : Nat) (input : Input) : Task → Machine
  | .submitted route o =>
    match route with
    | .jobs =>
      if (m.worker.jobsRefusal o).isSome then m.goTo t m.worker .ended
      else m.goTo t m.worker (.checked route o)
    | .chat _ _ _ =>
      if (m.worker.submissionRefusal o).isSome then m.goTo t m.worker .ended
      else m.goTo t m.worker (.checked route o)
  | .checked route o =>
    match m.worker.acceptOffer o with
    | .ok (.acceptNew, w) => m.goTo t w (.saving route o)
    | .ok (.replayExisting _, w) => m.goTo t w .ended
    | .ok (.duplicateInFlight, w) => m.goTo t w .ended
    | .error _ => m.goTo t m.worker .ended
  | .saving route o =>
    match input.saved with
    | .error message =>
      m.goTo t (m.worker.markTerminal o.envelope (.failed message) none) .ended
    | .ok () =>
      match route with
      | .jobs => m.goTo t m.worker (.accepted o)
      | .chat _ _ _ => m.goTo t m.worker (.ready (route.chatJob o))
  | .accepted o => m.goTo t (m.worker.mapAttempt o) (.mapped o)
  | .mapped o =>
    (m.goTo t (m.worker.insertLease o) (.ready (Route.jobs.chatJob o))).spawn
      (.watching o.jobId o.envelope.attemptId)
  | .ready job =>
    m.goTo t (m.schedule (.acquire job.jobId job.priority))
      (.queued job m.worker.scheduler.nextCall)
  | .queued job call =>
    m.goTo t (m.schedule (.poll call)) (afterPoll job call (m.worker.scheduler.poll call))
  | .running job call =>
    m.goTo t (m.schedule (.release call input.gone)) (.released job input.outcome)
  | .released job outcome =>
    match job.attemptId with
    | none => m.goTo t m.worker (.closing job outcome)
    | some attemptId => m.goTo t (m.worker.unmapAttempt attemptId) (.unmapped job attemptId outcome)
  -- The source still has the lock on the attempts here, so that fewer tasks can come between.
  | .unmapped job attemptId outcome => m.goTo t (m.worker.removeLease attemptId)
      (.closing job outcome)
  | .closing job outcome =>
    m.goTo t (m.worker.markTerminal job.envelope outcome input.cached) .ended
  | .canceling r =>
    match validateCancellation r with
    | .error _ => m.goTo t m.worker .ended
    | .ok () => m.goTo t m.worker (.cancelFound r m.worker.attemptJobs[r.attemptId]?)
  | .cancelFound r jobId =>
    m.goTo t (m.schedule (.cancelJob (Worker.jobToCancel jobId r.attemptId)))
      (.cancelSignaled r jobId)
  | .cancelSignaled r jobId => m.goTo t (m.worker.acknowledge r jobId) .ended
  | .renewing ctx =>
    match validateLifecycleContext ctx ctx.workerId with
    | .error _ => m.goTo t m.worker .ended
    | .ok () =>
      if (m.worker.renewalRefusal ctx.attemptId ctx.leaseEpoch).isSome then m.goTo t m.worker .ended
      else m.goTo t m.worker (.renewable ctx)
  | .renewable ctx =>
    m.goTo t m.worker (.located ctx (m.worker.knownAttempt ctx.attemptId ctx.jobId))
  | .located ctx known =>
    if !m.worker.scheduler.isRunning ctx.jobId && !known then m.goTo t m.worker .ended
    else m.goTo t m.worker (.found ctx)
  | .found ctx => m.goTo t (m.worker.writeLease ctx) .ended
  | .watching jobId attemptId =>
    match m.worker.leases.expiresAt attemptId with
    | none => m.goTo t m.worker .ended
    | some expires =>
      if expires ≤ m.worker.scheduler.now then m.goTo t m.worker (.expired jobId attemptId) else m
  | .expired jobId attemptId => m.goTo t (m.schedule (.cancelJob jobId)) (.signaled attemptId)
  | .signaled attemptId => m.goTo t (m.worker.removeLease attemptId) .ended
  | .ended => m

/-- What goes with the future of a handler. A streamed chat and the watch are tasks of their own
and go on. -/
def dropTask (m : Machine) (t : Nat) : Task → Machine
  | .queued _ call => m.goTo t (m.schedule (.drop call)) .ended
  | .running job _ | .released job _ | .unmapped job _ _ | .closing job _ =>
    if job.stream then m else m.goTo t m.worker .ended
  | .watching _ _ | .expired _ _ | .signaled _ | .ended => m
  | .submitted _ _ | .checked _ _ | .saving _ _ | .accepted _ | .mapped _ | .ready _ | .canceling _
  | .cancelFound _ _ | .cancelSignaled _ _ | .renewing _ | .renewable _ | .located _ _ | .found _ =>
    m.goTo t m.worker .ended

def move (m : Machine) : Move → Machine
  | .submit route o => m.spawn (.submitted route o)
  | .cancel r => m.spawn (.canceling r)
  | .renew ctx => m.spawn (.renewing ctx)
  | .proceed t input =>
    match m.tasks[t]? with
    | none => m
    | some task => m.advance t input task
  | .drop t =>
    match m.tasks[t]? with
    | none => m
    | some task => m.dropTask t task
  | .ownerActivity ttl => { m with worker := m.schedule (.ownerActivity ttl) }
  | .revoke => { m with worker := m.schedule .cancelRunning }
  | .tick span => { m with worker := m.schedule (.tick span) }

def moves (m : Machine) (xs : List Move) : Machine := xs.foldl move m

def taskEvent (input : Input) : Task → Option Event
  | .ready job => some (.acquire job.jobId job.priority)
  | .queued _ call => some (.poll call)
  | .running _ call => some (.release call input.gone)
  | .cancelFound r jobId => some (.cancelJob (Worker.jobToCancel jobId r.attemptId))
  | .expired jobId _ => some (.cancelJob jobId)
  | _ => none

def dropEvent : Task → Option Event
  | .queued _ call => some (.drop call)
  | _ => none

def event (m : Machine) : Move → Option Event
  | .submit _ _ | .cancel _ | .renew _ => none
  | .proceed t input => m.tasks[t]?.bind (taskEvent input)
  | .drop t => m.tasks[t]?.bind dropEvent
  | .ownerActivity ttl => some (.ownerActivity ttl)
  | .revoke => some .cancelRunning
  | .tick span => some (.tick span)

def scheduler (m : Machine) : Scheduler := m.worker.scheduler

def schedulerAfter (m : Machine) : Option Event → Scheduler
  | none => m.scheduler
  | some e => m.scheduler.step e

theorem acceptOffer_scheduler {w w' : Worker} {o : Offer} {decision : IngressDecision}
    (h : w.acceptOffer o = .ok (decision, w')) : w'.scheduler = w.scheduler := by
  obtain ⟨-, ingress, -, rfl⟩ := Worker.acceptOffer_ok h
  rfl

theorem markTerminal_scheduler (w : Worker) (envelope : JobEnvelope) (outcome : TerminalOutcome)
    (cached : Option String) :
    (w.markTerminal envelope outcome cached).scheduler = w.scheduler := by
  unfold Worker.markTerminal
  split <;> rfl

theorem acknowledge_scheduler (w : Worker) (r : CancellationRequest) (jobId : Option String) :
    (w.acknowledge r jobId).scheduler = w.scheduler := by
  unfold Worker.acknowledge
  split <;> rfl

theorem writeLease_scheduler (w : Worker) (ctx : LifecycleContext) :
    (w.writeLease ctx).scheduler = w.scheduler := by
  unfold Worker.writeLease
  split <;> rfl

theorem advance_scheduler (m : Machine) (t : Nat) (input : Input) (task : Task) :
    (m.advance t input task).scheduler = m.schedulerAfter (taskEvent input task) := by
  cases task with
  | submitted route =>
    cases route with
    | jobs | chat =>
      unfold advance
      dsimp only
      split <;> rfl
  | checked route o =>
    unfold advance
    dsimp only
    split
    · rename_i h
      exact acceptOffer_scheduler h
    · rename_i h
      exact acceptOffer_scheduler h
    · rename_i h
      exact acceptOffer_scheduler h
    · rfl
  | saving =>
    unfold advance
    dsimp only
    split
    · exact markTerminal_scheduler _ _ _ _
    · split <;> rfl
  | released | canceling | located =>
    unfold advance
    dsimp only
    split <;> rfl
  | closing => exact markTerminal_scheduler _ _ _ _
  | cancelSignaled => exact acknowledge_scheduler _ _ _
  | renewing | watching =>
    unfold advance
    dsimp only
    split
    · rfl
    · split <;> rfl
  | found => exact writeLease_scheduler _ _
  | _ => rfl

theorem dropTask_scheduler (m : Machine) (t : Nat) (task : Task) :
    (m.dropTask t task).scheduler = m.schedulerAfter (dropEvent task) := by
  cases task with
  | running | released | unmapped | closing =>
    unfold dropTask
    dsimp only
    split <;> rfl
  | _ => rfl

theorem move_scheduler (m : Machine) (x : Move) :
    (m.move x).scheduler = m.schedulerAfter (m.event x) := by
  cases x with
  | proceed t input =>
    unfold move event
    dsimp only
    cases m.tasks[t]? with
    | none => rfl
    | some task => exact advance_scheduler m t input task
  | drop t =>
    unfold move event
    dsimp only
    cases m.tasks[t]? with
    | none => rfl
    | some task => exact dropTask_scheduler m t task
  | _ => rfl

theorem move_sane (h : m.scheduler.Sane) (x : Move) : (m.move x).scheduler.Sane := by
  rw [move_scheduler]
  cases m.event x with
  | none => exact h
  | some e => exact h.step e

theorem moves_append (m : Machine) (xs ys : List Move) :
    m.moves (xs ++ ys) = (m.moves xs).moves ys := List.foldl_append

theorem moves_sane (h : m.scheduler.Sane) (xs : List Move) : (m.moves xs).scheduler.Sane := by
  induction xs generalizing m with
  | nil => exact h
  | cons x xs ih => exact ih (move_sane h x)

end Machine

variable {c c' ch : Nat} {s s' : Scheduler} {gone : List Nat} {r : RunningJob}

namespace Scheduler

def FirstInLine (s : Scheduler) (gone : List Nat) (c : Nat) : Prop :=
  s.phaseOf c = some .waiting ∧ c ∉ gone ∧ ∃ w ∈ s.waiters, w.grant = c ∧
    ∀ v ∈ s.waiters, s.phaseOf v.grant = some .waiting → v.grant ∉ gone → v ≠ w → Before w v

/-- The step does not hand the slot to this call: it is not first in line when the running job is
released. -/
def Passes (s : Scheduler) (c : Nat) : Event → Prop
  | .release c' gone => ∀ r, s.running = some r → s.jobOf c' = some r.jobId →
    ¬ s.FirstInLine gone c
  | .acquire _ _ | .poll _ | .drop _ | .cancelRunning | .cancelJob _ | .ownerActivity _ | .tick _ =>
    True

theorem Before.asymm {v w : WaitEntry} (h : Before v w) : ¬ Before w v := by
  unfold Before at h ⊢
  omega

theorem Sane.release_new (h : Sane s) {r' : RunningJob} (hr : s.running = some r)
    (hjob : s.jobOf c = some r.jobId) (hr' : (s.release c gone).running = some r') :
    r'.cancel ∉ (s.release c gone).canceled := by
  obtain ⟨call, found, handed⟩ := h.handed gone hr hjob
  have hle := handed.running_new rfl hr'
  change (s.giveBack c call).nextChannel ≤ r'.cancel at hle
  rw [giveBack_nextChannel] at hle
  intro hch
  rw [handed.canceled] at hch
  have hlt := h.own.canceledBound r'.cancel (giveBack_canceled s c call ▸ hch)
  omega

theorem Sane.first_granted (h : Sane s) (hr : s.running = some r) (hjob : s.jobOf c' = some r.jobId)
    (hfirst : s.FirstInLine gone c) :
    ∃ ch, (s.release c' gone).Grants c ch ∧ ch ∉ (s.release c' gone).canceled := by
  obtain ⟨hwaiting, hstays, w, hw, rfl, hbefore⟩ := hfirst
  obtain ⟨-, hgone⟩ | ⟨v, hv, hvwaits, hvstays, hvbefore, ch, hrunning, hg⟩ :=
    h.nextGranted gone hr hjob
  · exact absurd (hgone _ hwaiting) hstays
  · have hsame : v = w := by
      by_contra hne
      exact (hbefore v hv hvwaits hvstays hne).asymm (hvbefore w hw hwaiting hstays (Ne.symm hne))
    subst hsame
    exact ⟨ch, hg, h.release_new hr hjob hrunning⟩

theorem Acquired.grants {jobId : String} {priority : JobPriority}
    (h : Acquired s c jobId priority s') (hg : s'.Grants c' ch) :
    c = c' ∨ s.Grants c' ch := by
  cases h <;> exact (withCall_grants.mp hg).imp (fun hmine => hmine.1) fun hold => hold.2

theorem Released.passes_grants (h : Released gone s c' s') (hs' : Sane s')
    (hnext : ∀ r, s.running = some r → s.jobOf c' = some r.jobId → NextGranted gone s s')
    (hpasses : s.Passes c (.release c' gone)) (hg : s'.Grants c ch) :
    s.Grants c ch := by
  cases h with
  | unknown => exact hg
  | elsewhere found => exact ((giveBack_grants found).mp hg).2
  | @onward call r _ found slot same handed =>
    obtain hold | ⟨-, r', hr', rfl⟩ := handed.grants hg
    · exact ((giveBack_grants found).mp hold).2
    · have hjob : s.jobOf c' = some r.jobId := by simp [jobOf, found, same]
      obtain ⟨hnone, -⟩ | ⟨w, hw, hwaiting, hstays, hbefore, ch, hrunning, hgw⟩ := hnext r slot hjob
      · rw [hnone] at hr'
        cases hr'
      · rw [hrunning] at hr'
        cases hr'
        have hc := hs'.own.distinct c w.grant ch hg hgw
        subst hc
        exact absurd ⟨hwaiting, hstays, w, hw, rfl, hbefore⟩ (hpasses r slot hjob)

theorem Sane.passes_grants (h : Sane s) (hknown : (s.jobOf c).isSome) {e : Event}
    (hpasses : s.Passes c e) (hg : (s.step e).Grants c ch) :
    s.Grants c ch := by
  have hkept := h.kept (e := e)
  cases e with
  | acquire jobId priority =>
    obtain rfl | hold := (acquire_acquired s jobId priority).grants hg
    · exact absurd (h.own.callBound _ hknown) (Nat.lt_irrefl _)
    · exact hold
  | release c' gone =>
    exact (h.released c' gone).passes_grants (h.step (.release c' gone))
      (fun _ hr hjob => h.nextGranted gone hr hjob) hpasses hg
  | _ => exact (hkept rfl).before hg

theorem Sane.known_step (h : Sane s) (hknown : (s.jobOf c).isSome) (e : Event) :
    ((s.step e).jobOf c).isSome := by
  cases he : e.acquires with
  | none =>
    rw [h.step_jobOf he]
    exact hknown
  | some =>
    cases e with
    | acquire jobId priority =>
      change ((s.acquire jobId priority).jobOf c).isSome
      rw [(acquire_acquired s jobId priority).jobOf]
      split
      · rfl
      · exact hknown
    | _ => cases he

/-- If the call were polled now, its `acquire` would return with the signal not set. -/
def StartsUnset (s : Scheduler) (c : Nat) : Prop :=
  ∃ ch, (s.poll c).phaseOf c = some (.holding ch) ∧ ch ∉ s.canceled

theorem Sane.startsUnset_iff (h : Sane s) (c : Nat) :
    s.StartsUnset c ↔ ∃ ch, s.Grants c ch ∧ ch ∉ s.canceled := by
  constructor
  · intro hstarts
    obtain ⟨ch, hphase, hch⟩ := hstarts
    exact ⟨ch, (h.polled c).grants.mp (grants_of_phase hphase rfl), hch⟩
  · intro hgrant
    obtain ⟨ch, hg, hch⟩ := hgrant
    refine ⟨ch, ?_, hch⟩
    unfold Grants at hg
    obtain ⟨call, hcall, hchannel⟩ := Option.bind_eq_some_iff.mp hg
    unfold poll
    rw [hcall]
    dsimp only
    cases hphase : call.phase with
    | sent answer =>
      rw [hphase] at hchannel
      cases answer with
      | ok =>
        cases hchannel
        rw [setPhase_phaseOf, if_pos rfl]
        simp [phaseOf, hcall]
      | error => cases hchannel
    | holding =>
      rw [hphase] at hchannel
      cases hchannel
      simp [phaseOf, hcall, hphase]
    | waiting | refused | released | dropped =>
      rw [hphase] at hchannel
      cases hchannel

end Scheduler

variable {x : Move}

namespace Machine

def acknowledges (m : Machine) : Move → Option String
  | .proceed t _ =>
    match m.tasks[t]? with
    | some (.cancelSignaled r jobId) => some (Worker.jobToCancel jobId r.attemptId)
    | _ => none
  | _ => none

def Lapsed (m : Machine) (c : Nat) : Prop :=
  ∃ (t : Nat) (job : ChatJob) (attemptId : String) (lease : ActiveLease),
    m.tasks[t]? = some (.queued job c) ∧ job.attemptId = some attemptId ∧
    m.worker.leases.byAttempt[attemptId]? = some lease ∧ lease.expiresAt ≤ m.scheduler.now

/-- The call waits, and this move acknowledges the cancellation of its job or comes to a moment
after the end of its lease. -/
def Stops (m : Machine) (x : Move) (c : Nat) : Prop :=
  (m.move x).scheduler.phaseOf c = some .waiting ∧
    ((∃ jobId, m.acknowledges x = some jobId ∧ m.scheduler.jobOf c = some jobId) ∨
      (m.move x).Lapsed c)

def StoppedBy (m : Machine) (xs : List Move) (c : Nat) : Prop :=
  ∃ before x after, xs = before ++ x :: after ∧ (m.moves before).Stops x c

def Passes (m : Machine) (x : Move) (c : Nat) : Prop :=
  ∀ e, m.event x = some e → m.scheduler.Passes c e

theorem StoppedBy.snoc {xs : List Move} :
    m.StoppedBy (xs ++ [x]) c ↔ m.StoppedBy xs c ∨ (m.moves xs).Stops x c := by
  constructor
  · intro h
    obtain ⟨before, y, after, heq, hstops⟩ := h
    induction after using List.reverseRecOn with
    | nil =>
      obtain ⟨rfl, hy⟩ := List.append_inj' heq rfl
      cases hy
      exact .inr hstops
    | append_singleton after z =>
      left
      have hsplit : xs ++ [x] = (before ++ y :: after) ++ [z] := by simp [heq]
      obtain ⟨rfl, -⟩ := List.append_inj' hsplit rfl
      exact ⟨before, y, after, rfl, hstops⟩
  · intro h
    obtain ⟨before, y, after, rfl, hstops⟩ | hstops := h
    · exact ⟨before, y, after ++ [x], by simp, hstops⟩
    · exact ⟨xs, x, [], rfl, hstops⟩

/-- What a stopped call has: no grant, and a job. -/
structure Held (s : Scheduler) (c : Nat) : Prop where
  known : (s.jobOf c).isSome
  none : ∀ ch, ¬ s.Grants c ch

theorem Held.waiting (h : s.phaseOf c = some .waiting) : Held s c := by
  refine ⟨?_, ?_⟩
  · obtain ⟨call, hcall, -⟩ := Option.map_eq_some_iff.mp h
    simp [Scheduler.jobOf, hcall]
  · intro ch hg
    obtain ⟨phase, hphase, hch⟩ := hg.phase
    rw [h] at hphase
    cases hphase
    cases hch

theorem Held.move (h : Held m.scheduler c) (hs : m.scheduler.Sane) (hpasses : m.Passes x c) :
    Held (m.move x).scheduler c := by
  rw [move_scheduler]
  cases hevent : m.event x with
  | none => exact h
  | some e =>
    refine ⟨hs.known_step h.known e, ?_⟩
    intro ch hg
    exact h.none ch (hs.passes_grants h.known (hpasses e hevent) hg)

/-- Whatever interleaves: no call that was stopped while it waited can start with its signal unset,
if and only if none of them is first in line when a running job gives the slot back. -/
theorem stopped_stay_stopped_iff (peerId : String) (leaseTtl : Nat) (pinnedEpoch : Option UInt64)
    (now : Int) (xs : List Move) :
    (∀ before after, xs = before ++ after → ∀ c,
      (Machine.new peerId leaseTtl pinnedEpoch now).StoppedBy before c →
      ¬ ((Machine.new peerId leaseTtl pinnedEpoch now).moves before).scheduler.StartsUnset c) ↔
    ∀ before x after, xs = before ++ x :: after → ∀ c,
      (Machine.new peerId leaseTtl pinnedEpoch now).StoppedBy before c →
      ((Machine.new peerId leaseTtl pinnedEpoch now).moves before).Passes x c := by
  have hsane : ∀ before,
      ((Machine.new peerId leaseTtl pinnedEpoch now).moves before).scheduler.Sane :=
    moves_sane (Scheduler.Sane.new now)
  generalize Machine.new peerId leaseTtl pinnedEpoch now = m at hsane
  constructor
  · intro hnever before x after heq c hstopped e hevent
    cases e with
    | release c' gone =>
      intro r hr hjob hfirst
      obtain ⟨ch, hg, hch⟩ := (hsane before).first_granted hr hjob hfirst
      refine hnever (before ++ [x]) after (by simp [heq]) c (StoppedBy.snoc.mpr (.inl hstopped)) ?_
      have hafter : (m.moves (before ++ [x])).scheduler =
          (m.moves before).scheduler.release c' gone := by
        rw [moves_append]
        exact (move_scheduler _ x).trans (by rw [hevent]; rfl)
      rw [(hsane _).startsUnset_iff, hafter]
      exact ⟨ch, hg, hch⟩
    | _ => trivial
  · intro hpasses before
    have hheld : ∀ after, xs = before ++ after → ∀ c, m.StoppedBy before c →
        Held (m.moves before).scheduler c := by
      induction before using List.reverseRecOn with
      | nil =>
        intro _ _ c hstopped
        obtain ⟨before, x, after, heq, -⟩ := hstopped
        simp at heq
      | append_singleton before x ih =>
        intro after heq c hstopped
        rw [List.append_assoc] at heq
        rw [moves_append]
        obtain hearlier | hnow := StoppedBy.snoc.mp hstopped
        · exact (ih _ heq c hearlier).move (hsane before) (hpasses before x after heq c hearlier)
        · exact Held.waiting hnow.1
    intro after heq c hstopped hstarts
    obtain ⟨ch, hg, -⟩ := ((hsane before).startsUnset_iff c).mp hstarts
    exact (hheld after heq c hstopped).none ch hg

namespace Demo

def start : Machine := .new "worker" (defaultLeaseTtl none) (some 1) 0

def offer (jobId : String) : Offer where
  jobId := jobId
  envelope := ⟨jobId ++ "-attempt", "lease", 1, jobId ++ ":key", "digest", .infer⟩
  dataClass := .public
  policyEpoch := 1
  payload := .infer

def go (t : Nat) : Move := .proceed t ⟨.ok (), [], .completed, none⟩

/-- Job `a` runs in task 0 and job `b` waits in task 2; tasks 1 and 3 watch their leases. -/
def waits : List Move :=
  .submit .jobs (offer "a") :: List.replicate 7 (go 0) ++
    .submit .jobs (offer "b") :: List.replicate 6 (go 2)

/-- The cancellation of `b` in task 4, up to its acknowledgement. -/
def cancels : List Move :=
  .cancel ⟨"run", "task", "b-attempt", "lease", 1, "stop"⟩ :: List.replicate 2 (go 4)

end Demo
open Demo

/-- Job `b` is canceled while it waits, or its lease runs out there; when job `a` has ended, `b`
runs with its signal unset. -/
theorem stopped_while_waiting_starts :
    (start.moves (waits ++ cancels)).Stops (go 4) 1 ∧
    ((start.moves (waits ++ cancels ++ [go 4, go 0])).scheduler.poll 1).phaseOf
      1 = some (.holding 1) ∧
    (start.moves (waits ++ cancels ++ [go 4, go 0])).scheduler.canceled = [] ∧
    (start.moves waits).Stops (.tick 30000000000) 1 ∧
    ((start.moves (waits ++ [.tick 30000000000, go 3, go 3, go 3,
      go 0])).scheduler.poll 1).phaseOf 1 = some (.holding 1) ∧
    (start.moves (waits ++ [.tick 30000000000, go 3, go 3, go 3,
      go 0])).scheduler.canceled = [] := by
  refine ⟨⟨?_, .inl ⟨"b", ?_, ?_⟩⟩, ?_, ?_, ⟨?_, .inr ?_⟩, ?_, ?_⟩
  case refine_7 =>
    refine ⟨2, Route.jobs.chatJob (offer "b"), "b-attempt",
      ⟨"b", "b-attempt", 1, 30000000000⟩, ?_, ?_, ?_, ?_⟩ <;> decide +kernel
  all_goals decide +kernel

end Machine

end Tetonic.Node
