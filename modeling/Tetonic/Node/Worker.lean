import Tetonic.Fabric.Results
import Tetonic.Node.Scheduler
set_option autoImplicit false

/-! The worker that runs jobs for a coordinator: its table of leases, its record of cancellations,
which attempt is for which job, and the handlers of `/v1/jobs`, `/v1/jobs/lease` and
`/v1/jobs/cancel`. Each part stands behind a lock of its own. -/

namespace Tetonic.Node
open Lib
open Fabric
open Run (DataClass)

structure ActiveLease where
  (jobId attemptId : String)
  leaseEpoch : UInt64
  expiresAt : Int
  deriving DecidableEq, Repr

structure LeaseTable where
  byAttempt : OrdMap String ActiveLease

/-- `default_lease_ttl`, from the number in the environment if there is one; in nanoseconds. -/
def defaultLeaseTtl (millis : Option UInt64) : Nat :=
  max (millis.getD 30000).toNat 200 * 1000000

namespace LeaseTable

def insert (t : LeaseTable) (lease : ActiveLease) : LeaseTable :=
  ⟨t.byAttempt.insert lease.attemptId lease⟩

def remove (t : LeaseTable) (attemptId : String) : LeaseTable := ⟨t.byAttempt.erase attemptId⟩

def renew (t : LeaseTable) (attemptId jobId : String) (leaseEpoch : UInt64) (expires : Int) :
    Option LeaseTable :=
  match t.byAttempt[attemptId]? with
  | none => none
  | some entry =>
    if entry.jobId ≠ jobId ∨ entry.leaseEpoch ≠ leaseEpoch then none
    else some ⟨t.byAttempt.insert attemptId { entry with expiresAt := expires }⟩

def expiresAt (t : LeaseTable) (attemptId : String) : Option Int :=
  t.byAttempt[attemptId]?.map (·.expiresAt)

end LeaseTable

structure LifecycleContext where
  (jobId taskId attemptId leaseId : String)
  leaseEpoch : UInt64
  workerId : String
  sequenceNumber : UInt64
  protocolVersion : UInt32
  idempotencyKey : String
  deriving DecidableEq, Repr

def missingField (field : String) : FabricError :=
  ⟨.invalidEnvelope, "missing mandatory security field " ++ field⟩

def validateLifecycleContext (ctx : LifecycleContext) (channelWorker : String) :
    Except FabricError Unit := do
  validateProtocolVersion ctx.protocolVersion
  validateChannelIdentity channelWorker ctx.workerId
  if Text.blank ctx.idempotencyKey then .error (missingField "idempotency_key")
  else if Text.blank ctx.leaseId then .error (missingField "lease_id")
  else .ok ()

structure CancellationRequest where
  (runId taskId attemptId leaseId : String)
  leaseEpoch : UInt64
  reason : String
  deriving DecidableEq, Repr

def validateCancellation (cancel : CancellationRequest) : Except FabricError Unit :=
  if cancel.reason.utf8ByteSize > 4096 then
    .error ⟨.inputTooLarge, "cancellation reason too large"⟩
  else .ok ()

/-- `CancellationKey::from_request(req).digest()`. -/
def CancellationRequest.digest (r : CancellationRequest) : String :=
  r.runId ++ ":" ++ r.taskId ++ ":" ++ r.attemptId ++ ":" ++ r.leaseId ++ ":" ++
    toString r.leaseEpoch

def cancelKey (attemptId : String) (leaseEpoch : UInt64) : String :=
  attemptId ++ ":" ++ toString leaseEpoch

structure CancellationState where
  /-- By digest, the contexts of the acknowledgements. -/
  acknowledged : OrdMap String LifecycleContext
  canceled : OrdMap String UInt64

namespace CancellationState

def empty : CancellationState := ⟨∅, ∅⟩

def acknowledge (s : CancellationState) (req : CancellationRequest) (ack : LifecycleContext) :
    Except FabricError (Bool × CancellationState) :=
  match validateCancellation req with
  | .error e => .error e
  | .ok () =>
    if s.acknowledged[req.digest]?.isSome then .ok (false, s)
    else .ok (true,
      { acknowledged := s.acknowledged.insert req.digest ack
        canceled := s.canceled.insert (cancelKey req.attemptId req.leaseEpoch) req.leaseEpoch })

def isCanceled (s : CancellationState) (attemptId : String) (leaseEpoch : UInt64) : Bool :=
  s.canceled[cancelKey attemptId leaseEpoch]?.isSome

def canRenewLease (s : CancellationState) (attemptId : String) (leaseEpoch : UInt64) :
    Except FabricError Unit :=
  if s.isCanceled attemptId leaseEpoch then
    .error ⟨.invalidLease, "lease renewal after cancellation"⟩
  else .ok ()

end CancellationState

structure Offer where
  jobId : String
  envelope : JobEnvelope
  dataClass : DataClass
  /-- `revocation_epoch` of the envelope around the offer. -/
  policyEpoch : UInt64
  /-- The kind of job that the payload is for. -/
  payload : JobKind
  deriving DecidableEq

structure Worker where
  peerId : String
  leaseTtl : Nat
  /-- The coordinator's pinned epoch in the worker's database. -/
  pinnedEpoch : Option UInt64
  scheduler : Scheduler
  attemptJobs : OrdMap String String
  leases : LeaseTable
  cancelState : CancellationState
  ingress : IngressState

/-- An answer other than success: status, `error` and `code`. -/
structure Refusal where
  status : Nat
  error : String
  code : Option String
  deriving DecidableEq, Repr

def Refusal.ofError (status : Nat) (e : FabricError) : Refusal :=
  ⟨status, e.message, some e.code.debug⟩

namespace Worker

def new (peerId : String) (leaseTtl : Nat) (pinnedEpoch : Option UInt64) (now : Int) : Worker :=
  ⟨peerId, leaseTtl, pinnedEpoch, .new now, ∅, ⟨∅⟩, .empty, .empty⟩

def renewalRefusal (w : Worker) (attemptId : String) (leaseEpoch : UInt64) : Option Refusal :=
  match w.cancelState.canRenewLease attemptId leaseEpoch with
  | .error e => some ⟨409, e.message, some "lease_renewal_canceled"⟩
  | .ok () => none

def knownAttempt (w : Worker) (attemptId jobId : String) : Bool :=
  w.attemptJobs[attemptId]?.any fun j => decide (j = jobId)

def jobNotFound : Refusal :=
  ⟨404, "no matching in-flight job for lease renewal", some "lease_job_not_found"⟩

def newLease (w : Worker) (jobId attemptId : String) (leaseEpoch : UInt64) : ActiveLease :=
  ⟨jobId, attemptId, leaseEpoch, w.scheduler.now + w.leaseTtl⟩

/-- What `jobs_lease` does to the table: a lease that cannot be renewed is written anew. -/
def writeLease (w : Worker) (ctx : LifecycleContext) : Worker :=
  match w.leases.renew ctx.attemptId ctx.jobId ctx.leaseEpoch (w.scheduler.now + w.leaseTtl) with
  | some leases => { w with leases }
  | none =>
    { w with leases := w.leases.insert (w.newLease ctx.jobId ctx.attemptId ctx.leaseEpoch) }

/-- The answer of `jobs_lease`, with the instant up to which the lease is granted. -/
def jobsLease (w : Worker) (ctx : LifecycleContext) : Except Refusal Int × Worker :=
  match validateLifecycleContext ctx ctx.workerId with
  | .error e => (.error (.ofError 400 e), w)
  | .ok () =>
    match w.renewalRefusal ctx.attemptId ctx.leaseEpoch with
    | some refusal => (.error refusal, w)
    | none =>
      if !w.scheduler.isRunning ctx.jobId && !w.knownAttempt ctx.attemptId ctx.jobId then
        (.error jobNotFound, w)
      else (.ok (w.scheduler.now + w.leaseTtl), w.writeLease ctx)

def workerAcceptsDataClass (c : DataClass) : Bool := decide (c ≠ .secret)

def rejectStalePolicyEpoch (w : Worker) (jobEpoch : UInt64) : Option Refusal :=
  match w.pinnedEpoch with
  | none => some ⟨403, "coordinator not enrolled", none⟩
  | some minEpoch =>
    if jobEpoch < minEpoch then
      some ⟨403, "policy epoch " ++ toString jobEpoch ++ " below pinned " ++ toString minEpoch,
        some "stale_policy_epoch"⟩
    else none

def submissionRefusal (w : Worker) (o : Offer) : Option Refusal :=
  if !workerAcceptsDataClass o.dataClass then
    some ⟨403, "secret data class rejected on worker", none⟩
  else w.rejectStalePolicyEpoch o.policyEpoch

/-- What `jobs` checks before the ingress. -/
def jobsRefusal (w : Worker) (o : Offer) : Option Refusal :=
  match w.submissionRefusal o with
  | some refusal => some refusal
  | none =>
    if o.payload ≠ .infer then some ⟨400, "missing V1Infer payload", none⟩
    else w.renewalRefusal o.envelope.attemptId o.envelope.leaseEpoch

/-- The part of the ingress's `accept` under its lock. -/
def acceptOffer (w : Worker) (o : Offer) : Except FabricError (IngressDecision × Worker) :=
  if o.envelope.jobKind ≠ .infer then .error (unsupportedKind o.envelope.jobKind)
  else
    match w.ingress.acceptDelivery o.envelope with
    | .error e => .error e
    | .ok (decision, ingress) => .ok (decision, { w with ingress })

def ingressRefusal (e : FabricError) : Refusal :=
  .ofError (if e.code = .internalFailure then 500 else 409) e

/-- The answer to a job that is on file; with its response if there is one. -/
def replay (record : IngressRecord) : Except Refusal String :=
  match record.cachedResponseJson with
  | some cached => .ok cached
  | none => .error ⟨409, "terminal job missing cached response for replay",
      some "replay_missing_cache"⟩

def duplicateInFlight : Refusal :=
  ⟨409, "duplicate job delivery in progress", some "duplicate_in_flight"⟩

/-- The outcome of a job is put on file; an outcome for no record is lost. -/
def markTerminal (w : Worker) (envelope : JobEnvelope) (outcome : TerminalOutcome)
    (cached : Option String) : Worker :=
  match w.ingress.markTerminal envelope outcome cached with
  | .ok ingress => { w with ingress }
  | .error _ => w

def mapAttempt (w : Worker) (o : Offer) : Worker :=
  { w with attemptJobs := w.attemptJobs.insert o.envelope.attemptId o.jobId }

def insertLease (w : Worker) (o : Offer) : Worker :=
  { w with
    leases := w.leases.insert (w.newLease o.jobId o.envelope.attemptId o.envelope.leaseEpoch) }

inductive Submitted where
  | answered (result : Except Refusal String)
  | started
  deriving DecidableEq

/-- `jobs` up to the scheduler. `saved` is what comes of saving the record. -/
def jobs (w : Worker) (o : Offer) (saved : Except String Unit) : Submitted × Worker :=
  match w.jobsRefusal o with
  | some refusal => (.answered (.error refusal), w)
  | none =>
    match w.acceptOffer o with
    | .error e => (.answered (.error (ingressRefusal e)), w)
    | .ok (.replayExisting record, w') => (.answered (replay record), w')
    | .ok (.duplicateInFlight, w') => (.answered (.error duplicateInFlight), w')
    | .ok (.acceptNew, w') =>
      match saved with
      | .error message =>
        (.answered (.error (ingressRefusal ⟨.internalFailure, message⟩)),
          w'.markTerminal o.envelope (.failed message) none)
      | .ok () => (.started, (w'.mapAttempt o).insertLease o)

/-- The job that a cancellation is for; an attempt that is not on record stands for itself. -/
def jobToCancel (jobId : Option String) (attemptId : String) : String := jobId.getD attemptId

def cancelJob (w : Worker) (jobId : String) : Worker :=
  { w with scheduler := (w.scheduler.cancelJob jobId).1 }

def protocolVersion : UInt32 := 1

def acknowledgement (w : Worker) (cancel : CancellationRequest) (jobId : Option String) :
    LifecycleContext where
  jobId := jobToCancel jobId cancel.attemptId
  taskId := cancel.taskId
  attemptId := cancel.attemptId
  leaseId := cancel.leaseId
  leaseEpoch := cancel.leaseEpoch
  workerId := w.peerId
  sequenceNumber := 1
  protocolVersion := protocolVersion
  idempotencyKey := "cancel:" ++ cancel.attemptId

def acknowledge (w : Worker) (cancel : CancellationRequest) (jobId : Option String) : Worker :=
  match w.cancelState.acknowledge cancel (w.acknowledgement cancel jobId) with
  | .ok (_, cancelState) => { w with cancelState }
  | .error _ => w

/-- The answer of `jobs_cancel`, with whether the job was running. -/
def jobsCancel (w : Worker) (cancel : CancellationRequest) : Except Refusal Bool × Worker :=
  match validateCancellation cancel with
  | .error e => (.error (.ofError 400 e), w)
  | .ok () =>
    let jobId := w.attemptJobs[cancel.attemptId]?
    let jid := jobToCancel jobId cancel.attemptId
    (.ok (w.scheduler.cancelJob jid).2, (w.cancelJob jid).acknowledge cancel jobId)

def unmapAttempt (w : Worker) (attemptId : String) : Worker :=
  { w with attemptJobs := w.attemptJobs.erase attemptId }

def removeLease (w : Worker) (attemptId : String) : Worker :=
  { w with leases := w.leases.remove attemptId }

end Worker

end Tetonic.Node
