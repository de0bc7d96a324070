import Tetonic.Fabric.Quarantine
import Tetonic.Fabric.Verification
set_option autoImplicit false

/-! What becomes of a remote result: it is validated, its artifacts are quarantined, it is
verified, and the disposition is recorded and returned. The first record of a result stays; what
is returned is what this delivery came to. -/

namespace Tetonic.Fabric
open Lib

structure ResultDispositionRecord where
  (resultId idempotencyKey : String)
  disposition : ResultDisposition
  reason : String
  recordedAt : Int
  auditOnly : Bool
  deriving DecidableEq, Repr

structure DispositionStore where
  (byResult byIdempotency : OrdMap String ResultDispositionRecord)
  deriving DecidableEq

structure WorkerBehaviorSignals where
  (invalidSignatures digestMismatches staleResults leaseViolations oversizedResponses
    schemaViolations verificationFailures independenceFailures malformedOutput : Nat)
  deriving DecidableEq, Repr

def WorkerBehaviorSignals.none : WorkerBehaviorSignals := ⟨0, 0, 0, 0, 0, 0, 0, 0, 0⟩

def WorkerBehaviorSignals.record (s : WorkerBehaviorSignals) :
    ResultDisposition → WorkerBehaviorSignals
  | .rejectedInvalidSignature => { s with invalidSignatures := s.invalidSignatures + 1 }
  | .rejectedDigestMismatch => { s with digestMismatches := s.digestMismatches + 1 }
  | .rejectedStaleAttempt | .superseded => { s with staleResults := s.staleResults + 1 }
  | .rejectedOversized => { s with oversizedResponses := s.oversizedResponses + 1 }
  | .rejectedSchema | .rejectedPathUnsafe | .rejectedExecutablePayload =>
    { s with schemaViolations := s.schemaViolations + 1 }
  | .rejectedVerification => { s with verificationFailures := s.verificationFailures + 1 }
  | .rejectedIdentityMismatch | .rejectedRevokedWorker | .rejectedCanceled | .rejectedPolicy =>
    { s with malformedOutput := s.malformedOutput + 1 }
  | .accepted | .quarantined => s

section
variable {V : Type} {store : DispositionStore} {r : ResultDispositionRecord}

def DispositionStore.record (store : DispositionStore) (envelope : ResultEnvelope V)
    (disposition : ResultDisposition) (reason : String) (auditOnly : Bool) (now : Int) :
    ResultDispositionRecord × DispositionStore :=
  match store.byResult[envelope.body.resultId]? with
  | some existing => (existing, store)
  | none =>
    match store.byIdempotency[envelope.body.idempotencyKey]? with
    | some existing => (existing, store)
    | none =>
      let rec_ : ResultDispositionRecord :=
        ⟨envelope.body.resultId, envelope.body.idempotencyKey, disposition, reason, now, auditOnly⟩
      (rec_, ⟨store.byResult.insert envelope.body.resultId rec_,
        store.byIdempotency.insert envelope.body.idempotencyKey rec_⟩)

section
variable {envelope : ResultEnvelope V}

theorem record_known (h : store.byResult[envelope.body.resultId]? = some r)
    (disposition : ResultDisposition) (reason : String) (auditOnly : Bool) (now : Int) :
    (store.record envelope disposition reason auditOnly now).2 = store := by
  simp [DispositionStore.record, h]

theorem record_new (hresult : store.byResult[envelope.body.resultId]? = none)
    (hkey : store.byIdempotency[envelope.body.idempotencyKey]? = none)
    (disposition : ResultDisposition) (reason : String) (auditOnly : Bool) (now : Int) :
    ∃ r : ResultDispositionRecord, r.disposition = disposition ∧
      (store.record envelope disposition reason auditOnly now).2 =
        ⟨store.byResult.insert envelope.body.resultId r,
          store.byIdempotency.insert envelope.body.idempotencyKey r⟩ := by
  simp only [DispositionStore.record, hresult, hkey]
  exact ⟨_, rfl, rfl⟩

end

structure RemoteResultAcceptRequest (V : Type) where
  envelope : ResultEnvelope V
  expected : ExpectedResultBinding
  verification : ResultVerificationRequirement
  redundant : List (RedundantCandidate V)
  artifactBytes : List (String × List UInt8)
  now : Int
  deriving DecidableEq

structure RemoteResultAcceptOutcome where
  disposition : ResultDisposition
  reason : String
  verification : Option VerificationOutcome
  quarantined : Bool
  deriving DecidableEq, Repr

structure Delivery (V : Type) where
  request : RemoteResultAcceptRequest V
  keys : ResultSigningKeyRegistry
  deriving DecidableEq

def Delivery.resultId (d : Delivery V) : String := d.request.envelope.body.resultId

def Delivery.key (d : Delivery V) : String := d.request.envelope.body.idempotencyKey

/-- The key that the signature is held against. -/
def Delivery.signingKey (d : Delivery V) :=
  d.keys.lookup d.request.envelope.body.workerId d.request.envelope.body.workerKeyId d.request.now

/-- The same call but for its time, with the same signing key on file. -/
def Delivery.SameInputs (c d : Delivery V) : Prop :=
  c.request = { d.request with now := c.request.now } ∧ c.signingKey = d.signingKey

def firstDeliveries : List (Delivery V) → List (Delivery V)
  | [] => []
  | d :: before =>
    if before.any (fun c => c.resultId = d.resultId) then firstDeliveries before
    else d :: firstDeliveries before

variable {before deliveries : List (Delivery V)} {d : Delivery V}

theorem firstDeliveries_of_known (h : ∃ c ∈ before, c.resultId = d.resultId) :
    firstDeliveries (d :: before) = firstDeliveries before := by
  rw [firstDeliveries, if_pos]
  simpa using h

theorem firstDeliveries_of_new (h : ¬ ∃ c ∈ before, c.resultId = d.resultId) :
    firstDeliveries (d :: before) = d :: firstDeliveries before := by
  rw [firstDeliveries, if_neg]
  simpa using h

theorem firstDeliveries_subset (h : d ∈ firstDeliveries deliveries) : d ∈ deliveries := by
  induction deliveries with
  | nil => exact h
  | cons c before ih =>
    by_cases hknown : ∃ c' ∈ before, c'.resultId = c.resultId
    · rw [firstDeliveries_of_known hknown] at h
      exact List.mem_cons_of_mem _ (ih h)
    · rw [firstDeliveries_of_new hknown] at h
      obtain rfl | h := List.mem_cons.mp h
      · exact List.mem_cons_self
      · exact List.mem_cons_of_mem _ (ih h)

theorem exists_firstDelivery (h : d ∈ deliveries) :
    ∃ f ∈ firstDeliveries deliveries, f.resultId = d.resultId := by
  induction deliveries generalizing d with
  | nil => cases h
  | cons c before ih =>
    by_cases hknown : ∃ c' ∈ before, c'.resultId = c.resultId
    · rw [firstDeliveries_of_known hknown]
      obtain rfl | h := List.mem_cons.mp h
      · obtain ⟨c', hc', hid⟩ := hknown
        obtain ⟨f, hf, hfid⟩ := ih hc'
        exact ⟨f, hf, hfid.trans hid⟩
      · exact ih h
    · rw [firstDeliveries_of_new hknown]
      obtain rfl | h := List.mem_cons.mp h
      · exact ⟨d, List.mem_cons_self, rfl⟩
      · obtain ⟨f, hf, hid⟩ := ih h
        exact ⟨f, List.mem_cons_of_mem _ hf, hid⟩

/-- A result is delivered again only with the same inputs, and the first deliveries of different
results have different idempotency keys. -/
structure Consistent (deliveries : List (Delivery V)) : Prop where
  alike : ∀ c ∈ deliveries, ∀ d ∈ deliveries, c.resultId = d.resultId → c.SameInputs d
  keys : ((firstDeliveries deliveries).map Delivery.key).Nodup

theorem Consistent.tail (h : Consistent (d :: before)) : Consistent before := by
  refine ⟨fun c hc c' hc' => h.alike c (List.mem_cons_of_mem _ hc) c'
    (List.mem_cons_of_mem _ hc'), ?_⟩
  have hkeys := h.keys
  by_cases hknown : ∃ c ∈ before, c.resultId = d.resultId
  · rwa [firstDeliveries_of_known hknown] at hkeys
  · rw [firstDeliveries_of_new hknown] at hkeys
    exact hkeys.of_cons

/-- Why a result is rejected, and whether the record of it is for the audit only. -/
structure Rejection where
  disposition : ResultDisposition
  reason : String
  auditOnly : Bool
  deriving DecidableEq, Repr

variable [DecidableEq V] (codec : Codec V)

def denyRemoteSideEffects (envelope : ResultEnvelope V) : Except FabricClientError Unit :=
  if ["issue_capability", "invoke_tool", "run_process", "approve_action"].any fun key =>
      (codec.get envelope.payload key).isSome then
    .error (.http "remote result cannot authorize capabilities, tools, processes, or approvals")
  else .ok ()

def auditOnlyRejection (disposition : ResultDisposition) : Bool :=
  decide (disposition = .rejectedStaleAttempt) || decide (disposition = .superseded) ||
    decide (disposition = .rejectedCanceled)

/-- The checks of `accept_remote_result`, up to its first rejection. -/
def decideResult (req : RemoteResultAcceptRequest V) (keys : ResultSigningKeyRegistry) :
    Except Rejection VerificationOutcome :=
  match validateResultEnvelope codec req.envelope req.expected keys req.now with
  | .error e => .error ⟨.rejectedSchema, e.message, true⟩
  | .ok validation =>
    if validation.disposition.isTerminalReject then
      .error ⟨validation.disposition, validation.reason,
        auditOnlyRejection validation.disposition⟩
    else
      match quarantineArtifacts codec req.envelope req.expected req.artifactBytes with
      | some fault => .error ⟨fault.disposition, fault.reason, false⟩
      | none =>
        let verify := applyVerificationPolicy codec req.verification req.envelope req.redundant
        if verify.disposition ≠ .accepted then .error ⟨verify.disposition, verify.reason, false⟩
        else
          match denyRemoteSideEffects codec req.envelope with
          | .error e => .error ⟨.rejectedPolicy, e.text, false⟩
          | .ok () => .ok verify

/-- `accept_remote_result`. The record that the store gives back is not looked at. -/
def acceptRemoteResult (req : RemoteResultAcceptRequest V) (keys : ResultSigningKeyRegistry)
    (store : DispositionStore) (signals : WorkerBehaviorSignals) :
    RemoteResultAcceptOutcome × DispositionStore × WorkerBehaviorSignals :=
  match decideResult codec req keys with
  | .error r =>
    (⟨r.disposition, r.reason, none, false⟩,
      (store.record req.envelope r.disposition r.reason r.auditOnly req.now).2,
      signals.record r.disposition)
  | .ok verify =>
    (⟨.accepted, "verified current result binding and policy", some verify, true⟩,
      (store.record req.envelope .accepted
        "verified; signature is provenance-only, not correctness" false req.now).2,
      signals)

/-- The disposition that the checks give this delivery, whatever is on record. -/
def Delivery.decided (d : Delivery V) : ResultDisposition :=
  match decideResult codec d.request d.keys with
  | .error r => r.disposition
  | .ok _ => .accepted

def afterDeliveries : List (Delivery V) → DispositionStore × WorkerBehaviorSignals
  | [] => (⟨∅, ∅⟩, .none)
  | d :: before =>
    (acceptRemoteResult codec d.request d.keys (afterDeliveries before).1
      (afterDeliveries before).2).2

def deliver (before : List (Delivery V)) (d : Delivery V) :
    RemoteResultAcceptOutcome × DispositionStore × WorkerBehaviorSignals :=
  acceptRemoteResult codec d.request d.keys (afterDeliveries codec before).1
    (afterDeliveries codec before).2

/-- The call returns the disposition that is on record for its result, the one from before if
there was one. -/
def ReturnsRecorded (before : List (Delivery V)) (d : Delivery V) : Prop :=
  (deliver codec before d).2.1.byResult[d.resultId]?.map (·.disposition) =
      some (deliver codec before d).1.disposition ∧
    ∀ r, (afterDeliveries codec before).1.byResult[d.resultId]? = some r →
      (deliver codec before d).1.disposition = r.disposition

/-- The checks read the time and the registry of keys only to look the signing key up. -/
theorem Delivery.SameInputs.decided {c d : Delivery V} (h : c.SameInputs d) :
    c.decided codec = d.decided codec := by
  obtain ⟨⟨envelope, expected, verification, redundant, bytes, now⟩, keys⟩ := c
  obtain ⟨hrequest, hkey⟩ := h
  cases hrequest
  have hfault : signatureFault codec d.request.envelope keys now =
      signatureFault codec d.request.envelope d.keys d.request.now := by
    unfold signatureFault
    rw [show keys.lookup d.request.envelope.body.workerId d.request.envelope.body.workerKeyId now =
      d.signingKey from hkey]
    rfl
  unfold Delivery.decided decideResult validateResultEnvelope
  simp only [hfault]

theorem deliver_disposition (before : List (Delivery V)) (d : Delivery V) :
    (deliver codec before d).1.disposition = d.decided codec := by
  unfold deliver acceptRemoteResult Delivery.decided
  cases decideResult codec d.request d.keys <;> rfl

theorem deliver_store (before : List (Delivery V)) (d : Delivery V) :
    ∃ reason auditOnly, (deliver codec before d).2.1 =
      ((afterDeliveries codec before).1.record d.request.envelope (d.decided codec) reason
        auditOnly d.request.now).2 := by
  unfold deliver acceptRemoteResult Delivery.decided
  cases decideResult codec d.request d.keys with
  | error r => exact ⟨r.reason, r.auditOnly, rfl⟩
  | ok => exact ⟨_, _, rfl⟩

/-- What the store holds is what the first deliveries came to. -/
structure RecordsFirst (store : DispositionStore) (firsts : List (Delivery V)) : Prop where
  result : ∀ d ∈ firsts, ∃ r, store.byResult[d.resultId]? = some r ∧
    r.disposition = d.decided codec
  known : ∀ id r, store.byResult[id]? = some r → ∃ d ∈ firsts, d.resultId = id
  key : ∀ k r, store.byIdempotency[k]? = some r → k ∈ firsts.map Delivery.key

theorem RecordsFirst.unchanged
    (h : RecordsFirst codec (afterDeliveries codec before).1 (firstDeliveries before))
    (hknown : ∃ c ∈ before, c.resultId = d.resultId) :
    (deliver codec before d).2.1 = (afterDeliveries codec before).1 := by
  obtain ⟨c, hc, hid⟩ := hknown
  obtain ⟨f, hf, hfid⟩ := exists_firstDelivery hc
  obtain ⟨r, hr, -⟩ := h.result f hf
  rw [hfid, hid] at hr
  obtain ⟨reason, auditOnly, hstore⟩ := deliver_store codec before d
  rw [hstore]
  exact record_known hr _ _ _ _

theorem RecordsFirst.unknown (h : RecordsFirst codec store (firstDeliveries before))
    (hnew : ¬ ∃ c ∈ before, c.resultId = d.resultId) : store.byResult[d.resultId]? = none := by
  cases hr : store.byResult[d.resultId]? with
  | none => rfl
  | some r =>
    obtain ⟨f, hf, hid⟩ := h.known _ r hr
    exact absurd ⟨f, firstDeliveries_subset hf, hid⟩ hnew

theorem RecordsFirst.keyFree {firsts : List (Delivery V)} {k : String}
    (h : RecordsFirst codec store firsts) (hfree : k ∉ firsts.map Delivery.key) :
    store.byIdempotency[k]? = none := by
  cases hr : store.byIdempotency[k]? with
  | none => rfl
  | some r => exact absurd (h.key k r hr) hfree

theorem RecordsFirst.insert {firsts : List (Delivery V)} (h : RecordsFirst codec store firsts)
    (hnew : store.byResult[d.resultId]? = none) (hr : r.disposition = d.decided codec) :
    RecordsFirst codec ⟨store.byResult.insert d.resultId r, store.byIdempotency.insert d.key r⟩
      (d :: firsts) := by
  refine ⟨?_, ?_, ?_⟩
  · intro f hf
    obtain rfl | hf := List.mem_cons.mp hf
    · exact ⟨r, OrdMap.get_insert_self _ _ _, hr⟩
    · obtain ⟨r', hr', hdisp⟩ := h.result f hf
      refine ⟨r', ?_, hdisp⟩
      rw [OrdMap.get_insert_ne _ _ fun hid => ?_, hr']
      rw [← hid, hnew] at hr'
      cases hr'
  · intro id r' hr'
    obtain ⟨hid, -⟩ | ⟨-, hold⟩ := OrdMap.get_insert_cases hr'
    · exact ⟨d, List.mem_cons_self, hid⟩
    · obtain ⟨f, hf, hid⟩ := h.known id r' hold
      exact ⟨f, List.mem_cons_of_mem _ hf, hid⟩
  · intro k r' hr'
    obtain ⟨rfl, -⟩ | ⟨-, hold⟩ := OrdMap.get_insert_cases hr'
    · exact List.mem_cons_self
    · exact List.mem_cons_of_mem _ (h.key k r' hold)

theorem RecordsFirst.after (h : ((firstDeliveries deliveries).map Delivery.key).Nodup) :
    RecordsFirst codec (afterDeliveries codec deliveries).1 (firstDeliveries deliveries) := by
  induction deliveries with
  | nil => constructor <;> simp [firstDeliveries, afterDeliveries]
  | cons d before ih =>
    by_cases hknown : ∃ c ∈ before, c.resultId = d.resultId
    · rw [firstDeliveries_of_known hknown] at h ⊢
      exact (ih h).unchanged codec hknown ▸ ih h
    · rw [firstDeliveries_of_new hknown] at h ⊢
      obtain ⟨hfree, hnodup⟩ := List.nodup_cons.mp h
      have hbefore := ih hnodup
      obtain ⟨reason, auditOnly, hstore⟩ := deliver_store codec before d
      have hresult := hbefore.unknown codec hknown
      obtain ⟨r, hr, heq⟩ := record_new hresult (hbefore.keyFree codec hfree) (d.decided codec)
        reason auditOnly d.request.now
      have hafter : (afterDeliveries codec (d :: before)).1 = _ := hstore.trans heq
      rw [hafter]
      exact hbefore.insert codec hresult hr

theorem Consistent.returnsRecorded (h : Consistent (d :: before)) :
    ReturnsRecorded codec before d := by
  have hfirst := RecordsFirst.after codec h.tail.keys
  unfold ReturnsRecorded
  rw [deliver_disposition]
  by_cases hknown : ∃ c ∈ before, c.resultId = d.resultId
  · -- The record is that of the result's first delivery.
    rw [hfirst.unchanged codec hknown]
    obtain ⟨c, hc, hid⟩ := hknown
    obtain ⟨f, hf, hfid⟩ := exists_firstDelivery hc
    obtain ⟨r, hr, hdisp⟩ := hfirst.result f hf
    rw [hfid, hid] at hr
    have hsame := h.alike f (List.mem_cons_of_mem _ (firstDeliveries_subset hf)) d
      List.mem_cons_self (hfid.trans hid)
    have hret : r.disposition = d.decided codec := hdisp.trans (hsame.decided codec)
    rw [hr]
    exact ⟨congrArg some hret, fun r' hr' => Option.some.inj hr' ▸ hret.symm⟩
  · have hresult := hfirst.unknown codec hknown
    have hkeys := h.keys
    rw [firstDeliveries_of_new hknown] at hkeys
    obtain ⟨reason, auditOnly, hstore⟩ := deliver_store codec before d
    obtain ⟨r, hr, heq⟩ := record_new hresult
      (hfirst.keyFree codec (List.nodup_cons.mp hkeys).1) (d.decided codec) reason auditOnly
      d.request.now
    rw [hstore, hresult, heq]
    refine ⟨?_, fun r' hr' => absurd hr' (by simp)⟩
    have hget : (((afterDeliveries codec before).1.byResult.insert d.resultId r)[d.resultId]?) =
        some r := OrdMap.get_insert_self _ _ _
    exact (congrArg (Option.map (·.disposition)) hget).trans (congrArg some hr)

/-- Every call of a history returns the disposition that is on record, where a result is delivered
again only with the same inputs and different results have different keys. -/
theorem disposition_returned {deliveries : List (Delivery V)} (h : Consistent deliveries) :
    ∀ before d, d :: before <:+ deliveries → ReturnsRecorded codec before d := by
  induction deliveries with
  | nil =>
    intro before d hsuffix
    cases List.suffix_nil.mp hsuffix
  | cons c rest ih =>
    intro before d hsuffix
    obtain heq | hsuffix := List.suffix_cons_iff.mp hsuffix
    · cases heq
      exact h.returnsRecorded codec
    · exact ih h.tail before d hsuffix

end

namespace Demo

def expected : ExpectedResultBinding where
  channelWorkerId := "worker"
  coordinatorId := "estate"
  runId := "run"
  jobId := "job"
  taskId := "task"
  taskVersion := 1
  attemptId := "attempt"
  leaseId := "lease"
  leaseEpoch := 1
  inputDigest := "input"
  workspaceVersion := none
  workerRevoked := false
  attemptCanceled := false
  attemptSuperseded := false
  anotherAttemptWon := false
  runActive := true
  taskActive := true
  knownRevocationEpoch := 0
  outputLimits := ⟨1000, 0, 0⟩

def deliveryAt (now : Int) (envelope : ResultEnvelope Unit) : Delivery Unit where
  request := ⟨envelope, expected, .structuralValidation, [], [], now⟩
  keys := registered

def delivery : ResultEnvelope Unit → Delivery Unit := deliveryAt 60

def forged : ResultEnvelope Unit := { result with signature := List.replicate 64 0 }

/-- Another result, forged. -/
def other : ResultEnvelope Unit where
  body := { resultBody with resultId := "other", idempotencyKey := "other:job" }
  signature := List.replicate 64 0
  payload := ()

/-- Both results are delivered again, a second later; the last call comes first. -/
def history : List (Delivery Unit) :=
  [deliveryAt 61 other, deliveryAt 61 result, delivery other, delivery result]

theorem history_consistent : Consistent history := by
  refine ⟨?_, by decide +kernel⟩
  intro c hc d hd
  simp only [history, List.mem_cons, List.not_mem_nil, or_false] at hc hd
  rcases hc with rfl | rfl | rfl | rfl <;> rcases hd with rfl | rfl | rfl | rfl
  all_goals
    intro hid
    first
      | exact ⟨rfl, rfl⟩
      | exact absurd hid (by decide +kernel)

end Demo
open Demo

theorem disposition_returned_again :
    (history.tails.filterMap fun
      | d :: before => some (deliver codec before d).1.disposition
      | [] => none) =
        [.rejectedInvalidSignature, .accepted, .rejectedInvalidSignature, .accepted] ∧
      ∀ before d, d :: before <:+ history → ReturnsRecorded codec before d :=
  ⟨by decide +kernel, disposition_returned codec history_consistent⟩

/-- A forged delivery is rejected and recorded; the genuine result that comes after it is reported
as accepted, with the rejection on record. -/
theorem accepted_beside_rejection :
    (deliver codec [] (delivery forged)).1.disposition = .rejectedInvalidSignature ∧
      (deliver codec [delivery forged] (delivery result)).1.disposition = .accepted ∧
      (deliver codec [delivery forged]
        (delivery result)).2.1.byResult["result"]?.map (·.disposition) =
          some .rejectedInvalidSignature := by
  decide +kernel

end Tetonic.Fabric
