import Tetonic.Node.Worker
set_option autoImplicit false

/-! What becomes of the recorded leases over a sequence of requests. A renewal that `renew` turns
down is written to the table all the same, whatever its epoch. -/

namespace Tetonic.Node
open Lib
open Fabric

inductive Happening where
  | lease (ctx : LifecycleContext)
  | jobs (o : Offer) (saved : Except String Unit)
  | cancel (r : CancellationRequest)
  /-- The chat of an attempt has ended. -/
  | ended (attemptId : String)
  /-- The watch has seen the lease of an attempt expire. -/
  | lapsed (jobId attemptId : String)
  | scheduler (e : Event)

variable {w w' : Worker} {attemptId : String} {o : Offer} {saved : Except String Unit}
  {epoch : UInt64} {h : Happening}

namespace Worker

def happen (w : Worker) : Happening → Worker
  | .lease ctx => (w.jobsLease ctx).2
  | .jobs o saved => (w.jobs o saved).2
  | .cancel r => (w.jobsCancel r).2
  | .ended attemptId => (w.unmapAttempt attemptId).removeLease attemptId
  | .lapsed jobId attemptId => (w.cancelJob jobId).removeLease attemptId
  | .scheduler e => { w with scheduler := w.scheduler.step e }

def happenAll (w : Worker) (hs : List Happening) : Worker := hs.foldl happen w

def recordedEpoch (w : Worker) (attemptId : String) : Option UInt64 :=
  w.leases.byAttempt[attemptId]?.map (·.leaseEpoch)

/-- The request for a renewal comes to the table. -/
structure Renews (w : Worker) (ctx : LifecycleContext) : Prop where
  valid : validateLifecycleContext ctx ctx.workerId = .ok ()
  live : w.cancelState.isCanceled ctx.attemptId ctx.leaseEpoch = false
  found : w.scheduler.isRunning ctx.jobId = true ∨ w.attemptJobs[ctx.attemptId]? = some ctx.jobId

/-- The offer comes to the table. -/
structure Starts (w : Worker) (o : Offer) (saved : Except String Unit) : Prop where
  dataClass : o.dataClass ≠ .secret
  epoch : ∃ minEpoch, w.pinnedEpoch = some minEpoch ∧ ¬ o.policyEpoch < minEpoch
  payload : o.payload = .infer
  live : w.cancelState.isCanceled o.envelope.attemptId o.envelope.leaseEpoch = false
  kind : o.envelope.jobKind = .infer
  accepted : ∃ ingress, w.ingress.acceptDelivery o.envelope = .ok (.acceptNew, ingress)
  saved : saved = .ok ()

theorem renewalRefusal_none {leaseEpoch : UInt64} :
    w.renewalRefusal attemptId leaseEpoch = none ↔
      w.cancelState.isCanceled attemptId leaseEpoch = false := by
  unfold renewalRefusal CancellationState.canRenewLease
  cases w.cancelState.isCanceled attemptId leaseEpoch <;> simp

theorem insert_recordedEpoch (w : Worker) (lease : ActiveLease) (attemptId : String) :
    { w with leases := w.leases.insert lease }.recordedEpoch attemptId =
      if lease.attemptId = attemptId then some lease.leaseEpoch else w.recordedEpoch attemptId := by
  unfold recordedEpoch LeaseTable.insert
  rw [OrdMap.get_insert]
  split <;> rfl

theorem writeLease_recordedEpoch (w : Worker) (ctx : LifecycleContext) (attemptId : String) :
    (w.writeLease ctx).recordedEpoch attemptId =
      if ctx.attemptId = attemptId then some ctx.leaseEpoch else w.recordedEpoch attemptId := by
  unfold writeLease
  cases hrenew : w.leases.renew ctx.attemptId ctx.jobId ctx.leaseEpoch
      (w.scheduler.now + w.leaseTtl) with
  | none => exact insert_recordedEpoch w _ attemptId
  | some leases =>
    unfold LeaseTable.renew at hrenew
    split at hrenew
    · cases hrenew
    · rename_i entry hentry
      split at hrenew
      · cases hrenew
      · rename_i hsame
        cases hrenew
        have hepoch : entry.leaseEpoch = ctx.leaseEpoch := by
          by_contra hne
          exact hsame (.inr hne)
        unfold recordedEpoch
        dsimp only
        rw [OrdMap.get_insert]
        split
        · rw [← hepoch]
          rfl
        · rfl

theorem jobsLease_cases (w : Worker) (ctx : LifecycleContext) :
    (Renews w ctx ∧ (w.jobsLease ctx).2 = w.writeLease ctx) ∨
      (¬ Renews w ctx ∧ (w.jobsLease ctx).2 = w) := by
  unfold jobsLease
  cases hvalid : validateLifecycleContext ctx ctx.workerId with
  | error =>
    right
    refine ⟨?_, rfl⟩
    intro hrenews
    rw [hrenews.valid] at hvalid
    cases hvalid
  | ok u =>
    cases hrefused : w.renewalRefusal ctx.attemptId ctx.leaseEpoch with
    | some =>
      right
      refine ⟨?_, rfl⟩
      intro hrenews
      rw [renewalRefusal_none.mpr hrenews.live] at hrefused
      cases hrefused
    | none =>
      have hlive := renewalRefusal_none.mp hrefused
      have hknown : w.knownAttempt ctx.attemptId ctx.jobId = true ↔
          w.attemptJobs[ctx.attemptId]? = some ctx.jobId := by
        unfold knownAttempt
        cases w.attemptJobs[ctx.attemptId]? <;> simp
      dsimp only
      split
      · rename_i hlost
        right
        refine ⟨?_, rfl⟩
        intro hrenews
        simp only [Bool.and_eq_true, Bool.not_eq_true'] at hlost
        obtain hrunning | hmapped := hrenews.found
        · rw [hlost.1] at hrunning
          cases hrunning
        · rw [hknown.mpr hmapped] at hlost
          cases hlost.2
      · rename_i hfound
        left
        refine ⟨⟨hvalid, hlive, ?_⟩, rfl⟩
        rw [← hknown]
        simpa [Classical.or_iff_not_imp_left] using hfound

theorem submissionRefusal_none :
    w.submissionRefusal o = none ↔ o.dataClass ≠ .secret ∧
      ∃ minEpoch, w.pinnedEpoch = some minEpoch ∧ ¬ o.policyEpoch < minEpoch := by
  unfold submissionRefusal rejectStalePolicyEpoch workerAcceptsDataClass
  by_cases hsecret : o.dataClass = .secret
  · simp [hsecret]
  · cases hpin : w.pinnedEpoch with
    | none => simp [hsecret]
    | some minEpoch =>
      by_cases hstale : o.policyEpoch < minEpoch
      · simp [hsecret, hstale]
      · simp [hsecret, hstale, UInt64.not_lt.mp hstale]

theorem jobsRefusal_none :
    w.jobsRefusal o = none ↔ (o.dataClass ≠ .secret ∧
      ∃ minEpoch, w.pinnedEpoch = some minEpoch ∧ ¬ o.policyEpoch < minEpoch) ∧ o.payload = .infer ∧
      w.cancelState.isCanceled o.envelope.attemptId o.envelope.leaseEpoch = false := by
  rw [← submissionRefusal_none, ← renewalRefusal_none]
  unfold jobsRefusal
  cases w.submissionRefusal o with
  | some => simp
  | none => by_cases hpayload : o.payload = .infer <;> simp [hpayload]

theorem markTerminal_leases (w : Worker) (envelope : JobEnvelope) (outcome : TerminalOutcome)
    (cached : Option String) : (w.markTerminal envelope outcome cached).leases = w.leases := by
  unfold markTerminal
  split <;> rfl

theorem acceptOffer_ok {decision : IngressDecision} (h : w.acceptOffer o = .ok (decision, w')) :
    o.envelope.jobKind = .infer ∧
      ∃ ingress, w.ingress.acceptDelivery o.envelope = .ok (decision, ingress) ∧
        w' = { w with ingress } := by
  unfold acceptOffer at h
  split at h
  · cases h
  · rename_i hkind
    split at h
    · cases h
    · rename_i decision' ingress haccept
      cases h
      exact ⟨Classical.not_not.mp hkind, ingress, haccept, rfl⟩

theorem Starts.acceptOffer (h : Starts w o saved) :
    ∃ ingress, w.acceptOffer o = .ok (.acceptNew, { w with ingress }) := by
  obtain ⟨ingress, haccept⟩ := h.accepted
  refine ⟨ingress, ?_⟩
  unfold Worker.acceptOffer
  rw [if_neg (by simp [h.kind]), haccept]

theorem Starts.jobs (h : Starts w o saved) :
    ∃ ingress, (w.jobs o saved).2 = ({ w with ingress }.mapAttempt o).insertLease o := by
  obtain ⟨ingress, haccept⟩ := h.acceptOffer
  refine ⟨ingress, ?_⟩
  unfold Worker.jobs
  rw [jobsRefusal_none.mpr ⟨⟨h.dataClass, h.epoch⟩, h.payload, h.live⟩, haccept, h.saved]

theorem jobs_leases_of_not_starts (h : ¬ Starts w o saved) :
    (w.jobs o saved).2.leases = w.leases := by
  unfold jobs
  cases hrefused : w.jobsRefusal o with
  | some => rfl
  | none =>
    obtain ⟨⟨hclass, hepoch⟩, hpayload, hlive⟩ := jobsRefusal_none.mp hrefused
    cases haccept : w.acceptOffer o with
    | error => rfl
    | ok answer =>
      obtain ⟨hkind, ingress, hdelivery, hw⟩ := acceptOffer_ok haccept
      obtain ⟨decision, w'⟩ := answer
      dsimp only at hw
      subst hw
      cases decision with
      | replayExisting | duplicateInFlight => rfl
      | acceptNew =>
        cases saved with
        | error => exact markTerminal_leases _ _ _ _
        | ok => exact absurd ⟨hclass, hepoch, hpayload, hlive, hkind, ⟨ingress, hdelivery⟩, rfl⟩ h

theorem Starts.recordedEpoch (h : Starts w o saved) (attemptId : String) :
    (w.jobs o saved).2.recordedEpoch attemptId =
      if o.envelope.attemptId = attemptId then some o.envelope.leaseEpoch
      else w.recordedEpoch attemptId := by
  obtain ⟨ingress, heq⟩ := h.jobs
  rw [heq]
  exact insert_recordedEpoch _ _ attemptId

/-- No epoch goes down, and a renewal with a lower one leaves the table as it was. -/
structure Fences (w : Worker) (h : Happening) : Prop where
  epochs : ∀ attemptId epoch epoch', w.recordedEpoch attemptId = some epoch →
    (w.happen h).recordedEpoch attemptId = some epoch' → epoch ≤ epoch'
  stale : ∀ ctx epoch, h = .lease ctx → w.recordedEpoch ctx.attemptId = some epoch →
    ctx.leaseEpoch < epoch → (w.happen h).leases = w.leases

/-- Nothing with a lower epoch than the recorded one comes to the table. -/
def InOrder (w : Worker) : Happening → Prop
  | .lease ctx => ∀ epoch, w.recordedEpoch ctx.attemptId = some epoch → ctx.leaseEpoch < epoch →
    ¬ Renews w ctx
  | .jobs o saved => ∀ epoch, w.recordedEpoch o.envelope.attemptId = some epoch →
    o.envelope.leaseEpoch < epoch → ¬ Starts w o saved
  | .cancel _ | .ended _ | .lapsed _ _ | .scheduler _ => True

theorem erase_recordedEpoch (h : w'.leases = w.leases.remove attemptId) {attemptId' : String}
    (hepoch : w'.recordedEpoch attemptId' = some epoch) :
    w.recordedEpoch attemptId' = some epoch := by
  unfold recordedEpoch at hepoch ⊢
  rw [h] at hepoch
  obtain ⟨lease, hlease, rfl⟩ := Option.map_eq_some_iff.mp hepoch
  rw [(OrdMap.get_of_erase hlease).2]
  rfl

theorem acknowledge_leases (w : Worker) (cancel : CancellationRequest) (jobId : Option String) :
    (w.acknowledge cancel jobId).leases = w.leases := by
  unfold acknowledge
  split <;> rfl

theorem jobsCancel_leases (w : Worker) (cancel : CancellationRequest) :
    (w.jobsCancel cancel).2.leases = w.leases := by
  unfold jobsCancel
  split
  · rfl
  · exact acknowledge_leases _ _ _

theorem Fences.of_subset
    (hkept : ∀ attemptId epoch, (w.happen h).recordedEpoch attemptId = some epoch →
      w.recordedEpoch attemptId = some epoch)
    (hother : ∀ ctx, h = .lease ctx → (w.happen h).leases = w.leases) : Fences w h := by
  refine ⟨?_, fun ctx epoch heq _ _ => hother ctx heq⟩
  intro attemptId epoch epoch' hepoch hepoch'
  rw [hkept attemptId epoch' hepoch'] at hepoch
  cases hepoch
  exact UInt64.le_refl _

theorem Fences.of_write (hwrite : ∀ attemptId', (w.happen h).recordedEpoch attemptId' =
      if attemptId = attemptId' then some epoch else w.recordedEpoch attemptId')
    (hlease : ∀ ctx, h = .lease ctx → ctx.attemptId = attemptId ∧ ctx.leaseEpoch = epoch)
    (horder : ∀ old, w.recordedEpoch attemptId = some old → ¬ epoch < old) : Fences w h := by
  refine ⟨?_, ?_⟩
  · intro attemptId' old new hold hnew
    rw [hwrite] at hnew
    split at hnew
    · rename_i heq
      subst heq
      cases hnew
      exact UInt64.not_lt.mp (horder old hold)
    · rw [hold] at hnew
      cases hnew
      exact UInt64.le_refl _
  · intro ctx old heq hold hlt
    obtain ⟨rfl, rfl⟩ := hlease ctx heq
    exact absurd hlt (horder old hold)

theorem Fences.ordered {old : UInt64} (hfences : Fences w h)
    (hwrite : (w.happen h).recordedEpoch attemptId = some epoch)
    (hold : w.recordedEpoch attemptId = some old) (hlt : epoch < old) : False :=
  UInt64.not_lt.mpr (hfences.epochs attemptId old epoch hold hwrite) hlt

theorem fences_iff (w : Worker) (h : Happening) : Fences w h ↔ InOrder w h := by
  cases h with
  | lease ctx =>
    obtain ⟨hrenews, hwrite⟩ | ⟨hnot, hsame⟩ := jobsLease_cases w ctx
    · have hepochs : ∀ attemptId, (w.happen (.lease ctx)).recordedEpoch attemptId =
          if ctx.attemptId = attemptId then some ctx.leaseEpoch
          else w.recordedEpoch attemptId := by
        intro attemptId
        change (w.jobsLease ctx).2.recordedEpoch attemptId = _
        rw [hwrite]
        exact writeLease_recordedEpoch w ctx attemptId
      constructor
      · intro hfences old hold hlt _
        exact hfences.ordered ((hepochs ctx.attemptId).trans (if_pos rfl)) hold hlt
      · intro horder
        refine .of_write hepochs ?_ ?_
        · intro ctx' heq
          cases heq
          exact ⟨rfl, rfl⟩
        · intro old hold hlt
          exact horder old hold hlt hrenews
    · constructor
      · intro _ _ _ _
        exact hnot
      · intro _
        have hleases : (w.happen (.lease ctx)).leases = w.leases := congrArg Worker.leases hsame
        refine .of_subset ?_ fun _ _ => hleases
        intro attemptId epoch hepoch
        unfold recordedEpoch at hepoch ⊢
        rwa [hleases] at hepoch
  | jobs o saved =>
    by_cases hstarts : Starts w o saved
    · have hepochs : ∀ attemptId, (w.happen (.jobs o saved)).recordedEpoch attemptId =
          if o.envelope.attemptId = attemptId then some o.envelope.leaseEpoch
          else w.recordedEpoch attemptId := hstarts.recordedEpoch
      constructor
      · intro hfences old hold hlt _
        exact hfences.ordered ((hepochs _).trans (if_pos rfl)) hold hlt
      · intro horder
        refine .of_write hepochs ?_ ?_
        · intro ctx heq
          cases heq
        · intro old hold hlt
          exact horder old hold hlt hstarts
    · constructor
      · intro _ _ _ _
        exact hstarts
      · intro _
        refine .of_subset ?_ fun ctx heq => by cases heq
        intro attemptId epoch hepoch
        unfold recordedEpoch at hepoch ⊢
        rwa [show (w.happen (.jobs o saved)).leases = w.leases from
          jobs_leases_of_not_starts hstarts] at hepoch
  | cancel r =>
    refine iff_of_true (.of_subset ?_ fun ctx heq => by cases heq) trivial
    intro attemptId epoch hepoch
    unfold recordedEpoch at hepoch ⊢
    rwa [show (w.happen (.cancel r)).leases = w.leases from jobsCancel_leases w r] at hepoch
  | ended | lapsed =>
    refine iff_of_true (.of_subset ?_ fun ctx heq => by cases heq) trivial
    intro attemptId' epoch hepoch
    exact erase_recordedEpoch rfl hepoch
  | scheduler =>
    exact iff_of_true (.of_subset (fun _ _ hepoch => hepoch) fun ctx heq => by cases heq) trivial

/-- A sequence of requests keeps the recorded leases fenced if and only if each of its requests
that carries a lower epoch than the recorded one is stopped before the table. -/
theorem leases_fenced_iff (w : Worker) (hs : List Happening) :
    (∀ before h after, hs = before ++ h :: after → Fences (w.happenAll before) h) ↔
      ∀ before h after, hs = before ++ h :: after → InOrder (w.happenAll before) h := by
  constructor
  · intro hfences before h after heq
    exact (fences_iff _ h).mp (hfences before h after heq)
  · intro horder before h after heq
    exact (fences_iff _ h).mpr (horder before h after heq)

namespace Demo

def worker : Worker := .new "worker" (defaultLeaseTtl none) (some 1) 0

def offer (attemptId : String) (leaseEpoch : UInt64) : Offer where
  jobId := "job"
  envelope := ⟨attemptId, "lease", leaseEpoch, attemptId ++ ":job", "digest", .infer⟩
  dataClass := .public
  policyEpoch := 1
  payload := .infer

def renewal (leaseEpoch : UInt64) : LifecycleContext where
  jobId := "job"
  taskId := "task"
  attemptId := "attempt"
  leaseId := "lease"
  leaseEpoch := leaseEpoch
  workerId := "worker"
  sequenceNumber := 1
  protocolVersion := protocolVersion
  idempotencyKey := "attempt:job"

end Demo

/-- The job was taken on with epoch 7; twenty seconds later a holder of epoch 3 has the lease, and
an offer with epoch 2 would have had it as well. -/
theorem stale_renewal_replaces :
    (Demo.worker.happenAll [.jobs (Demo.offer "attempt" 7) (.ok ())]).recordedEpoch "attempt" =
      some 7 ∧ (Demo.worker.happenAll [.jobs (Demo.offer "attempt" 7) (.ok ()),
      .scheduler (.tick 20000000000), .lease (Demo.renewal 3)]).leases.byAttempt["attempt"]? =
        some ⟨"job", "attempt", 3, 50000000000⟩ ∧
    (Demo.worker.happenAll [.jobs (Demo.offer "attempt" 7) (.ok ()),
      .jobs (Demo.offer "attempt" 2) (.ok ())]).recordedEpoch "attempt" = some 2 := by
  decide +kernel

end Worker

end Tetonic.Node
