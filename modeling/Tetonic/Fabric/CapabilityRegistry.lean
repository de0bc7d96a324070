import Tetonic.Fabric.Capabilities
set_option autoImplicit false

/-! The coordinator's registry of workers. A worker is quarantined by its probes or by what became
of its results; each refresh of a worker files its entry anew. -/

namespace Tetonic.Fabric
open Lib

structure CapabilityProbeMetrics where
  (probesPassed probesFailed workersQuarantined workersDegraded cacheInserts cacheUpdates : Nat)
  deriving DecidableEq, Repr

def CapabilityProbeMetrics.recordProbeResults (m : CapabilityProbeMetrics)
    (results : List CapabilityProbeResult) (quarantined degraded : Bool) :
    CapabilityProbeMetrics :=
  { m with
    probesPassed := m.probesPassed + results.countP (·.passed)
    probesFailed := m.probesFailed + results.countP (!·.passed)
    workersQuarantined := m.workersQuarantined + quarantined.toNat
    workersDegraded := m.workersDegraded + degraded.toNat }

structure CachedEntry where
  caps : WorkerCapabilities
  (quarantined degraded : Bool)
  probeResults : List CapabilityProbeResult
  (observedEvidence verifiedEvidence : List CapabilityEvidence)
  deriving DecidableEq

structure CapabilityRegistry where
  entries : OrdMap String CachedEntry
  metrics : CapabilityProbeMetrics
  snapshotInvalidatePending : Bool

inductive CapabilityRefreshOutcome where
  | inserted | updated | unchanged
  deriving DecidableEq, Repr

inductive WorkerSchedulingState where
  | eligible | degraded | quarantined | expired | draining | notCached
  deriving DecidableEq, Repr

structure ProbeSessionInput where
  caps : WorkerCapabilities
  channelWorkerId : String
  knownRevocationEpoch : UInt64
  now : Int
  previous : Option WorkerCapabilities
  (healthOk modelsVerified : Bool)
  verifiedModelNames : Option (List String)
  deriving DecidableEq

def gpuInventoryChanged (previous current : WorkerCapabilities) : Bool :=
  decide (previous.gpus.length ≠ current.gpus.length)

def modelInventoryChanged (previous current : WorkerCapabilities) : Bool :=
  decide (previous.modelInventory.length ≠ current.modelInventory.length) ||
    (previous.modelInventory.zip current.modelInventory).any fun pair =>
      decide (pair.1.localName ≠ pair.2.localName) ||
        decide (pair.1.modelDigest ≠ pair.2.modelDigest) ||
        decide (pair.1.quantization ≠ pair.2.quantization)

def capabilitiesChanged (previous current : WorkerCapabilities) : Bool :=
  decide (previous.capabilityRevision ≠ current.capabilityRevision) ||
    decide (previous.bootId ≠ current.bootId) ||
    decide (previous.revocationEpoch ≠ current.revocationEpoch) ||
    decide (previous.generatedAt ≠ current.generatedAt) ||
    decide (previous.softwareVersion.version ≠ current.softwareVersion.version) ||
    gpuInventoryChanged previous current || modelInventoryChanged previous current

/-- All the probes of a session. The drift probes need an earlier document of the same boot. -/
def sessionProbes (input : ProbeSessionInput) : List CapabilityProbeResult :=
  runCapabilityProbes input.caps ++
    ((input.previous.filter fun prev => prev.bootId = input.caps.bootId).map fun prev =>
      runCapabilityDriftProbes prev input.caps).getD [] ++
    runCoordinatorObservedProbes input.caps input.healthOk input.modelsVerified ++
    (input.verifiedModelNames.map fun names =>
      probeInventoryMatchesVerified input.caps.modelInventory names).toList

def sessionEntry (input : ProbeSessionInput) : CachedEntry where
  caps := input.caps
  quarantined := probesQuarantine (sessionProbes input)
  degraded := !probesQuarantine (sessionProbes input) && probesDegraded (sessionProbes input)
  probeResults := sessionProbes input
  observedEvidence := observedEvidenceFromProbes (sessionProbes input)
  verifiedEvidence :=
    verifiedEvidenceFromSession (sessionProbes input) input.healthOk input.modelsVerified

namespace CapabilityRegistry

def empty : CapabilityRegistry := ⟨∅, ⟨0, 0, 0, 0, 0, 0⟩, false⟩

def refreshOutcome (g : CapabilityRegistry) (caps : WorkerCapabilities) :
    CapabilityRefreshOutcome :=
  match g.entries[caps.workerId]? with
  | none => .inserted
  | some existing => if capabilitiesChanged existing.caps caps then .updated else .unchanged

def countRefresh (m : CapabilityProbeMetrics) : CapabilityRefreshOutcome → CapabilityProbeMetrics
  | .inserted => { m with cacheInserts := m.cacheInserts + 1 }
  | .updated => { m with cacheUpdates := m.cacheUpdates + 1 }
  | .unchanged => m

/-- The document is of another boot than the one on file, without a higher revision. -/
def staleRestart (g : CapabilityRegistry) (caps : WorkerCapabilities) : Bool :=
  g.entries[caps.workerId]?.any fun existing =>
    decide (existing.caps.bootId ≠ caps.bootId) &&
      decide (caps.capabilityRevision ≤ existing.caps.capabilityRevision)

def upsertProbeSession (g : CapabilityRegistry) (input : ProbeSessionInput) :
    Except FabricError (CapabilityRefreshOutcome × CapabilityRegistry) :=
  match validateWorkerCapabilities input.caps input.channelWorkerId input.knownRevocationEpoch
      input.now with
  | .error e => .error e
  | .ok () =>
    if g.staleRestart input.caps then
      .error ⟨.invalidEnvelope, "worker restart must bump capability_revision"⟩
    else
      let entry := sessionEntry input
      let outcome := g.refreshOutcome input.caps
      .ok (outcome,
        { entries := g.entries.insert input.caps.workerId entry
          metrics := countRefresh
            (g.metrics.recordProbeResults entry.probeResults entry.quarantined entry.degraded)
            outcome
          snapshotInvalidatePending :=
            g.snapshotInvalidatePending || decide (outcome ≠ .unchanged) })

def forceQuarantine (g : CapabilityRegistry) (workerId : String) : CapabilityRegistry × Bool :=
  match g.entries[workerId]? with
  | none => (g, false)
  | some entry =>
    ({ g with
      entries := g.entries.insert workerId { entry with quarantined := true, degraded := false } },
      true)

def forceDegraded (g : CapabilityRegistry) (workerId : String) : CapabilityRegistry × Bool :=
  match g.entries[workerId]? with
  | none => (g, false)
  | some entry =>
    ({ g with
      entries := g.entries.insert workerId
        { entry with degraded := if entry.quarantined then entry.degraded else true } }, true)

def schedulingState (g : CapabilityRegistry) (workerId : String) (now : Int) :
    WorkerSchedulingState :=
  match g.entries[workerId]? with
  | none => .notCached
  | some entry =>
    if entry.quarantined then .quarantined
    else if entry.caps.isExpired now then .expired
    else if entry.caps.runtimeCapacity.draining then .draining
    else if entry.degraded || entry.caps.dynamicCapacityExpired now then .degraded
    else .eligible

def invalidateWorker (g : CapabilityRegistry) (workerId : String) : CapabilityRegistry :=
  { g with entries := g.entries.erase workerId }

def invalidateAll (g : CapabilityRegistry) : CapabilityRegistry :=
  { g with entries := ∅, snapshotInvalidatePending := true }

def takeSnapshotInvalidation (g : CapabilityRegistry) : CapabilityRegistry × Bool :=
  ({ g with snapshotInvalidatePending := false }, g.snapshotInvalidatePending)

end CapabilityRegistry

inductive RegistryCall where
  | upsert (input : ProbeSessionInput)
  | forceQuarantine (workerId : String)
  | forceDegraded (workerId : String)
  | invalidateWorker (workerId : String)
  | invalidateAll
  | takeSnapshotInvalidation

def RegistryCall.apply (g : CapabilityRegistry) : RegistryCall → CapabilityRegistry
  | .upsert input =>
    match g.upsertProbeSession input with
    | .error _ => g
    | .ok (_, g') => g'
  | .forceQuarantine workerId => (g.forceQuarantine workerId).1
  | .forceDegraded workerId => (g.forceDegraded workerId).1
  | .invalidateWorker workerId => g.invalidateWorker workerId
  | .invalidateAll => g.invalidateAll
  | .takeSnapshotInvalidation => g.takeSnapshotInvalidation.1

/-- The call drops the worker's entry on purpose. -/
def RegistryCall.invalidates (workerId : String) : RegistryCall → Bool
  | .invalidateWorker other => other = workerId
  | .invalidateAll => true
  | _ => false

def runRegistryCalls (g : CapabilityRegistry) (calls : List RegistryCall) : CapabilityRegistry :=
  calls.foldl RegistryCall.apply g

/-- The worker's entry, if it has one, is one that is not eligible at any time. -/
def Barred (g : CapabilityRegistry) (workerId : String) : Prop :=
  ∀ entry, g.entries[workerId]? = some entry →
    entry.quarantined = true ∨ entry.degraded = true ∨ entry.caps.runtimeCapacity.draining = true

/-- The document of this worker passes the checks, no probe on it fails with a consequence, and
the worker is not draining. -/
structure Clears (g : CapabilityRegistry) (workerId : String) (input : ProbeSessionInput) :
    Prop where
  worker : input.caps.workerId = workerId
  valid : validateWorkerCapabilities input.caps input.channelWorkerId input.knownRevocationEpoch
    input.now = .ok ()
  restart : g.staleRestart input.caps = false
  quarantine : probesQuarantine (sessionProbes input) = false
  degraded : probesDegraded (sessionProbes input) = false
  draining : input.caps.runtimeCapacity.draining = false

variable {g : CapabilityRegistry} {workerId : String}

theorem Barred.state (h : Barred g workerId) (now : Int) :
    g.schedulingState workerId now ≠ .eligible := by
  unfold CapabilityRegistry.schedulingState
  cases hentry : g.entries[workerId]? with
  | none => simp
  | some entry =>
    have hbar := h entry hentry
    simp only
    repeat' split
    all_goals simp_all

variable {g' : CapabilityRegistry} {input : ProbeSessionInput}

theorem upsertProbeSession_ok {outcome : CapabilityRefreshOutcome}
    (h : g.upsertProbeSession input = .ok (outcome, g')) :
    validateWorkerCapabilities input.caps input.channelWorkerId input.knownRevocationEpoch
        input.now = .ok () ∧ g.staleRestart input.caps = false ∧
      g'.entries = g.entries.insert input.caps.workerId (sessionEntry input) := by
  unfold CapabilityRegistry.upsertProbeSession at h
  split at h
  · cases h
  · rename_i hvalid
    split at h
    · cases h
    · rename_i hrestart
      cases h
      exact ⟨hvalid, Bool.eq_false_iff.mpr hrestart, rfl⟩

theorem upsertProbeSession_goes
    (hvalid : validateWorkerCapabilities input.caps input.channelWorkerId
      input.knownRevocationEpoch input.now = .ok ())
    (hrestart : g.staleRestart input.caps = false) :
    ∃ outcome g', g.upsertProbeSession input = .ok (outcome, g') := by
  unfold CapabilityRegistry.upsertProbeSession
  rw [hvalid, hrestart]
  exact ⟨_, _, rfl⟩

theorem validateWorkerCapabilities_fresh {caps : WorkerCapabilities} {channelWorkerId : String}
    {knownRevocationEpoch : UInt64} {now : Int}
    (h : validateWorkerCapabilities caps channelWorkerId knownRevocationEpoch now = .ok ()) :
    caps.generatedAt < caps.validUntil := by
  unfold validateWorkerCapabilities at h
  split at h
  · cases h
  split at h
  · cases h
  split at h
  · cases h
  split at h
  · cases h
  · rename_i hlate
    exact Int.not_le.mp hlate

theorem Clears.eligible (h : Clears g workerId input) :
    ((RegistryCall.upsert input).apply g).schedulingState workerId input.caps.generatedAt =
      .eligible := by
  obtain ⟨rfl, hvalid, hrestart, hquarantine, hdegraded, hdraining⟩ := h
  obtain ⟨outcome, g', hok⟩ := upsertProbeSession_goes hvalid hrestart
  have hfresh := validateWorkerCapabilities_fresh hvalid
  have hentry : g'.entries[input.caps.workerId]? = some (sessionEntry input) := by
    rw [(upsertProbeSession_ok hok).2.2, OrdMap.get_insert_self]
  have hcurrent : input.caps.isExpired input.caps.generatedAt = false :=
    decide_eq_false (by omega)
  have hdynamic : input.caps.dynamicCapacityExpired input.caps.generatedAt = false := by
    refine decide_eq_false ?_
    unfold WorkerCapabilities.dynamicCapacityTtl
    omega
  simp only [RegistryCall.apply, hok, CapabilityRegistry.schedulingState, hentry]
  simp [sessionEntry, hquarantine, hdegraded, hdraining, hcurrent, hdynamic]

theorem Barred.of_entries (h : Barred g workerId) (heq : g'.entries = g.entries) :
    Barred g' workerId := by
  intro entry hentry
  rw [heq] at hentry
  exact h entry hentry

theorem Barred.insert {other : String} {entry : CachedEntry} (h : Barred g workerId)
    (heq : g'.entries = g.entries.insert other entry)
    (hentry : other = workerId → entry.quarantined = true ∨ entry.degraded = true ∨
      entry.caps.runtimeCapacity.draining = true) : Barred g' workerId := by
  intro found hfound
  rw [heq] at hfound
  obtain ⟨hsame, rfl⟩ | ⟨-, hold⟩ := OrdMap.get_insert_cases hfound
  · exact hentry hsame
  · exact h found hold

theorem forceQuarantine_barred (g : CapabilityRegistry) (workerId : String) :
    Barred (g.forceQuarantine workerId).1 workerId := by
  intro entry hentry
  unfold CapabilityRegistry.forceQuarantine at hentry
  split at hentry
  · rename_i hnone
    rw [hnone] at hentry
    cases hentry
  · rw [OrdMap.get_insert_self] at hentry
    cases hentry
    exact .inl rfl

theorem Barred.forceQuarantine (h : Barred g workerId) (other : String) :
    Barred (g.forceQuarantine other).1 workerId := by
  unfold CapabilityRegistry.forceQuarantine
  split
  · exact h
  · exact h.insert rfl fun _ => .inl rfl

theorem Barred.forceDegraded (h : Barred g workerId) (other : String) :
    Barred (g.forceDegraded other).1 workerId := by
  unfold CapabilityRegistry.forceDegraded
  split
  · exact h
  · rename_i entry _
    refine h.insert rfl fun _ => ?_
    cases hquarantined : entry.quarantined with
    | false => exact .inr (.inl (by simp))
    | true => exact .inl rfl

theorem Barred.upsert (h : Barred g workerId) (hinput : ¬ Clears g workerId input) :
    Barred ((RegistryCall.upsert input).apply g) workerId := by
  cases hok : g.upsertProbeSession input with
  | error =>
    simp only [RegistryCall.apply, hok]
    exact h
  | ok done =>
    obtain ⟨outcome, g'⟩ := done
    simp only [RegistryCall.apply, hok]
    obtain ⟨hvalid, hrestart, hentries⟩ := upsertProbeSession_ok hok
    refine h.insert hentries fun hsame => ?_
    by_contra hfree
    simp only [sessionEntry, not_or, Bool.not_eq_true] at hfree
    obtain ⟨hquarantine, hdegraded, hdraining⟩ := hfree
    rw [hquarantine, Bool.not_false, Bool.true_and] at hdegraded
    exact hinput ⟨hsame, hvalid, hrestart, hquarantine, hdegraded, hdraining⟩

theorem Barred.apply {call : RegistryCall} (h : Barred g workerId)
    (hcall : ∀ input, call = .upsert input → ¬ Clears g workerId input) :
    Barred (call.apply g) workerId := by
  cases call with
  | upsert input => exact h.upsert (hcall input rfl)
  | forceQuarantine other => exact h.forceQuarantine other
  | forceDegraded other => exact h.forceDegraded other
  | invalidateWorker other =>
    intro entry hentry
    refine h entry ?_
    by_cases hsame : other = workerId
    · subst hsame
      simp [RegistryCall.apply, CapabilityRegistry.invalidateWorker] at hentry
    · simpa [RegistryCall.apply, CapabilityRegistry.invalidateWorker, hsame,
        Std.ExtTreeMap.getElem?_erase] using hentry
  | invalidateAll =>
    intro entry hentry
    simp [RegistryCall.apply, CapabilityRegistry.invalidateAll] at hentry
  | takeSnapshotInvalidation => exact h.of_entries rfl

theorem Barred.run {calls : List RegistryCall} (h : Barred g workerId)
    (hcalls : ∀ before input, before ++ [.upsert input] <+: calls →
      ¬ Clears (runRegistryCalls g before) workerId input) :
    Barred (runRegistryCalls g calls) workerId := by
  induction calls generalizing g with
  | nil => exact h
  | cons call rest ih =>
    refine ih (h.apply ?_) ?_
    · intro input hinput
      subst hinput
      exact hcalls [] input ⟨rest, rfl⟩
    · intro before input hbefore
      exact hcalls (call :: before) input (List.cons_prefix_cons.mpr ⟨rfl, hbefore⟩)

/-- From a forced quarantine on, and until it is invalidated, the worker is never eligible just if
no refresh in that time clears it. What the refresh itself finds is all that counts: the quarantine
leaves no trace. -/
theorem quarantine_lasts_iff (g : CapabilityRegistry) (workerId : String)
    (later : List RegistryCall) :
    (∀ calls, calls <+: later → (∀ call ∈ calls, call.invalidates workerId = false) → ∀ now,
      (runRegistryCalls (g.forceQuarantine workerId).1 calls).schedulingState workerId now ≠
        .eligible) ↔
      ∀ before input, before ++ [.upsert input] <+: later →
        (∀ call ∈ before, call.invalidates workerId = false) →
        ¬ Clears (runRegistryCalls (g.forceQuarantine workerId).1 before) workerId input := by
  constructor
  · intro hnever before input hbefore hkept hclears
    refine hnever _ hbefore ?_ input.caps.generatedAt ?_
    · simpa [or_imp, forall_and, RegistryCall.invalidates] using hkept
    · rw [runRegistryCalls, List.foldl_append]
      exact hclears.eligible
  · intro hlater calls hcalls hkept now
    refine Barred.state (Barred.run (forceQuarantine_barred g workerId) ?_) now
    intro before input hbefore
    refine hlater before input (hbefore.trans hcalls) fun call hcall => hkept call ?_
    exact hbefore.subset (List.mem_append_left _ hcall)

namespace Demo

def caps : WorkerCapabilities where
  workerId := "worker"
  capabilityRevision := 1
  generatedAt := 0
  validUntil := 3600000000000
  bootId := "boot"
  softwareVersion := ⟨"lokai-node", none⟩
  supportedJobTypes := [⟨true, true, true⟩]
  modelInventory := [⟨"model", none, none, 0⟩]
  gpus := []
  runtimeCapacity := ⟨none, false⟩
  sandbox := ⟨.unsupported, .unsupported, .unsupported, .unsupported, .unsupported⟩
  revocationEpoch := 0
  evidence := [⟨.workerLocallyProbed, "fabric_v1_infer_capabilities"⟩]
  legacyV1ChatOnly := some false

def refresh : ProbeSessionInput := ⟨caps, "worker", 0, 1, none, true, true, none⟩

def cached : CapabilityRegistry := (RegistryCall.upsert refresh).apply .empty

end Demo

/-- A worker in quarantine is eligible again after one refresh. -/
theorem refresh_lifts_quarantine :
    (Demo.cached.forceQuarantine "worker").2 = true ∧
      (Demo.cached.forceQuarantine "worker").1.schedulingState "worker" 1 = .quarantined ∧
      ((RegistryCall.upsert { Demo.refresh with previous := some Demo.caps }).apply
        (Demo.cached.forceQuarantine "worker").1).schedulingState "worker" 1 = .eligible := by
  decide +kernel

end Tetonic.Fabric
