import Tetonic.Fabric.Ingress
import Tetonic.Lib.Text
set_option autoImplicit false

/-! The document in which a worker says what it can do, the checks on it, and the probes by which
a coordinator tests what it says. -/

namespace Tetonic.Fabric
open Lib

inductive ControlSupport where
  | enforced | partly | unsupported | unknown
  deriving DecidableEq, Repr

inductive CapabilityEvidenceKind where
  | selfReported | workerLocallyProbed | coordinatorObserved | coordinatorVerified | attested
  deriving DecidableEq, Repr

def CapabilityEvidenceKind.debug : CapabilityEvidenceKind → String
  | .selfReported => "SelfReported"
  | .workerLocallyProbed => "WorkerLocallyProbed"
  | .coordinatorObserved => "CoordinatorObserved"
  | .coordinatorVerified => "CoordinatorVerified"
  | .attested => "Attested"

structure CapabilityEvidence where
  kind : CapabilityEvidenceKind
  claim : String
  deriving DecidableEq, Repr

structure SoftwareVersion where
  version : String
  build : Option String
  deriving DecidableEq, Repr

structure JobCapability where
  (supportsCancellation supportsHeartbeats supportsLeases : Bool)
  deriving DecidableEq, Repr

structure ModelCapability where
  localName : String
  (modelDigest quantization : Option String)
  maxContextLength : UInt32
  deriving DecidableEq, Repr

structure GpuDevice where
  name : String
  vramBytes : UInt64
  vramFreeBytes : Option UInt64
  deriving DecidableEq, Repr

structure SandboxCapabilities where
  (processTree runtimeLimits memoryLimits networkDenial networkAllowlist : ControlSupport)
  deriving DecidableEq, Repr

structure RuntimeCapacity where
  availableVramBytes : Option UInt64
  draining : Bool
  deriving DecidableEq, Repr

/-- A worker's document; instants are nanoseconds. -/
structure WorkerCapabilities where
  workerId : String
  capabilityRevision : UInt64
  (generatedAt validUntil : Int)
  bootId : String
  softwareVersion : SoftwareVersion
  supportedJobTypes : List JobCapability
  modelInventory : List ModelCapability
  gpus : List GpuDevice
  runtimeCapacity : RuntimeCapacity
  sandbox : SandboxCapabilities
  revocationEpoch : UInt64
  evidence : List CapabilityEvidence
  /-- `legacy_advertisement`, of which only `legacy_v1_chat_only` is read. -/
  legacyV1ChatOnly : Option Bool
  deriving DecidableEq, Repr

namespace WorkerCapabilities

def isExpired (caps : WorkerCapabilities) (now : Int) : Bool := decide (caps.validUntil ≤ now)

def dynamicCapacityTtl : Int := 30000000000

def dynamicCapacityExpired (caps : WorkerCapabilities) (now : Int) : Bool :=
  decide (caps.generatedAt + dynamicCapacityTtl ≤ now)

end WorkerCapabilities

def forbiddenSecretMarkers : List String :=
  ["-----begin", "api_key", "apikey", "secret=", "password=", "bearer ", "sk-"]

def forbiddenPathMarkers : List String :=
  ["\\users\\", "/home/", "/etc/", "c:\\", "file://", "\\\\"]

def scanField (field value : String) : Except FabricError Unit :=
  if forbiddenSecretMarkers.any fun needle =>
      Text.holds (value.toList.map Char.toLower) needle.toList then
    .error ⟨.invalidEnvelope, "capability field " ++ field ++ " contains forbidden secret marker"⟩
  else if forbiddenPathMarkers.any fun marker => Text.holds value.toList marker.toList then
    .error ⟨.invalidEnvelope, "capability field " ++ field ++ " contains local path"⟩
  else .ok ()

/-- The fields that are scanned, with their names, in the order of the scan. -/
def scannedFields (caps : WorkerCapabilities) : List (String × String) :=
  [("boot_id", caps.bootId), ("software_version", caps.softwareVersion.version)] ++
    (caps.softwareVersion.build.toList.map fun build => ("software_build", build)) ++
    (caps.modelInventory.flatMap fun model =>
      ("model.local_name", model.localName) ::
        (model.modelDigest.toList.map (fun d => ("model.model_digest", d)) ++
          model.quantization.toList.map fun q => ("model.quantization", q))) ++
    (caps.gpus.map fun gpu => ("gpu.name", gpu.name)) ++
    caps.evidence.map fun ev => ("evidence.claim", ev.claim)

def validateCapabilityDocumentContent (caps : WorkerCapabilities) : Except FabricError Unit :=
  (scannedFields caps).forM fun field => scanField field.1 field.2

def validateWorkerCapabilities (caps : WorkerCapabilities) (channelWorkerId : String)
    (knownRevocationEpoch : UInt64) (now : Int) : Except FabricError Unit :=
  if caps.workerId ≠ channelWorkerId then
    .error ⟨.identityMismatch, "capability worker_id does not match authenticated channel"⟩
  else if caps.bootId = "" then .error ⟨.invalidEnvelope, "capability boot_id is required"⟩
  else if caps.capabilityRevision = 0 then
    .error ⟨.invalidEnvelope, "capability_revision must be positive"⟩
  else if caps.validUntil ≤ caps.generatedAt then
    .error ⟨.invalidEnvelope, "valid_until must be after generated_at"⟩
  else if caps.isExpired now then .error ⟨.invalidEnvelope, "capability advertisement expired"⟩
  else if caps.revocationEpoch < knownRevocationEpoch then
    .error ⟨.staleRevocationEpoch, "capability revocation_epoch is stale"⟩
  else if caps.modelInventory.any fun model => model.localName = "" then
    .error ⟨.invalidEnvelope, "model local_name must not be empty"⟩
  else validateCapabilityDocumentContent caps

inductive ProbeSeverity where
  | info | degraded | quarantine
  deriving DecidableEq, Repr

structure CapabilityProbeResult where
  name : String
  passed : Bool
  message : String
  severity : ProbeSeverity
  deriving DecidableEq, Repr

namespace CapabilityProbeResult

def pass (name : String) : CapabilityProbeResult := ⟨name, true, "", .info⟩

def failed (name message : String) (severity : ProbeSeverity) : CapabilityProbeResult :=
  ⟨name, false, message, severity⟩

end CapabilityProbeResult

/-- A probe of each item of a list: it fails with the message of the first that is at fault. -/
def probeEach {α : Type} (name : String) (severity : ProbeSeverity) (fault : α → Option String)
    (items : List α) : CapabilityProbeResult :=
  match items.findSome? fault with
  | some message => .failed name message severity
  | none => .pass name

def probeUnless (name message : String) (severity : ProbeSeverity) (atFault : Bool) :
    CapabilityProbeResult :=
  if atFault then .failed name message severity else .pass name

def isLegacyProfile (caps : WorkerCapabilities) : Bool := caps.legacyV1ChatOnly.any id

def probeCancellationClaim (caps : WorkerCapabilities) : CapabilityProbeResult :=
  probeUnless "cancellation_conformance" "legacy worker must not claim cancellation support"
    .quarantine (isLegacyProfile caps && caps.supportedJobTypes.any (·.supportsCancellation))

def maxPlausibleContextLength : UInt32 := 10000000

def probeContextLengthClaim (caps : WorkerCapabilities) : CapabilityProbeResult :=
  probeEach "context_length_claim" .quarantine (fun model : ModelCapability =>
    if model.maxContextLength > maxPlausibleContextLength then
      some ("model " ++ model.localName ++ " claims implausible max_context_length " ++
        toString model.maxContextLength)
    else none) caps.modelInventory

def sandboxAdvertisedEnforced : ControlSupport → Bool
  | .enforced | .partly => true
  | .unsupported | .unknown => false

def probeSandboxEnforcementClaim (caps : WorkerCapabilities) : CapabilityProbeResult :=
  probeUnless "sandbox_control_claim"
    "legacy worker advertises sandbox controls that are not enforced" .quarantine
    (isLegacyProfile caps &&
      (sandboxAdvertisedEnforced caps.sandbox.processTree ||
        sandboxAdvertisedEnforced caps.sandbox.runtimeLimits ||
        sandboxAdvertisedEnforced caps.sandbox.memoryLimits ||
        sandboxAdvertisedEnforced caps.sandbox.networkDenial ||
        sandboxAdvertisedEnforced caps.sandbox.networkAllowlist))

/-- The first fault in what is said about the GPUs' memory. Nothing is compared when the total
is 0. -/
def vramFault (caps : WorkerCapabilities) : Option String :=
  let total := (caps.gpus.map (·.vramBytes)).foldl (· + ·) 0
  if total = 0 then none
  else if caps.runtimeCapacity.availableVramBytes.any fun avail => decide (avail > total) then
    some "available_vram_bytes exceeds total GPU VRAM"
  else caps.gpus.findSome? fun gpu =>
    if gpu.vramFreeBytes.any fun free => decide (free > gpu.vramBytes) then
      some ("GPU " ++ gpu.name ++ " free VRAM exceeds total")
    else none

def probeResourceConsistency (caps : WorkerCapabilities) : CapabilityProbeResult :=
  match vramFault caps with
  | some message => .failed "resource_consistency" message .quarantine
  | none => .pass "resource_consistency"

def probeSelfAssignedTrust (caps : WorkerCapabilities) : CapabilityProbeResult :=
  probeEach "self_assigned_trust" .quarantine (fun ev : CapabilityEvidence =>
    if ev.kind = .coordinatorVerified ∨ ev.kind = .attested then
      some ("worker must not self-assign evidence kind " ++ ev.kind.debug)
    else none) caps.evidence

def runCapabilityProbes (caps : WorkerCapabilities) : List CapabilityProbeResult :=
  [probeCancellationClaim caps, probeContextLengthClaim caps, probeSandboxEnforcementClaim caps,
    probeResourceConsistency caps, probeSelfAssignedTrust caps]

def probeGpuDisappeared (previous current : WorkerCapabilities) : CapabilityProbeResult :=
  probeUnless "gpu_disappeared" "hardware GPUs present in prior advertisement but missing now"
    .degraded (!previous.gpus.isEmpty && current.gpus.isEmpty)

def probeModelDigestDrift (previous current : WorkerCapabilities) : CapabilityProbeResult :=
  probeEach "model_digest_drift" .degraded (fun model : ModelCapability =>
    match previous.modelInventory.find? (fun m => m.localName = model.localName) with
    | none => none
    | some prev =>
      if prev.modelDigest.isSome ∧ model.modelDigest.isSome ∧
          prev.modelDigest ≠ model.modelDigest then
        some ("model " ++ model.localName ++ " digest changed under tag " ++ model.localName)
      else none) current.modelInventory

def runCapabilityDriftProbes (previous current : WorkerCapabilities) : List CapabilityProbeResult :=
  [probeGpuDisappeared previous current, probeModelDigestDrift previous current]

def probeModelHealthObserved (caps : WorkerCapabilities) (healthOk : Bool) :
    CapabilityProbeResult :=
  probeUnless "model_health_observed" "worker health probe failed while models are advertised"
    .degraded (!(healthOk || caps.modelInventory.isEmpty))

def probeModelInventoryVerified (caps : WorkerCapabilities) (modelsVerified : Bool) :
    CapabilityProbeResult :=
  probeUnless "model_inventory_verified"
    "model inventory could not be verified via capabilities fetch" .degraded
    (!(modelsVerified || caps.modelInventory.isEmpty))

def probeLeaseHeartbeatClaim (caps : WorkerCapabilities) : CapabilityProbeResult :=
  probeEach "lease_heartbeat_conformance" .quarantine (fun job : JobCapability =>
    if isLegacyProfile caps && job.supportsLeases then
      some "legacy worker must not claim lease support"
    else if isLegacyProfile caps && job.supportsHeartbeats then
      some "legacy worker must not claim heartbeat support"
    else none) caps.supportedJobTypes

def runCoordinatorObservedProbes (caps : WorkerCapabilities) (healthOk modelsVerified : Bool) :
    List CapabilityProbeResult :=
  [probeModelHealthObserved caps healthOk, probeModelInventoryVerified caps modelsVerified,
    probeLeaseHeartbeatClaim caps]

def probeInventoryMatchesVerified (inventory : List ModelCapability)
    (verifiedNames : List String) : CapabilityProbeResult :=
  probeEach "inventory_matches_verified" .quarantine (fun model : ModelCapability =>
    if model.localName ∈ verifiedNames then none
    else some ("advertised model " ++ model.localName ++
      " missing from verified Ollama inventory")) inventory

def probesQuarantine (results : List CapabilityProbeResult) : Bool :=
  results.any fun r => !r.passed && decide (r.severity = .quarantine)

def probesDegraded (results : List CapabilityProbeResult) : Bool :=
  results.any fun r => !r.passed && decide (r.severity = .degraded)

def observedEvidenceFromProbes (results : List CapabilityProbeResult) : List CapabilityEvidence :=
  (results.filter (·.passed)).map fun r => ⟨.coordinatorObserved, r.name⟩

def verifiedEvidenceFromSession (results : List CapabilityProbeResult)
    (healthOk modelsVerified : Bool) : List CapabilityEvidence :=
  if !healthOk || !modelsVerified then []
  else if results.any fun r => !r.passed then []
  else [⟨.coordinatorVerified, "capability_probe_session"⟩]

end Tetonic.Fabric
