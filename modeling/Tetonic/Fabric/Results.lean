import Tetonic.Run.Domain
import Tetonic.Fabric.ResultKeys
set_option autoImplicit false

/-! Signed results and the checks on their envelopes. JSON values are of any type; what the code
asks of them, and what the cryptography answers, is in `Codec`. -/

namespace Tetonic.Fabric
open Lib
open Run (WorkspaceVersion)

def FabricErrorCode.debug : FabricErrorCode → String
  | .unsupportedProtocolVersion => "UnsupportedProtocolVersion"
  | .unsupportedJobKind => "UnsupportedJobKind"
  | .invalidEnvelope => "InvalidEnvelope"
  | .invalidSignature => "InvalidSignature"
  | .identityMismatch => "IdentityMismatch"
  | .revokedIdentity => "RevokedIdentity"
  | .staleRevocationEpoch => "StaleRevocationEpoch"
  | .duplicateConflict => "DuplicateConflict"
  | .invalidLease => "InvalidLease"
  | .staleLeaseEpoch => "StaleLeaseEpoch"
  | .deadlineExceeded => "DeadlineExceeded"
  | .inputTooLarge => "InputTooLarge"
  | .outputTooLarge => "OutputTooLarge"
  | .capabilityUnavailable => "CapabilityUnavailable"
  | .policyDenied => "PolicyDenied"
  | .workerBusy => "WorkerBusy"
  | .workerDraining => "WorkerDraining"
  | .internalFailure => "InternalFailure"

def FabricError.text (e : FabricError) : String := e.code.debug ++ ": " ++ e.message

inductive ResultDisposition where
  | accepted | quarantined | rejectedInvalidSignature | rejectedIdentityMismatch
  | rejectedRevokedWorker | rejectedStaleAttempt | rejectedCanceled | rejectedDigestMismatch
  | rejectedSchema | rejectedPolicy | rejectedVerification | rejectedOversized
  | rejectedPathUnsafe | rejectedExecutablePayload | superseded
  deriving DecidableEq, Repr

def ResultDisposition.isTerminalReject : ResultDisposition → Bool
  | .accepted | .quarantined => false
  | _ => true

structure SignedArtifactReference where
  (artifactId digest : String)
  sizeBytes : UInt64
  kind : String
  declaredPaths : List String
  deriving DecidableEq, Repr

structure ExecutionSummary where
  model : Option String
  exitStatus : Option Int32
  deriving DecidableEq

structure SignedResultBody where
  (protocolVersion resultEnvelopeVersion : UInt32)
  (resultId workerId workerKeyId coordinatorId runId jobId taskId : String)
  taskVersion : UInt64
  (attemptId leaseId : String)
  leaseEpoch : UInt64
  (idempotencyKey inputDigest : String)
  workspaceVersion : Option WorkspaceVersion
  resultDigest : String
  artifacts : List SignedArtifactReference
  executionSummary : ExecutionSummary
  revocationEpoch : UInt64
  deriving DecidableEq

structure ResultEnvelope (V : Type) where
  body : SignedResultBody
  signature : List UInt8
  payload : V
  deriving DecidableEq

/-- What the code asks of JSON values and of the cryptography. -/
structure Codec (V : Type) extends Crypto where
  get : V → String → Option V
  asBool : V → Option Bool
  /-- The length of the value's text. -/
  byteLength : V → Nat
  canonical : V → Except String (List UInt8)
  canonicalBody : SignedResultBody → Except String (List UInt8)
  workspaceValue : Option WorkspaceVersion → Except String V
  /-- The text of `{:?}` on a string. -/
  quote : String → String

structure OutputLimits where
  maxBytes : UInt64
  maxArtifacts : UInt32
  maxArtifactSize : UInt64
  deriving DecidableEq, Repr

structure ExpectedResultBinding where
  (channelWorkerId coordinatorId runId jobId taskId : String)
  taskVersion : UInt64
  (attemptId leaseId : String)
  leaseEpoch : UInt64
  inputDigest : String
  workspaceVersion : Option WorkspaceVersion
  (workerRevoked attemptCanceled attemptSuperseded anotherAttemptWon runActive taskActive : Bool)
  knownRevocationEpoch : UInt64
  outputLimits : OutputLimits
  deriving DecidableEq

structure EnvelopeValidationOutcome where
  disposition : ResultDisposition
  reason : String
  deriving DecidableEq, Repr

def minSupportedVersion : UInt32 := 1
def maxSupportedVersion : UInt32 := 1
def resultEnvelopeVersion : UInt32 := 1

def maxPayloadBytes : UInt32 := 2097152

def validateProtocolVersion (version : UInt32) : Except FabricError Unit :=
  if version < minSupportedVersion ∨ version > maxSupportedVersion then
    .error ⟨.unsupportedProtocolVersion, "unsupported protocol version " ++ toString version⟩
  else .ok ()

def validateChannelIdentity (channelWorkerId envelopeWorkerId : String) : Except FabricError Unit :=
  if channelWorkerId ≠ envelopeWorkerId then
    .error ⟨.identityMismatch,
      "channel worker " ++ channelWorkerId ++ " != envelope worker " ++ envelopeWorkerId⟩
  else .ok ()

def validateRevocationEpoch (senderEpoch knownMinimumEpoch : UInt64) : Except FabricError Unit :=
  if senderEpoch < knownMinimumEpoch then
    .error ⟨.staleRevocationEpoch, "revocation epoch " ++ toString senderEpoch ++
      " stale (minimum " ++ toString knownMinimumEpoch ++ ")"⟩
  else .ok ()

section
variable {V : Type} (codec : Codec V)

def canonicalSignedBytes (body : SignedResultBody) : Except FabricError (List UInt8) :=
  match codec.canonicalBody body with
  | .error e => .error ⟨.invalidEnvelope, "canonical result serialization failed: " ++ e⟩
  | .ok bytes => .ok bytes

def verifyResultSignature (envelope : ResultEnvelope V) (verifyingKey : List UInt8) :
    Except FabricError Unit :=
  match canonicalSignedBytes codec envelope.body with
  | .error e => .error e
  | .ok bytes =>
    if envelope.signature.length ≠ 64 then
      .error ⟨.invalidSignature, "result signature must be 64 bytes"⟩
    else if codec.verifies verifyingKey bytes envelope.signature then .ok ()
    else .error ⟨.invalidSignature, "result signature verification failed"⟩

def digestPayload (payload : V) : Except FabricError String :=
  match codec.canonical payload with
  | .error e => .error ⟨.invalidEnvelope, "payload canonicalization failed: " ++ e⟩
  | .ok bytes => .ok ("sha256:" ++ codec.sha256Hex bytes)

/-- The checks on a signature, from the key's lookup on; they give the first that fails. A key on
file that is no key is an error of the call. -/
def signatureFault (envelope : ResultEnvelope V) (keys : ResultSigningKeyRegistry) (now : Int) :
    Except FabricError (Option EnvelopeValidationOutcome) :=
  match keys.lookup envelope.body.workerId envelope.body.workerKeyId now with
  | .error e =>
    .ok (some ⟨if e.code = .revokedIdentity then .rejectedRevokedWorker
      else .rejectedInvalidSignature, e.message⟩)
  | .ok record =>
    match verifyingKeyFromBytes codec.toCrypto record.publicKey with
    | .error e => .error e
    | .ok () =>
      match verifyResultSignature codec envelope record.publicKey with
      | .error e => .ok (some ⟨.rejectedInvalidSignature, e.message⟩)
      | .ok () => .ok none

def artifactFault (expected : ExpectedResultBinding) (art : SignedArtifactReference) :
    Option EnvelopeValidationOutcome :=
  if Text.blank art.digest || Text.blank art.artifactId then
    some ⟨.rejectedDigestMismatch, "artifact missing id or digest"⟩
  else if art.sizeBytes > expected.outputLimits.maxArtifactSize then
    some ⟨.rejectedOversized, "artifact " ++ art.artifactId ++ " exceeds size limit"⟩
  else none

/-- The checks on who sent the result, before its signature is looked at. -/
def senderFault (body : SignedResultBody) (expected : ExpectedResultBinding) :
    Option EnvelopeValidationOutcome :=
  if body.resultEnvelopeVersion ≠ resultEnvelopeVersion then
    some ⟨.rejectedSchema,
      "unsupported result_envelope_version " ++ toString body.resultEnvelopeVersion⟩
  else
    match validateChannelIdentity expected.channelWorkerId body.workerId with
    | .error e => some ⟨.rejectedIdentityMismatch, e.message⟩
    | .ok () =>
      if body.coordinatorId ≠ expected.coordinatorId then
        some ⟨.rejectedIdentityMismatch, "result coordinator_id mismatch"⟩
      else if expected.workerRevoked then some ⟨.rejectedRevokedWorker, "worker revoked"⟩
      else none

def bindingFault (body : SignedResultBody) (expected : ExpectedResultBinding) :
    Option EnvelopeValidationOutcome :=
  match validateRevocationEpoch body.revocationEpoch expected.knownRevocationEpoch with
  | .error e => some ⟨.rejectedRevokedWorker, e.message⟩
  | .ok () =>
    if body.runId ≠ expected.runId ∨ body.jobId ≠ expected.jobId ∨ body.taskId ≠ expected.taskId ∨
        body.attemptId ≠ expected.attemptId then
      some ⟨.rejectedStaleAttempt, "result bound to different run/task/attempt"⟩
    else if body.taskVersion ≠ expected.taskVersion then
      some ⟨.rejectedStaleAttempt, "task version mismatch"⟩
    else if body.leaseId ≠ expected.leaseId ∨ body.leaseEpoch ≠ expected.leaseEpoch then
      some ⟨.rejectedStaleAttempt, "lease id/epoch mismatch"⟩
    else if !expected.runActive || !expected.taskActive then
      some ⟨.rejectedCanceled, "run or task not active"⟩
    else if expected.attemptCanceled then some ⟨.rejectedCanceled, "attempt canceled"⟩
    else if expected.attemptSuperseded || expected.anotherAttemptWon then
      some ⟨.superseded, "attempt superseded or another attempt already won"⟩
    else if body.inputDigest ≠ expected.inputDigest then
      some ⟨.rejectedDigestMismatch, "input digest mismatch"⟩
    else if body.workspaceVersion ≠ expected.workspaceVersion then
      some ⟨.rejectedStaleAttempt, "workspace version mismatch"⟩
    else none

/-- The checks on digests and sizes. The lengths are cut to the width they are compared at. -/
def contentFault (envelope : ResultEnvelope V) (expected : ExpectedResultBinding) :
    Option EnvelopeValidationOutcome :=
  let length := codec.byteLength envelope.payload
  if Text.blank envelope.body.resultDigest then
    some ⟨.rejectedDigestMismatch, "empty result digest"⟩
  else if UInt64.ofNat length > expected.outputLimits.maxBytes ∨
      UInt32.ofNat length > maxPayloadBytes then
    some ⟨.rejectedOversized, "result payload exceeds size limits"⟩
  else if UInt32.ofNat envelope.body.artifacts.length > expected.outputLimits.maxArtifacts then
    some ⟨.rejectedOversized, "too many artifacts"⟩
  else envelope.body.artifacts.findSome? (artifactFault expected)

def EnvelopeValidationOutcome.passed : EnvelopeValidationOutcome :=
  ⟨.quarantined, "envelope structurally valid; artifacts require quarantine"⟩

def validateResultEnvelope (envelope : ResultEnvelope V) (expected : ExpectedResultBinding)
    (keys : ResultSigningKeyRegistry) (now : Int) :
    Except FabricError EnvelopeValidationOutcome := do
  validateProtocolVersion envelope.body.protocolVersion
  match senderFault envelope.body expected with
  | some fault => return fault
  | none =>
    match ← signatureFault codec envelope keys now with
    | some fault => return fault
    | none =>
      match (bindingFault envelope.body expected).or (contentFault codec envelope expected) with
      | some fault => return fault
      | none => return .passed

end

end Tetonic.Fabric
