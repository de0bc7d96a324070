import Tetonic.Fabric.Results
set_option autoImplicit false

/-! How a result is verified before it is taken: alone, or by other workers' results for the same
job. -/

namespace Tetonic.Fabric

structure IndependenceEvidence where
  (workerId hostId ownerDomain : String)
  modelInstance : Option String
  executionNonce : String
  sharedCache : Bool
  deriving DecidableEq, Repr

structure RedundantCandidate (V : Type) where
  envelope : ResultEnvelope V
  independence : IndependenceEvidence
  deriving DecidableEq

inductive ResultVerificationRequirement where
  | structuralValidation
  | localVerification
  | independentRedundantVerification (requiredAgreement : UInt32)
  | localAndRedundantVerification
  deriving DecidableEq, Repr

structure VerificationOutcome where
  disposition : ResultDisposition
  reason : String
  (locallyVerified independentlyVerified : Bool)
  deriving DecidableEq, Repr

def VerificationOutcome.rejected (reason : String) : VerificationOutcome :=
  ⟨.rejectedVerification, reason, false, false⟩

inductive FabricClientError where
  | protocol (e : FabricError)
  | http (message : String)
  deriving DecidableEq, Repr

def FabricClientError.text : FabricClientError → String
  | .protocol e => "protocol: " ++ e.text
  | .http message => "http: " ++ message

def independenceHolds (a b : IndependenceEvidence) : Bool :=
  if a.workerId = b.workerId then false
  else if a.hostId = b.hostId then false
  else if a.ownerDomain = b.ownerDomain then false
  else if a.sharedCache || b.sharedCache then false
  else if a.executionNonce = b.executionNonce ∨ a.executionNonce = "" ∨ b.executionNonce = "" then
    false
  else if a.modelInstance.isSome ∧ a.modelInstance = b.modelInstance then false
  else true

section
variable {V : Type} [DecidableEq V] (codec : Codec V)

def verifyStructural (envelope : ResultEnvelope V) : Except FabricClientError Unit :=
  match digestPayload codec envelope.payload with
  | .error e => .error (.protocol e)
  | .ok recomputed =>
    if recomputed ≠ envelope.body.resultDigest then
      .error (.http ("result digest mismatch: envelope claims " ++ envelope.body.resultDigest ++
        ", recomputed " ++ recomputed))
    else .ok ()

def fabricatedTestReport (envelope : ResultEnvelope V) : Bool :=
  (codec.get envelope.payload "test_report").any fun tests =>
    decide ((codec.get tests "passed").bind codec.asBool = some true) &&
      envelope.body.executionSummary.exitStatus.any fun status => decide (status ≠ 0)

def verifyPatchBase (envelope : ResultEnvelope V) : Except FabricClientError Unit :=
  if envelope.body.artifacts.any fun art => art.kind = "patch" then
    match codec.get envelope.payload "base_workspace_version" with
    | none => .error (.http "patch result missing base_workspace_version")
    | some base =>
      match codec.workspaceValue envelope.body.workspaceVersion with
      | .error e => .error (.http ("workspace serialize: " ++ e))
      | .ok version =>
        if base ≠ version then .error (.http "patch base workspace version mismatch")
        else .ok ()
  else .ok ()

def verifyLocalAdapters (envelope : ResultEnvelope V) : Except FabricClientError Unit := do
  verifyStructural codec envelope
  if fabricatedTestReport codec envelope then
    throw (.http "fabricated test report: passed=true with non-zero exit")
  verifyPatchBase codec envelope

/-- What is taken for the primary result's evidence: made up from its envelope. -/
def primaryEvidence (primary : ResultEnvelope V) : IndependenceEvidence where
  workerId := primary.body.workerId
  hostId := "host:" ++ primary.body.workerId
  ownerDomain := "primary"
  modelInstance := primary.body.executionSummary.model
  executionNonce := primary.body.resultId
  sharedCache := false

def structuredClaimsAgree (a b : V) : Bool :=
  match codec.get a "claims", codec.get b "claims" with
  | some claims, some claims' => decide (claims = claims')
  | _, _ => false

/-- The candidate counts: it has the primary's digest, or the same claims. -/
def agreesWith (primary : ResultEnvelope V) (cand : RedundantCandidate V) : Bool :=
  decide (cand.envelope.body.resultDigest = primary.body.resultDigest) ||
    structuredClaimsAgree codec primary.payload cand.envelope.payload

/-- The loop over the candidates, each held against the primary only. The hosts that the source
collects on the way are never read. -/
def countAgreeing (primary : ResultEnvelope V) :
    List (RedundantCandidate V) → Nat → Except FabricClientError Nat
  | [], agreeing => .ok agreeing
  | cand :: rest, agreeing =>
    if independenceHolds (primaryEvidence primary) cand.independence then
      countAgreeing primary rest (if agreesWith codec primary cand then agreeing + 1 else agreeing)
    else .error (.http "redundant results lack meaningful independence")

def compareRedundantAgreement (primary : ResultEnvelope V)
    (candidates : List (RedundantCandidate V)) (requiredAgreement : UInt32) :
    Except FabricClientError Nat :=
  match countAgreeing codec primary candidates 1 with
  | .error e => .error e
  | .ok agreeing =>
    if agreeing < requiredAgreement.toNat then
      .error (.http ("redundant agreement " ++ toString agreeing ++ " < required " ++
        toString requiredAgreement))
    else .ok agreeing

/-- The outcome of a check, with these words and flags if it passed. -/
def outcomeOf {α : Type} (check : Except FabricClientError α) (reason : String)
    (locally independently : Bool) : VerificationOutcome :=
  match check with
  | .error e => .rejected e.text
  | .ok _ => ⟨.accepted, reason, locally, independently⟩

def applyVerificationPolicy (requirement : ResultVerificationRequirement)
    (envelope : ResultEnvelope V) (redundant : List (RedundantCandidate V)) :
    VerificationOutcome :=
  match requirement with
  | .structuralValidation =>
    outcomeOf (verifyStructural codec envelope) "structural validation passed" false false
  | .localVerification =>
    outcomeOf (verifyLocalAdapters codec envelope) "local verification passed" true false
  | .independentRedundantVerification requiredAgreement =>
    outcomeOf (do
      verifyStructural codec envelope
      compareRedundantAgreement codec envelope redundant requiredAgreement)
      "independent redundant verification passed" false true
  | .localAndRedundantVerification =>
    outcomeOf (do
      verifyLocalAdapters codec envelope
      compareRedundantAgreement codec envelope redundant 2)
      "local and redundant verification passed" true true

section
variable {primary : ResultEnvelope V} {candidates : List (RedundantCandidate V)}

theorem countAgreeing_ok {start n : Nat} :
    countAgreeing codec primary candidates start = .ok n ↔
      (∀ cand ∈ candidates, independenceHolds (primaryEvidence primary) cand.independence) ∧
        n = start + candidates.countP (agreesWith codec primary) := by
  induction candidates generalizing start with
  | nil =>
    simp only [countAgreeing, List.not_mem_nil, false_implies, implies_true, true_and,
      List.countP_nil, Nat.add_zero, Except.ok.injEq]
    exact eq_comm
  | cons cand rest ih =>
    unfold countAgreeing
    by_cases hind : independenceHolds (primaryEvidence primary) cand.independence = true
    · rw [if_pos hind, ih, List.countP_cons]
      simp only [List.forall_mem_cons, hind, true_and]
      by_cases hagrees : agreesWith codec primary cand = true
      · simp only [hagrees, if_true]
        rw [Nat.add_assoc, Nat.add_comm 1]
      · simp [hagrees]
    · rw [if_neg hind]
      simp [hind]

theorem compareRedundantAgreement_ok {requiredAgreement : UInt32} {n : Nat} :
    compareRedundantAgreement codec primary candidates requiredAgreement = .ok n ↔
      (∀ cand ∈ candidates, independenceHolds (primaryEvidence primary) cand.independence) ∧
        n = 1 + candidates.countP (agreesWith codec primary) ∧ requiredAgreement.toNat ≤ n := by
  unfold compareRedundantAgreement
  constructor
  · intro h
    split at h
    · cases h
    · rename_i agreeing hcount
      split at h
      · cases h
      · rename_i henough
        cases h
        obtain ⟨hind, hn⟩ := (countAgreeing_ok codec).mp hcount
        exact ⟨hind, hn, Nat.not_lt.mp henough⟩
  · intro h
    obtain ⟨hind, hn, henough⟩ := h
    rw [(countAgreeing_ok codec).mpr ⟨hind, hn⟩]
    exact if_neg (Nat.not_lt.mpr henough)

/-- A group of `n` results with the primary's digest, the primary among them, any two of which
are independent. -/
def IndependentAgreement (primary : ResultEnvelope V) (candidates : List (RedundantCandidate V))
    (n : Nat) : Prop :=
  ∃ group : List (RedundantCandidate V), group.Sublist candidates ∧ group.length + 1 = n ∧
    (∀ cand ∈ group, cand.envelope.body.resultDigest = primary.body.resultDigest) ∧
    (primaryEvidence primary :: group.map (·.independence)).Pairwise
      fun a b => independenceHolds a b = true

/-- The candidates that count have the primary's digest, not only its claims, and no two of them are
dependent. -/
def CountedApart (primary : ResultEnvelope V) (candidates : List (RedundantCandidate V)) : Prop :=
  (∀ cand ∈ candidates, agreesWith codec primary cand →
    cand.envelope.body.resultDigest = primary.body.resultDigest) ∧
  ((candidates.filter (agreesWith codec primary)).map (·.independence)).Pairwise
    fun a b => independenceHolds a b = true

variable {codec}

/-- The group can only be that of the candidates that count: it lies among them and is as long. -/
theorem IndependentAgreement.countedApart
    (hind : ∀ cand ∈ candidates, independenceHolds (primaryEvidence primary) cand.independence) :
    IndependentAgreement primary candidates (1 + candidates.countP (agreesWith codec primary)) ↔
      CountedApart codec primary candidates := by
  constructor
  · intro h
    obtain ⟨group, hsub, hlength, hdigest, hpairwise⟩ := h
    have hagree : ∀ cand ∈ group, agreesWith codec primary cand = true := fun cand hcand => by
      simp [agreesWith, hdigest cand hcand]
    have hgroup : group = candidates.filter (agreesWith codec primary) := by
      refine List.Sublist.eq_of_length ?_ ?_
      · rw [← List.filter_eq_self.mpr hagree]
        exact hsub.filter _
      · rw [← List.countP_eq_length_filter]
        omega
    subst hgroup
    exact ⟨fun cand hcand hagrees => hdigest cand (List.mem_filter.mpr ⟨hcand, hagrees⟩),
      (List.pairwise_cons.mp hpairwise).2⟩
  · intro h
    obtain ⟨hdigest, hpairwise⟩ := h
    refine ⟨candidates.filter (agreesWith codec primary), List.filter_sublist, ?_, ?_, ?_⟩
    · rw [← List.countP_eq_length_filter, Nat.add_comm]
    · intro cand hcand
      obtain ⟨hmem, hagrees⟩ := List.mem_filter.mp hcand
      exact hdigest cand hmem hagrees
    · refine List.pairwise_cons.mpr ⟨?_, hpairwise⟩
      intro evidence hevidence
      obtain ⟨cand, hcand, rfl⟩ := List.mem_map.mp hevidence
      exact hind cand (List.mem_filter.mp hcand).1

end

/-- A comparison that comes to `n` stands for `n` independent results, just if the candidates that
count are apart from each other. The code holds each of them against the primary alone. -/
theorem redundant_agreement_iff (primary : ResultEnvelope V)
    (candidates : List (RedundantCandidate V)) (requiredAgreement : UInt32) :
    (∀ n, compareRedundantAgreement codec primary candidates requiredAgreement = .ok n →
      requiredAgreement.toNat ≤ n ∧ IndependentAgreement primary candidates n) ↔
    ((∀ cand ∈ candidates, independenceHolds (primaryEvidence primary) cand.independence) →
      requiredAgreement.toNat ≤ 1 + candidates.countP (agreesWith codec primary) →
      CountedApart codec primary candidates) := by
  constructor
  · intro h hind henough
    have hok := (compareRedundantAgreement_ok codec).mpr ⟨hind, rfl, henough⟩
    exact (IndependentAgreement.countedApart hind).mp (h _ hok).2
  · intro h n hok
    obtain ⟨hind, rfl, henough⟩ := (compareRedundantAgreement_ok codec).mp hok
    exact ⟨henough, (IndependentAgreement.countedApart hind).mpr (h hind henough)⟩

end

namespace Demo

/-- Values without contents, and cryptography that takes everything with a first byte of 1. -/
def codec : Codec Unit where
  toCrypto := { crypto with verifies := fun _ _ signature => signature.head? == some 1 }
  get := fun _ _ => none
  asBool := fun _ => none
  byteLength := fun _ => 4
  canonical := fun _ => .ok []
  canonicalBody := fun _ => .ok []
  workspaceValue := fun _ => .ok ()
  quote := fun text => text

def resultBody : SignedResultBody where
  protocolVersion := 1
  resultEnvelopeVersion := 1
  resultId := "result"
  workerId := "worker"
  workerKeyId := keyId
  coordinatorId := "estate"
  runId := "run"
  jobId := "job"
  taskId := "task"
  taskVersion := 1
  attemptId := "attempt"
  leaseId := "lease"
  leaseEpoch := 1
  idempotencyKey := "attempt:job"
  inputDigest := "input"
  workspaceVersion := none
  resultDigest := "sha256:5feceb66ffc86f38d952786c6d696c79"
  artifacts := []
  executionSummary := ⟨some "model", none⟩
  revocationEpoch := 0

def result : ResultEnvelope Unit := ⟨resultBody, List.replicate 64 1, ()⟩

def candidate : RedundantCandidate Unit where
  envelope := { result with body := { resultBody with workerId := "other", resultId := "second" } }
  independence := ⟨"other", "host:other", "other", none, "nonce", false⟩

end Demo
open Demo

/-- One candidate, given twice, makes an agreement of three. -/
theorem one_candidate_counted_twice :
    compareRedundantAgreement codec result [candidate, candidate] 3 = .ok 3 ∧
      ¬ IndependentAgreement result [candidate, candidate] 3 := by
  refine ⟨by decide +kernel, ?_⟩
  intro h
  obtain ⟨group, hsub, hlength, -, hpairwise⟩ := h
  have hgroup : group = [candidate, candidate] :=
    hsub.eq_of_length (Nat.succ.inj hlength)
  subst hgroup
  obtain ⟨-, hpairwise⟩ := List.pairwise_cons.mp hpairwise
  have hself := List.rel_of_pairwise_cons hpairwise List.mem_cons_self
  exact absurd hself (by decide +kernel)

end Tetonic.Fabric
