import Tetonic.Lib.OrdMap
set_option autoImplicit false

/-! The worker's ingress: which deliveries of a job are taken on. Two indexes decide it, one by
delivery and one by idempotency key; both are rebuilt from the saved records at a restart. -/

namespace Tetonic.Fabric
open Lib OrdMap

structure DeliveryKey where
  (attemptId leaseId : String)
  leaseEpoch : UInt64
  idempotencyKey : String
  deriving DecidableEq, Repr

inductive JobKind where
  | infer | embed | analyzeCode | indexShard | testShard | reviewArtifact
  deriving DecidableEq, Repr

def JobKind.debug : JobKind → String
  | .infer => "Infer"
  | .embed => "Embed"
  | .analyzeCode => "AnalyzeCode"
  | .indexShard => "IndexShard"
  | .testShard => "TestShard"
  | .reviewArtifact => "ReviewArtifact"

structure JobEnvelope where
  (attemptId leaseId : String)
  leaseEpoch : UInt64
  (idempotencyKey inputDigest : String)
  jobKind : JobKind
  deriving DecidableEq, Repr

def DeliveryKey.fromJob (job : JobEnvelope) : DeliveryKey where
  attemptId := job.attemptId
  leaseId := job.leaseId
  leaseEpoch := job.leaseEpoch
  idempotencyKey := job.idempotencyKey

/-- The text a delivery is filed under. Different keys can have one text. -/
def DeliveryKey.digest (k : DeliveryKey) : String :=
  k.attemptId ++ ":" ++ k.leaseId ++ ":" ++ toString k.leaseEpoch ++ ":" ++ k.idempotencyKey

inductive TerminalOutcome where
  | inProgress
  | completed
  | failed (message : String)
  | rejected (message : String)
  deriving DecidableEq, Repr

structure IngressRecord where
  deliveryKey : DeliveryKey
  inputDigest : String
  jobKind : JobKind
  terminal : Option TerminalOutcome
  cachedResponseJson : Option String
  deriving DecidableEq, Repr

inductive IngressDecision where
  | acceptNew
  | replayExisting (record : IngressRecord)
  | duplicateInFlight
  deriving DecidableEq, Repr

inductive FabricErrorCode where
  | unsupportedProtocolVersion | unsupportedJobKind | invalidEnvelope | invalidSignature
  | identityMismatch | revokedIdentity | staleRevocationEpoch | duplicateConflict | invalidLease
  | staleLeaseEpoch | deadlineExceeded | inputTooLarge | outputTooLarge | capabilityUnavailable
  | policyDenied | workerBusy | workerDraining | internalFailure
  deriving DecidableEq, Repr

structure FabricError where
  code : FabricErrorCode
  message : String
  deriving DecidableEq, Repr

structure IngressState where
  records : OrdMap String IngressRecord
  idempotencyDigests : OrdMap String String

def IngressState.empty : IngressState := ⟨∅, ∅⟩

def IngressRecord.key (r : IngressRecord) : String := r.deliveryKey.digest

def IngressState.fromRecords (records : List IngressRecord) : IngressState where
  records := insertAll IngressRecord.key id ∅ records
  idempotencyDigests :=
    insertAll (fun r => r.deliveryKey.idempotencyKey) IngressRecord.inputDigest ∅ records

/-- The records of a table; their order is left open by the source. -/
def recordsOf (m : OrdMap String IngressRecord) : List IngressRecord := m.toList.map Prod.snd

def IngressState.savedRecords (s : IngressState) : List IngressRecord := recordsOf s.records

def reusedKey : FabricError :=
  ⟨.duplicateConflict, "idempotency key reused with different input digest"⟩

def unsupportedKind (kind : JobKind) : FabricError :=
  ⟨.unsupportedJobKind, "worker does not implement " ++ kind.debug⟩

def newRecord (job : JobEnvelope) : IngressRecord where
  deliveryKey := .fromJob job
  inputDigest := job.inputDigest
  jobKind := job.jobKind
  terminal := some .inProgress
  cachedResponseJson := none

def answerExisting (existing : IngressRecord) (job : JobEnvelope) :
    Except FabricError IngressDecision :=
  if existing.inputDigest ≠ job.inputDigest then .error reusedKey
  else
    match existing.terminal with
    | none | some .inProgress => .ok .duplicateInFlight
    | some .completed | some (.failed _) | some (.rejected _) => .ok (.replayExisting existing)

def IngressState.acceptDelivery (s : IngressState) (job : JobEnvelope) :
    Except FabricError (IngressDecision × IngressState) :=
  if s.idempotencyDigests[job.idempotencyKey]?.any (· ≠ job.inputDigest) then .error reusedKey
  else
    match s.records[(DeliveryKey.fromJob job).digest]? with
    | some existing => (answerExisting existing job).map (·, s)
    | none =>
      .ok (.acceptNew,
        { records := s.records.insert (DeliveryKey.fromJob job).digest (newRecord job)
          idempotencyDigests := s.idempotencyDigests.insert job.idempotencyKey job.inputDigest })

def IngressRecord.terminated (r : IngressRecord) (outcome : TerminalOutcome)
    (cached : Option String) : IngressRecord :=
  { r with
    terminal := some outcome
    cachedResponseJson := cached.orElse fun _ => r.cachedResponseJson }

def IngressState.markTerminal (s : IngressState) (job : JobEnvelope) (outcome : TerminalOutcome)
    (cached : Option String) : Except FabricError IngressState :=
  match s.records[(DeliveryKey.fromJob job).digest]? with
  | none => .error ⟨.invalidEnvelope, "ingress record missing for terminal update"⟩
  | some r =>
    .ok { s with
      records := s.records.insert (DeliveryKey.fromJob job).digest (r.terminated outcome cached) }

/-- A life of the ingress, with the deliveries that were taken on, the last first. A restart
reads the saved records back in whatever order they come. -/
inductive Lives : IngressState → List JobEnvelope → Prop where
  | begins : Lives .empty []
  | accepted {s s' : IngressState} {taken : List JobEnvelope} {job : JobEnvelope}
      (lives : Lives s taken) (call : s.acceptDelivery job = .ok (.acceptNew, s')) :
      Lives s' (job :: taken)
  | answered {s s' : IngressState} {taken : List JobEnvelope} {job : JobEnvelope}
      {decision : IngressDecision} (lives : Lives s taken) (known : decision ≠ .acceptNew)
      (call : s.acceptDelivery job = .ok (decision, s')) : Lives s' taken
  | refused {s : IngressState} {taken : List JobEnvelope} {job : JobEnvelope} {e : FabricError}
      (lives : Lives s taken) (call : s.acceptDelivery job = .error e) : Lives s taken
  | marked {s s' : IngressState} {taken : List JobEnvelope} {job : JobEnvelope}
      {outcome : TerminalOutcome} {cached : Option String} (lives : Lives s taken)
      (call : s.markTerminal job outcome cached = .ok s') : Lives s' taken
  | restarted {s : IngressState} {taken : List JobEnvelope} {saved : List IngressRecord}
      (lives : Lives s taken) (order : saved.Perm s.savedRecords) :
      Lives (.fromRecords saved) taken

/-- The records are filed under their own keys, and the other index says the same as they do. -/
structure Indexed (s : IngressState) : Prop where
  filed : ∀ (k : String) (r : IngressRecord), s.records[k]? = some r → r.key = k
  claimed : ∀ (i d : String), s.idempotencyDigests[i]? = some d ↔
    ∃ (k : String) (r : IngressRecord), s.records[k]? = some r ∧
      r.deliveryKey.idempotencyKey = i ∧ r.inputDigest = d

def OnFile (s : IngressState) (job : JobEnvelope) : Prop :=
  ∃ r, s.records[(DeliveryKey.fromJob job).digest]? = some r ∧ r.deliveryKey = .fromJob job ∧
    r.inputDigest = job.inputDigest

theorem Indexed.empty : Indexed .empty := by
  constructor <;> simp [IngressState.empty]

variable {s s' : IngressState}

theorem acceptDelivery_cases {job : JobEnvelope} {decision : IngressDecision}
    (h : s.acceptDelivery job = .ok (decision, s')) :
    (decision ≠ .acceptNew ∧ s' = s) ∨
    (decision = .acceptNew ∧ s.records[(DeliveryKey.fromJob job).digest]? = none ∧
      (∀ d, s.idempotencyDigests[job.idempotencyKey]? = some d → d = job.inputDigest) ∧
      s'.records = s.records.insert (DeliveryKey.fromJob job).digest (newRecord job) ∧
      s'.idempotencyDigests = s.idempotencyDigests.insert job.idempotencyKey job.inputDigest) := by
  unfold IngressState.acceptDelivery at h
  split at h
  · cases h
  · rename_i hsame
    have hclaim : ∀ d, s.idempotencyDigests[job.idempotencyKey]? = some d →
        d = job.inputDigest := by
      intro d hd
      simpa [hd] using hsame
    split at h
    · rename_i existing _
      left
      unfold answerExisting at h
      split at h
      · cases h
      · split at h <;> cases h <;> exact ⟨nofun, rfl⟩
    · rename_i hfree
      cases h
      exact .inr ⟨rfl, hfree, hclaim, rfl, rfl⟩

theorem Indexed.insert {job : JobEnvelope} (h : Indexed s)
    (hfree : s.records[(DeliveryKey.fromJob job).digest]? = none)
    (hsame : ∀ d, s.idempotencyDigests[job.idempotencyKey]? = some d → d = job.inputDigest)
    (hrecords : s'.records = s.records.insert (DeliveryKey.fromJob job).digest (newRecord job))
    (hdigests : s'.idempotencyDigests =
      s.idempotencyDigests.insert job.idempotencyKey job.inputDigest) : Indexed s' := by
  refine ⟨fun k r hr => ?_, fun i d => ?_⟩
  · rw [hrecords] at hr
    obtain ⟨hk, rfl⟩ | ⟨-, hr⟩ := get_insert_cases hr
    · exact hk
    · exact h.filed k r hr
  · rw [hrecords, hdigests, get_insert]
    constructor
    · intro hd
      split at hd
      · rename_i hi
        cases hd
        exact ⟨_, _, get_insert_self _ _ _, hi, rfl⟩
      · obtain ⟨k, r, hr, hrest⟩ := (h.claimed i d).mp hd
        refine ⟨k, r, ?_, hrest⟩
        rw [get_insert_ne _ _ fun hk => ?_, hr]
        rw [← hk, hfree] at hr
        cases hr
    · rintro ⟨k, r, hr, hi, hd⟩
      obtain ⟨-, rfl⟩ | ⟨-, hr⟩ := get_insert_cases hr
      · rw [← hi, ← hd]
        exact if_pos rfl
      · have hclaimed := (h.claimed i d).mpr ⟨k, r, hr, hi, hd⟩
        split
        · rename_i heq
          rw [hsame d (heq ▸ hclaimed)]
        · exact hclaimed

def IngressRecord.identity (r : IngressRecord) : DeliveryKey × String :=
  (r.deliveryKey, r.inputDigest)

/-- The same deliveries are on file, with other outcomes perhaps. -/
def SameFile (s s' : IngressState) : Prop :=
  ∀ k : String, s'.records[k]?.map IngressRecord.identity = s.records[k]?.map IngressRecord.identity

theorem SameFile.symm (h : SameFile s s') : SameFile s' s :=
  fun k => (h k).symm

variable {k : String} {r : IngressRecord}

theorem SameFile.there (h : SameFile s s') (hr : s.records[k]? = some r) :
    ∃ r', s'.records[k]? = some r' ∧ r'.deliveryKey = r.deliveryKey ∧
      r'.inputDigest = r.inputDigest := by
  have hk := h k
  rw [hr, Option.map_some, Option.map_eq_some_iff] at hk
  obtain ⟨r', hr', heq⟩ := hk
  simp only [IngressRecord.identity, Prod.mk.injEq] at heq
  exact ⟨r', hr', heq⟩

theorem Indexed.of_sameFile (h : Indexed s) (hsame : SameFile s s')
    (hdigests : s'.idempotencyDigests = s.idempotencyDigests) : Indexed s' := by
  refine ⟨fun k r hr => ?_, fun i d => ?_⟩
  · obtain ⟨r', hr', hkey, -⟩ := hsame.symm.there hr
    rw [← h.filed k r' hr', IngressRecord.key, IngressRecord.key, hkey]
  · rw [hdigests, h.claimed]
    constructor
    · rintro ⟨k, r, hr, hi, hd⟩
      obtain ⟨r', hr', hkey, hinput⟩ := hsame.there hr
      exact ⟨k, r', hr', hkey ▸ hi, hinput ▸ hd⟩
    · rintro ⟨k, r, hr, hi, hd⟩
      obtain ⟨r', hr', hkey, hinput⟩ := hsame.symm.there hr
      exact ⟨k, r', hr', hkey ▸ hi, hinput ▸ hd⟩

theorem markTerminal_same {job : JobEnvelope} {outcome : TerminalOutcome} {cached : Option String}
    (h : s.markTerminal job outcome cached = .ok s') :
    SameFile s s' ∧ s'.idempotencyDigests = s.idempotencyDigests := by
  unfold IngressState.markTerminal at h
  split at h
  · cases h
  · rename_i r hr
    cases h
    refine ⟨fun k => ?_, rfl⟩
    rw [get_insert]
    split
    · rename_i hk
      rw [← hk, hr]
      rfl
    · rfl

variable {m : OrdMap String IngressRecord}

theorem mem_recordsOf : r ∈ recordsOf m ↔ ∃ k : String, m[k]? = some r := by
  simp [recordsOf, Std.ExtTreeMap.mem_toList_iff_getElem?_eq_some]

variable {saved : List IngressRecord}

theorem fromRecords_filed (h : r ∈ saved) :
    ∃ r' ∈ saved, r'.key = r.key ∧ (IngressState.fromRecords saved).records[r.key]? = some r' :=
  get_insertAll_of_mem h

theorem fromRecords_claimed (h : r ∈ saved) :
    ∃ r' ∈ saved, r'.deliveryKey.idempotencyKey = r.deliveryKey.idempotencyKey ∧
      (IngressState.fromRecords saved).idempotencyDigests[r.deliveryKey.idempotencyKey]? =
        some r'.inputDigest :=
  get_insertAll_of_mem h

theorem fromRecords_records
    (hfiled : ∀ (k : String) (r : IngressRecord), m[k]? = some r → r.key = k)
    (order : saved.Perm (recordsOf m)) (k : String) :
    (IngressState.fromRecords saved).records[k]? = m[k]? := by
  have hsaved : ∀ r, r ∈ saved ↔ ∃ k : String, m[k]? = some r := fun r =>
    order.mem_iff.trans mem_recordsOf
  cases hk : m[k]? with
  | none =>
    refine (get_insertAll_of_ne fun r hr hkey => ?_).trans (by simp)
    obtain ⟨k', hr'⟩ := (hsaved r).mp hr
    rw [← hfiled k' r hr', hkey, hk] at hr'
    cases hr'
  | some r =>
    have hkey := hfiled k r hk
    obtain ⟨r', hr', hkey', hget⟩ := fromRecords_filed ((hsaved r).mpr ⟨k, hk⟩)
    obtain ⟨k', hr'⟩ := (hsaved r').mp hr'
    have hsame : k' = k := by rw [← hfiled k' r' hr', hkey', hkey]
    rw [hsame, hk] at hr'
    cases hr'
    rwa [hkey] at hget

theorem Indexed.agree (h : Indexed s) {k' : String} {r' : IngressRecord}
    (hr : s.records[k]? = some r) (hr' : s.records[k']? = some r')
    (hi : r.deliveryKey.idempotencyKey = r'.deliveryKey.idempotencyKey) :
    r.inputDigest = r'.inputDigest := by
  have hclaim := (h.claimed _ _).mpr ⟨k, r, hr, rfl, rfl⟩
  have hclaim' := (h.claimed _ _).mpr ⟨k', r', hr', hi.symm, rfl⟩
  rw [hclaim] at hclaim'
  exact Option.some.inj hclaim'

theorem Indexed.fromRecords
    (hfiled : ∀ (k : String) (r : IngressRecord), m[k]? = some r → r.key = k)
    (hagree : ∀ (k k' : String) (r r' : IngressRecord), m[k]? = some r → m[k']? = some r' →
      r.deliveryKey.idempotencyKey = r'.deliveryKey.idempotencyKey →
      r.inputDigest = r'.inputDigest) (order : saved.Perm (recordsOf m)) :
    Indexed (.fromRecords saved) := by
  have hrecords := fromRecords_records hfiled order
  have hsaved : ∀ r, r ∈ saved ↔ ∃ k : String, m[k]? = some r := fun r =>
    order.mem_iff.trans mem_recordsOf
  refine ⟨fun k r hr => hfiled k r (hrecords k ▸ hr), fun i d => ?_⟩
  constructor
  · intro hd
    obtain ⟨r, hr, hi, hinput⟩ | hnone := get_insertAll_cases hd
    · obtain ⟨k, hr⟩ := (hsaved r).mp hr
      exact ⟨k, r, (hrecords k).trans hr, hi, hinput⟩
    · simp at hnone
  · rintro ⟨k, r, hr, rfl, rfl⟩
    rw [hrecords] at hr
    obtain ⟨r', hr', hi, hget⟩ := fromRecords_claimed ((hsaved r).mpr ⟨k, hr⟩)
    obtain ⟨k', hr'⟩ := (hsaved r').mp hr'
    rw [hget, hagree k' k r' r hr' hr hi]

theorem OnFile.of_sameFile {job : JobEnvelope} (h : OnFile s job) (hsame : SameFile s s') :
    OnFile s' job := by
  obtain ⟨r, hr, hkey, hinput⟩ := h
  obtain ⟨r', hr', hkey', hinput'⟩ := hsame.there hr
  exact ⟨r', hr', hkey'.trans hkey, hinput'.trans hinput⟩

/-- The invariant of a life: what was taken on is on file, was taken on once, and with one digest
for each idempotency key. -/
structure Remembers (s : IngressState) (taken : List JobEnvelope) : Prop where
  indexed : Indexed s
  onFile : ∀ job ∈ taken, OnFile s job
  once : (taken.map DeliveryKey.fromJob).Nodup
  oneDigest : ∀ job ∈ taken, ∀ job' ∈ taken, job.idempotencyKey = job'.idempotencyKey →
    job.inputDigest = job'.inputDigest

section
variable {taken : List JobEnvelope}

theorem Remembers.of_sameFile (h : Remembers s taken)
    (hindexed : Indexed s') (hsame : SameFile s s') :
    Remembers s' taken :=
  ⟨hindexed, fun job hjob => (h.onFile job hjob).of_sameFile hsame, h.once, h.oneDigest⟩

theorem Remembers.accept {job : JobEnvelope} (h : Remembers s taken)
    (call : s.acceptDelivery job = .ok (.acceptNew, s')) :
    Remembers s' (job :: taken) := by
  obtain ⟨hnew, -⟩ | ⟨-, hfree, hclaim, hrecords, hdigests⟩ := acceptDelivery_cases call
  · exact absurd rfl hnew
  have hfile : ∀ job' ∈ taken, OnFile s' job' := by
    intro job' hjob'
    obtain ⟨r, hr, hrest⟩ := h.onFile job' hjob'
    refine ⟨r, ?_, hrest⟩
    rw [hrecords, get_insert_ne _ _ fun hk => ?_, hr]
    rw [← hk, hfree] at hr
    cases hr
  have hdigest : ∀ job' ∈ taken, job'.idempotencyKey = job.idempotencyKey →
      job'.inputDigest = job.inputDigest := by
    intro job' hjob' hi
    obtain ⟨r, hr, hkey, hinput⟩ := h.onFile job' hjob'
    have hindex := (h.indexed.claimed _ _).mpr ⟨_, r, hr, rfl, rfl⟩
    rw [hkey, hinput] at hindex
    exact hclaim _ (hi ▸ hindex)
  refine ⟨h.indexed.insert hfree hclaim hrecords hdigests, ?_, ?_, ?_⟩
  · intro job' hjob'
    obtain rfl | hjob' := List.mem_cons.mp hjob'
    · exact ⟨newRecord job', by rw [hrecords, get_insert_self], rfl, rfl⟩
    · exact hfile job' hjob'
  · refine List.nodup_cons.mpr ⟨fun hmem => ?_, h.once⟩
    obtain ⟨job', hjob', hkey⟩ := List.mem_map.mp hmem
    obtain ⟨r, hr, -⟩ := h.onFile job' hjob'
    rw [hkey, hfree] at hr
    cases hr
  · intro a ha b hb hi
    obtain rfl | hold := List.mem_cons.mp ha
    · obtain rfl | hold' := List.mem_cons.mp hb
      · rfl
      · exact (hdigest b hold' hi.symm).symm
    · obtain rfl | hold' := List.mem_cons.mp hb
      · exact hdigest a hold hi
      · exact h.oneDigest a hold b hold' hi

theorem Remembers.of_lives (lives : Lives s taken) : Remembers s taken := by
  induction lives with
  | begins => exact ⟨.empty, by simp, List.nodup_nil, by simp⟩
  | accepted _ call ih => exact ih.accept call
  | answered _ known call ih =>
    obtain ⟨-, rfl⟩ | ⟨hnew, -⟩ := acceptDelivery_cases call
    · exact ih
    · exact absurd hnew known
  | refused _ _ ih => exact ih
  | marked _ call ih =>
    obtain ⟨hsame, hdigests⟩ := markTerminal_same call
    exact ih.of_sameFile (ih.indexed.of_sameFile hsame hdigests) hsame
  | restarted _ order ih =>
    refine ih.of_sameFile (.fromRecords ih.indexed.filed
      (fun _ _ _ _ hr hr' => ih.indexed.agree hr hr') order) fun k => ?_
    rw [fromRecords_records ih.indexed.filed order]

end

/-- Whatever is delivered, marked and restarted: a delivery key is taken on at most once, and an
idempotency key never with two input digests. -/
theorem ingress_exactly_once {s : IngressState} {taken : List JobEnvelope} (lives : Lives s taken) :
    (taken.map DeliveryKey.fromJob).Nodup ∧
      ∀ job ∈ taken, ∀ job' ∈ taken, job.idempotencyKey = job'.idempotencyKey →
        job.inputDigest = job'.inputDigest :=
  ⟨(Remembers.of_lives lives).once, (Remembers.of_lives lives).oneDigest⟩

namespace Demo

def job : JobEnvelope := ⟨"attempt", "lease", 1, "key", "digest", .infer⟩

/-- The job under the lease of another attempt. -/
def retry : JobEnvelope := { job with attemptId := "second" }

def changed : JobEnvelope := { retry with inputDigest := "other" }

def took (s : IngressState) (job : JobEnvelope) : IngressState :=
  ⟨s.records.insert (DeliveryKey.fromJob job).digest (newRecord job),
    s.idempotencyDigests.insert job.idempotencyKey job.inputDigest⟩

def first : IngressState := took .empty job

def second : IngressState := took first retry

/-- After a restart that reads the saved records back in the other order. -/
def restarted : IngressState := .fromRecords second.savedRecords.reverse

end Demo
open Demo

/-- A job, its redelivery, another digest under its key, a second attempt, and a restart, after
which the job comes once more. -/
theorem ingress_exactly_once_restarted :
    IngressState.empty.acceptDelivery job = .ok (.acceptNew, first) ∧
      first.acceptDelivery job = .ok (.duplicateInFlight, first) ∧
      first.acceptDelivery changed = .error reusedKey ∧
      first.acceptDelivery retry = .ok (.acceptNew, second) ∧
      restarted.acceptDelivery job = .ok (.duplicateInFlight, restarted) ∧
      Lives restarted [retry, job] ∧ ([retry, job].map DeliveryKey.fromJob).Nodup ∧
      retry.inputDigest = job.inputDigest := by
  have hjob : IngressState.empty.acceptDelivery job = .ok (.acceptNew, first) := rfl
  have hagain : first.acceptDelivery job = .ok (.duplicateInFlight, first) := rfl
  have hchanged : first.acceptDelivery changed = .error reusedKey := rfl
  have hretry : first.acceptDelivery retry = .ok (.acceptNew, second) := rfl
  have hlast : restarted.acceptDelivery job = .ok (.duplicateInFlight, restarted) := rfl
  have hlives : Lives restarted [retry, job] :=
    .answered (.restarted (.accepted (.refused (.answered (.accepted .begins hjob) (by simp) hagain)
      hchanged) hretry) (List.reverse_perm _)) (by simp) hlast
  obtain ⟨honce, hdigest⟩ := ingress_exactly_once hlives
  exact ⟨hjob, hagain, hchanged, hretry, hlast, hlives, honce, hdigest _ (by simp) _ (by simp) rfl⟩

end Tetonic.Fabric
