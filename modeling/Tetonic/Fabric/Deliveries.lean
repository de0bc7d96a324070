import Tetonic.Fabric.Ingress
import Tetonic.Lib.Text
set_option autoImplicit false

/-! Which delivery an answer is about. A delivery is filed under the text of its key, the four
parts of it joined by colons, and the parts may hold colons of their own. -/

namespace Tetonic.Fabric
open Lib DeliveryKey IngressState

def FiledFrom (s : IngressState) (taken : List JobEnvelope) : Prop :=
  ∀ (k : String) (r : IngressRecord), s.records[k]? = some r →
    ∃ job ∈ taken, r.deliveryKey = .fromJob job

variable {s s' : IngressState} {taken : List JobEnvelope}

theorem FiledFrom.of_sameFile (h : FiledFrom s taken) (hsame : SameFile s s') :
    FiledFrom s' taken := by
  intro k r hr
  obtain ⟨r', hr', hkey, -⟩ := hsame.symm.there hr
  obtain ⟨job, hjob, hfrom⟩ := h k r' hr'
  exact ⟨job, hjob, hkey.symm.trans hfrom⟩

variable {job : JobEnvelope}

theorem FiledFrom.accept (h : FiledFrom s taken)
    (call : s.acceptDelivery job = .ok (.acceptNew, s')) :
    FiledFrom s' (job :: taken) := by
  obtain ⟨hnew, -⟩ | ⟨-, -, -, hrecords, -⟩ := acceptDelivery_cases call
  · exact absurd rfl hnew
  intro k r hr
  rw [hrecords] at hr
  obtain ⟨-, rfl⟩ | ⟨-, hr⟩ := OrdMap.get_insert_cases hr
  · exact ⟨job, List.mem_cons_self, rfl⟩
  · obtain ⟨job', hjob', hfrom⟩ := h k r hr
    exact ⟨job', List.mem_cons_of_mem _ hjob', hfrom⟩

theorem FiledFrom.of_lives (lives : Lives s taken) : FiledFrom s taken := by
  induction lives with
  | begins =>
    intro k r hr
    simp [IngressState.empty] at hr
  | accepted _ call ih => exact ih.accept call
  | answered _ known call ih =>
    obtain ⟨-, rfl⟩ | ⟨hnew, -⟩ := acceptDelivery_cases call
    · exact ih
    · exact absurd hnew known
  | refused _ _ ih => exact ih
  | marked _ call ih => exact ih.of_sameFile (markTerminal_same call).1
  | restarted lives order ih =>
    refine ih.of_sameFile fun k => ?_
    rw [fromRecords_records (Remembers.of_lives lives).indexed.filed order]

variable {decision : IngressDecision}

theorem acceptDelivery_known (call : s.acceptDelivery job = .ok (decision, s'))
    (known : decision ≠ .acceptNew) :
    ∃ r, s.records[(fromJob job).digest]? = some r ∧
      ∀ record, decision = .replayExisting record → record = r := by
  unfold acceptDelivery at call
  split at call
  · cases call
  split at call
  · rename_i existing hfile
    refine ⟨existing, hfile, fun record hreplay => ?_⟩
    subst hreplay
    unfold answerExisting at call
    split at call
    · cases call
    · split at call <;> cases call <;> rfl
  · cases call
    exact absurd rfl known

theorem answered_from (lives : Lives s taken) (call : s.acceptDelivery job = .ok (decision, s'))
    (known : decision ≠ .acceptNew) :
    ∃ first ∈ taken, (fromJob first).digest = (fromJob job).digest ∧
      ∀ record, decision = .replayExisting record → record.deliveryKey = .fromJob first := by
  obtain ⟨r, hr, hreplay⟩ := acceptDelivery_known call known
  obtain ⟨first, hfirst, hfrom⟩ := FiledFrom.of_lives lives _ r hr
  refine ⟨first, hfirst, ?_, ?_⟩
  · rw [← hfrom]
    exact (Remembers.of_lives lives).indexed.filed _ r hr
  · intro record hrecord
    rw [hreplay record hrecord, hfrom]

def Unmistaken (taken : List JobEnvelope) (job : JobEnvelope) : Prop :=
  ∀ other ∈ taken, (fromJob other).digest = (fromJob job).digest →
    fromJob other = .fromJob job

variable {other : JobEnvelope}

theorem taken_digest_inj (lives : Lives s taken) (hjob : job ∈ taken) (hother : other ∈ taken)
    (hdigest : (fromJob other).digest = (fromJob job).digest) :
    fromJob other = .fromJob job := by
  obtain ⟨r, hr, hkey, -⟩ := (Remembers.of_lives lives).onFile job hjob
  obtain ⟨r', hr', hkey', -⟩ := (Remembers.of_lives lives).onFile other hother
  rw [hdigest, hr] at hr'
  cases hr'
  exact hkey'.symm.trans hkey

theorem digest_toList (k : DeliveryKey) :
    k.digest.toList = k.attemptId.toList ++ ':' :: (k.leaseId.toList ++
      ':' :: ((Nat.repr k.leaseEpoch.toNat).toList ++ ':' :: k.idempotencyKey.toList)) := by
  have hepoch : toString k.leaseEpoch = Nat.repr k.leaseEpoch.toNat := rfl
  simp [digest, hepoch]

theorem colon_notMem_repr (n : Nat) : ':' ∉ (Nat.repr n).toList := by
  intro h
  rw [Nat.repr_eq_ofList_toDigits, String.toList_ofList] at h
  have hdigit := Nat.isDigit_of_mem_toDigits (by decide) (by decide) h
  exact absurd hdigit (by decide)

theorem repr_toList_inj {m n : Nat} (h : (Nat.repr m).toList = (Nat.repr n).toList) : m = n := by
  simp only [Nat.repr_eq_ofList_toDigits, String.toList_ofList] at h
  rw [← Nat.ofDigitChars_ten_toDigits (n := m), h, Nat.ofDigitChars_ten_toDigits]

def DeliveryKey.Plain (k : DeliveryKey) : Prop :=
  ':' ∉ k.attemptId.toList ∧ ':' ∉ k.leaseId.toList

theorem digest_inj_of_plain {k k' : DeliveryKey} (h : k.Plain) (h' : k'.Plain)
    (hdigest : k.digest = k'.digest) : k = k' := by
  have hlist := congrArg String.toList hdigest
  rw [digest_toList, digest_toList] at hlist
  obtain ⟨hattempt, hlist⟩ := Text.append_mark_inj h.1 h'.1 hlist
  obtain ⟨hlease, hlist⟩ := Text.append_mark_inj h.2 h'.2 hlist
  obtain ⟨hepoch, hkey⟩ :=
    Text.append_mark_inj (colon_notMem_repr _) (colon_notMem_repr _) hlist
  cases k
  cases k'
  simp only [DeliveryKey.mk.injEq]
  exact ⟨String.toList_injective hattempt, String.toList_injective hlease,
    UInt64.toNat.inj (repr_toList_inj hepoch),
    String.toList_injective hkey⟩

theorem Unmistaken.of_plain (htaken : ∀ other ∈ taken, (fromJob other).Plain)
    (hjob : (fromJob job).Plain) : Unmistaken taken job :=
  fun other hother => digest_inj_of_plain (htaken other hother) hjob

/-- An answer other than taking the delivery on is about this very delivery, and replays its own
record, just if no other delivery with the same digest was taken on. -/
theorem delivery_answered_iff {s s' : IngressState} {taken : List JobEnvelope} {job : JobEnvelope}
    {decision : IngressDecision} (lives : Lives s taken)
    (call : s.acceptDelivery job = .ok (decision, s')) (known : decision ≠ .acceptNew) :
    ((∃ first ∈ taken, fromJob first = .fromJob job) ∧
      ∀ record, decision = .replayExisting record → record.deliveryKey = .fromJob job) ↔
      Unmistaken taken job := by
  obtain ⟨first, hfirst, hdigest, hreplay⟩ := answered_from lives call known
  constructor
  · intro h other hother hsame
    obtain ⟨⟨own, hown, hkey⟩, -⟩ := h
    rw [← hkey] at hsame ⊢
    exact taken_digest_inj lives hown hother hsame
  · intro h
    have hkey := h first hfirst hdigest
    exact ⟨⟨first, hfirst, hkey⟩, fun record hrecord => (hreplay record hrecord).trans hkey⟩

namespace Demo

def begun (job : JobEnvelope) : IngressState :=
  ⟨(∅ : OrdMap String IngressRecord).insert (fromJob job).digest (newRecord job),
    (∅ : OrdMap String String).insert job.idempotencyKey job.inputDigest⟩

def doneRecord (job : JobEnvelope) : IngressRecord :=
  (newRecord job).terminated .completed (some "answer")

def done (job : JobEnvelope) : IngressState :=
  { begun job with
    records := (begun job).records.insert (fromJob job).digest (doneRecord job) }

def colonInAttempt : JobEnvelope := ⟨"node:a", "lease", 1, "key", "digest", .infer⟩

/-- A job of another attempt under another lease, with the same digest. -/
def colonInLease : JobEnvelope := ⟨"node", "a:lease", 1, "key", "digest", .infer⟩

theorem lives_done (job : JobEnvelope) : Lives (done job) [job] := by
  have hcall : IngressState.empty.acceptDelivery job = .ok (.acceptNew, begun job) := by
    simp [acceptDelivery, IngressState.empty, begun]
  have hdone : (begun job).markTerminal job .completed (some "answer") = .ok (done job) := by
    simp [markTerminal, begun, done, doneRecord]
  exact .marked (.accepted .begins hcall) hdone

theorem done_replays (hdigest : (fromJob other).digest = (fromJob job).digest)
    (hkey : other.idempotencyKey = job.idempotencyKey)
    (hinput : other.inputDigest = job.inputDigest) :
    (done job).acceptDelivery other = .ok (.replayExisting (doneRecord job), done job) := by
  simp [acceptDelivery, done, begun, hdigest, hkey, hinput, answerExisting, doneRecord,
    newRecord, IngressRecord.terminated, Except.map]

end Demo
open Demo

theorem delivery_answered_redelivery : Unmistaken [Demo.job] Demo.job :=
  (delivery_answered_iff (lives_done Demo.job) (done_replays rfl rfl rfl) (by simp)).mp
    ⟨⟨Demo.job, List.mem_cons_self, rfl⟩, by simp [doneRecord, newRecord,
      IngressRecord.terminated]⟩

/-- A job with a colon in its lease id is answered with the result of another attempt's job. -/
theorem delivery_answered_for_another :
    Lives (done colonInAttempt) [colonInAttempt] ∧
      (done colonInAttempt).acceptDelivery colonInLease =
        .ok (.replayExisting (doneRecord colonInAttempt), done colonInAttempt) ∧
      (doneRecord colonInAttempt).cachedResponseJson = some "answer" ∧
      colonInAttempt.attemptId ≠ colonInLease.attemptId ∧
      colonInAttempt.leaseId ≠ colonInLease.leaseId ∧
      ¬ Unmistaken [colonInAttempt] colonInLease := by
  have hdigest : (fromJob colonInLease).digest =
      (fromJob colonInAttempt).digest := by decide +kernel
  refine ⟨lives_done _, done_replays hdigest rfl rfl, rfl, by decide, by decide, ?_⟩
  intro h
  have hkey := h colonInAttempt List.mem_cons_self hdigest.symm
  exact absurd hkey (by decide)

end Tetonic.Fabric
