import Tetonic.Run.Reachable
set_option autoImplicit false

/-! What `recover_expired_leases` makes of a snapshot, in closed form: which attempts it ends,
and which tasks it releases. -/

namespace Tetonic.Run
open Lib

variable {P : Platform}

theorem AttemptRecord.expiredAt_mono {a : AttemptRecord} {now later : UInt64} (h : now ≤ later)
    (ha : a.expiredAt now = true) : a.expiredAt later = true := by
  simp only [AttemptRecord.expiredAt, Bool.and_eq_true, Option.any_eq_true,
    decide_eq_true_eq] at ha ⊢
  obtain ⟨hfly, lease, hlease, hlt⟩ := ha
  exact ⟨hfly, lease, hlease, UInt64.lt_of_lt_of_le hlt h⟩

def AttemptRecord.lapse (a : AttemptRecord) : AttemptRecord :=
  { a with
    state := .leaseExpired
    failureClass := some .leaseExpired
    failureReason := some "lease expired on recovery" }

/-- Held by a worker according to its state, with no attempt that holds it. -/
def TaskRecord.Stranded (task : TaskRecord) : Prop :=
  (task.state = .leased ∨ task.state = .running) ∧ task.activeAttempt = none

theorem TaskRecord.rescheduled.stranded_iff {a b : TaskRecord} (h : a.rescheduled b) :
    b.Stranded ↔ a.Stranded := by
  rcases h with rfl | ⟨he, st, hst, rfl⟩
  · rfl
  · have ha : ¬ a.Stranded := by
      rintro ⟨hs | hs, -⟩
      all_goals simp [hs, taskIsExecutable] at he
    refine iff_of_false ?_ ha
    rintro ⟨hs, -⟩
    rcases hst with rfl | rfl | rfl <;> simp at hs

/-- The attempts that are `hit` are ended and their tasks released; waiting tasks may move. -/
structure Lapsed (hit : AttemptId → AttemptRecord → Bool) (s t : RunSnapshot) : Prop where
  rest : t = { s with tasks := t.tasks, attempts := t.attempts }
  attempts : ∀ k : AttemptId, t.attempts[k]? =
    s.attempts[k]?.map fun a => if hit k a = true then a.lapse else a
  size : t.tasks.size = s.tasks.size
  missing : ∀ k : TaskId, s.tasks[k]? = none → t.tasks[k]? = none
  present : ∀ (k : TaskId) (task : TaskRecord), s.tasks[k]? = some task →
    ∃ task', t.tasks[k]? = some task' ∧ task'.binding = task.binding ∧
      task'.finalizationClaim = task.finalizationClaim ∧
      (task'.Stranded ↔ task.Stranded ∧
        ∀ (id : AttemptId) (a : AttemptRecord), s.attempts[id]? = some a → a.taskId = k →
          hit id a = false)

abbrev LapsedOn (ids : List AttemptId) : RunSnapshot → RunSnapshot → Prop :=
  Lapsed fun id _ => decide (id ∈ ids)

theorem LapsedOn.refl (s : RunSnapshot) : LapsedOn [] s s where
  rest := rfl
  attempts k := by simp
  size := rfl
  missing _ h := h
  present k task h := ⟨task, h, rfl, rfl, by simp⟩

theorem LapsedOn.cons {id : AttemptId} {rest : List AttemptId} {s t u : RunSnapshot}
    (h : LapsedOn [id] s t) (hrest : LapsedOn rest t u) (hid : id ∉ rest) :
    LapsedOn (id :: rest) s u where
  rest := by rw [hrest.rest, h.rest]
  attempts k := by
    rw [hrest.attempts k, h.attempts k]
    by_cases hk : k = id
    · subst hk
      simp [hid, Function.comp_def]
    · simp [hk]
  size := hrest.size.trans h.size
  missing k hk := hrest.missing k (h.missing k hk)
  present k task hk := by
    obtain ⟨task₁, h₁, hb₁, hc₁, hs₁⟩ := h.present k task hk
    obtain ⟨task₂, h₂, hb₂, hc₂, hs₂⟩ := hrest.present k task₁ h₁
    refine ⟨task₂, h₂, hb₂.trans hb₁, hc₂.trans hc₁, ?_⟩
    rw [hs₂, hs₁, and_assoc]
    refine and_congr_right fun _ => ⟨fun hboth j a ha hk => ?_, fun hall => ⟨?_, ?_⟩⟩
    · have hone : j ≠ id := by simpa using hboth.1 j a ha hk
      have hmore := hboth.2 j a (by rw [h.attempts j, ha]; simp [hone]) hk
      simpa [hone] using hmore
    · intro j a ha hk
      have hnot := of_decide_eq_false (hall j a ha hk)
      simpa using fun heq => hnot (by simp [heq])
    · -- an attempt that has ended is still one of its task
      intro j a ha hk
      rw [h.attempts j] at ha
      obtain ⟨b, hb, rfl⟩ := Option.map_eq_some_iff.mp ha
      have hnot := of_decide_eq_false (hall j b hb (by split at hk <;> exact hk))
      simpa using fun hmem => hnot (List.mem_cons_of_mem _ hmem)

theorem recoverAttempt_lapsed (now : UInt64) {s : RunSnapshot} {id : AttemptId}
    {a : AttemptRecord} {task : TaskRecord} (ha : s.attempts[id]? = some a)
    (htask : s.tasks[a.taskId]? = some task) :
    ∃ t, recoverAttempt P now s id = .ok t ∧ LapsedOn [id] s t := by
  obtain ⟨t, ht⟩ := applyFailureWithRetry_total P
    (s := { s with attempts := s.attempts.insert id a.lapse }) .leaseExpired
    "lease expired on recovery" now htask
  refine ⟨t, ?_, ?_⟩
  · simp only [recoverAttempt, ha, unwrap, expireAttempt]
    exact ht
  · obtain ⟨task', retry, st, htask', hst, hr⟩ := applyFailureWithRetry_spec ht
    have hsame : task' = task := by
      have h := htask'.symm.trans htask
      exact Option.some.inj h
    subst hsame
    constructor
    · rw [hr.rest]
    · intro k
      rw [hr.rest]
      simp only [OrdMap.get_insert, List.mem_singleton]
      by_cases hk : k = id
      · subst hk
        simp [ha]
      · simp [hk, Ne.symm hk]
    · exact hr.size.trans (OrdMap.size_insert_of_get htask _)
    · intro k hk
      exact hr.missing k (OrdMap.insert_missing htask hk)
    · intro k before hk
      have htouch : (∀ (j : AttemptId) (b : AttemptRecord), s.attempts[j]? = some b →
          b.taskId = k → decide (j ∈ [id]) = false) ↔ a.taskId ≠ k := by
        simp only [List.mem_singleton, decide_eq_false_iff_not]
        exact ⟨fun hno hk => hno id a ha hk rfl, fun hne j b hb hk heq => by simp_all⟩
      rw [htouch]
      by_cases hak : a.taskId = k
      · subst hak
        rw [htask, Option.some.injEq] at hk
        subst hk
        obtain ⟨after, hafter, hres⟩ := hr.present a.taskId _ (OrdMap.get_insert_self _ _ _)
        have hnot : ¬ after.Stranded := by
          rw [hres.stranded_iff]
          rintro ⟨hs, -⟩
          rcases hst with rfl | rfl <;> simp at hs
        refine ⟨after, hafter, ?_, ?_, iff_of_false hnot (by simp)⟩
        · rcases hres with rfl | ⟨-, _, -, rfl⟩ <;> rfl
        · exact hres.idle.finalizationClaim
      · obtain ⟨after, hafter, hres⟩ := hr.present k before
          (by simp only [OrdMap.get_insert_ne _ _ hak, hk])
        refine ⟨after, hafter, ?_, hres.idle.finalizationClaim, ?_⟩
        · rcases hres with rfl | ⟨-, _, -, rfl⟩ <;> rfl
        · rw [hres.stranded_iff]
          simp [hak]

theorem recoverAttempts_lapsed (now : UInt64) {ids : List AttemptId} {s : RunSnapshot}
    (hnd : ids.Nodup)
    (hids : ∀ id ∈ ids, ∃ a task, s.attempts[id]? = some a ∧ s.tasks[a.taskId]? = some task) :
    ∃ t, ids.foldlM (recoverAttempt P now) s = .ok t ∧ LapsedOn ids s t := by
  induction ids generalizing s with
  | nil => exact ⟨s, rfl, .refl s⟩
  | cons id rest ih =>
    obtain ⟨hid, hnd⟩ := List.nodup_cons.mp hnd
    obtain ⟨a, task, ha, htask⟩ := hids id (by simp)
    obtain ⟨t, ht, hlapsed⟩ := recoverAttempt_lapsed (P := P) now ha htask
    have hnext : ∀ j ∈ rest, ∃ b task, t.attempts[j]? = some b ∧
        t.tasks[b.taskId]? = some task := by
      intro j hj
      obtain ⟨b, taskb, hb, htaskb⟩ := hids j (by simp [hj])
      have hne : j ≠ id := by
        rintro rfl
        exact hid hj
      obtain ⟨task', htask', -⟩ := hlapsed.present b.taskId taskb htaskb
      refine ⟨b, task', ?_, htask'⟩
      rw [hlapsed.attempts j]
      simp [hne, hb]
    obtain ⟨u, hu, hrest⟩ := ih hnd hnext
    refine ⟨u, ?_, hlapsed.cons hrest hid⟩
    rw [List.foldlM_cons, bind_eq_ok]
    exact ⟨t, ht, hu⟩

/-- What the pass makes of a snapshot at `now`. -/
structure LapsedAt (now : UInt64) (s t : RunSnapshot) : Prop
    extends Lapsed (fun _ a => a.expiredAt now) s t where
  /-- Nothing to expire, nothing changed. -/
  still : (∀ (id : AttemptId) (a : AttemptRecord), s.attempts[id]? = some a →
    a.expiredAt now = false) → t = s

theorem recoverExpiredLeases_lapsed {s : RunSnapshot} (h : s.board.Sound) (now : UInt64) :
    ∃ t, recoverExpiredLeases P s now = .ok t ∧ LapsedAt now s t := by
  have hmem : ∀ id, id ∈ s.attempts.keysWhere (fun _ a => a.expiredAt now) ↔
      ∃ a, s.attempts[id]? = some a ∧ a.expiredAt now = true :=
    fun id => OrdMap.mem_keysWhere _ _ _
  have hhit : ∀ id a, s.attempts[id]? = some a →
      decide (id ∈ s.attempts.keysWhere fun _ a => a.expiredAt now) = a.expiredAt now := by
    intro id a ha
    rw [Bool.eq_iff_iff, decide_eq_true_eq, hmem]
    simp [ha]
  obtain ⟨t, ht, hl⟩ := recoverAttempts_lapsed (P := P) now (s := s)
    (OrdMap.nodup_keysWhere _ _) fun id hid => by
      obtain ⟨a, ha, -⟩ := (hmem id).mp hid
      obtain ⟨task, htask⟩ := h.attemptTask id a ha
      exact ⟨a, task, ha, htask⟩
  refine ⟨t, ht, ⟨hl.rest, fun k => ?_, hl.size, hl.missing, fun k task hk => ?_⟩, fun hnone => ?_⟩
  · rw [hl.attempts k]
    cases hk : s.attempts[k]? with
    | none => rfl
    | some a => simp only [Option.map_some, hhit k a hk]
  · obtain ⟨task', htask', hb, hc, hs⟩ := hl.present k task hk
    refine ⟨task', htask', hb, hc, hs.trans (and_congr_right fun _ => ?_)⟩
    refine forall₃_congr fun id a ha => ?_
    rw [hhit id a ha]
  · have hempty : s.attempts.keysWhere (fun _ a => a.expiredAt now) = [] := by
      refine List.eq_nil_iff_forall_not_mem.mpr fun id hid => ?_
      obtain ⟨a, ha, hexp⟩ := (hmem id).mp hid
      rw [hnone id a ha] at hexp
      cases hexp
    rw [hempty] at ht
    exact (Except.ok.inj ht).symm

theorem startupPass_lapsed {s : RunSnapshot} (h : s.board.Sound) (now : UInt64) :
    ∃ t, LapsedAt now s t ∧ startupPass P s now = .ok
      (if detectRecoveryRequired t now = true ∧ t.state ≠ .recoveryRequired then
        { t with state := .recoveryRequired } else t) := by
  obtain ⟨t, ht, hl⟩ := recoverExpiredLeases_lapsed (P := P) h now
  refine ⟨t, hl, ?_⟩
  rw [startupPass, bind_eq_ok]
  refine ⟨t, ht, ?_⟩
  split <;> rfl

end Tetonic.Run
