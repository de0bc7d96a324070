import Tetonic.Run.Expiry
set_option autoImplicit false

/-! When a start marks a run for recovery. The verdict is worked out as a function of the stored
snapshot and the clock, and compared between two starts. -/

namespace Tetonic.Run
open Lib Demo AttemptRecord

variable {P : Platform}

variable (P) in
def Marked (s : RunSnapshot) (now : UInt64) : Prop :=
  ∃ t, startupPass P s now = .ok t ∧ t.state = .recoveryRequired

namespace RunSnapshot

def LastingGround (s : RunSnapshot) : Prop :=
  (∃ (k : AttemptId) (a : AttemptRecord), s.attempts[k]? = some a ∧ a.state = .suspended) ∨
    s.state = .active ∧
      ((∃ (k : TaskId) (task : TaskRecord), s.tasks[k]? = some task ∧
          task.finalizationClaim.isSome = true) ∨
        ∃ (k : AttemptId) (a : AttemptRecord), s.attempts[k]? = some a ∧ a.state = .succeeded)

/-- An attempt whose lease is current at `now` although the deadline of its task has passed. -/
def PastDeadline (s : RunSnapshot) (now : UInt64) : Prop :=
  s.state = .active ∧ ∃ (k : AttemptId) (a : AttemptRecord) (task : TaskRecord),
    s.attempts[k]? = some a ∧ a.state.inFlight = true ∧ a.expiredAt now = false ∧
      s.tasks[a.taskId]? = some task ∧ task.binding.deadline.any (· ≤ now) = true

/-- A task held by no attempt, none of whose attempts expires at `now`. -/
def StrandedTask (s : RunSnapshot) (now : UInt64) : Prop :=
  ∃ (k : TaskId) (task : TaskRecord), s.tasks[k]? = some task ∧ task.Stranded ∧
    ∀ (id : AttemptId) (a : AttemptRecord), s.attempts[id]? = some a → a.taskId = k →
      a.expiredAt now = false

/-- A job whose attempts have ended, one of them without success, counting those that expire
at `now`. -/
def FailedOut (s : RunSnapshot) (now : UInt64) : Prop :=
  s.state = .active ∧ s.jobSpec.isSome = true ∧
    (∃ (k : AttemptId) (a : AttemptRecord), s.attempts[k]? = some a ∧
      (a.state.failedEnd = true ∨ a.expiredAt now = true)) ∧
    ∀ (k : AttemptId) (a : AttemptRecord), s.attempts[k]? = some a → a.state.inFlight = true →
      a.expiredAt now = true

def Grounds (s : RunSnapshot) (now : UInt64) : Prop :=
  s.LastingGround ∨ s.PastDeadline now ∨ s.StrandedTask now ∨ s.FailedOut now

end RunSnapshot

section Lapsed

variable {now : UInt64} {s t : RunSnapshot}

theorem LapsedAt.any_attempt (h : LapsedAt now s t) {f : AttemptRecord → Bool}
    {g : AttemptRecord → Prop} (hfg : ∀ (k : AttemptId) (a : AttemptRecord),
      s.attempts[k]? = some a → (f (if a.expiredAt now = true then a.lapse else a) = true ↔ g a)) :
    t.attempts.anyValue f = true ↔
      ∃ (k : AttemptId) (a : AttemptRecord), s.attempts[k]? = some a ∧ g a := by
  rw [OrdMap.anyValue_iff]
  constructor
  · rintro ⟨k, b, hb, hf⟩
    rw [h.attempts k] at hb
    obtain ⟨a, ha, rfl⟩ := Option.map_eq_some_iff.mp hb
    exact ⟨k, a, ha, (hfg k a ha).mp hf⟩
  · rintro ⟨k, a, ha, hg⟩
    refine ⟨k, _, ?_, (hfg k a ha).mpr hg⟩
    rw [h.attempts k, ha]
    rfl

theorem LapsedAt.any_state (h : LapsedAt now s t) {st : AttemptState}
    (hfly : st.inFlight = false) (hend : st ≠ .leaseExpired) :
    t.attempts.anyValue (fun a => decide (a.state = st)) = true ↔
      ∃ (k : AttemptId) (a : AttemptRecord), s.attempts[k]? = some a ∧ a.state = st := by
  refine h.any_attempt fun k a _ => ?_
  split
  · rename_i hexp
    simp only [expiredAt, Bool.and_eq_true] at hexp
    have hne : a.state ≠ st := by
      rintro rfl
      rw [hexp.1] at hfly
      cases hfly
    simp [lapse, hne, Ne.symm hend]
  · simp

/-- The exemption for parked runs does not depend on the clock: a run it covers has no attempt
that could expire. -/
theorem LapsedAt.parkedExempt_eq (hs : s.board.Sound) (h : LapsedAt now s t) :
    parkedExempt t = parkedExempt s := by
  by_cases hexp : ∃ (k : AttemptId) (a : AttemptRecord), s.attempts[k]? = some a ∧
      a.expiredAt now = true
  · obtain ⟨k, a, ha, hexp⟩ := hexp
    have hbusy : ∀ {u : RunSnapshot} {b : AttemptRecord}, u.attempts[k]? = some b →
        b.executionQuiesced = false → parkedExempt u = false := by
      intro u b hb hq
      by_contra hex
      simp only [parkedExempt, Bool.not_eq_false, Bool.and_eq_true, OrdMap.allValues_iff] at hex
      have hquiet := (hex.1.2 k b hb).1
      rw [hq] at hquiet
      cases hquiet
    have hfly : a.state.inFlight = true := by
      simp only [expiredAt, Bool.and_eq_true] at hexp
      exact hexp.1
    have hq := (hs.attempt k a ha).notQuiesced (AttemptState.inFlight_open hfly)
    have hlapse : t.attempts[k]? = some a.lapse := by
      rw [h.attempts k, ha]
      simp [hexp]
    rw [hbusy ha hq, hbusy hlapse hq]
  · have hstill := h.still fun k a ha => by
      by_contra he
      exact hexp ⟨k, a, ha, by simpa using he⟩
    rw [hstill]

theorem LapsedAt.any_failedEnd (h : LapsedAt now s t) :
    t.attempts.anyValue (·.state.failedEnd) = true ↔
      ∃ (k : AttemptId) (a : AttemptRecord), s.attempts[k]? = some a ∧
        (a.state.failedEnd = true ∨ a.expiredAt now = true) := by
  refine h.any_attempt fun k a _ => ?_
  split
  · rename_i hexp
    simp [lapse, AttemptState.failedEnd, hexp]
  · rename_i hexp
    simp [hexp]

theorem LapsedAt.any_inFlight (h : LapsedAt now s t) :
    t.attempts.anyValue (·.state.inFlight) = true ↔
      ∃ (k : AttemptId) (a : AttemptRecord), s.attempts[k]? = some a ∧
        a.state.inFlight = true ∧ a.expiredAt now = false := by
  refine h.any_attempt fun k a _ => ?_
  split
  · rename_i hexp
    simp [lapse, AttemptState.inFlight, hexp]
  · rename_i hexp
    simp [hexp]

/-- After the pass an attempt is overdue only by its task's deadline: the lapsed leases are gone,
and every attempt in flight holds a lease. -/
theorem LapsedAt.any_overdue (hs : s.board.Sound) (h : LapsedAt now s t) :
    t.attempts.anyValue (attemptOverdue t now) = true ↔ s.PastDeadline now := by
  have hstate : t.state = s.state := by rw [h.rest]
  have hdeadline : ∀ k : TaskId,
      t.tasks[k]?.any (fun task => task.binding.deadline.any (· ≤ now)) =
        s.tasks[k]?.any (fun task => task.binding.deadline.any (· ≤ now)) := by
    intro k
    cases hk : s.tasks[k]? with
    | none => rw [h.missing k hk]
    | some task =>
      obtain ⟨task', htask', hb, -, -⟩ := h.present k task hk
      rw [htask', Option.any_some, Option.any_some, hb]
  have hone : ∀ (k : AttemptId) (a : AttemptRecord), s.attempts[k]? = some a →
      (attemptOverdue t now (if a.expiredAt now = true then a.lapse else a) = true ↔
        s.state = .active ∧ a.state.inFlight = true ∧ a.expiredAt now = false ∧
          s.tasks[a.taskId]?.any (fun task => task.binding.deadline.any (· ≤ now)) = true) := by
    intro k a ha
    by_cases hfly : a.state.inFlight = true
    · obtain ⟨lease, hlease⟩ := Option.isSome_iff_exists.mp ((hs.attempt k a ha).leased hfly)
      by_cases hexp : a.expiredAt now = true
      · simp [hexp, attemptOverdue, lapse, AttemptState.inFlight]
      · have hcurrent : ¬ lease.expiresAt < now := by
          simpa [expiredAt, hfly, hlease] using hexp
        simp only [hexp, Bool.false_eq_true, if_false, attemptOverdue, hfly, hlease, hstate,
          hdeadline, Bool.true_and, Bool.or_eq_true, Bool.and_eq_true, decide_eq_true_eq, hcurrent,
          or_false, true_and]
    · have hexp : a.expiredAt now = false := by simp [expiredAt, hfly]
      simp [hexp, attemptOverdue, hfly]
  rw [h.any_attempt hone]
  constructor
  · rintro ⟨k, a, ha, hactive, hfly, hexp, hdl⟩
    obtain ⟨task, htask, hdl⟩ := (Option.any_eq_true _ _).mp hdl
    exact ⟨hactive, k, a, task, ha, hfly, hexp, htask, hdl⟩
  · rintro ⟨hactive, k, a, task, ha, hfly, hexp, htask, hdl⟩
    refine ⟨k, a, ha, hactive, hfly, hexp, ?_⟩
    exact (Option.any_eq_true _ _).mpr ⟨task, htask, hdl⟩

theorem LapsedAt.any_inconsistent (h : LapsedAt now s t) :
    t.tasks.anyValue (taskInconsistent t) = true ↔ s.StrandedTask now ∨
      s.state = .active ∧ ∃ (k : TaskId) (task : TaskRecord), s.tasks[k]? = some task ∧
        task.finalizationClaim.isSome = true := by
  have hstate : t.state = s.state := by rw [h.rest]
  have hone : ∀ task, taskInconsistent t task = true ↔
      task.Stranded ∨ s.state = .active ∧ task.finalizationClaim.isSome = true := by
    intro task
    simp [taskInconsistent, TaskRecord.Stranded, hstate, and_comm]
  rw [OrdMap.anyValue_iff]
  constructor
  · rintro ⟨k, task', hk', hbad⟩
    cases hk : s.tasks[k]? with
    | none =>
      rw [h.missing k hk] at hk'
      cases hk'
    | some task =>
      obtain ⟨task₁, h₁, -, hclaim, hstr⟩ := h.present k task hk
      rw [hk', Option.some.injEq] at h₁
      subst h₁
      rcases (hone task').mp hbad with hs | ⟨hactive, hc⟩
      · exact .inl ⟨k, task, hk, hstr.mp hs⟩
      · exact .inr ⟨hactive, k, task, hk, hclaim ▸ hc⟩
  · rintro (⟨k, task, hk, hs⟩ | ⟨hactive, k, task, hk, hc⟩)
    · obtain ⟨task', hk', -, -, hstr⟩ := h.present k task hk
      exact ⟨k, task', hk', (hone task').mpr (.inl (hstr.mpr hs))⟩
    · obtain ⟨task', hk', -, hclaim, -⟩ := h.present k task hk
      exact ⟨k, task', hk', (hone task').mpr (.inr ⟨hactive, hclaim.symm ▸ hc⟩)⟩

end Lapsed

theorem detectRecoveryRequired_iff (t : RunSnapshot) (now : UInt64) :
    detectRecoveryRequired t now = true ↔ t.state = .recoveryRequired ∨ parkedExempt t = false ∧
      (t.attempts.anyValue (fun a => decide (a.state = .suspended)) = true ∨
        t.attempts.anyValue (attemptOverdue t now) = true ∨
        t.tasks.anyValue (taskInconsistent t) = true ∨
        t.state = .active ∧ (t.attempts.anyValue (fun a => decide (a.state = .succeeded)) = true ∨
          t.jobSpec.isSome = true ∧ t.attempts.anyValue (·.state.failedEnd) = true ∧
            t.attempts.anyValue (·.state.inFlight) = false)) := by
  unfold detectRecoveryRequired
  generalize t.attempts.anyValue (fun a => decide (a.state = .suspended)) = parked
  generalize t.attempts.anyValue (attemptOverdue t now) = overdue
  generalize t.tasks.anyValue (taskInconsistent t) = inconsistent
  generalize t.attempts.anyValue (fun a => decide (a.state = .succeeded)) = succeeded
  generalize t.attempts.anyValue (·.state.failedEnd) = failed
  generalize t.attempts.anyValue (·.state.inFlight) = busy
  by_cases hmarked : t.state = .recoveryRequired
  · simp [hmarked]
  · by_cases hactive : t.state = .active
    · cases parkedExempt t <;> cases parked <;> cases overdue <;> cases inconsistent <;>
        cases succeeded <;> simp [hactive, and_assoc]
    · cases parkedExempt t <;> cases parked <;> cases overdue <;> cases inconsistent <;>
        simp [hmarked, hactive]

theorem marked_iff {s : RunSnapshot} (hs : s.board.Sound) (now : UInt64) :
    Marked P s now ↔ s.state = .recoveryRequired ∨ parkedExempt s = false ∧ s.Grounds now := by
  obtain ⟨t, hl, hpass⟩ := startupPass_lapsed (P := P) hs now
  have hstate : t.state = s.state := by rw [hl.rest]
  have hjob : t.jobSpec = s.jobSpec := by rw [hl.rest]
  have hverdict : Marked P s now ↔ detectRecoveryRequired t now = true := by
    simp only [Marked, hpass, Except.ok.injEq, exists_eq_left']
    by_cases hd : detectRecoveryRequired t now = true
    · by_cases hr : t.state = .recoveryRequired
      all_goals simp [hd, hr]
    · have hr : t.state ≠ .recoveryRequired := by
        intro hr
        exact hd ((detectRecoveryRequired_iff t now).mpr (.inl hr))
      simp [hd, hr]
  have hfly : t.attempts.anyValue (·.state.inFlight) = false ↔
      ∀ (k : AttemptId) (a : AttemptRecord), s.attempts[k]? = some a → a.state.inFlight = true →
        a.expiredAt now = true := by
    rw [← Bool.not_eq_true, hl.any_inFlight]
    simp
  rw [hverdict, detectRecoveryRequired_iff, hl.parkedExempt_eq hs, hl.any_overdue hs,
    hl.any_inconsistent, hl.any_state (by rfl) (by decide), hl.any_state (by rfl) (by decide),
    hl.any_failedEnd, hfly, hstate, hjob]
  have hshape : ∀ parked deadline stranded active claimed succeeded failed : Prop,
      (parked ∨ deadline ∨ (stranded ∨ active ∧ claimed) ∨ active ∧ (succeeded ∨ failed)) ↔
        ((parked ∨ active ∧ (claimed ∨ succeeded)) ∨ deadline ∨ stranded ∨ active ∧ failed) := by
    grind
  exact or_congr_right (and_congr_right fun _ => hshape _ _ _ _ _ _ _)

theorem RunSnapshot.FailedOut.later {s : RunSnapshot} {now later : UInt64} (hle : now ≤ later)
    (h : s.FailedOut now) : s.FailedOut later := by
  obtain ⟨hactive, hjob, ⟨k, a, ha, hend⟩, hall⟩ := h
  refine ⟨hactive, hjob, ⟨k, a, ha, ?_⟩, fun k a ha hfly => ?_⟩
  · exact hend.imp_right (expiredAt_mono hle)
  · exact expiredAt_mono hle (hall k a ha hfly)

/-- The verdict at `now` rests only on a deadline passed under a current lease, or on a task
stranded beside one, and those leases have all expired at `later`. -/
structure Lapses (s : RunSnapshot) (now later : UInt64) : Prop where
  unmarked : s.state ≠ .recoveryRequired
  busy : parkedExempt s = false
  passing : ¬ s.LastingGround
  ground : s.PastDeadline now ∨ s.StrandedTask now
  inTime : ¬ s.PastDeadline later
  released : ¬ s.StrandedTask later
  workable : ¬ s.FailedOut later

/-- A run that a pass marks is marked by every later pass over the same snapshot, unless the
grounds lapse in between. -/
theorem marked_again_iff {s : RunSnapshot} (h : Reachable P s) {now later : UInt64}
    (hle : now ≤ later) : (Marked P s now → Marked P s later) ↔ ¬ Lapses s now later := by
  have hs := h.sound
  rw [marked_iff hs, marked_iff hs]
  constructor
  · intro himp hlapse
    have hgrounds : s.Grounds now := by
      rcases hlapse.ground with hg | hg
      · exact .inr (.inl hg)
      · exact .inr (.inr (.inl hg))
    rcases himp (.inr ⟨hlapse.busy, hgrounds⟩) with hr | ⟨-, hg | hg | hg | hg⟩
    · exact hlapse.unmarked hr
    · exact hlapse.passing hg
    · exact hlapse.inTime hg
    · exact hlapse.released hg
    · exact hlapse.workable hg
  · rintro hnot (hr | ⟨hbusy, hg⟩)
    · exact .inl hr
    · by_contra hno
      rw [not_or, not_and] at hno
      obtain ⟨hr, hno⟩ := hno
      have hlater : ¬ s.Grounds later := hno hbusy
      simp only [RunSnapshot.Grounds, not_or] at hlater
      obtain ⟨hlast, hdl, hstr, hfail⟩ := hlater
      refine hnot ⟨hr, hbusy, hlast, ?_, hdl, hstr, hfail⟩
      rcases hg with hg | hg | hg | hg
      · exact absurd hg hlast
      · exact .inl hg
      · exact .inr hg
      · exact absurd (hg.later hle) hfail

/-- The lease of an attempt outlives the deadline of its task, at 1000. While the lease is
current, until 1200, every start marks the run. -/
theorem marked_again_iff_leased :
    ∃ s, Reachable platform s ∧ Marked platform s 1000 ∧ Marked platform s 1100 ∧
      ¬ Lapses s 1000 1100 := by
  have hs := ran_reachable [createRun, startRun, createAttempt "a", leaseAttempt "a" 0 1200] rfl
  exact ⟨_, hs, ⟨_, rfl, rfl⟩, ⟨_, rfl, rfl⟩,
    (marked_again_iff hs (by decide : (1000 : UInt64) ≤ 1100)).mp fun _ => ⟨_, rfl, rfl⟩⟩

/-- Once that lease has expired, a start finds a ready task and marks nothing. -/
theorem marked_not_again :
    ∃ s, Reachable platform s ∧ Marked platform s 1000 ∧ ¬ Marked platform s 2000 := by
  have hs := ran_reachable [createRun, startRun, createAttempt "a", leaseAttempt "a" 0 1200] rfl
  refine ⟨_, hs, ⟨_, rfl, rfl⟩, ?_⟩
  intro h
  obtain ⟨t, ht, hmarked⟩ := h
  cases ht
  cases hmarked

end Tetonic.Run
