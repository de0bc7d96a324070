import Tetonic.Control.Store
import Tetonic.Run.TaskLife
set_option autoImplicit false

/-! Suspended attempts. A suspension puts the rest of the execution time aside and the resumption
gives it back, so that the deadline moves by the time in between. What is parked survives a restart
untouched. -/

namespace Tetonic.Run
open Lib Demo OrdMap AttemptState

variable {P : Platform} {C : RunSnapshot → RunEvent → Prop} {s t : RunSnapshot} {e : RunEvent}
  {es : List RunEvent} {id : AttemptId} {a a' : AttemptRecord} {k : TaskId}

theorem AttemptMove.terminal (h : AttemptMove a a') (ht : isTerminalAttempt a.state = true) :
    isTerminalAttempt a'.state = true := by
  cases h with
  | fail hs =>
    rw [inFlight_not_terminal hs] at ht
    cases ht
  | _ => grind [isTerminalAttempt, inFlight]

/-- A suspended attempt sleeps on, is over, or wakes up without its suspension. -/
theorem AttemptMove.asleep (h : AttemptMove a a') (hs : a.state = .suspended) :
    a' = a ∨ isTerminalAttempt a'.state = true ∨ a'.state.isOpen = true ∧ a'.suspension = none := by
  cases h <;> grind [isTerminalAttempt, inFlight, isOpen]

theorem AttemptMove.unparked (h : AttemptMove a a') (hsuspension : a'.suspension = a.suspension)
    (hnone : a.suspension = none) (hs : a.state ≠ .suspended) : a'.state ≠ .suspended := by
  cases h <;> grind [failedEnd]

/-- The deadline of a task moves only with the resumption of one of its attempts, whose fellows are
all over. -/
theorem TaskStep.deadline {v v' : TaskView} (h : TaskStep s e k v v') :
    v'.task.binding.deadline = v.task.binding.deadline ∨
      ∃ j r r', v.attempts[j]? = some r ∧ r.state = .suspended ∧ v'.attempts[j]? = some r' ∧
        r'.state = .starting ∧ ∀ (i : AttemptId) (q : AttemptRecord), v.attempts[i]? = some q →
          i ≠ j → isTerminalAttempt q.state = true := by
  cases h with
  | resume ha hstate hstarting _ hothers =>
    exact .inr ⟨_, _, _, ha, hstate, get_insert_self _ _ _, hstarting, hothers⟩
  | wait h =>
    obtain ⟨state, rfl⟩ := h.eq
    exact .inl rfl
  | retry _ _ _ _ h =>
    obtain ⟨state, rfl⟩ := h.eq
    exact .inl (congrArg _ (e.failing_retry v.task).1)
  | giveUp => exact .inl (congrArg _ (e.failing_retry v.task).1)
  | cancelRun =>
    dsimp only
    unfold cancelTaskRecord
    split
    all_goals exact .inl rfl
  | _ => exact .inl rfl

/-- For how long an attempt has been suspended, and since when it is suspended now. -/
structure Pause where
  since : Option UInt64
  total : Int

def Pause.step (id : AttemptId) (p : Pause) : RunEvent → Pause
  | .command (.suspendAttempt c) =>
    if c.attemptId = id then { p with since := some c.envelope.timestamp } else p
  | .command (.resumeAttempt c) =>
    if c.attemptId = id then
      ⟨none, p.total + ((p.since.map fun t => c.envelope.timestamp.toNat - (t.toNat : Int)).getD 0)⟩
    else p
  | _ => p

def paused (id : AttemptId) (es : List RunEvent) : Pause := es.foldl (Pause.step id) ⟨none, 0⟩

theorem paused_snoc (id : AttemptId) (es : List RunEvent) (e : RunEvent) :
    paused id (es ++ [e]) = (paused id es).step id e := by
  simp [paused]

theorem Pause.step_other {p : Pause} (h : e.parks ≠ some id) : p.step id e = p := by
  unfold Pause.step
  split
  · exact if_neg fun hid => h (congrArg some hid)
  · exact if_neg fun hid => h (congrArg some hid)
  · rfl

/-- How an attempt stands with its time: it is over, it has until `due`, or it is suspended with
what is left until then. -/
inductive TimeKept (s : RunSnapshot) (id : AttemptId) (k : TaskId) (since : Option UInt64)
    (due : Int) : Prop where
  | ended {a : AttemptRecord} (ha : s.attempts[id]? = some a)
      (hover : isTerminalAttempt a.state = true)
  | live {a : AttemptRecord} {task : TaskRecord} {d : UInt64} (ha : s.attempts[id]? = some a)
      (hk : a.taskId = k) (htask : s.tasks[k]? = some task) (hd : task.binding.deadline = some d)
      (hdue : (d.toNat : Int) = due) (hstate : a.state ≠ .suspended)
      (hnone : a.suspension = none) (hsince : since = none)
  | parked {a : AttemptRecord} {task : TaskRecord} {d : UInt64} {q : AttemptSuspension}
      (ha : s.attempts[id]? = some a) (hk : a.taskId = k) (htask : s.tasks[k]? = some task)
      (hd : task.binding.deadline = some d) (hdue : (d.toNat : Int) = due)
      (hstate : a.state = .suspended) (hq : a.suspension = some q)
      (hsince : since = some q.suspendedAt)
      (hrest : q.suspendedAt.toNat + q.remainingSeconds.toNat = d.toNat)

theorem TimeKept.stamped {since : Option UInt64} {due : Int} (h : TimeKept s id k since due)
    (sequence : Nat) (events : List RunEventEnvelope) :
    TimeKept { s with sequence, events } id k since due := by
  cases h with
  | ended ha hover => exact .ended ha hover
  | live ha hk htask hd hdue hstate hnone hsince =>
    exact .live ha hk htask hd hdue hstate hnone hsince
  | parked ha hk htask hd hdue hstate hq hsince hrest =>
    exact .parked ha hk htask hd hdue hstate hq hsince hrest

theorem TimeKept.suspend {c : SuspendAttempt} {since : Option UInt64} {due : Int}
    (h : TimeKept s c.attemptId k since due) (hc : suspend s c = .ok t) :
    TimeKept t c.attemptId k (some c.envelope.timestamp) due := by
  obtain ⟨b, task, lease, deadline, hspec⟩ := suspend_spec hc
  have hb := hspec.attemptAt
  cases h with
  | ended ha hover =>
    rw [ha] at hb
    cases hb
    rw [hspec.running] at hover
    cases hover
  | parked ha _ _ _ _ hstate =>
    rw [ha] at hb
    cases hb
    rw [hspec.running] at hstate
    cases hstate
  | live ha hk htask hd hdue =>
    rw [ha] at hb
    cases hb
    subst hk
    have htask' := hspec.taskAt
    rw [htask] at htask'
    cases htask'
    have hd' := hspec.deadlineAt
    rw [hd] at hd'
    cases hd'
    rw [hspec.result]
    refine .parked (get_insert_self _ _ _) rfl (get_insert_self _ _ _) hd hdue rfl rfl rfl ?_
    have hlt := UInt64.lt_iff_toNat_lt.mp hspec.unspent
    have hrest := UInt64.toNat_sub_of_le _ _ (UInt64.le_of_lt hspec.unspent)
    dsimp only
    omega

theorem TimeKept.resume {c : ResumeAttempt} {p : Pause} {base : Int}
    (h : TimeKept s c.attemptId k p.since (base + p.total)) (hc : resume s c = .ok t) :
    TimeKept t c.attemptId k none
      (base + (p.step c.attemptId (.command (.resumeAttempt c))).total) := by
  obtain ⟨b, task, lease, parked, deadline, epoch, hspec⟩ := resume_spec hc
  have hb := hspec.attemptAt
  cases h with
  | ended ha hover =>
    rw [ha] at hb
    cases hb
    rw [hspec.suspended] at hover
    cases hover
  | live ha _ _ _ _ hstate =>
    rw [ha] at hb
    cases hb
    exact absurd hspec.suspended hstate
  | @parked _ _ d q ha hk htask hd hdue hstate hq hsince hrest =>
    rw [ha] at hb
    cases hb
    subst hk
    have hq' := hspec.parkedAt
    rw [hq] at hq'
    cases hq'
    have hdeadline := hspec.deadlineAt
    unfold checkedAdd at hdeadline
    split at hdeadline
    · rename_i hfits
      cases hdeadline
      rw [hspec.result]
      refine .live (get_insert_self _ _ _) rfl (get_insert_self _ _ _) rfl ?_ (by simp) rfl rfl
      simp only [Pause.step, if_true, hsince, Option.map_some, Option.getD_some]
      rw [UInt64.toNat_add, Nat.mod_eq_of_lt hfits]
      omega
    · cases hdeadline

/-- An event that neither suspends nor resumes the attempt leaves its time as it is. -/
theorem TimeKept.other {since : Option UInt64} {due : Int} (h : TimeKept s id k since due)
    (hsound : s.board.Sound) (ho : Occurs P s e t) (hparks : e.parks ≠ some id) :
    TimeKept t id k since due := by
  have hstep : ∀ {a : AttemptRecord}, s.attempts[id]? = some a → ∃ a', t.attempts[id]? = some a' ∧
      AttemptMove a a' ∧ a'.suspension = a.suspension := by
    intro a ha
    obtain ⟨u, n, events, hmoves, rfl⟩ := ho.moves
    obtain ⟨a', ha', hmove⟩ := hmoves.board.attempt_after ha
    obtain ⟨b, hb, hheld⟩ := hmoves.holds id a ha
    rw [show u.attempts[id]? = some a' from ha'] at hb
    cases hb
    exact ⟨a', ha', hmove, hheld.suspension hparks⟩
  -- while the attempt is not over, its task keeps its deadline, or else it has woken up
  have hdeadline : ∀ {a : AttemptRecord} {task : TaskRecord}, s.attempts[id]? = some a →
      a.taskId = k → isTerminalAttempt a.state = false → s.tasks[k]? = some task →
      ∃ task', t.tasks[k]? = some task' ∧ (task'.binding.deadline = task.binding.deadline ∨
        a.state = .suspended ∧ ∃ a', t.attempts[id]? = some a' ∧ a'.state = .starting) := by
    intro a task ha hk hlive htask
    obtain ⟨v', hv', hts⟩ := ho.view hsound (view_eq.mpr ⟨task, htask, rfl⟩)
    obtain ⟨task', htask', rfl⟩ := view_eq.mp hv'
    refine ⟨task', htask', ?_⟩
    rcases hts.deadline with hsame | ⟨j, r, r', hr, hsuspended, hr', hstarting, hothers⟩
    · exact .inl hsame
    · by_cases hj : id = j
      · subst hj
        obtain ⟨hget, -⟩ := attemptsOf_get.mp hr
        rw [ha] at hget
        cases hget
        exact .inr ⟨hsuspended, r', (attemptsOf_get.mp hr').1, hstarting⟩
      · have hover := hothers id a (attemptsOf_get.mpr ⟨ha, hk⟩) hj
        rw [hlive] at hover
        cases hover
  cases h with
  | ended ha hover =>
    obtain ⟨a', ha', hmove, -⟩ := hstep ha
    exact .ended ha' (hmove.terminal hover)
  | @live a task d ha hk htask hd hdue hstate hnone hsince =>
    obtain ⟨a', ha', hmove, hsuspension⟩ := hstep ha
    cases hover : isTerminalAttempt a.state with
    | true => exact .ended ha' (hmove.terminal hover)
    | false =>
      obtain ⟨task', htask', hsame | ⟨hsuspended, -⟩⟩ := hdeadline ha hk hover htask
      · exact .live ha' (hmove.ids.2.trans hk) htask' (hsame.trans hd) hdue
          (hmove.unparked hsuspension hnone hstate) (hsuspension.trans hnone) hsince
      · exact absurd hsuspended hstate
  | @parked a task d q ha hk htask hd hdue hstate hq hsince hrest =>
    obtain ⟨a', ha', hmove, hsuspension⟩ := hstep ha
    obtain rfl | hover | ⟨-, hnone⟩ := hmove.asleep hstate
    · obtain ⟨task', htask', hsame | ⟨-, b, hb, hstarting⟩⟩ :=
        hdeadline ha hk (by rw [hstate]; rfl) htask
      · exact .parked ha' hk htask' (hsame.trans hd) hdue hstate hq hsince hrest
      · rw [ha'] at hb
        cases hb
        rw [hstate] at hstarting
        cases hstarting
    · exact .ended ha' hover
    · rw [hsuspension, hq] at hnone
      cases hnone

theorem Trace.timeKept {base : Int} (hs : ReachableWhere P C s) (h : Trace P C s es t)
    (hkept : TimeKept s id k none base) :
    TimeKept t id k (paused id es).since (base + (paused id es).total) := by
  induction h with
  | nil => simpa [paused] using hkept
  | @snoc es e u t htrace hc ho ih =>
    rw [paused_snoc]
    by_cases hparks : e.parks = some id
    · cases ho with
      | @command c u' n events h =>
        cases c with
        | suspendAttempt =>
          cases hparks
          have hkept := (TimeKept.suspend ih h).stamped n events
          simpa [Pause.step] using hkept
        | resumeAttempt =>
          cases hparks
          have hkept := (TimeKept.resume ih h).stamped n events
          simpa [Pause.step] using hkept
        | _ => cases hparks
      | expire | quarantine => cases hparks
    · rw [Pause.step_other hparks]
      exact ih.other (hs.trace htrace).sound ho hparks

/-- As long as an attempt lives, the deadline of its task is the one it started with, later by the
time for which the attempt was suspended in between. -/
theorem suspension_conserves_time (P : Platform) {s t : RunSnapshot} {es : List RunEvent}
    (hs : Reachable P s) (h : Trace P (fun _ _ => True) s es t) {id : AttemptId}
    {a a' : AttemptRecord} {task : TaskRecord} {d : UInt64} (ha : s.attempts[id]? = some a)
    (hopen : a.state.isOpen = true) (htask : s.tasks[a.taskId]? = some task)
    (hd : task.binding.deadline = some d) (ha' : t.attempts[id]? = some a')
    (hopen' : a'.state.isOpen = true) :
    ∃ task' d', t.tasks[a.taskId]? = some task' ∧ task'.binding.deadline = some d' ∧
      (d'.toNat : Int) = d.toNat + (paused id es).total := by
  have hstate : a.state ≠ .suspended := by
    intro hsuspended
    rw [hsuspended] at hopen
    cases hopen
  have hkept := h.timeKept hs.events
    (.live ha rfl htask hd rfl hstate ((hs.sound.attempt id a ha).awake hopen) rfl)
  cases hkept with
  | ended hb hover =>
    rw [ha'] at hb
    cases hb
    rw [isOpen_not_terminal hopen'] at hover
    cases hover
  | live _ _ htask' hd' hdue => exact ⟨_, _, htask', hd', hdue⟩
  | parked hb _ _ _ _ hsuspended =>
    rw [ha'] at hb
    cases hb
    rw [hsuspended] at hopen'
    cases hopen'

theorem suspension_conserves_time_once :
    ∃ s t es task' d', Reachable platform s ∧ Trace platform (fun _ _ => True) s es t ∧
      (paused "a" es).total = 1 ∧ t.tasks["task"]? = some task' ∧
      task'.binding.deadline = some d' ∧ (d'.toNat : Int) = (1000 : UInt64).toNat + 1 := by
  obtain ⟨hs, ht⟩ := ran_on (leasedUntil ++ [startAttempt "a" 1, claimExecution "a" 1])
    [suspendAttempt "a" 1, resumeAttempt "a" 1] rfl rfl
  obtain ⟨task', d', htask', hd', hsum⟩ := suspension_conserves_time platform hs ht.trace
    (show (RunSnapshot.attempts _)["a"]? = some _ from rfl) rfl rfl rfl rfl rfl
  exact ⟨_, _, _, task', d', hs, ht.trace, by decide, htask', hd', hsum⟩

/-- The run has ended and all its workers have stopped. -/
def RunSnapshot.released (snapshot : RunSnapshot) : Bool :=
  (match snapshot.state with
    | .succeeded | .failed | .canceled => true
    | _ => false)
    && !snapshot.attempts.isEmpty
    && snapshot.attempts.allValues fun a => a.executionQuiesced && isTerminalAttempt a.state

def RunSnapshot.suspended (snapshot : RunSnapshot) (root : TaskRecord) : Bool :=
  decide (snapshot.state = .active)
    && decide (snapshot.tasks.size = 1)
    && snapshot.attempts.allValues (·.executionQuiesced)
    && decide (root.state = .parked)
    && (root.activeAttempt.bind fun id => snapshot.attempts[id]?).any fun (a : AttemptRecord) =>
        decide (a.state = .suspended) && a.executionQuiesced && a.suspension.isSome

/-- The identity whose execution slot the run counts against, and whether it holds the slot. -/
def registeredCapacity (snapshot : RunSnapshot) : Control.Result (Option String × Bool) :=
  match (snapshot.tasks.toList.map Prod.snd).filter fun t => t.binding.activation.isSome with
  | [] => .ok (none, false)
  | root :: rest =>
    match root.binding.jobSpec with
    | none => .error (.invalidControlResource "registered run has no identity binding")
    | some job => do
      Control.failIf (.invalidControlResource "invalid registered run binding")
        (!rest.isEmpty || root.binding.executionScope.isNone ||
          decide (snapshot.jobSpec ≠ some job))
      .ok (some job.identityId, !(snapshot.released || snapshot.suspended root))

theorem registeredCapacity_suspended {identity : String}
    (h : registeredCapacity s = .ok (some identity, false)) (hreleased : s.released = false) :
    ∃ (k : TaskId) (root : TaskRecord), s.tasks[k]? = some root ∧
      root.binding.activation.isSome = true ∧
      root.binding.executionScope.isSome = true ∧ s.suspended root = true := by
  unfold registeredCapacity at h
  split at h
  · cases h
  · rename_i root rest hroots
    have hroot : root ∈ (s.tasks.toList.map Prod.snd).filter fun t =>
        t.binding.activation.isSome := by
      rw [hroots]
      exact List.mem_cons_self
    obtain ⟨hroot, hactivation⟩ := List.mem_filter.mp hroot
    obtain ⟨⟨k, task⟩, hk, rfl⟩ := List.mem_map.mp hroot
    have htask := Std.ExtTreeMap.mem_toList_iff_getElem?_eq_some.mp hk
    split at h
    · cases h
    · simp only [bind_eq_ok, Control.failIf_eq_ok, exists_const, Bool.or_eq_false_iff,
        Except.ok.injEq, Prod.mk.injEq, hreleased, Bool.false_or, Bool.not_eq_false'] at h
      obtain ⟨⟨⟨-, hscope⟩, -⟩, -, hsuspended⟩ := h
      exact ⟨k, task, htask, hactivation, by simpa using hscope, hsuspended⟩

/-- All that a resumption needs of the attempt is there. -/
structure AttemptRecord.Saved (a : AttemptRecord) : Prop where
  claimed : a.executionClaimed = true
  lease : a.lease.isSome = true
  checkpoint : a.suspension.any (fun p => decide (p.remainingSeconds > 0)
    && !(p.checkpoint.artifactId == "") && !(p.checkpoint.digest == "")) = true

structure TaskRecord.ParkedIn (task : TaskRecord) (s : RunSnapshot) (k : TaskId) : Prop where
  running : s.cancellation.runCanceled = false
  delegation : task.binding.delegation.isSome = false
  unclaimed : task.finalizationClaim = none
  attempts : ∀ (id : AttemptId) (a : AttemptRecord), s.attempts[id]? = some a → a.taskId = k →
    isTerminalAttempt a.state = true ∨
      a.state = .suspended ∧ task.activeAttempt = some id ∧ a.Saved

def RunSnapshot.Parked (s : RunSnapshot) : Prop :=
  ∀ (k : TaskId) (task : TaskRecord), s.tasks[k]? = some task → task.state = .parked →
    task.ParkedIn s k

/-- Only a suspension parks a task. Otherwise it was parked before, and since none of its attempts
could go on, nothing has happened to it. -/
theorem TaskStep.parked {v v' : TaskView} (h : TaskStep s e k v v')
    (hparked : v'.task.state = .parked) (hother : ∀ c, e ≠ .command (.suspendAttempt c))
    (hclosed : v.task.state = .parked → ∀ (id : AttemptId) (a : AttemptRecord),
      v.attempts[id]? = some a → a.state.isOpen = false) :
    v.task.state = .parked ∧ v'.task.binding = v.task.binding ∧
      v'.task.finalizationClaim = v.task.finalizationClaim ∧
      v'.task.activeAttempt = v.task.activeAttempt ∧
      ∀ (id : AttemptId) (a : AttemptRecord), v'.attempts[id]? = some a →
        a.state.isOpen = false := by
  cases h with
  | wait h =>
    obtain rfl | ⟨-, st, rfl | rfl | rfl, rfl⟩ := h
    · exact ⟨hparked, rfl, rfl, rfl, hclosed hparked⟩
    all_goals cases hparked
  | note => exact ⟨hparked, rfl, rfl, rfl, hclosed hparked⟩
  | create _ hstate =>
    dsimp only at hparked
    split at hparked
    · cases hparked
    · simp [hparked] at hstate
  | @adjust id a a' ha hstate =>
    have hasleep := hclosed hparked id a ha
    refine ⟨hparked, rfl, rfl, rfl, ?_⟩
    intro j r hr
    obtain ⟨rfl, rfl⟩ | ⟨-, hr⟩ := get_insert_cases hr
    · obtain hstate | ⟨hopen, -⟩ := hstate
      · rw [hstate]
        exact hasleep
      · rw [hasleep] at hopen
        cases hopen
    · exact hclosed hparked j r hr
  | suspend _ _ _ _ _ he =>
    obtain ⟨c, rfl⟩ := he
    exact absurd rfl (hother c)
  | claimFinalization he hclaim =>
    obtain hclaim | ⟨-, -, a, ha, hfly⟩ := hclaim
    · exact ⟨hparked, rfl, hclaim.symm, rfl, hclosed hparked⟩
    · have hasleep := hclosed hparked _ a ha
      rw [inFlight_open hfly] at hasleep
      cases hasleep
  | complete he ha hfly =>
    have hasleep := hclosed hparked _ _ ha
    rw [inFlight_open hfly] at hasleep
    cases hasleep
  | retry _ _ _ _ h =>
    obtain rfl | ⟨-, st, rfl | rfl | rfl, rfl⟩ := h
    all_goals cases hparked
  | cancelRun =>
    dsimp only at hparked
    unfold cancelTaskRecord at hparked
    split at hparked
    · cases hparked
    · simp_all [taskIsLocked]
  | _ => cases hparked

/-- The run of a parked task has not been canceled by this event. -/
theorem Effect.cancellation (h : Effect s e t) {task : TaskRecord} (htask : t.tasks[k]? = some task)
    (hparked : task.state = .parked) : t.cancellation = s.cancellation := by
  cases h with
  | cancelRun =>
    rw [get_map, Option.map_eq_some_iff] at htask
    obtain ⟨task, -, rfl⟩ := htask
    unfold cancelTaskRecord at hparked
    split at hparked
    · cases hparked
    · simp_all [taskIsLocked]
  | startRun | addTask | addDependency => rw [(recomputeBlockedReady_rescheduled _).rest]
  | failed _ hhandled =>
    obtain ⟨_, _, hr⟩ := hhandled.rescheduled
    rw [hr.rest]
  | _ => rfl

theorem Suspends.parked {c : SuspendAttempt} {task : TaskRecord} {lease : AttemptLease}
    {deadline : UInt64} (h : Suspends s c a task lease deadline t) (hsound : s.board.Sound) :
    t.Parked := by
  intro k r hr hparked
  rw [h.result] at hr ⊢
  obtain ⟨rfl, rfl⟩ | ⟨hne, hr⟩ := get_insert_cases hr
  · refine ⟨h.accepts.2, h.delegation, h.unclaimed, ?_⟩
    intro id b hb hk
    obtain ⟨rfl, rfl⟩ | ⟨hid, hb⟩ := get_insert_cases hb
    · refine .inr ⟨rfl, h.active, h.claimed, by simp [h.leaseAt], ?_⟩
      have hspare := UInt64.lt_iff_toNat_lt.mp h.unspent
      have hrest := UInt64.toNat_sub_of_le _ _ (UInt64.le_of_lt h.unspent)
      have hpos : deadline - c.envelope.timestamp > 0 := by
        rw [gt_iff_lt, UInt64.lt_iff_toNat_lt, hrest]
        exact Nat.sub_pos_of_lt hspare
      have hartifact := h.artifact
      have hdigest := h.digest
      simp only [byteLength, ne_eq, String.utf8ByteSize_eq_zero_iff] at hartifact hdigest
      simp [hpos, hartifact, hdigest]
    · exact .inl (h.settled id b hb (by rw [hsound.attemptKey id b hb]; exact Ne.symm hid)).1
  · exact absurd (key_unique _ (Nat.le_of_eq h.single) h.taskAt hr) hne

theorem Occurs.parked (hsound : s.board.Sound) (hs : s.Parked) (ho : Occurs P s e t) :
    t.Parked := by
  by_cases he : ∃ c, e = .command (.suspendAttempt c)
  · obtain ⟨c, rfl⟩ := he
    cases ho with
    | command h =>
      obtain ⟨a, task, lease, deadline, hspec⟩ := suspend_spec h
      intro k r hr hparked
      obtain ⟨hrunning, hdelegation, hunclaimed, hattempts⟩ := hspec.parked hsound k r hr hparked
      exact ⟨hrunning, hdelegation, hunclaimed, hattempts⟩
  · obtain ⟨u, n, events, hmoves, rfl⟩ := ho.moves
    intro k task' htask' hparked
    obtain ⟨v, hv, hts⟩ | ⟨-, ⟨binding, hnew⟩, -⟩ :=
      hmoves.effect.view hsound (view_eq.mpr ⟨task', htask', rfl⟩)
    · obtain ⟨task, htask, rfl⟩ := view_eq.mp hv
      have hclosed : task.state = .parked → ∀ (id : AttemptId) (a : AttemptRecord),
          (attemptsOf s.attempts k)[id]? = some a → a.state.isOpen = false := by
        intro hparked id a ha
        obtain ⟨ha, hk⟩ := attemptsOf_get.mp ha
        obtain hover | ⟨hstate, -⟩ := (hs k task htask hparked).attempts id a ha hk
        · cases hopen : a.state.isOpen with
          | false => rfl
          | true =>
            rw [isOpen_not_terminal hopen] at hover
            cases hover
        · rw [hstate]
          rfl
      obtain ⟨hbefore, hbinding, hclaim, hactive, hopen⟩ :=
        hts.parked hparked (fun c hc => he ⟨c, hc⟩) hclosed
      have hin := hs k task htask hbefore
      refine ⟨(congrArg _ (hmoves.effect.cancellation htask' hparked)).trans hin.running,
        (congrArg (fun b => b.delegation.isSome) hbinding).trans hin.delegation,
        hclaim.trans hin.unclaimed, ?_⟩
      intro id a' ha' hk
      have hstill := hopen id a' (attemptsOf_get.mpr ⟨ha', hk⟩)
      obtain ⟨a, ha, hmove⟩ | ⟨-, hfresh, -⟩ := hmoves.board.attempt_before ha'
      · obtain hover | ⟨hstate, hid, hsaved⟩ := hin.attempts id a ha (hmove.ids.2.symm.trans hk)
        · exact .inl (hmove.terminal hover)
        · obtain rfl | hover | ⟨hwoken, -⟩ := hmove.asleep hstate
          · exact .inr ⟨hstate, hactive.trans hid, hsaved⟩
          · exact .inl hover
          · rw [hstill] at hwoken
            cases hwoken
      · rw [hfresh.state] at hstill
        cases hstill
    · obtain rfl | ⟨-, st, rfl | rfl | rfl, rfl⟩ := hnew
      all_goals cases hparked

theorem ReachableWhere.parked (h : ReachableWhere P C s) : s.Parked := by
  obtain ⟨runId, session, hr⟩ := h
  induction hr with
  | refl =>
    intro k task htask
    simp [emptySnapshot] at htask
  | tail hr hstep ih =>
    obtain ⟨e, -, ho⟩ := hstep
    exact ho.parked (ReachableWhere.sound ⟨runId, session, hr⟩) ih

theorem RunSnapshot.Parked.exempt (h : s.Parked) (hsound : s.board.Sound) {root : TaskRecord}
    (hroot : s.tasks[k]? = some root) (hactivation : root.binding.activation.isSome = true)
    (hscope : root.binding.executionScope.isSome = true) (hsuspended : s.suspended root = true) :
    parkedExempt s = true := by
  simp only [RunSnapshot.suspended, Bool.and_eq_true, decide_eq_true_eq,
    allValues_iff] at hsuspended
  obtain ⟨⟨⟨⟨hactive, hsize⟩, hquiesced⟩, hparked⟩, hattempt⟩ := hsuspended
  have hin := h k root hroot hparked
  have hone : ∀ (j : TaskId) (task : TaskRecord), s.tasks[j]? = some task → j = k ∧
      task = root := by
    intro j task hj
    obtain rfl := key_unique _ (Nat.le_of_eq hsize) hj hroot
    rw [hroot] at hj
    cases hj
    exact ⟨rfl, rfl⟩
  obtain ⟨b, hb, hasleep⟩ := (Option.any_eq_true _ _).mp hattempt
  obtain ⟨i, -, hi⟩ := Option.bind_eq_some_iff.mp hb
  simp only [parkedExempt, Bool.and_eq_true, decide_eq_true_eq, allValues_iff]
  refine ⟨⟨⟨⟨⟨⟨hactive, by simp [hin.running]⟩, hsize⟩, ?_⟩, ?_⟩, ?_⟩, ?_⟩
  · intro j task hj
    obtain ⟨-, rfl⟩ := hone j task hj
    have hdelegation := hin.delegation
    simp_all [hin.unclaimed]
  · rw [anyValue_iff]
    simp only [Bool.and_eq_true] at hasleep
    exact ⟨i, b, hi, hasleep.1.1⟩
  · intro id a ha
    refine ⟨hquiesced id a ha, ?_⟩
    obtain ⟨task, htask⟩ := hsound.attemptTask id a ha
    obtain ⟨rfl, rfl⟩ := hone _ task htask
    obtain hover | ⟨hstate, hid, hsaved⟩ := hin.attempts id a ha rfl
    · rw [hover]
      rfl
    · simp [hstate, hsaved.claimed, hsaved.lease, hsaved.checkpoint, hroot, hparked, hid,
        hsound.attemptKey id a ha]
  · intro j task hj
    obtain ⟨-, rfl⟩ := hone j task hj
    rw [hparked]

/-- A run that gave up its execution slot because it is suspended looks the same to a restart at
any time: no lease of it is recovered and nothing asks for recovery. -/
theorem suspension_survives_restart (P : Platform) {s : RunSnapshot} (hs : Reachable P s)
    {identity : String} (hcapacity : registeredCapacity s = .ok (some identity, false))
    (hreleased : s.released = false) (now : UInt64) :
    recoverExpiredLeases P s now = .ok s ∧ detectRecoveryRequired s now = false ∧
      startupPass P s now = .ok s := by
  obtain ⟨k, root, hroot, hactivation, hscope, hsuspended⟩ :=
    registeredCapacity_suspended hcapacity hreleased
  have hexempt := hs.events.parked.exempt hs.sound hroot hactivation hscope hsuspended
  simp only [RunSnapshot.suspended, Bool.and_eq_true, decide_eq_true_eq,
    allValues_iff] at hsuspended
  obtain ⟨⟨⟨⟨hactive, -⟩, hquiesced⟩, -⟩, -⟩ := hsuspended
  have hrecover : recoverExpiredLeases P s now = .ok s := by
    have hnone : (s.attempts.keysWhere fun _ a => a.expiredAt now) = [] := by
      refine List.eq_nil_iff_forall_not_mem.mpr ?_
      intro id hid
      obtain ⟨a, ha, hexpired⟩ := (mem_keysWhere _ _ _).mp hid
      simp only [AttemptRecord.expiredAt, Bool.and_eq_true] at hexpired
      have hbusy := (hs.sound.attempt id a ha).notQuiesced (inFlight_open hexpired.1)
      rw [hquiesced id a ha] at hbusy
      cases hbusy
    unfold recoverExpiredLeases
    rw [hnone]
    rfl
  have hdetect : detectRecoveryRequired s now = false := by
    simp [detectRecoveryRequired, hactive, hexempt]
  refine ⟨hrecover, hdetect, ?_⟩
  simp [startupPass, hrecover, hdetect]

namespace Demo

def job : AgentJobSpec := ⟨"agent", "definition", "input", [], [], "recovery"⟩

def createRegistered : RunCommand := .createRun {
  envelope := envelope "create" 1
  sessionId := none
  runId := "run"
  rootTaskId := "task"
  rootBinding := { binding with jobSpec := some job }
  speculation := none
  jobSpec := some job }

end Demo

theorem suspension_survives_restart_parked :
    ∃ s, Reachable platform s ∧ registeredCapacity s = .ok (some "agent", false) ∧
      startupPass platform s 900 = .ok s := by
  have hs := ran_reachable [createRegistered, startRun, createAttempt "a", leaseAttempt "a" 1 500,
    startAttempt "a" 1, claimExecution "a" 1, suspendAttempt "a" 1] rfl
  exact ⟨_, hs, rfl, (suspension_survives_restart _ hs rfl rfl 900).2.2⟩

end Tetonic.Run
