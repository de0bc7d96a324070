import Tetonic.Node.Queue
set_option autoImplicit false

/-! The scheduler's steps, one by one: what each can do, and that each keeps the scheduler sane. -/

namespace Tetonic.Node
open Lib

variable {s s' x : Scheduler} {c ch c' : Nat} {call : Call}

def Call.rejected (call : Call) : Call :=
  if call.phase = .waiting then { call with phase := .sent (.error .ownerActiveBlocksCircle) }
  else call

theorem Call.rejected_rejected (call : Call) : call.rejected.rejected = call.rejected := by
  unfold Call.rejected
  split <;> rfl

theorem Call.rejected_jobId (call : Call) : call.rejected.jobId = call.jobId := by
  unfold Call.rejected
  split <;> rfl

theorem Call.rejected_channel (call : Call) : call.rejected.phase.channel = call.phase.channel := by
  unfold Call.rejected
  split
  · rename_i h
    rw [h]
    rfl
  · rfl

theorem Call.rejected_not_waiting (call : Call) : call.rejected.phase ≠ .waiting := by
  unfold Call.rejected
  split
  · simp
  · assumption

namespace Scheduler

theorem mem_pushWaiter {ws : List WaitEntry} {entry w : WaitEntry} :
    w ∈ pushWaiter ws entry ↔ w = entry ∨ w ∈ ws := by
  induction ws with
  | nil => simp [pushWaiter]
  | cons v ws ih =>
    unfold pushWaiter
    split
    · simp
    · rw [List.mem_cons, ih, List.mem_cons, or_left_comm]

theorem pushWaiter_ordered {ws : List WaitEntry} {entry : WaitEntry} (h : ws.Pairwise Before)
    (hlast : ∀ w ∈ ws, w.grant < entry.grant) : (pushWaiter ws entry).Pairwise Before := by
  induction ws with
  | nil => exact List.pairwise_singleton _ _
  | cons v ws ih =>
    obtain ⟨hv, hws⟩ := List.pairwise_cons.mp h
    unfold pushWaiter
    split
    · rename_i hrank
      refine List.pairwise_cons.mpr ⟨?_, h⟩
      intro w hw
      obtain rfl | hw := List.mem_cons.mp hw
      · exact .inl hrank
      · have hbefore := hv w hw
        unfold Before at hbefore ⊢
        omega
    · rename_i hrank
      refine List.pairwise_cons.mpr ⟨?_, ih hws fun w hw => hlast w (List.mem_cons_of_mem _ hw)⟩
      intro w hw
      obtain rfl | hw := mem_pushWaiter.mp hw
      · have hgrant := hlast v List.mem_cons_self
        unfold Before
        omega
      · exact hv w hw

def withCall (s : Scheduler) (c : Nat) (call : Call) : Scheduler :=
  { s with calls := s.calls.insert c call }

/-- What `acquire` does, case by case. -/
inductive Acquired (s : Scheduler) (c : Nat) (jobId : String) (priority : JobPriority) :
    Scheduler → Prop where
  | refused (circle : isCirclePriority priority = true) (active : s.ownerSlotActive = true) :
      Acquired s c jobId priority
        (s.withCall c ⟨jobId, priority, .refused .ownerActiveBlocksCircle⟩)
  | free (quiet : isCirclePriority priority = true → s.ownerSlotActive = false)
      (slot : s.running = none) : Acquired s c jobId priority
        ((s.take jobId priority).withCall c ⟨jobId, priority, .holding s.nextChannel⟩)
  | again {r : RunningJob} (quiet : isCirclePriority priority = true → s.ownerSlotActive = false)
      (slot : s.running = some r) (same : r.jobId = jobId) : Acquired s c jobId priority
        ({ s with nextChannel := s.nextChannel + 1 }.withCall c
          ⟨jobId, priority, .holding s.nextChannel⟩)
  | preempted {r : RunningJob}
      (quiet : isCirclePriority priority = true → s.ownerSlotActive = false)
      (slot : s.running = some r) (other : r.jobId ≠ jobId)
      (higher : priorityRank r.priority < priorityRank priority) : Acquired s c jobId priority
        (((s.signal r).take jobId priority).withCall c ⟨jobId, priority, .holding s.nextChannel⟩)
  | queued {r : RunningJob} (quiet : isCirclePriority priority = true → s.ownerSlotActive = false)
      (slot : s.running = some r) (other : r.jobId ≠ jobId)
      (lower : priorityRank priority ≤ priorityRank r.priority) : Acquired s c jobId priority
        ({ s with waiters := pushWaiter s.waiters ⟨jobId, priority, c⟩ }.withCall c
          ⟨jobId, priority, .waiting⟩)

theorem acquireAs_acquired (s : Scheduler) (c : Nat) (jobId : String) (priority : JobPriority) :
    Acquired s c jobId priority (s.acquireAs c jobId priority) := by
  unfold acquireAs tryTakeSlot
  by_cases hblocked : (isCirclePriority priority && s.ownerSlotActive) = true
  · rw [if_pos hblocked]
    obtain ⟨hcircle, hactive⟩ := (Bool.and_eq_true _ _).mp hblocked
    exact .refused hcircle hactive
  · rw [if_neg hblocked]
    have hquiet : isCirclePriority priority = true → s.ownerSlotActive = false := by
      intro hcircle
      rw [hcircle, Bool.true_and] at hblocked
      exact Bool.eq_false_iff.mpr hblocked
    cases hslot : s.running with
    | none => exact .free hquiet hslot
    | some r =>
      dsimp only
      by_cases hsame : r.jobId = jobId
      · rw [if_pos hsame, ← hslot]
        exact .again hquiet hslot hsame
      · rw [if_neg hsame]
        by_cases hhigher : shouldPreempt r.priority priority = true
        · rw [if_pos hhigher]
          exact .preempted hquiet hslot hsame (of_decide_eq_true hhigher)
        · rw [if_neg hhigher]
          exact .queued hquiet hslot hsame (Nat.not_lt.mp fun hlt => hhigher (decide_eq_true hlt))

theorem withCall_jobOf (c' : Nat) :
    (s.withCall c call).jobOf c' = if c = c' then some call.jobId else s.jobOf c' := by
  unfold jobOf withCall
  rw [OrdMap.get_insert]
  split <;> rfl

theorem withCall_priorityOf (c' : Nat) :
    (s.withCall c call).priorityOf c' = if c = c' then some call.priority else s.priorityOf c' := by
  unfold priorityOf withCall
  rw [OrdMap.get_insert]
  split <;> rfl

theorem withCall_phaseOf (c' : Nat) :
    (s.withCall c call).phaseOf c' = if c = c' then some call.phase else s.phaseOf c' := by
  unfold phaseOf withCall
  rw [OrdMap.get_insert]
  split <;> rfl

theorem withCall_grants :
    (s.withCall c call).Grants c' ch ↔
      (c = c' ∧ call.phase.channel = some ch) ∨ (c ≠ c' ∧ s.Grants c' ch) := by
  unfold Grants withCall
  rw [OrdMap.get_insert]
  by_cases h : c = c' <;> simp [h]

structure Fresh (s : Scheduler) (c : Nat) : Prop where
  counted : c < s.nextCall
  unknown : s.calls[c]? = none
  last : ∀ w ∈ s.waiters, w.grant < c

theorem Fresh.ne_of_known (h : Fresh s c) (hc' : (s.jobOf c').isSome) : c ≠ c' := by
  intro heq
  rw [← heq, jobOf, h.unknown] at hc'
  cases hc'

section
variable (h : Ownership s) (hfresh : Fresh s c) (hcalls : x.calls = s.calls)
  (hcount : x.nextCall = s.nextCall)
include h hfresh hcalls hcount

theorem Ownership.withCall (hchannels : x.nextChannel = s.nextChannel + 1)
    (hrunning : ∀ r, x.running = some r → s.running = some r ∨
      (r.cancel = s.nextChannel ∧ call.jobId = r.jobId))
    (hcanceled : ∀ ch ∈ x.canceled, ch < s.nextChannel)
    (hphase : ∀ ch, call.phase.channel = some ch → ch = s.nextChannel) :
    Ownership (x.withCall c call) := by
  have hjobs : ∀ c', x.jobOf c' = s.jobOf c' := by
    intro c'
    unfold jobOf
    rw [hcalls]
  refine h.grant (c := c) ?_ hchannels ?_ hcanceled ?_ ?_
  · intro c' hc'
    change c' < x.nextCall
    rw [hcount]
    rw [withCall_jobOf] at hc'
    split at hc'
    · rename_i heq
      rw [← heq]
      exact hfresh.counted
    · rw [hjobs] at hc'
      exact h.callBound c' hc'
  · intro r hr
    obtain hold | ⟨hnew, hjob⟩ := hrunning r hr
    · exact .inl hold
    · refine .inr ⟨hnew, ?_⟩
      rw [withCall_jobOf, if_pos rfl, hjob]
  · intro c' hc'
    rw [withCall_jobOf, if_neg (hfresh.ne_of_known hc'), hjobs]
  · intro c' ch hg
    obtain ⟨hc, hch⟩ | ⟨-, hg⟩ := withCall_grants.mp hg
    · exact .inr ⟨hc.symm, hphase ch hch⟩
    · unfold Grants at hg ⊢
      rw [hcalls] at hg
      exact .inl hg

theorem Ownership.withoutChannel (hchannels : x.nextChannel = s.nextChannel)
    (hrunning : x.running = s.running) (hcanceled : x.canceled = s.canceled)
    (hphase : call.phase.channel = none) : Ownership (x.withCall c call) := by
  have hold : ∀ c' ch, (x.withCall c call).Grants c' ch → c ≠ c' ∧ s.Grants c' ch := by
    intro c' ch hg
    obtain ⟨-, hch⟩ | ⟨hne, hg⟩ := withCall_grants.mp hg
    · rw [hphase] at hch
      cases hch
    · unfold Grants at hg ⊢
      rw [hcalls] at hg
      exact ⟨hne, hg⟩
  have hjobs : ∀ c', c ≠ c' → (x.withCall c call).jobOf c' = s.jobOf c' := by
    intro c' hne
    rw [withCall_jobOf, if_neg hne]
    unfold jobOf
    rw [hcalls]
  refine h.keep ?_ (Nat.le_of_eq hchannels.symm) (fun _ hr => hrunning ▸ hr)
    (fun ch hch => h.canceledBound ch (hcanceled ▸ hch))
    (fun c' hc' => hjobs c' (hfresh.ne_of_known hc')) fun c' ch hg => (hold c' ch hg).2
  intro c' hc'
  change c' < x.nextCall
  rw [hcount]
  by_cases hne : c = c'
  · rw [← hne]
    exact hfresh.counted
  · rw [hjobs c' hne] at hc'
    exact h.callBound c' hc'

end

theorem Queued.withCall (h : Queued s s.waiters) (hfresh : Fresh s c) (hcalls : x.calls = s.calls)
    (hactive : x.ownerSlotActive = s.ownerSlotActive) (hphase : call.phase ≠ .waiting) :
    Queued (x.withCall c call) s.waiters := by
  refine h.congr ?_ ?_ ?_
  · intro w hw
    have hne : c ≠ w.grant := Nat.ne_of_gt (hfresh.last w hw)
    unfold Scheduler.withCall
    rw [OrdMap.get_insert, if_neg hne, hcalls]
  · intro c' hc'
    rw [withCall_phaseOf] at hc'
    split at hc'
    · exact absurd (Option.some.inj hc') hphase
    · unfold phaseOf at hc' ⊢
      rwa [hcalls] at hc'
  · intro ha
    exact hactive ▸ ha

theorem Queued.push {jobId : String} {priority : JobPriority} (h : Queued s s.waiters)
    (hfresh : Fresh s c) (hcalls : x.calls = s.calls)
    (hactive : x.ownerSlotActive = s.ownerSlotActive)
    (hquiet : isCirclePriority priority = true → s.ownerSlotActive = false) :
    Queued (x.withCall c ⟨jobId, priority, .waiting⟩)
      (pushWaiter s.waiters ⟨jobId, priority, c⟩) := by
  refine ⟨?_, ?_, pushWaiter_ordered h.ordered hfresh.last, ?_⟩
  · intro w hw
    unfold Scheduler.withCall
    rw [OrdMap.get_insert, hcalls]
    obtain rfl | hw := mem_pushWaiter.mp hw
    · exact ⟨⟨jobId, priority, .waiting⟩, if_pos rfl, rfl, rfl, .inl rfl⟩
    · rw [if_neg (Nat.ne_of_gt (hfresh.last w hw))]
      exact h.entry w hw
  · intro c' hc'
    rw [withCall_phaseOf] at hc'
    split at hc'
    · rename_i heq
      exact ⟨⟨jobId, priority, c⟩, mem_pushWaiter.mpr (.inl rfl), heq⟩
    · have hold : s.phaseOf c' = some .waiting := by
        unfold phaseOf at hc' ⊢
        rwa [hcalls] at hc'
      obtain ⟨w, hw, hc⟩ := h.waiting c' hold
      exact ⟨w, mem_pushWaiter.mpr (.inr hw), hc⟩
  · intro w hw hcircle
    change x.ownerSlotActive = false
    rw [hactive]
    obtain rfl | hw := mem_pushWaiter.mp hw
    · exact hquiet hcircle
    · exact h.quiet w hw hcircle

theorem Acquired.sane {jobId : String} {priority : JobPriority} (h : Acquired s c jobId priority s')
    (hs : Sane s) (hfresh : Fresh s c) : Sane s' := by
  have hchannel : ∀ ch, (Phase.holding s.nextChannel).channel = some ch → ch = s.nextChannel := by
    intro ch hch
    exact (Option.some.inj hch).symm
  cases h with
  | refused =>
    exact ⟨hs.own.withoutChannel hfresh rfl rfl rfl rfl rfl rfl,
      hs.queue.withCall hfresh rfl rfl (by simp), hs.bounded, hs.idle⟩
  | free quiet slot =>
    have hempty := hs.idle slot
    refine ⟨hs.own.withCall hfresh rfl rfl rfl ?_ hs.own.canceledBound hchannel,
      hs.queue.withCall hfresh rfl rfl (by simp), ?_, ?_⟩
    · intro r hr
      cases hr
      exact .inr ⟨rfl, rfl⟩
    · intro r _ w hw
      change w ∈ s.waiters at hw
      rw [hempty] at hw
      cases hw
    · intro hnone
      cases hnone
  | again =>
    exact ⟨hs.own.withCall hfresh rfl rfl rfl (fun _ hr => .inl hr) hs.own.canceledBound hchannel,
      hs.queue.withCall hfresh rfl rfl (by simp), hs.bounded, hs.idle⟩
  | @preempted r quiet slot other higher =>
    refine ⟨hs.own.withCall hfresh rfl rfl rfl ?_ ?_ hchannel,
      hs.queue.withCall hfresh rfl rfl (by simp), ?_, ?_⟩
    · intro r' hr'
      cases hr'
      exact .inr ⟨rfl, rfl⟩
    · intro ch hch
      obtain rfl | hch := List.mem_cons.mp hch
      · exact hs.own.runningBound r slot
      · exact hs.own.canceledBound ch hch
    · intro r' hr' w hw
      cases hr'
      exact Nat.le_of_lt (Nat.lt_of_le_of_lt (hs.bounded r slot w hw) higher)
    · intro hnone
      cases hnone
  | @queued r quiet slot other lower =>
    refine ⟨hs.own.withoutChannel hfresh rfl rfl rfl rfl rfl rfl,
      hs.queue.push hfresh rfl rfl quiet, ?_, ?_⟩
    · intro r' hr' w hw
      change s.running = some r' at hr'
      rw [slot] at hr'
      cases hr'
      obtain rfl | hw := mem_pushWaiter.mp hw
      · exact lower
      · exact hs.bounded r slot w hw
    · intro hnone
      change s.running = none at hnone
      rw [slot] at hnone
      cases hnone

def counted (s : Scheduler) : Scheduler := { s with nextCall := s.nextCall + 1 }

theorem Sane.counted (h : Sane s) : Sane s.counted :=
  ⟨h.own.shrink (Nat.le_succ _) (Nat.le_refl _) (fun _ hr => hr) rfl (fun _ => rfl)
    fun _ _ hg => hg,
    h.queue.congr (fun _ _ => rfl) (fun _ hc => hc) fun ha => ha, h.bounded, h.idle⟩

theorem Sane.fresh (h : Sane s) : Fresh s.counted s.nextCall := by
  have hknown : ∀ c call, s.calls[c]? = some call → c < s.nextCall := by
    intro c call hcall
    exact h.own.callBound c (by simp [jobOf, hcall])
  refine ⟨Nat.lt_succ_self _, ?_, ?_⟩
  · cases hcall : s.calls[s.nextCall]? with
    | none => exact hcall
    | some call => exact absurd (hknown _ call hcall) (Nat.lt_irrefl _)
  · intro w hw
    obtain ⟨call, hcall, -⟩ := h.queue.entry w hw
    exact hknown w.grant call hcall

theorem acquire_acquired (s : Scheduler) (jobId : String) (priority : JobPriority) :
    Acquired s.counted s.nextCall jobId priority (s.acquire jobId priority) :=
  acquireAs_acquired s.counted s.nextCall jobId priority

theorem Sane.acquire (h : Sane s) (jobId : String) (priority : JobPriority) :
    Sane (s.acquire jobId priority) :=
  (acquire_acquired s jobId priority).sane h.counted h.fresh

theorem Sane.setPhase (h : Sane s) {phase : Phase}
    (hchannel : ∀ ch, phase.channel = some ch → s.Grants c ch) (hwaiting : phase ≠ .waiting)
    (hqueue : phase = .dropped ∨ ∀ w ∈ s.waiters, c ≠ w.grant) : Sane (s.setPhase c phase) := by
  refine ⟨h.own.shrink ?_ ?_ ?_ ?_ ?_ ?_, ?_, ?_, ?_⟩
  · exact Nat.le_of_eq (setPhase_nextCall _ _ _).symm
  · exact Nat.le_of_eq (setPhase_nextChannel _ _ _).symm
  · intro r hr
    rwa [setPhase_running] at hr
  · exact setPhase_canceled _ _ _
  · intro c'
    exact setPhase_jobOf _ _ _ _
  · intro c' ch hg
    obtain ⟨rfl, -, hch⟩ | ⟨-, hg⟩ := setPhase_grants.mp hg
    · exact hchannel ch hch
    · exact hg
  · rw [setPhase_waiters]
    refine ⟨?_, ?_, h.queue.ordered, ?_⟩
    · intro w hw
      obtain ⟨call, hcall, hjob, hpriority, hphase⟩ := h.queue.entry w hw
      rw [setPhase_calls]
      by_cases hc : c = w.grant
      · obtain hdropped | hout := hqueue
        · rw [if_pos hc, hcall]
          exact ⟨{ call with phase }, rfl, hjob, hpriority, .inr hdropped⟩
        · exact absurd hc (hout w hw)
      · rw [if_neg hc]
        exact ⟨call, hcall, hjob, hpriority, hphase⟩
    · intro c' hc'
      rw [setPhase_phaseOf] at hc'
      split at hc'
      · obtain ⟨-, -, hphase⟩ := Option.map_eq_some_iff.mp hc'
        exact absurd hphase hwaiting
      · exact h.queue.waiting c' hc'
    · intro w hw hcircle
      rw [setPhase_ownerSlotActive]
      exact h.queue.quiet w hw hcircle
  · intro r hr w hw
    rw [setPhase_running] at hr
    rw [setPhase_waiters] at hw
    exact h.bounded r hr w hw
  · intro hnone
    rw [setPhase_running] at hnone
    rw [setPhase_waiters]
    exact h.idle hnone

theorem Sane.not_queued (h : Sane s) {phase : Phase} (hphase : s.phaseOf c = some phase)
    (hwaiting : phase ≠ .waiting) (hdropped : phase ≠ .dropped) :
    ∀ w ∈ s.waiters, c ≠ w.grant := by
  intro w hw heq
  subst heq
  obtain hw | hw := h.queue.phase hw
  all_goals
    rw [hw] at hphase
    cases hphase
  · exact hwaiting rfl
  · exact hdropped rfl

inductive Polled (s : Scheduler) (c : Nat) : Scheduler → Prop where
  | unchanged : Polled s c s
  | held {ch : Nat} (phase : s.phaseOf c = some (.sent (.ok ch))) :
      Polled s c (s.setPhase c (.holding ch))
  | refused {e : SchedulerError} (phase : s.phaseOf c = some (.sent (.error e))) :
      Polled s c (s.setPhase c (.refused e))

theorem Sane.polled (h : Sane s) (c : Nat) : Polled s c (s.poll c) := by
  unfold poll
  cases hcall : s.calls[c]? with
  | none => exact .unchanged
  | some call =>
    have hphaseOf : s.phaseOf c = some call.phase := by simp [phaseOf, hcall]
    cases hphase : call.phase with
    | waiting =>
      rw [hphase] at hphaseOf
      obtain ⟨w, hw, hc⟩ := h.queue.waiting c hphaseOf
      have hany : (s.waiters.any fun w => decide (w.grant = c)) = true :=
        List.any_eq_true.mpr ⟨w, hw, decide_eq_true hc⟩
      dsimp only
      rw [hphase]
      dsimp only
      rw [if_pos hany]
      exact .unchanged
    | sent answer =>
      rw [hphase] at hphaseOf
      dsimp only
      rw [hphase]
      cases answer with
      | ok => exact .held hphaseOf
      | error => exact .refused hphaseOf
    | _ =>
      dsimp only
      rw [hphase]
      exact .unchanged

theorem Polled.sane (h : Polled s c s') (hs : Sane s) : Sane s' := by
  cases h with
  | unchanged => exact hs
  | held phase =>
    refine hs.setPhase ?_ (by simp) (.inr (hs.not_queued phase (by simp) (by simp)))
    intro ch hch
    exact grants_of_phase phase hch
  | refused phase =>
    refine hs.setPhase ?_ (by simp) (.inr (hs.not_queued phase (by simp) (by simp)))
    intro ch hch
    cases hch

inductive Dropped (s : Scheduler) (c : Nat) : Scheduler → Prop where
  | unchanged : Dropped s c s
  | waited (phase : s.phaseOf c = some .waiting) : Dropped s c (s.setPhase c .dropped)
  | unread {answer : Except SchedulerError Nat} (phase : s.phaseOf c = some (.sent answer)) :
      Dropped s c (s.setPhase c .dropped)

theorem drop_dropped (s : Scheduler) (c : Nat) : Dropped s c (s.drop c) := by
  unfold drop
  cases hcall : s.calls[c]? with
  | none => exact .unchanged
  | some call =>
    have hphaseOf : s.phaseOf c = some call.phase := by simp [phaseOf, hcall]
    dsimp only
    split
    · rename_i hphase
      exact .waited (hphase ▸ hphaseOf)
    · rename_i answer hphase
      exact .unread (hphase ▸ hphaseOf)
    all_goals exact .unchanged

theorem Dropped.sane (h : Dropped s c s') (hs : Sane s) : Sane s' := by
  have hdropped : Sane (s.setPhase c .dropped) := by
    refine hs.setPhase ?_ (by simp) (.inl rfl)
    intro ch hch
    cases hch
  cases h with
  | unchanged => exact hs
  | waited | unread => exact hdropped

def freed (s : Scheduler) (c : Nat) (call : Call) : Scheduler :=
  { s.giveBack c call with running := none }

inductive Released (gone : List Nat) (s : Scheduler) (c : Nat) : Scheduler → Prop where
  | unknown (absent : s.calls[c]? = none) : Released gone s c s
  | elsewhere {call : Call} (found : s.calls[c]? = some call)
      (other : ∀ r, s.running = some r → r.jobId ≠ call.jobId) :
      Released gone s c (s.giveBack c call)
  | onward {call : Call} {r : RunningJob} {s' : Scheduler} (found : s.calls[c]? = some call)
      (slot : s.running = some r) (same : r.jobId = call.jobId)
      (handed : Handed gone s.waiters (s.freed c call) s') : Released gone s c s'

theorem giveBack_cases (s : Scheduler) (c : Nat) (call : Call) :
    (s.giveBack c call = s ∧ call.phase.channel = none) ∨
      (s.giveBack c call = s.setPhase c .released ∧ ∃ ch, call.phase.channel = some ch) := by
  unfold giveBack
  cases hch : call.phase.channel with
  | none => exact .inl ⟨if_neg (by simp), rfl⟩
  | some ch => exact .inr ⟨if_pos rfl, ch, rfl⟩

section
variable (found : s.calls[c]? = some call)
include found

theorem giveBack_grants : (s.giveBack c call).Grants c' ch ↔ c ≠ c' ∧ s.Grants c' ch := by
  obtain ⟨heq, hnone⟩ | ⟨heq, -⟩ := giveBack_cases s c call
  · rw [heq]
    refine ⟨fun hg => ⟨?_, hg⟩, fun hg => hg.2⟩
    intro hc
    subst hc
    simp [Grants, found, hnone] at hg
  · rw [heq, setPhase_grants]
    simp [Phase.channel]

theorem Sane.giveBack (h : Sane s) : Sane (s.giveBack c call) := by
  obtain ⟨heq, -⟩ | ⟨heq, ch, hch⟩ := giveBack_cases s c call
  · rw [heq]
    exact h
  · rw [heq]
    have hphase : s.phaseOf c = some call.phase := by simp [phaseOf, found]
    refine h.setPhase (fun _ hnone => by cases hnone) (by simp) (.inr (h.not_queued hphase ?_ ?_))
    all_goals
      intro hcall
      rw [hcall] at hch
      cases hch

end

section
variable (s : Scheduler) (c : Nat) (call : Call)

theorem giveBack_running : (s.giveBack c call).running = s.running := by
  obtain ⟨heq, -⟩ | ⟨heq, -⟩ := giveBack_cases s c call <;> simp [heq]

theorem giveBack_waiters : (s.giveBack c call).waiters = s.waiters := by
  obtain ⟨heq, -⟩ | ⟨heq, -⟩ := giveBack_cases s c call <;> simp [heq]

theorem giveBack_canceled : (s.giveBack c call).canceled = s.canceled := by
  obtain ⟨heq, -⟩ | ⟨heq, -⟩ := giveBack_cases s c call <;> simp [heq]

theorem giveBack_nextChannel : (s.giveBack c call).nextChannel = s.nextChannel := by
  obtain ⟨heq, -⟩ | ⟨heq, -⟩ := giveBack_cases s c call <;> simp [heq]

theorem giveBack_jobOf (c' : Nat) : (s.giveBack c call).jobOf c' = s.jobOf c' := by
  obtain ⟨heq, -⟩ | ⟨heq, -⟩ := giveBack_cases s c call <;> simp [heq]

theorem giveBack_priorityOf (c' : Nat) : (s.giveBack c call).priorityOf c' = s.priorityOf c' := by
  obtain ⟨heq, -⟩ | ⟨heq, -⟩ := giveBack_cases s c call <;> simp [heq]

end

theorem Ownership.freed (h : Ownership s) : Ownership { s with running := none } := by
  refine h.shrink (Nat.le_refl _) (Nat.le_refl _) ?_ rfl (fun _ => rfl) fun _ _ hg => hg
  intro r hr
  cases hr

theorem Queued.freed (found : s.calls[c]? = some call) (h : Sane s) :
    Queued (s.freed c call) s.waiters := by
  have hqueue := (h.giveBack found).queue
  rw [giveBack_waiters] at hqueue
  exact hqueue.congr (fun _ _ => rfl) (fun _ hc => hc) fun ha => ha

theorem Sane.released (h : Sane s) (c : Nat) (gone : List Nat) :
    Released gone s c (s.release c gone) := by
  unfold release
  cases hcall : s.calls[c]? with
  | none => exact .unknown hcall
  | some call =>
    dsimp only
    by_cases hmine : (s.running.any fun r => decide (r.jobId = call.jobId)) = true
    · rw [if_pos hmine]
      obtain ⟨r, hr, hsame⟩ := (Option.any_eq_true _ _).mp hmine
      have hhanded : Handed gone s.waiters (s.freed c call)
          (grantFrom gone s.waiters (s.freed c call)) :=
        grantFrom_handed rfl (Queued.freed hcall h)
      have hnext : grantNextWaiter gone { s.giveBack c call with running := none } =
          grantFrom gone s.waiters (s.freed c call) := by
        unfold grantNextWaiter Scheduler.freed
        dsimp only
        rw [giveBack_waiters]
      rw [hnext]
      exact .onward hcall hr (of_decide_eq_true hsame) hhanded
    · rw [if_neg hmine]
      refine .elsewhere hcall ?_
      intro r hr hsame
      exact hmine ((Option.any_eq_true _ _).mpr ⟨r, hr, decide_eq_true hsame⟩)

theorem Sane.handed (h : Sane s) (gone : List Nat) {r : RunningJob} (hr : s.running = some r)
    (hjob : s.jobOf c = some r.jobId) :
    ∃ call, s.calls[c]? = some call ∧
      Handed gone s.waiters (s.freed c call) (s.release c gone) := by
  have hreleased := h.released c gone
  generalize s.release c gone = s' at hreleased
  cases hreleased with
  | unknown absent => simp [jobOf, absent] at hjob
  | elsewhere found other =>
    simp only [jobOf, found, Option.map_some, Option.some.injEq] at hjob
    exact absurd hjob.symm (other r hr)
  | @onward call _ _ found slot same handed => exact ⟨call, found, handed⟩

theorem Released.sane {gone : List Nat} (h : Released gone s c s') (hs : Sane s) : Sane s' := by
  cases h with
  | unknown => exact hs
  | elsewhere found => exact hs.giveBack found
  | onward found _ _ handed =>
    exact handed.sane rfl (hs.giveBack found).own.freed (Queued.freed found hs)

theorem Ownership.signaled (h : Ownership s) (hrunning : s'.running = s.running)
    (hcalls : s'.nextCall = s.nextCall) (hchannels : s'.nextChannel = s.nextChannel)
    (hcanceled : ∀ ch ∈ s'.canceled, ch ∈ s.canceled ∨ ∃ r, s.running = some r ∧ r.cancel = ch)
    (hjobs : ∀ c, s'.jobOf c = s.jobOf c) (hgrants : ∀ c ch, s'.Grants c ch → s.Grants c ch) :
    Ownership s' := by
  refine h.keep ?_ (Nat.le_of_eq hchannels.symm) (fun _ hr => hrunning ▸ hr) ?_ (fun c _ => hjobs c)
    hgrants
  · intro c hc
    rw [hjobs] at hc
    rw [hcalls]
    exact h.callBound c hc
  · intro ch hch
    obtain hch | ⟨r, hr, rfl⟩ := hcanceled ch hch
    · exact h.canceledBound ch hch
    · exact h.runningBound r hr

/-- A change that leaves the calls and the slot alone and sends signals to running jobs only. -/
structure Signaled (s s' : Scheduler) : Prop where
  running : s'.running = s.running
  waiters : s'.waiters = s.waiters
  calls : s'.calls = s.calls
  nextCall : s'.nextCall = s.nextCall
  nextChannel : s'.nextChannel = s.nextChannel
  kept : ∀ ch ∈ s.canceled, ch ∈ s'.canceled
  canceled : ∀ ch ∈ s'.canceled, ch ∈ s.canceled ∨ ∃ r, s.running = some r ∧ r.cancel = ch

theorem Signaled.refl (s : Scheduler) : Signaled s s :=
  ⟨rfl, rfl, rfl, rfl, rfl, fun _ h => h, fun _ h => .inl h⟩

theorem Signaled.signal {r : RunningJob} (hr : s.running = some r) : Signaled s (s.signal r) := by
  refine ⟨rfl, rfl, rfl, rfl, rfl, fun ch h => List.mem_cons_of_mem _ h, ?_⟩
  intro ch hch
  obtain rfl | hch := List.mem_cons.mp hch
  · exact .inr ⟨r, hr, rfl⟩
  · exact .inl hch

theorem cancelRunning_signaled (s : Scheduler) : Signaled s s.cancelRunning := by
  unfold cancelRunning
  cases hr : s.running with
  | none => exact .refl s
  | some => exact .signal hr

theorem cancelJob_signaled (s : Scheduler) (jobId : String) : Signaled s (s.cancelJob jobId).1 := by
  unfold cancelJob
  cases hr : s.running with
  | none => exact .refl s
  | some =>
    dsimp only
    split
    · exact .signal hr
    · exact .refl s

theorem signalCircle_signaled (s : Scheduler) : Signaled s s.signalCircle := by
  unfold signalCircle
  cases hr : s.running with
  | none => exact .refl s
  | some =>
    dsimp only
    split
    · exact .signal hr
    · exact .refl s

theorem tick_signaled (s : Scheduler) (span : Nat) : Signaled s { s with now := s.now + span } :=
  ⟨rfl, rfl, rfl, rfl, rfl, fun _ h => h, fun _ h => .inl h⟩

section
variable (h : Signaled s s')
include h

theorem Signaled.jobOf (c : Nat) : s'.jobOf c = s.jobOf c := by
  unfold Scheduler.jobOf
  rw [h.calls]

theorem Signaled.phaseOf (c : Nat) : s'.phaseOf c = s.phaseOf c := by
  unfold Scheduler.phaseOf
  rw [h.calls]

theorem Signaled.grants : s'.Grants c ch ↔ s.Grants c ch := by
  unfold Grants
  rw [h.calls]

theorem Signaled.sane (hs : Sane s)
    (hactive : s'.ownerSlotActive = true → s.ownerSlotActive = true) :
    Sane s' := by
  refine ⟨hs.own.signaled h.running h.nextCall h.nextChannel h.canceled h.jobOf
    fun _ _ hg => h.grants.mp hg, ?_, ?_, ?_⟩
  · rw [h.waiters]
    refine hs.queue.congr ?_ ?_ hactive
    · intro w _
      rw [h.calls]
    · intro c hc
      rwa [h.phaseOf] at hc
  · rw [h.running, h.waiters]
    exact hs.bounded
  · rw [h.running, h.waiters]
    exact hs.idle

end

theorem cancelRunning_ownerSlotActive (s : Scheduler) :
    s.cancelRunning.ownerSlotActive = s.ownerSlotActive := by
  unfold cancelRunning
  split <;> rfl

theorem cancelJob_ownerSlotActive (s : Scheduler) (jobId : String) :
    (s.cancelJob jobId).1.ownerSlotActive = s.ownerSlotActive := by
  unfold cancelJob
  split
  · rfl
  · split <;> rfl

theorem tick_ownerSlotActive {span : Nat}
    (h : { s with now := s.now + span }.ownerSlotActive = true) : s.ownerSlotActive = true := by
  unfold ownerSlotActive at h ⊢
  obtain ⟨t, ht, hlt⟩ := (Option.any_eq_true _ _).mp h
  have hlt : s.now + span < t := of_decide_eq_true hlt
  refine (Option.any_eq_true _ _).mpr ⟨t, ht, decide_eq_true ?_⟩
  omega

def reject (s : Scheduler) (w : WaitEntry) : Scheduler :=
  s.answer w.grant (.error .ownerActiveBlocksCircle)

theorem reject_calls (s : Scheduler) (w : WaitEntry) (c : Nat) :
    (s.reject w).calls[c]? =
      if w.grant = c then s.calls[c]?.map Call.rejected else s.calls[c]? := by
  unfold reject answer
  by_cases hc : w.grant = c
  · subst hc
    rw [if_pos rfl]
    cases hcall : s.calls[w.grant]? with
    | none =>
      have hclosed : s.isClosed w.grant = true := by simp [isClosed, hcall]
      rw [if_pos hclosed, hcall]
      rfl
    | some call =>
      by_cases hphase : call.phase = .waiting
      · have hopen : s.isClosed w.grant = false := by simp [isClosed, hcall, hphase]
        rw [hopen, if_neg (by simp), setPhase_calls, if_pos rfl, hcall]
        simp [Call.rejected, hphase]
      · have hclosed : s.isClosed w.grant = true := by simp [isClosed, hcall, hphase]
        rw [if_pos hclosed, hcall]
        simp [Call.rejected, hphase]
  · rw [if_neg hc]
    split
    · rfl
    · rw [setPhase_calls, if_neg hc]

theorem reject_eq (s : Scheduler) (w : WaitEntry) : ∃ calls, s.reject w = { s with calls } := by
  unfold reject answer
  split
  · exact ⟨s.calls, rfl⟩
  · exact setPhase_eq s w.grant _

theorem rejectAll_eq (ws : List WaitEntry) (s : Scheduler) :
    ∃ calls, ws.foldl reject s = { s with calls } := by
  induction ws generalizing s with
  | nil => exact ⟨s.calls, rfl⟩
  | cons w ws ih =>
    obtain ⟨calls, h⟩ := reject_eq s w
    obtain ⟨calls', h'⟩ := ih (s.reject w)
    refine ⟨calls', ?_⟩
    rw [List.foldl_cons, h', h]

theorem rejectAll_calls (ws : List WaitEntry) (s : Scheduler) (c : Nat) :
    (ws.foldl reject s).calls[c]? =
      if ∃ w ∈ ws, w.grant = c then s.calls[c]?.map Call.rejected else s.calls[c]? := by
  induction ws generalizing s with
  | nil => simp
  | cons w ws ih =>
    rw [List.foldl_cons, ih, reject_calls]
    by_cases hw : w.grant = c
    · by_cases hws : ∃ w ∈ ws, w.grant = c
      · simp [hw, hws, Option.map_map, Function.comp_def, Call.rejected_rejected]
      · simp [hw, hws]
    · simp [hw]

theorem rejectCircleWaiters_eq (s : Scheduler) :
    s.rejectCircleWaiters = (s.waiters.filter fun w => isCirclePriority w.priority).foldl reject
      { s with waiters := s.waiters.filter fun w => !isCirclePriority w.priority } := rfl

/-- What the owner's coming does: the circle's running job is signaled, and its waiters are sent
away. -/
structure OwnerCame (s s' : Scheduler) : Prop where
  running : s'.running = s.running
  waiters : s'.waiters = s.waiters.filter fun w => !isCirclePriority w.priority
  calls : ∀ c, s'.calls[c]? = if ∃ w ∈ s.waiters, isCirclePriority w.priority = true ∧ w.grant = c
    then s.calls[c]?.map Call.rejected else s.calls[c]?
  nextCall : s'.nextCall = s.nextCall
  nextChannel : s'.nextChannel = s.nextChannel
  kept : ∀ ch ∈ s.canceled, ch ∈ s'.canceled
  canceled : ∀ ch ∈ s'.canceled, ch ∈ s.canceled ∨ ∃ r, s.running = some r ∧ r.cancel = ch

theorem signalOwnerActivity_came (s : Scheduler) (ttl : Nat) :
    OwnerCame s (s.signalOwnerActivity ttl) := by
  have hsignaled := signalCircle_signaled { s with ownerActiveUntil := some (s.now + ttl) }
  unfold signalOwnerActivity
  generalize { s with ownerActiveUntil := some (s.now + ttl) }.signalCircle = s₁ at hsignaled
  rw [rejectCircleWaiters_eq]
  obtain ⟨calls, heq⟩ := rejectAll_eq (s₁.waiters.filter fun w => isCirclePriority w.priority)
    { s₁ with waiters := s₁.waiters.filter fun w => !isCirclePriority w.priority }
  refine ⟨?_, ?_, ?_, ?_, ?_, ?_, ?_⟩
  · rw [heq]
    exact hsignaled.running
  · rw [heq]
    exact congrArg _ hsignaled.waiters
  · intro c
    rw [rejectAll_calls, hsignaled.calls, hsignaled.waiters]
    simp only [List.mem_filter, and_assoc]
  · rw [heq]
    exact hsignaled.nextCall
  · rw [heq]
    exact hsignaled.nextChannel
  · rw [heq]
    exact hsignaled.kept
  · rw [heq]
    exact hsignaled.canceled

section
variable (h : OwnerCame s s')
include h

theorem OwnerCame.jobOf (c : Nat) : s'.jobOf c = s.jobOf c := by
  unfold Scheduler.jobOf
  rw [h.calls]
  split
  · simp [Option.map_map, Function.comp_def, Call.rejected_jobId]
  · rfl

theorem OwnerCame.grants : s'.Grants c ch ↔ s.Grants c ch := by
  unfold Grants
  rw [h.calls]
  split
  · cases s.calls[c]? <;> simp [Call.rejected_channel]
  · rfl

theorem OwnerCame.queued (hs : Sane s) : Queued s' s'.waiters := by
  rw [h.waiters]
  refine ⟨?_, ?_, hs.queue.ordered.filter _, ?_⟩
  · intro w hw
    obtain ⟨hw, howner⟩ := List.mem_filter.mp hw
    obtain ⟨call, hcall, hjob, hpriority, hphase⟩ := hs.queue.entry w hw
    have hkept : ¬ ∃ v ∈ s.waiters, isCirclePriority v.priority = true ∧ v.grant = w.grant := by
      intro hcircle
      obtain ⟨v, hv, hcircle, hgrant⟩ := hcircle
      obtain ⟨call', hcall', -, hpriority', -⟩ := hs.queue.entry v hv
      rw [hgrant, hcall] at hcall'
      cases hcall'
      rw [← hpriority', hpriority] at hcircle
      simp [hcircle] at howner
    rw [h.calls, if_neg hkept]
    exact ⟨call, hcall, hjob, hpriority, hphase⟩
  · intro c hc
    unfold phaseOf at hc
    rw [h.calls] at hc
    split at hc
    · obtain ⟨call, hcall, hphase⟩ := Option.map_eq_some_iff.mp hc
      obtain ⟨call', -, rfl⟩ := Option.map_eq_some_iff.mp hcall
      exact absurd hphase (Call.rejected_not_waiting call')
    · rename_i hkept
      obtain ⟨w, hw, rfl⟩ := hs.queue.waiting c hc
      refine ⟨w, List.mem_filter.mpr ⟨hw, ?_⟩, rfl⟩
      cases hcircle : isCirclePriority w.priority with
      | false => rfl
      | true => exact absurd ⟨w, hw, hcircle, rfl⟩ hkept
  · intro w hw hcircle
    simp [hcircle] at hw

theorem OwnerCame.sane (hs : Sane s) : Sane s' := by
  refine ⟨hs.own.signaled h.running h.nextCall h.nextChannel h.canceled h.jobOf
    fun _ _ hg => h.grants.mp hg, h.queued hs, ?_, ?_⟩
  · intro r hr w hw
    rw [h.running] at hr
    rw [h.waiters] at hw
    exact hs.bounded r hr w (List.mem_filter.mp hw).1
  · intro hnone
    rw [h.running] at hnone
    rw [h.waiters, hs.idle hnone]
    rfl

end

theorem Sane.step (h : Sane s) (e : Event) : Sane (s.step e) := by
  cases e with
  | acquire jobId priority => exact h.acquire jobId priority
  | poll c => exact (h.polled c).sane h
  | drop c => exact (drop_dropped s c).sane h
  | release c gone => exact (h.released c gone).sane h
  | cancelRunning =>
    refine (cancelRunning_signaled s).sane h ?_
    rw [cancelRunning_ownerSlotActive]
    exact id
  | cancelJob jobId =>
    refine (cancelJob_signaled s jobId).sane h ?_
    rw [cancelJob_ownerSlotActive]
    exact id
  | ownerActivity ttl => exact (signalOwnerActivity_came s ttl).sane h
  | tick span => exact (tick_signaled s span).sane h tick_ownerSlotActive

def run (s : Scheduler) (es : List Event) : Scheduler := es.foldl step s

theorem Sane.run (h : Sane s) (es : List Event) : Sane (s.run es) := by
  induction es generalizing s with
  | nil => exact h
  | cons e es ih => exact ih (h.step e)

/-- In every run whoever waits is in the queue, by rank and arrival, none outranks the job that
runs, and the slot is not free meanwhile. -/
theorem scheduler_sane (now : Int) (es : List Event) : Sane ((Scheduler.new now).run es) :=
  (Sane.new now).run es

end Scheduler

end Tetonic.Node
