import Tetonic.Node.Steps
import Mathlib.Data.List.Induction
set_option autoImplicit false

/-! Who has the slot, over whole runs. -/

namespace Tetonic.Node

def Event.acquires : Event → Option String
  | .acquire jobId _ => some jobId
  | .poll _ | .drop _ | .release _ _ | .cancelRunning | .cancelJob _ | .ownerActivity _ | .tick _ =>
    none

variable {ch c' c : Nat} {s s' : Scheduler} {jobId : String} {priority : JobPriority}
  {gone : List Nat} {e : Event} {r : RunningJob}

namespace Scheduler

theorem Polled.grants (h : Polled s c s') : s'.Grants c' ch ↔ s.Grants c' ch := by
  cases h with
  | unchanged => exact Iff.rfl
  | @held ch' phase =>
    rw [setPhase_grants]
    by_cases hc : c = c'
    · subst hc
      have hg : s.Grants c ch' := grants_of_phase phase rfl
      constructor
      · intro h
        obtain ⟨-, -, hch⟩ | ⟨hne, -⟩ := h
        · cases hch
          exact hg
        · exact absurd rfl hne
      · intro h
        exact .inl ⟨rfl, h.jobOf, congrArg some (hg.unique h)⟩
    · simp [hc]
  | refused phase =>
    rw [setPhase_grants]
    constructor
    · intro h
      obtain ⟨-, -, hch⟩ | ⟨-, hg⟩ := h
      · cases hch
      · exact hg
    · intro h
      refine .inr ⟨?_, h⟩
      intro hc
      subst hc
      obtain ⟨phase', hphase', hch⟩ := h.phase
      rw [phase] at hphase'
      cases hphase'
      cases hch

theorem Dropped.grants (h : Dropped s c s') (hg : s'.Grants c' ch) : s.Grants c' ch := by
  cases h with
  | unchanged => exact hg
  | waited | unread =>
    obtain ⟨-, -, hch⟩ | ⟨-, hg⟩ := setPhase_grants.mp hg
    · cases hch
    · exact hg

theorem Dropped.keeps (h : Dropped s c s') (hg : s.Grants c' ch)
    (hunread : s.phaseOf c ≠ some (.sent (.ok ch))) : s'.Grants c' ch := by
  have hother : ∀ phase, s.phaseOf c = some phase → (∀ ch', phase.channel = some ch' →
      phase = .sent (.ok ch')) → c ≠ c' := by
    intro phase hphase hsent hc
    subst hc
    obtain ⟨phase', hphase', hch⟩ := hg.phase
    rw [hphase] at hphase'
    cases hphase'
    rw [hsent ch hch] at hphase
    exact hunread hphase
  cases h with
  | unchanged => exact hg
  | waited phase =>
    refine setPhase_grants.mpr (.inr ⟨hother _ phase ?_, hg⟩)
    intro ch' hch'
    cases hch'
  | @unread answer phase =>
    refine setPhase_grants.mpr (.inr ⟨hother _ phase ?_, hg⟩)
    intro ch' hch'
    cases answer with
    | ok =>
      cases hch'
      rfl
    | error => cases hch'

theorem Polled.running (h : Polled s c s') : s'.running = s.running ∧ s'.canceled = s.canceled := by
  cases h <;> simp

theorem Dropped.running (h : Dropped s c s') :
    s'.running = s.running ∧ s'.canceled = s.canceled := by
  cases h <;> simp

def Slot (s : Scheduler) : Prop :=
  ∀ c ch, s.Grants c ch → ch ∈ s.canceled ∨ ∃ r, s.running = some r ∧ r.cancel = ch

def Occupied (s : Scheduler) : Prop := ∀ r, s.running = some r → ∃ c, s.Grants c r.cancel

/-- The step does not mix two calls with one job id: nobody acquires for the running job once more,
and nobody gives back the slot of another. -/
def Apart (s : Scheduler) : Event → Prop
  | .acquire jobId priority =>
    s.isRunning jobId = true → isCirclePriority priority = true ∧ s.ownerSlotActive = true
  | .release c _ => ∀ r c', s.running = some r → s.jobOf c = some r.jobId → s.Grants c' r.cancel →
    c' = c ∨ r.cancel ∈ s.canceled
  | .poll _ | .drop _ | .cancelRunning | .cancelJob _ | .ownerActivity _ | .tick _ => True

def Read (s : Scheduler) : Event → Prop
  | .drop c => ∀ r, s.running = some r → s.phaseOf c ≠ some (.sent (.ok r.cancel))
  | .acquire _ _ | .poll _ | .release _ _ | .cancelRunning | .cancelJob _ | .ownerActivity _
  | .tick _ => True

def Event.moves : Event → Bool
  | .acquire _ _ | .release _ _ => true
  | _ => false

/-- A step that neither takes the slot nor gives it back hands out nothing, and takes a grant from
those only who have not read it. -/
structure Kept (s : Scheduler) (e : Event) : Prop where
  running : (s.step e).running = s.running
  canceled : ∀ ch ∈ s.canceled, ch ∈ (s.step e).canceled
  before : ∀ {c ch}, (s.step e).Grants c ch → s.Grants c ch
  after : Read s e → ∀ {c r}, s.running = some r → s.Grants c r.cancel →
    (s.step e).Grants c r.cancel

theorem Sane.kept (h : Sane s) (he : Event.moves e = false) : Kept s e := by
  have signaled : Signaled s (s.step e) → Kept s e := by
    intro hs
    exact ⟨hs.running, hs.kept, hs.grants.mp, fun _ _ _ _ => hs.grants.mpr⟩
  cases e with
  | acquire | release => cases he
  | poll c =>
    have hpolled := h.polled c
    refine ⟨hpolled.running.1, ?_, hpolled.grants.mp, fun _ _ _ _ => hpolled.grants.mpr⟩
    intro ch hch
    exact hpolled.running.2 ▸ hch
  | drop c =>
    have hdropped := drop_dropped s c
    refine ⟨hdropped.running.1, ?_, hdropped.grants, ?_⟩
    · intro ch hch
      exact hdropped.running.2 ▸ hch
    · intro hread c' r hr hg
      exact hdropped.keeps hg (hread r hr)
  | cancelRunning => exact signaled (cancelRunning_signaled s)
  | cancelJob jobId => exact signaled (cancelJob_signaled s jobId)
  | tick span => exact signaled (tick_signaled s span)
  | ownerActivity ttl =>
    have hcame := signalOwnerActivity_came s ttl
    exact ⟨hcame.running, hcame.kept, hcame.grants.mp, fun _ _ _ _ => hcame.grants.mpr⟩

theorem Slot.mono (h : Slot s) (hrunning : s'.running = s.running)
    (hcanceled : ∀ ch ∈ s.canceled, ch ∈ s'.canceled)
    (hgrants : ∀ c ch, s'.Grants c ch → s.Grants c ch) : Slot s' := by
  intro c ch hg
  obtain hch | hr := h c ch (hgrants c ch hg)
  · exact .inl (hcanceled ch hch)
  · rw [hrunning]
    exact .inr hr

theorem Slot.acquired (h : Acquired s c jobId priority s') (hs : Slot s)
    (hapart : Apart s (.acquire jobId priority)) : Slot s' := by
  cases h with
  | refused | queued =>
    refine hs.mono rfl (fun _ hch => hch) ?_
    intro c' ch hg
    obtain ⟨-, hch⟩ | ⟨-, hg⟩ := withCall_grants.mp hg
    · cases hch
    · exact hg
  | free quiet slot =>
    intro c' ch hg
    obtain ⟨-, hch⟩ | ⟨-, hg⟩ := withCall_grants.mp hg
    · exact .inr ⟨_, rfl, Option.some.inj hch⟩
    · obtain hch | ⟨r, hr, -⟩ := hs c' ch hg
      · exact .inl hch
      · rw [slot] at hr
        cases hr
  | again quiet slot same =>
    obtain ⟨hcircle, hactive⟩ := hapart (by simp [isRunning, slot, same])
    rw [quiet hcircle] at hactive
    cases hactive
  | preempted quiet slot =>
    intro c' ch hg
    obtain ⟨-, hch⟩ | ⟨-, hg⟩ := withCall_grants.mp hg
    · exact .inr ⟨_, rfl, Option.some.inj hch⟩
    · obtain hch | ⟨r, hr, rfl⟩ := hs c' ch hg
      · exact .inl (List.mem_cons_of_mem _ hch)
      · rw [slot] at hr
        cases hr
        exact .inl List.mem_cons_self

theorem Slot.released (h : Released gone s c s') (hs : Slot s) (hapart : Apart s
    (.release c gone)) : Slot s' := by
  cases h with
  | unknown => exact hs
  | elsewhere found =>
    refine hs.mono (giveBack_running _ _ _) ?_ ?_
    · intro ch hch
      rwa [giveBack_canceled]
    · intro c' ch hg
      exact ((giveBack_grants found).mp hg).2
  | @onward call r _ found slot same handed =>
    have hcanceled : s'.canceled = s.canceled := handed.canceled.trans (giveBack_canceled _ _ _)
    intro c' ch hg
    obtain hold | ⟨-, hnew⟩ := handed.grants hg
    · obtain ⟨hne, hold⟩ := (giveBack_grants found).mp hold
      rw [hcanceled]
      obtain hch | ⟨r', hr', rfl⟩ := hs c' ch hold
      · exact .inl hch
      · have hjob : s.jobOf c = some r.jobId := by simp [jobOf, found, same]
        rw [slot] at hr'
        cases hr'
        obtain hc | hch := hapart r c' slot hjob hold
        · exact absurd hc.symm hne
        · exact .inl hch
    · exact .inr hnew

theorem Slot.step (h : Slot s) (hs : Sane s) (hapart : Apart s e) : Slot (s.step e) := by
  have hkept := hs.kept (e := e)
  cases e with
  | acquire jobId priority => exact Slot.acquired (acquire_acquired s jobId priority) h hapart
  | release c gone => exact Slot.released (hs.released c gone) h hapart
  | _ =>
    have hkept := hkept rfl
    exact h.mono hkept.running hkept.canceled fun _ _ => hkept.before

theorem Slot.new (now : Int) : Slot (Scheduler.new now) := by
  intro c ch hg
  simp [Grants, Scheduler.new] at hg

theorem Slot.alone (h : Slot s) (hs : Sane s) {ch' : Nat} (hg : s.Grants c ch)
    (hg' : s.Grants c' ch') (hch : ch ∉ s.canceled) (hch' : ch' ∉ s.canceled) :
    c = c' := by
  obtain hcanceled | ⟨r, hr, rfl⟩ := h c ch hg
  · exact absurd hcanceled hch
  · obtain hcanceled | ⟨r', hr', rfl⟩ := h c' ch' hg'
    · exact absurd hcanceled hch'
    · rw [hr] at hr'
      cases hr'
      exact hs.own.distinct c c' r.cancel hg hg'

theorem Occupied.mono (h : Occupied s) (hrunning : s'.running = s.running)
    (hgrants : ∀ c r, s.running = some r → s.Grants c r.cancel → s'.Grants c r.cancel) :
    Occupied s' := by
  intro r hr
  rw [hrunning] at hr
  obtain ⟨c, hg⟩ := h r hr
  exact ⟨c, hgrants c r hr hg⟩

theorem Occupied.acquired (h : Acquired s c jobId priority s') (hs : Occupied s)
    (hfresh : Fresh s c) : Occupied s' := by
  have hold : ∀ {x : Scheduler} {call : Call} {c' ch : Nat}, x.calls = s.calls →
      s.Grants c' ch → (x.withCall c call).Grants c' ch := by
    intro x call c' ch hcalls hg
    refine withCall_grants.mpr (.inr ⟨hfresh.ne_of_known hg.jobOf, ?_⟩)
    unfold Grants at hg ⊢
    rwa [hcalls]
  have hnew : ∀ {x : Scheduler},
      (x.withCall c ⟨jobId, priority, .holding s.nextChannel⟩).Grants c s.nextChannel :=
    withCall_grants.mpr (.inl ⟨rfl, rfl⟩)
  cases h with
  | refused | again | queued => exact hs.mono rfl fun _ _ _ hg => hold rfl hg
  | free | preempted =>
    intro r hr
    cases hr
    exact ⟨c, hnew⟩

theorem Occupied.released (h : Released gone s c s') (hocc : Occupied s) (hs : Sane s) :
    Occupied s' := by
  cases h with
  | unknown => exact hocc
  | @elsewhere call found other =>
    refine hocc.mono (giveBack_running _ _ _) ?_
    intro c' r hr hg
    refine (giveBack_grants found).mpr ⟨?_, hg⟩
    intro hc
    subst hc
    have hjob := hs.own.owner c r hr hg
    simp only [jobOf, found, Option.map_some, Option.some.injEq] at hjob
    exact other r hr hjob.symm
  | onward found _ _ handed =>
    intro r hr
    obtain ⟨hnone, -⟩ | ⟨_, w, _, ch, -, -, -, -, hrunning, -, hg⟩ :=
      handed.result rfl (Queued.freed found hs)
    · rw [hnone] at hr
      cases hr
    · rw [hrunning] at hr
      cases hr
      exact ⟨w.grant, hg⟩

theorem Occupied.step (h : Occupied s) (hs : Sane s) (hread : Read s e) : Occupied (s.step e) := by
  have hkept := hs.kept (e := e)
  cases e with
  | acquire jobId priority =>
    exact Occupied.acquired (acquire_acquired s jobId priority) h hs.fresh
  | release c gone => exact Occupied.released (hs.released c gone) h hs
  | _ =>
    have hkept := hkept rfl
    exact h.mono hkept.running fun _ _ => hkept.after hread

theorem Occupied.new (now : Int) : Occupied (Scheduler.new now) := by
  intro r hr
  cases hr

/-- One grant that is not canceled at most, each of them within reach of `cancel_job`, and the slot
with somebody who can give it back. -/
structure Safe (s : Scheduler) : Prop where
  alone : ∀ c c' ch ch', s.Grants c ch → s.Grants c' ch' → ch ∉ s.canceled → ch' ∉ s.canceled →
    c = c'
  signaled : ∀ c ch jobId, s.Grants c ch → s.jobOf c = some jobId →
    ch ∈ (s.cancelJob jobId).1.canceled
  held : ∀ r, s.running = some r → ∃ c, s.Grants c r.cancel

theorem cancelJob_cancels (h : s.running = some r) :
    r.cancel ∈ (s.cancelJob r.jobId).1.canceled := by
  unfold cancelJob
  rw [h]
  dsimp only
  rw [if_pos rfl]
  exact List.mem_cons_self

theorem Sane.safe_iff (h : Sane s) : Safe s ↔ Slot s ∧ Occupied s := by
  constructor
  · intro hsafe
    refine ⟨?_, hsafe.held⟩
    intro c ch hg
    obtain ⟨jobId, hjob⟩ := Option.isSome_iff_exists.mp hg.jobOf
    exact (cancelJob_signaled s jobId).canceled ch (hsafe.signaled c ch jobId hg hjob)
  · intro hboth
    obtain ⟨hslot, hocc⟩ := hboth
    refine ⟨?_, ?_, hocc⟩
    · intro c c' ch ch' hg hg' hch hch'
      exact hslot.alone h hg hg' hch hch'
    · intro c ch jobId hg hjob
      obtain hch | ⟨r, hr, rfl⟩ := hslot c ch hg
      · exact (cancelJob_signaled s jobId).kept ch hch
      · have howner := h.own.owner c r hr hg
        rw [hjob] at howner
        cases howner
        exact cancelJob_cancels hr

/-- The step neither mixes two calls with one job id nor drops a call that was sent the slot. -/
def Careful (s : Scheduler) (e : Event) : Prop := Apart s e ∧ Read s e

theorem Slot.apart_acquire (h : Sane s) (hslot : Slot (s.acquire jobId priority)) :
    Apart s (.acquire jobId priority) := by
  intro hrunning
  obtain ⟨r', hr', hsame⟩ := (Option.any_eq_true _ _).mp hrunning
  have hsame : r'.jobId = jobId := of_decide_eq_true hsame
  have hacquired := acquire_acquired s jobId priority
  generalize s.acquire jobId priority = s' at hslot hacquired
  cases hacquired with
  | refused circle active => exact ⟨circle, active⟩
  | free _ slot =>
    change s.running = none at slot
    rw [slot] at hr'
    cases hr'
  | again =>
    obtain hch | ⟨r, hr, hcancel⟩ := hslot s.nextCall s.nextChannel
      (withCall_grants.mpr (.inl ⟨rfl, rfl⟩))
    · exact absurd (h.own.canceledBound _ hch) (Nat.lt_irrefl _)
    · have hlt := h.own.runningBound r hr
      omega
  | preempted _ slot other | queued _ slot other =>
    change s.running = some _ at slot
    rw [slot] at hr'
    cases hr'
    exact absurd hsame other

theorem Slot.apart_release (h : Sane s) (hslot : Slot (s.release c gone)) :
    Apart s (.release c gone) := by
  intro r c' hr hjob hg
  by_cases hc : c' = c
  · exact .inl hc
  · right
    obtain ⟨call, found, handed⟩ := h.handed gone hr hjob
    have hfreed : (s.freed c call).Grants c' r.cancel :=
      (giveBack_grants found).mpr ⟨Ne.symm hc, hg⟩
    have hkept : (s.release c gone).Grants c' r.cancel := by
      refine handed.keeps ?_ hfreed
      intro w hw heq
      exact h.queue.not_grants hw r.cancel (heq ▸ hg)
    obtain hch | ⟨r', hr', hcancel⟩ := hslot c' r.cancel hkept
    · rw [handed.canceled] at hch
      exact giveBack_canceled s c call ▸ hch
    · have hle := handed.running_new rfl hr'
      have hlt := h.own.runningBound r hr
      change (s.giveBack c call).nextChannel ≤ r'.cancel at hle
      rw [giveBack_nextChannel] at hle
      omega

theorem Occupied.read (h : Sane s) (hocc : Occupied (s.drop c)) : Read s (.drop c) := by
  intro r hr hphase
  have hdropped := drop_dropped s c
  obtain ⟨c', hg'⟩ := hocc r (hdropped.running.1.trans hr)
  have hc := h.own.distinct c' c r.cancel (hdropped.grants hg') (grants_of_phase hphase rfl)
  subst hc
  obtain ⟨call, hcall, hsent⟩ := Option.map_eq_some_iff.mp hphase
  have hgone : s.drop c' = s.setPhase c' .dropped := by
    unfold drop
    rw [hcall]
    dsimp only
    rw [hsent]
  rw [hgone] at hg'
  obtain ⟨-, -, hch⟩ | ⟨hne, -⟩ := setPhase_grants.mp hg'
  · cases hch
  · exact hne rfl

theorem Sane.careful_iff (h : Sane s) (hsafe : Safe s) (e : Event) :
    Safe (s.step e) ↔ Careful s e := by
  obtain ⟨hslot, hocc⟩ := h.safe_iff.mp hsafe
  rw [(h.step e).safe_iff]
  constructor
  · intro hboth
    obtain ⟨hslot', hocc'⟩ := hboth
    constructor
    · cases e with
      | acquire => exact Slot.apart_acquire h hslot'
      | release => exact Slot.apart_release h hslot'
      | _ => trivial
    · cases e with
      | drop => exact Occupied.read h hocc'
      | _ => trivial
  · intro hcareful
    exact ⟨hslot.step h hcareful.1, hocc.step h hcareful.2⟩

theorem run_append (s : Scheduler) (es es' : List Event) :
    s.run (es ++ es') = (s.run es).run es' := List.foldl_append

/-- A run is safe throughout if and only if each of its steps is careful. -/
theorem slots_safe_iff (now : Int) (es : List Event) :
    (∀ before after, es = before ++ after → Safe ((Scheduler.new now).run before)) ↔
      ∀ before e after, es = before ++ e :: after → Careful ((Scheduler.new now).run before) e := by
  have hsane : ∀ before, Sane ((Scheduler.new now).run before) := (Sane.new now).run
  constructor
  · intro hsafe before e after heq
    have hnext := hsafe (before ++ [e]) after (by simp [heq])
    rw [run_append] at hnext
    exact ((hsane before).careful_iff (hsafe before _ heq) e).mp hnext
  · intro hcareful before
    induction before using List.reverseRecOn with
    | nil =>
      intro _ _
      exact (Sane.new now).safe_iff.mpr ⟨Slot.new now, Occupied.new now⟩
    | append_singleton before e ih =>
      intro after heq
      rw [List.append_assoc] at heq
      rw [run_append]
      exact ((hsane before).careful_iff (ih _ heq) e).mpr (hcareful before e after heq)

namespace Demo

def acquiredTwice : List Event := [.acquire "j" .ownerInteractive, .acquire "j" .ownerInteractive]

def droppedUnread : List Event :=
  [.acquire "a" .ownerInteractive, .acquire "b" .ownerInteractive, .release 0 [], .drop 1]

end Demo

/-- A job id is acquired again while it runs: two grants stand side by side, and `cancel_job` does
not reach the second. A call is dropped after the slot was sent to it: the slot stays taken, and
nobody has its channel. -/
theorem slots_unsafe :
    ((Scheduler.new 0).run Demo.acquiredTwice).Grants 0 0 ∧
    ((Scheduler.new 0).run Demo.acquiredTwice).Grants 1 1 ∧
    ((Scheduler.new 0).run Demo.acquiredTwice).canceled = [] ∧
    1 ∉ (((Scheduler.new 0).run Demo.acquiredTwice).cancelJob "j").1.canceled ∧
    ((Scheduler.new 0).run Demo.droppedUnread).running = some ⟨"b", .ownerInteractive, 1⟩ ∧
    ∀ c, ¬ ((Scheduler.new 0).run Demo.droppedUnread).Grants c 1 := by
  refine ⟨?_, ?_, by decide +kernel, by decide +kernel, by decide +kernel, ?_⟩
  · unfold Grants
    decide +kernel
  · unfold Grants
    decide +kernel
  · intro c hg
    have hlt : c < 2 := ((Sane.new 0).run Demo.droppedUnread).own.callBound c hg.jobOf
    unfold Grants at hg
    obtain rfl | rfl : c = 0 ∨ c = 1 := by omega
    all_goals exact absurd hg (by decide +kernel)

def JobsOnce (s : Scheduler) : Prop :=
  ∀ c c' jobId, s.jobOf c = some jobId → s.jobOf c' = some jobId → c = c'

theorem Acquired.jobOf (h : Acquired s c jobId priority s') (c' : Nat) :
    s'.jobOf c' = if c = c' then some jobId else s.jobOf c' := by
  cases h <;> exact withCall_jobOf c'

theorem Sane.step_jobOf (h : Sane s) (he : e.acquires = none) (c : Nat) :
    (s.step e).jobOf c = s.jobOf c := by
  cases e with
  | acquire => cases he
  | poll c' =>
    have hpolled := h.polled c'
    change (s.poll c').jobOf c = s.jobOf c
    generalize s.poll c' = s' at hpolled
    cases hpolled <;> simp
  | drop c' =>
    have hdropped := drop_dropped s c'
    change (s.drop c').jobOf c = s.jobOf c
    generalize s.drop c' = s' at hdropped
    cases hdropped <;> simp
  | release c' gone =>
    have hreleased := h.released c' gone
    change (s.release c' gone).jobOf c = s.jobOf c
    generalize s.release c' gone = s' at hreleased
    cases hreleased with
    | unknown => rfl
    | elsewhere => exact giveBack_jobOf _ _ _ _
    | onward _ _ _ handed => exact (handed.jobOf c).trans (giveBack_jobOf _ _ _ _)
  | cancelRunning => exact (cancelRunning_signaled s).jobOf c
  | cancelJob jobId => exact (cancelJob_signaled s jobId).jobOf c
  | ownerActivity ttl => exact (signalOwnerActivity_came s ttl).jobOf c
  | tick => rfl

section
variable (h : JobsOnce s) (hs : Sane s)
  (hnew : ∀ jobId, e.acquires = some jobId → ∀ c, s.jobOf c ≠ some jobId)
include h hs hnew

theorem JobsOnce.apart : Apart s e := by
  cases e with
  | acquire jobId =>
    intro hrunning
    obtain ⟨r, hr, hsame⟩ := (Option.any_eq_true _ _).mp hrunning
    obtain ⟨c, hc⟩ := hs.own.known r hr
    rw [of_decide_eq_true hsame] at hc
    exact absurd hc (hnew jobId rfl c)
  | release c =>
    intro r c' hr hjob hg
    exact .inl (h c' c r.jobId (hs.own.owner c' r hr hg) hjob)
  | _ => trivial

theorem JobsOnce.step : JobsOnce (s.step e) := by
  intro c c' jobId hc hc'
  cases he : e.acquires with
  | none =>
    rw [hs.step_jobOf he] at hc hc'
    exact h c c' jobId hc hc'
  | some newId =>
    cases e with
    | acquire jobId' priority =>
      cases he
      have hjobs := (acquire_acquired s newId priority).jobOf
      change (s.acquire newId priority).jobOf c = _ at hc
      change (s.acquire newId priority).jobOf c' = _ at hc'
      rw [hjobs] at hc hc'
      have hfresh : ∀ c, s.counted.jobOf c ≠ some newId := hnew newId rfl
      split at hc
      · rename_i heq
        cases hc
        split at hc'
        · rename_i heq'
          exact heq.symm.trans heq'
        · exact absurd hc' (hfresh c')
      · split at hc'
        · cases hc'
          exact absurd hc (hfresh c)
        · exact h c c' jobId hc hc'
    | _ => cases he

end

theorem Slot.run {es : List Event} (hslot : Slot s) (hs : Sane s) (honce : JobsOnce s)
    (hids : (es.filterMap Event.acquires).Nodup)
    (hnew : ∀ jobId ∈ es.filterMap Event.acquires, ∀ c, s.jobOf c ≠ some jobId) :
    Slot (s.run es) := by
  induction es generalizing s with
  | nil => exact hslot
  | cons e es ih =>
    have hnow : ∀ jobId, e.acquires = some jobId → ∀ c, s.jobOf c ≠ some jobId := by
      intro jobId he
      exact hnew jobId (List.mem_filterMap.mpr ⟨e, List.mem_cons_self, he⟩)
    refine ih (hslot.step hs (honce.apart hs hnow)) (hs.step e) (honce.step hs hnow) ?_ ?_
    · cases he : e.acquires with
      | none => rwa [List.filterMap_cons_none he] at hids
      | some =>
        rw [List.filterMap_cons_some he] at hids
        exact hids.of_cons
    · intro jobId hjob c hc
      have hlater : jobId ∈ (e :: es).filterMap Event.acquires := by
        obtain ⟨e', he', hid⟩ := List.mem_filterMap.mp hjob
        exact List.mem_filterMap.mpr ⟨e', List.mem_cons_of_mem _ he', hid⟩
      cases he : e.acquires with
      | none =>
        rw [hs.step_jobOf he] at hc
        exact hnew jobId hlater c hc
      | some newId =>
        cases e with
        | acquire jobId' priority =>
          cases he
          change (s.acquire newId priority).jobOf c = _ at hc
          rw [(acquire_acquired s newId priority).jobOf] at hc
          split at hc
          · cases hc
            exact (List.nodup_cons.mp hids).1 hjob
          · exact hnew jobId hlater c hc
        | _ => cases he

theorem giveBack_waiting {call : Call} (found : s.calls[c]? = some call) (c' : Nat) :
    (s.giveBack c call).phaseOf c' = some .waiting ↔ s.phaseOf c' = some .waiting := by
  obtain ⟨heq, -⟩ | ⟨heq, ch, hch⟩ := giveBack_cases s c call
  · rw [heq]
  · rw [heq, setPhase_phaseOf]
    by_cases hc : c = c'
    · subst hc
      have hne : call.phase ≠ .waiting := by
        intro hphase
        rw [hphase] at hch
        cases hch
      simp [phaseOf, found, hne]
    · rw [if_neg hc]

/-- The slot goes to the waiter that comes first of those that are still there; it stays free if
none is. -/
def NextGranted (gone : List Nat) (s s' : Scheduler) : Prop :=
  (s'.running = none ∧ ∀ c, s.phaseOf c = some .waiting → c ∈ gone) ∨
    ∃ w ∈ s.waiters, s.phaseOf w.grant = some .waiting ∧ w.grant ∉ gone ∧
      (∀ v ∈ s.waiters, s.phaseOf v.grant = some .waiting → v.grant ∉ gone → v ≠ w → Before w v) ∧
      ∃ ch, s'.running = some ⟨w.jobId, w.priority, ch⟩ ∧ s'.Grants w.grant ch

theorem Sane.nextGranted (h : Sane s) (gone : List Nat) (hr : s.running = some r)
    (hjob : s.jobOf c = some r.jobId) :
    NextGranted gone s (s.release c gone) := by
  obtain ⟨call, found, handed⟩ := h.handed gone hr hjob
  have hwaiting : ∀ c', (s.freed c call).phaseOf c' = some .waiting ↔
      s.phaseOf c' = some .waiting := giveBack_waiting found
  obtain ⟨hnone, hgone⟩ | ⟨passed, w, rest, ch, heq, hpassed, hw, hstays, hrunning, -, hg⟩ :=
    handed.result rfl (Queued.freed found h)
  · left
    refine ⟨hnone, ?_⟩
    intro c' hc'
    obtain ⟨w, hw, rfl⟩ := h.queue.waiting c' hc'
    exact hgone w hw ((hwaiting w.grant).mpr hc')
  · right
    have hordered := h.queue.ordered
    rw [heq] at hordered
    refine ⟨w, by simp [heq], (hwaiting w.grant).mp hw, hstays, ?_, ch, hrunning, hg⟩
    intro v hv hvwaits hvstays hne
    rw [heq] at hv
    obtain hv | hv := List.mem_append.mp hv
    · exact absurd (hpassed v hv ((hwaiting v.grant).mpr hvwaits)) hvstays
    · obtain rfl | hv := List.mem_cons.mp hv
      · exact absurd rfl hne
      · exact List.rel_of_pairwise_cons (List.pairwise_append.mp hordered).2.1 hv

def NewlyGranted (s s' : Scheduler) (c : Nat) : Prop :=
  ∃ ch, s'.Grants c ch ∧ ¬ s.Grants c ch

theorem Acquired.circle_waits (h : Acquired s c jobId priority s') (hnew : NewlyGranted s s' c')
    (hcircle : (s'.priorityOf c').any isCirclePriority = true) :
    s.ownerSlotActive = false := by
  obtain ⟨ch, hg, hold⟩ := hnew
  have hcase : ∀ {x : Scheduler} {call : Call}, x.calls = s.calls →
      (x.withCall c call).Grants c' ch → c = c' ∧ call.phase.channel = some ch := by
    intro x call hcalls hg
    obtain hmine | ⟨-, hg⟩ := withCall_grants.mp hg
    · exact hmine
    · unfold Grants at hg hold
      rw [hcalls] at hg
      exact absurd hg hold
  cases h with
  | refused | queued =>
    obtain ⟨-, hch⟩ := hcase rfl hg
    cases hch
  | free quiet | again quiet | preempted quiet =>
    obtain ⟨rfl, -⟩ := hcase rfl hg
    rw [withCall_priorityOf, if_pos rfl] at hcircle
    exact quiet hcircle

theorem Released.circle_waits (h : Released gone s c s') (hs : Sane s) (hnew : NewlyGranted s s' c')
    (hcircle : (s'.priorityOf c').any isCirclePriority = true) : s.ownerSlotActive = false := by
  obtain ⟨ch, hg, hold⟩ := hnew
  cases h with
  | unknown => exact absurd hg hold
  | elsewhere found => exact absurd ((giveBack_grants found).mp hg).2 hold
  | onward found _ _ handed =>
    obtain hg | ⟨⟨w, hw, rfl⟩, -⟩ := handed.grants hg
    · exact absurd ((giveBack_grants found).mp hg).2 hold
    · have hpriority : s'.priorityOf w.grant = some w.priority := by
        obtain ⟨call, hcall, -, hpriority, -⟩ := hs.queue.entry w hw
        refine (handed.priorityOf _).trans ((giveBack_priorityOf _ _ _ _).trans ?_)
        simp [priorityOf, hcall, hpriority]
      rw [hpriority] at hcircle
      exact hs.queue.quiet w hw hcircle

theorem Sane.circle_waits (h : Sane s) (e : Event) (hnew : NewlyGranted s (s.step e) c)
    (hcircle : ((s.step e).priorityOf c).any isCirclePriority = true) :
    s.ownerSlotActive = false := by
  have hkept := h.kept (e := e)
  cases e with
  | acquire jobId priority => exact (acquire_acquired s jobId priority).circle_waits hnew hcircle
  | release c' gone => exact (h.released c' gone).circle_waits h hnew hcircle
  | _ =>
    obtain ⟨ch, hg, hold⟩ := hnew
    exact absurd ((hkept rfl).before hg) hold

/-- What the scheduler promises to those who wait and to the one that runs. -/
structure Orderly (s : Scheduler) : Prop where
  alone : ∀ c c' ch ch', s.Grants c ch → s.Grants c' ch' → ch ∉ s.canceled → ch' ∉ s.canceled →
    c = c'
  first : ∀ r, s.running = some r → ∀ w ∈ s.waiters,
    priorityRank w.priority ≤ priorityRank r.priority
  busy : s.running = none → s.waiters = [] ∧ ∀ c, s.phaseOf c ≠ some .waiting
  next : ∀ c gone r, s.running = some r → s.jobOf c = some r.jobId →
    NextGranted gone s (s.release c gone)
  owner : ∀ e c, NewlyGranted s (s.step e) c →
    ((s.step e).priorityOf c).any isCirclePriority = true → s.ownerSlotActive = false

/-- Calls may be polled and dropped at any time; only their job ids have to differ. -/
theorem scheduler_orderly (now : Int) (es : List Event)
    (hids : (es.filterMap Event.acquires).Nodup) : Orderly ((Scheduler.new now).run es) := by
  have hsane := (Sane.new now).run es
  have hunknown : ∀ c jobId, (Scheduler.new now).jobOf c ≠ some jobId := by
    intro c jobId
    simp [jobOf, Scheduler.new]
  have hslot : Slot ((Scheduler.new now).run es) := by
    refine (Slot.new now).run (Sane.new now) ?_ hids fun jobId _ c => hunknown c jobId
    intro c _ jobId hc
    exact absurd hc (hunknown c jobId)
  refine ⟨?_, hsane.bounded, ?_, ?_, ?_⟩
  · intro c c' ch ch' hg hg' hch hch'
    exact hslot.alone hsane hg hg' hch hch'
  · intro hfree
    have hempty := hsane.idle hfree
    refine ⟨hempty, ?_⟩
    intro c hc
    obtain ⟨w, hw, -⟩ := hsane.queue.waiting c hc
    rw [hempty] at hw
    cases hw
  · intro c gone r hr hjob
    exact hsane.nextGranted gone hr hjob
  · intro e c hnew hcircle
    exact hsane.circle_waits e hnew hcircle

theorem scheduler_orderly_handed_on :
    Orderly ((Scheduler.new 0).run [.acquire "a" .circleBackground, .acquire "b" .ownerBackground,
      .acquire "c" .ownerBackground, .release 1 []]) :=
  scheduler_orderly 0 _ (by decide +kernel)

end Scheduler

end Tetonic.Node
