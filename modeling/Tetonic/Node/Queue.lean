import Tetonic.Node.Scheduler
set_option autoImplicit false

/-! What holds of the scheduler in every run, whatever the job ids and whoever is dropped: who has
which channel, and in which order the waiters stand. -/

namespace Tetonic.Node
open Lib

variable {s : Scheduler} {c : Nat}
variable {ch : Nat} {s' : Scheduler} {ws rest : List WaitEntry} {w : WaitEntry} {gone : List Nat}

namespace Scheduler

/-- The call has a grant that was not given back, with this channel. -/
def Grants (s : Scheduler) (c : Nat) (ch : Nat) : Prop :=
  (s.calls[c]?.bind fun call => call.phase.channel) = some ch

def jobOf (s : Scheduler) (c : Nat) : Option String := s.calls[c]?.map (·.jobId)

def priorityOf (s : Scheduler) (c : Nat) : Option JobPriority := s.calls[c]?.map (·.priority)

def phaseOf (s : Scheduler) (c : Nat) : Option Phase := s.calls[c]?.map (·.phase)

theorem Grants.unique {ch' : Nat} (h : s.Grants c ch) (h' : s.Grants c ch') :
    ch = ch' := Option.some.inj (h.symm.trans h')

theorem setPhase_calls (s : Scheduler) (c c' : Nat) (phase : Phase) :
    (s.setPhase c phase).calls[c']? =
      if c = c' then s.calls[c']?.map fun call => { call with phase } else s.calls[c']? := by
  unfold setPhase
  by_cases heq : c = c'
  · subst heq
    cases h : s.calls[c]? with
    | none => simp [h]
    | some => simp
  · cases h : s.calls[c]? with
    | none => simp [heq]
    | some => simp [OrdMap.get_insert, heq]

theorem setPhase_eq (s : Scheduler) (c : Nat) (phase : Phase) :
    ∃ calls, s.setPhase c phase = { s with calls } := by
  unfold setPhase
  split
  · exact ⟨s.calls, rfl⟩
  · exact ⟨_, rfl⟩

section
variable (s : Scheduler) (c : Nat) (phase : Phase)

@[simp] theorem setPhase_running : (s.setPhase c phase).running = s.running := by
  obtain ⟨calls, h⟩ := setPhase_eq s c phase
  rw [h]

@[simp] theorem setPhase_waiters : (s.setPhase c phase).waiters = s.waiters := by
  obtain ⟨calls, h⟩ := setPhase_eq s c phase
  rw [h]

@[simp] theorem setPhase_nextCall : (s.setPhase c phase).nextCall = s.nextCall := by
  obtain ⟨calls, h⟩ := setPhase_eq s c phase
  rw [h]

@[simp] theorem setPhase_nextChannel : (s.setPhase c phase).nextChannel = s.nextChannel := by
  obtain ⟨calls, h⟩ := setPhase_eq s c phase
  rw [h]

@[simp] theorem setPhase_canceled : (s.setPhase c phase).canceled = s.canceled := by
  obtain ⟨calls, h⟩ := setPhase_eq s c phase
  rw [h]

@[simp] theorem setPhase_ownerSlotActive :
    (s.setPhase c phase).ownerSlotActive = s.ownerSlotActive := by
  obtain ⟨calls, h⟩ := setPhase_eq s c phase
  rw [h]
  rfl

end

section
variable (s : Scheduler) (c c' : Nat) (phase : Phase)

@[simp] theorem setPhase_jobOf : (s.setPhase c phase).jobOf c' = s.jobOf c' := by
  unfold jobOf
  rw [setPhase_calls]
  split
  · simp [Option.map_map, Function.comp_def]
  · rfl

@[simp] theorem setPhase_priorityOf : (s.setPhase c phase).priorityOf c' = s.priorityOf c' := by
  unfold priorityOf
  rw [setPhase_calls]
  split
  · simp [Option.map_map, Function.comp_def]
  · rfl

theorem setPhase_phaseOf :
    (s.setPhase c phase).phaseOf c' =
      if c = c' then (s.phaseOf c').map fun _ => phase else s.phaseOf c' := by
  unfold phaseOf
  rw [setPhase_calls]
  split
  · simp [Option.map_map, Function.comp_def]
  · rfl

end

theorem setPhase_grants {c' : Nat} {phase : Phase} :
    (s.setPhase c phase).Grants c' ch ↔
      (c = c' ∧ (s.jobOf c').isSome ∧ phase.channel = some ch) ∨ (c ≠ c' ∧ s.Grants c' ch) := by
  unfold Grants jobOf
  rw [setPhase_calls]
  by_cases h : c = c'
  · subst h
    cases s.calls[c]? <;> simp
  · simp [h]

theorem phaseOf_waiting : s.isClosed c = false ↔ s.phaseOf c = some .waiting := by
  unfold isClosed phaseOf
  cases s.calls[c]? <;> simp

theorem Grants.phase (h : s.Grants c ch) :
    ∃ phase, s.phaseOf c = some phase ∧ phase.channel = some ch := by
  unfold Grants at h
  obtain ⟨call, hcall, hch⟩ := Option.bind_eq_some_iff.mp h
  exact ⟨call.phase, by simp [phaseOf, hcall], hch⟩

theorem grants_of_phase {phase : Phase} (h : s.phaseOf c = some phase)
    (hch : phase.channel = some ch) : s.Grants c ch := by
  obtain ⟨call, hcall, rfl⟩ := Option.map_eq_some_iff.mp h
  simp [Grants, hcall, hch]

theorem Grants.jobOf (h : s.Grants c ch) : (s.jobOf c).isSome := by
  unfold Grants at h
  obtain ⟨call, hcall, -⟩ := Option.bind_eq_some_iff.mp h
  simp [Scheduler.jobOf, hcall]

/-- Calls and channels are numbered in order, a channel is in one grant only, the job that runs is
that of a call, and the grant with its channel is its own. -/
structure Ownership (s : Scheduler) : Prop where
  callBound : ∀ c, (s.jobOf c).isSome → c < s.nextCall
  channelBound : ∀ c ch, s.Grants c ch → ch < s.nextChannel
  runningBound : ∀ r, s.running = some r → r.cancel < s.nextChannel
  canceledBound : ∀ ch ∈ s.canceled, ch < s.nextChannel
  distinct : ∀ c c' ch, s.Grants c ch → s.Grants c' ch → c = c'
  known : ∀ r, s.running = some r → ∃ c, s.jobOf c = some r.jobId
  owner : ∀ c r, s.running = some r → s.Grants c r.cancel → s.jobOf c = some r.jobId

theorem Ownership.keep (h : Ownership s) (hcalls : ∀ c, (s'.jobOf c).isSome → c < s'.nextCall)
    (hchannels : s.nextChannel ≤ s'.nextChannel)
    (hrunning : ∀ r, s'.running = some r → s.running = some r)
    (hcanceled : ∀ ch ∈ s'.canceled, ch < s.nextChannel)
    (hjobs : ∀ c, (s.jobOf c).isSome → s'.jobOf c = s.jobOf c)
    (hgrants : ∀ c ch, s'.Grants c ch → s.Grants c ch) : Ownership s' := by
  refine ⟨hcalls, ?_, ?_, ?_, ?_, ?_, ?_⟩
  · intro c ch hg
    exact Nat.lt_of_lt_of_le (h.channelBound c ch (hgrants c ch hg)) hchannels
  · intro r hr
    exact Nat.lt_of_lt_of_le (h.runningBound r (hrunning r hr)) hchannels
  · intro ch hch
    exact Nat.lt_of_lt_of_le (hcanceled ch hch) hchannels
  · intro c c' ch hg hg'
    exact h.distinct c c' ch (hgrants c ch hg) (hgrants c' ch hg')
  · intro r hr
    obtain ⟨c, hc⟩ := h.known r (hrunning r hr)
    exact ⟨c, (hjobs c (by simp [hc])).trans hc⟩
  · intro c r hr hg
    rw [hjobs c (hgrants c _ hg).jobOf]
    exact h.owner c r (hrunning r hr) (hgrants c r.cancel hg)

theorem Ownership.shrink (h : Ownership s) (hcalls : s.nextCall ≤ s'.nextCall)
    (hchannels : s.nextChannel ≤ s'.nextChannel)
    (hrunning : ∀ r, s'.running = some r → s.running = some r)
    (hcanceled : s'.canceled = s.canceled) (hjobs : ∀ c, s'.jobOf c = s.jobOf c)
    (hgrants : ∀ c ch, s'.Grants c ch → s.Grants c ch) : Ownership s' := by
  refine h.keep ?_ hchannels hrunning (hcanceled ▸ h.canceledBound) (fun c _ => hjobs c) hgrants
  intro c hc
  rw [hjobs] at hc
  exact Nat.lt_of_lt_of_le (h.callBound c hc) hcalls

theorem Ownership.grant (h : Ownership s) (hcalls : ∀ c', (s'.jobOf c').isSome → c' < s'.nextCall)
    (hchannels : s'.nextChannel = s.nextChannel + 1)
    (hrunning : ∀ r, s'.running = some r → s.running = some r ∨
      (r.cancel = s.nextChannel ∧ s'.jobOf c = some r.jobId))
    (hcanceled : ∀ ch ∈ s'.canceled, ch < s.nextChannel)
    (hjobs : ∀ c', (s.jobOf c').isSome → s'.jobOf c' = s.jobOf c')
    (hgrants : ∀ c' ch, s'.Grants c' ch → s.Grants c' ch ∨ (c' = c ∧ ch = s.nextChannel)) :
    Ownership s' := by
  refine ⟨hcalls, ?_, ?_, ?_, ?_, ?_, ?_⟩
  · intro c' ch hg
    obtain hold | ⟨-, rfl⟩ := hgrants c' ch hg
    · have := h.channelBound c' ch hold
      omega
    · omega
  · intro r hr
    obtain hold | ⟨hnew, -⟩ := hrunning r hr
    · have := h.runningBound r hold
      omega
    · omega
  · intro ch hch
    have := hcanceled ch hch
    omega
  · intro c' c'' ch hg hg'
    obtain hold | ⟨rfl, rfl⟩ := hgrants c' ch hg
    · obtain hold' | ⟨rfl, rfl⟩ := hgrants c'' ch hg'
      · exact h.distinct c' c'' ch hold hold'
      · exact absurd (h.channelBound c' _ hold) (Nat.lt_irrefl _)
    · obtain hold' | ⟨hc, -⟩ := hgrants c'' _ hg'
      · exact absurd (h.channelBound c'' _ hold') (Nat.lt_irrefl _)
      · exact hc.symm
  · intro r hr
    obtain hold | ⟨-, hjob⟩ := hrunning r hr
    · obtain ⟨c', hc'⟩ := h.known r hold
      exact ⟨c', (hjobs c' (by simp [hc'])).trans hc'⟩
    · exact ⟨c, hjob⟩
  · intro c' r hr hg
    obtain hold | ⟨hnew, hjob⟩ := hrunning r hr
    · obtain hg | ⟨-, hch⟩ := hgrants c' _ hg
      · rw [hjobs c' hg.jobOf]
        exact h.owner c' r hold hg
      · have := h.runningBound r hold
        omega
    · obtain hg | ⟨rfl, -⟩ := hgrants c' _ hg
      · have := h.channelBound c' _ hg
        omega
      · exact hjob

/-- The order of the queue: by rank, and within a rank by arrival. -/
def Before (a b : WaitEntry) : Prop :=
  priorityRank b.priority < priorityRank a.priority ∨
    (priorityRank a.priority = priorityRank b.priority ∧ a.grant < b.grant)

/-- These are the calls that wait, in their order, perhaps with some that were dropped; and none
of the circle waits while the owner is active. -/
structure Queued (s : Scheduler) (ws : List WaitEntry) : Prop where
  entry : ∀ w ∈ ws, ∃ call, s.calls[w.grant]? = some call ∧ call.jobId = w.jobId ∧
    call.priority = w.priority ∧ (call.phase = .waiting ∨ call.phase = .dropped)
  waiting : ∀ c, s.phaseOf c = some .waiting → ∃ w ∈ ws, w.grant = c
  ordered : ws.Pairwise Before
  quiet : ∀ w ∈ ws, isCirclePriority w.priority = true → s.ownerSlotActive = false

theorem Queued.phase (h : Queued s ws) (hw : w ∈ ws) :
    s.phaseOf w.grant = some .waiting ∨ s.phaseOf w.grant = some .dropped := by
  obtain ⟨call, hcall, -, -, hphase⟩ := h.entry w hw
  simpa [phaseOf, hcall] using hphase

theorem Queued.not_grants (h : Queued s ws) (hw : w ∈ ws) (ch : Nat) : ¬ s.Grants w.grant ch := by
  intro hg
  obtain ⟨phase, hphase, hch⟩ := hg.phase
  obtain hw | hw := h.phase hw
  all_goals
    rw [hw] at hphase
    cases hphase
    cases hch

theorem Queued.grant_ne (h : Queued s (w :: ws)) {v : WaitEntry} (hv : v ∈ ws) :
    w.grant ≠ v.grant := by
  intro hsame
  obtain ⟨call, hcall, -, hpriority, -⟩ := h.entry w List.mem_cons_self
  obtain ⟨call', hcall', -, hpriority', -⟩ := h.entry v (List.mem_cons_of_mem _ hv)
  rw [hsame, hcall'] at hcall
  cases hcall
  have hbefore := List.rel_of_pairwise_cons h.ordered hv
  unfold Before at hbefore
  rw [← hpriority, ← hpriority', hsame] at hbefore
  omega

theorem Queued.congr (h : Queued s ws) (hcalls : ∀ w ∈ ws, s'.calls[w.grant]? = s.calls[w.grant]?)
    (hwaiting : ∀ c, s'.phaseOf c = some .waiting → s.phaseOf c = some .waiting)
    (hactive : s'.ownerSlotActive = true → s.ownerSlotActive = true) : Queued s' ws := by
  refine ⟨?_, ?_, h.ordered, ?_⟩
  · intro w hw
    rw [hcalls w hw]
    exact h.entry w hw
  · intro c hc
    exact h.waiting c (hwaiting c hc)
  · intro w hw hcircle
    have hquiet := h.quiet w hw hcircle
    cases hs' : s'.ownerSlotActive with
    | false => rfl
    | true => exact absurd (hactive hs') (by simp [hquiet])

theorem Queued.tail {s : Scheduler} (h : Queued s (w :: ws))
    (hcalls : ∀ c, c ≠ w.grant → s'.calls[c]? = s.calls[c]?)
    (hhead : s'.phaseOf w.grant ≠ some .waiting)
    (hactive : s'.ownerSlotActive = s.ownerSlotActive) : Queued s' ws := by
  refine ⟨?_, ?_, h.ordered.of_cons, ?_⟩
  · intro v hv
    rw [hcalls v.grant (Ne.symm (h.grant_ne hv))]
    exact h.entry v (List.mem_cons_of_mem _ hv)
  · intro c hc
    have hne : c ≠ w.grant := fun heq => hhead (heq ▸ hc)
    have hold : s.phaseOf c = some .waiting := by
      unfold phaseOf at hc ⊢
      rwa [hcalls c hne] at hc
    obtain ⟨v, hv, rfl⟩ := h.waiting c hold
    obtain rfl | hv := List.mem_cons.mp hv
    · exact absurd rfl hne
    · exact ⟨v, hv, rfl⟩
  · intro v hv hcircle
    rw [hactive]
    exact h.quiet v (List.mem_cons_of_mem _ hv) hcircle

structure Sane (s : Scheduler) : Prop where
  own : Ownership s
  queue : Queued s s.waiters
  bounded : ∀ r, s.running = some r → ∀ w ∈ s.waiters,
    priorityRank w.priority ≤ priorityRank r.priority
  idle : s.running = none → s.waiters = []

theorem Sane.new (now : Int) : Sane (Scheduler.new now) := by
  refine ⟨⟨?_, ?_, ?_, ?_, ?_, ?_, ?_⟩, ⟨?_, ?_, ?_, ?_⟩, ?_, ?_⟩ <;>
    simp [Scheduler.new, jobOf, phaseOf, Grants]

/-- The waiter is dropped between the look at its receiver and the grant. -/
def vanish (s : Scheduler) (w : WaitEntry) : Scheduler :=
  { s.take w.jobId w.priority with running := none }.setPhase w.grant .dropped

def hand (s : Scheduler) (w : WaitEntry) (rest : List WaitEntry) : Scheduler :=
  { s.take w.jobId w.priority with waiters := rest }.setPhase w.grant (.sent (.ok s.nextChannel))

/-- What becomes of a free slot: it goes to the first waiter that is still there. -/
inductive Handed (gone : List Nat) : List WaitEntry → Scheduler → Scheduler → Prop where
  | nobody (s : Scheduler) : Handed gone [] s { s with waiters := [] }
  | closed {w : WaitEntry} {rest : List WaitEntry} {s s' : Scheduler}
      (phase : s.phaseOf w.grant ≠ some .waiting) (next : Handed gone rest s s') :
      Handed gone (w :: rest) s s'
  | vanished {w : WaitEntry} {rest : List WaitEntry} {s s' : Scheduler}
      (phase : s.phaseOf w.grant = some .waiting) (left : w.grant ∈ gone)
      (next : Handed gone rest (s.vanish w) s') : Handed gone (w :: rest) s s'
  | granted {w : WaitEntry} {rest : List WaitEntry} {s : Scheduler}
      (phase : s.phaseOf w.grant = some .waiting) (stays : w.grant ∉ gone) :
      Handed gone (w :: rest) s (s.hand w rest)

theorem tryTakeSlot_free {jobId : String} {priority : JobPriority} (hfree : s.running = none)
    (hquiet : isCirclePriority priority = true → s.ownerSlotActive = false) :
    s.tryTakeSlot jobId priority = (.ok (some s.nextChannel), s.take jobId priority) := by
  unfold tryTakeSlot
  rw [if_neg, hfree]
  intro h
  obtain ⟨hcircle, hactive⟩ := (Bool.and_eq_true _ _).mp h
  rw [hquiet hcircle] at hactive
  cases hactive

theorem Queued.vanish (h : Queued s (w :: ws)) : Queued (s.vanish w) ws := by
  refine h.tail ?_ ?_ (setPhase_ownerSlotActive _ _ _)
  · intro c hc
    exact (setPhase_calls _ _ _ _).trans (if_neg (Ne.symm hc))
  · unfold Scheduler.vanish
    rw [setPhase_phaseOf, if_pos rfl]
    cases phaseOf _ w.grant <;> simp

theorem Queued.closed {s : Scheduler} (h : Queued s (w :: ws))
    (hclosed : s.phaseOf w.grant ≠ some .waiting) : Queued s ws :=
  h.tail (fun _ _ => rfl) hclosed rfl

theorem grantFrom_handed (hfree : s.running = none) (h : Queued s ws) :
    Handed gone ws s (grantFrom gone ws s) := by
  induction ws generalizing s with
  | nil => exact .nobody s
  | cons w rest ih =>
    unfold grantFrom
    cases hclosed : s.isClosed w.grant with
    | true =>
      rw [if_pos rfl]
      have hphase : s.phaseOf w.grant ≠ some .waiting := by
        intro hwaiting
        rw [phaseOf_waiting.mpr hwaiting] at hclosed
        cases hclosed
      exact .closed hphase (ih hfree (h.closed hphase))
    | false =>
      rw [if_neg (by simp), tryTakeSlot_free hfree (h.quiet w List.mem_cons_self)]
      have hphase := phaseOf_waiting.mp hclosed
      by_cases hgone : w.grant ∈ gone
      · simp only [if_pos hgone]
        exact .vanished hphase hgone (ih (setPhase_running _ _ _) h.vanish)
      · simp only [if_neg hgone]
        exact .granted hphase hgone

theorem Ownership.vanish (h : Ownership s) (w : WaitEntry) : Ownership (s.vanish w) := by
  refine h.shrink ?_ ?_ ?_ (setPhase_canceled _ _ _) ?_ ?_
  · simp [Scheduler.vanish, take]
  · simp [Scheduler.vanish, take]
  · intro r hr
    simp [Scheduler.vanish] at hr
  · intro c
    exact setPhase_jobOf _ _ _ _
  · intro c ch hg
    obtain ⟨-, -, hch⟩ | ⟨-, hg⟩ := setPhase_grants.mp hg
    · cases hch
    · exact hg

theorem hand_grants (h : (s.hand w rest).Grants c ch) :
    s.Grants c ch ∨ (c = w.grant ∧ ch = s.nextChannel) := by
  obtain ⟨hc, -, hch⟩ | ⟨-, hg⟩ := setPhase_grants.mp h
  · exact .inr ⟨hc.symm, (Option.some.inj hch).symm⟩
  · exact .inl hg

theorem hand_granted (rest : List WaitEntry) (h : (s.jobOf w.grant).isSome) :
    (s.hand w rest).Grants w.grant s.nextChannel :=
  setPhase_grants.mpr (.inl ⟨rfl, h, rfl⟩)

theorem Queued.jobOf (h : Queued s ws) (hw : w ∈ ws) : s.jobOf w.grant = some w.jobId := by
  obtain ⟨call, hcall, hjob, -, -⟩ := h.entry w hw
  simp [Scheduler.jobOf, hcall, hjob]

theorem Sane.hand (hown : Ownership s) (hqueue : Queued s (w :: rest)) : Sane (s.hand w rest) := by
  have hjob : (s.hand w rest).jobOf w.grant = some w.jobId :=
    (setPhase_jobOf _ _ _ _).trans (hqueue.jobOf List.mem_cons_self)
  have hwaiters : (s.hand w rest).waiters = rest := setPhase_waiters _ _ _
  refine ⟨hown.grant ?_ ?_ ?_ ?_ ?_ fun c ch hg => hand_grants hg, ?_, ?_, ?_⟩
  · intro c hc
    unfold Scheduler.hand at hc ⊢
    rw [setPhase_jobOf] at hc
    rw [setPhase_nextCall]
    exact hown.callBound c hc
  · simp [Scheduler.hand, take]
  · intro r hr
    simp only [Scheduler.hand, setPhase_running, take, Option.some.injEq] at hr
    subst hr
    exact .inr ⟨rfl, hjob⟩
  · intro ch hch
    unfold Scheduler.hand at hch
    rw [setPhase_canceled] at hch
    exact hown.canceledBound ch hch
  · intro c _
    exact setPhase_jobOf _ _ _ _
  · rw [hwaiters]
    refine hqueue.tail ?_ ?_ (setPhase_ownerSlotActive _ _ _)
    · intro c hc
      exact (setPhase_calls _ _ _ _).trans (if_neg (Ne.symm hc))
    · unfold Scheduler.hand
      rw [setPhase_phaseOf, if_pos rfl]
      cases phaseOf _ w.grant <;> simp
  · intro r hr v hv
    simp only [Scheduler.hand, setPhase_running, take, Option.some.injEq] at hr
    rw [hwaiters] at hv
    have hbefore := List.rel_of_pairwise_cons hqueue.ordered hv
    unfold Before at hbefore
    rw [← hr]
    dsimp only
    omega
  · intro hr
    simp [Scheduler.hand, take] at hr

theorem Handed.sane (h : Handed gone ws s s') (hfree : s.running = none) (hown : Ownership s)
    (hqueue : Queued s ws) : Sane s' := by
  induction h with
  | nobody =>
    refine ⟨hown.shrink (Nat.le_refl _) (Nat.le_refl _) (fun _ hr => hr) rfl (fun _ => rfl)
      fun _ _ hg => hg, hqueue.congr (fun _ _ => rfl) (fun _ hc => hc) fun ha => ha, ?_, ?_⟩
    · intro r _ w hw
      cases hw
    · intro _
      rfl
  | closed phase _ ih => exact ih hfree hown (hqueue.closed phase)
  | vanished _ _ _ ih =>
    exact ih (setPhase_running _ _ _) (hown.vanish _) hqueue.vanish
  | granted => exact Sane.hand hown hqueue

theorem Handed.result (h : Handed gone ws s s') (hfree : s.running = none) (hqueue : Queued s ws) :
    (s'.running = none ∧ ∀ w ∈ ws, s.phaseOf w.grant = some .waiting → w.grant ∈ gone) ∨
    ∃ passed w rest ch, ws = passed ++ w :: rest ∧
      (∀ v ∈ passed, s.phaseOf v.grant = some .waiting → v.grant ∈ gone) ∧
      s.phaseOf w.grant = some .waiting ∧ w.grant ∉ gone ∧
      s'.running = some ⟨w.jobId, w.priority, ch⟩ ∧ s'.waiters = rest ∧ s'.Grants w.grant ch := by
  induction h with
  | nobody =>
    left
    refine ⟨hfree, ?_⟩
    intro w hw
    cases hw
  | @closed w rest s s' phase _ ih =>
    obtain ⟨hnone, hrest⟩ | ⟨passed, v, rest', ch, rfl, hpassed, hres⟩ :=
      ih hfree (hqueue.closed phase)
    · left
      refine ⟨hnone, ?_⟩
      intro v hv hwaiting
      obtain rfl | hv := List.mem_cons.mp hv
      · exact absurd hwaiting phase
      · exact hrest v hv hwaiting
    · right
      refine ⟨w :: passed, v, rest', ch, rfl, ?_, hres⟩
      intro u hu hwaiting
      obtain rfl | hu := List.mem_cons.mp hu
      · exact absurd hwaiting phase
      · exact hpassed u hu hwaiting
  | @vanished w rest s s' phase left _ ih =>
    have hsame : ∀ v ∈ rest, (s.vanish w).phaseOf v.grant = s.phaseOf v.grant := by
      intro v hv
      unfold vanish
      rw [setPhase_phaseOf, if_neg (hqueue.grant_ne hv)]
      rfl
    obtain ⟨hnone, hrest⟩ | ⟨passed, v, rest', ch, rfl, hpassed, hwaiting, hres⟩ :=
      ih (setPhase_running _ _ _) hqueue.vanish
    · left
      refine ⟨hnone, ?_⟩
      intro v hv hwaiting
      obtain rfl | hv := List.mem_cons.mp hv
      · exact left
      · exact hrest v hv ((hsame v hv).trans hwaiting)
    · right
      refine ⟨w :: passed, v, rest', ch, rfl, ?_, ?_, hres⟩
      · intro u hu hwaiting
        obtain rfl | hu := List.mem_cons.mp hu
        · exact left
        · exact hpassed u hu ((hsame u (List.mem_append_left _ hu)).trans hwaiting)
      · rw [← hsame v (List.mem_append_right _ List.mem_cons_self)]
        exact hwaiting
  | @granted w rest s phase stays =>
    right
    refine ⟨[], w, rest, s.nextChannel, rfl, ?_, phase, stays, setPhase_running _ _ _,
      setPhase_waiters _ _ _, ?_⟩
    · intro v hv
      cases hv
    · exact hand_granted rest (by simp [hqueue.jobOf List.mem_cons_self])

section
variable (h : Handed gone ws s s')
include h

/-- A grant after the slot was handed on is an old one, or that of a waiter, with the channel of the
job that runs now. -/
theorem Handed.grants (hg : s'.Grants c ch) :
    s.Grants c ch ∨ (∃ w ∈ ws, w.grant = c) ∧ ∃ r, s'.running = some r ∧ r.cancel = ch := by
  induction h with
  | nobody => exact .inl hg
  | closed _ _ ih =>
    obtain hold | ⟨⟨v, hv, hc⟩, hnew⟩ := ih hg
    · exact .inl hold
    · exact .inr ⟨⟨v, List.mem_cons_of_mem _ hv, hc⟩, hnew⟩
  | vanished _ _ _ ih =>
    obtain hold | ⟨⟨v, hv, hc⟩, hnew⟩ := ih hg
    · obtain ⟨-, -, hch⟩ | ⟨-, hold⟩ := setPhase_grants.mp hold
      · cases hch
      · exact .inl hold
    · exact .inr ⟨⟨v, List.mem_cons_of_mem _ hv, hc⟩, hnew⟩
  | @granted w =>
    obtain hold | ⟨rfl, rfl⟩ := hand_grants hg
    · exact .inl hold
    · exact .inr ⟨⟨w, List.mem_cons_self, rfl⟩, _, setPhase_running _ _ _, rfl⟩

theorem Handed.keeps (hout : ∀ w ∈ ws, w.grant ≠ c) (hg : s.Grants c ch) : s'.Grants c ch := by
  induction h with
  | nobody => exact hg
  | closed _ _ ih => exact ih (fun v hv => hout v (List.mem_cons_of_mem _ hv)) hg
  | vanished _ _ _ ih =>
    refine ih (fun v hv => hout v (List.mem_cons_of_mem _ hv)) ?_
    exact setPhase_grants.mpr (.inr ⟨hout _ List.mem_cons_self, hg⟩)
  | granted => exact setPhase_grants.mpr (.inr ⟨hout _ List.mem_cons_self, hg⟩)

theorem Handed.running_new (hfree : s.running = none) {r : RunningJob}
    (hr : s'.running = some r) : s.nextChannel ≤ r.cancel := by
  induction h with
  | nobody s =>
    change s.running = some r at hr
    rw [hfree] at hr
    cases hr
  | closed _ _ ih => exact ih hfree hr
  | vanished _ _ _ ih =>
    have hle := ih (setPhase_running _ _ _) hr
    simp only [vanish, setPhase_nextChannel, take] at hle
    omega
  | granted =>
    simp only [hand, setPhase_running, take, Option.some.injEq] at hr
    subst hr
    exact Nat.le_refl _

theorem Handed.jobOf (c : Nat) : s'.jobOf c = s.jobOf c := by
  induction h with
  | nobody => rfl
  | closed _ _ ih => exact ih
  | vanished _ _ _ ih => exact ih.trans (setPhase_jobOf _ _ _ _)
  | granted => exact setPhase_jobOf _ _ _ _

theorem Handed.priorityOf (c : Nat) : s'.priorityOf c = s.priorityOf c := by
  induction h with
  | nobody => rfl
  | closed _ _ ih => exact ih
  | vanished _ _ _ ih => exact ih.trans (setPhase_priorityOf _ _ _ _)
  | granted => exact setPhase_priorityOf _ _ _ _

theorem Handed.canceled : s'.canceled = s.canceled := by
  induction h with
  | nobody => rfl
  | closed _ _ ih => exact ih
  | vanished _ _ _ ih => exact ih.trans (setPhase_canceled _ _ _)
  | granted => exact setPhase_canceled _ _ _

end

end Scheduler

end Tetonic.Node
