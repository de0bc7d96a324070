import Tetonic.Run.Events
import Tetonic.Run.Fencing
set_option autoImplicit false

/-! The life of a lease: what an event of a run can do to the lease an attempt holds. From it follow
the freshness of heartbeats and the ways in which a lease comes to expire. -/

namespace Tetonic.Run
open Lib RunEvent

variable {P : Platform} {C : RunSnapshot → RunEvent → Prop} {s t : RunSnapshot} {e : RunEvent}
  {es : List RunEvent} {id : AttemptId}

inductive LeaseMove (e : RunEvent) (id : AttemptId) (l : AttemptLease) : AttemptLease → Prop where
  | keep : LeaseMove e id l l
  | beat {c : RecordHeartbeat} (hevent : e = .command (.recordHeartbeat c)) (hid : c.attemptId = id)
      (hnames : c.leaseProof.names l) : LeaseMove e id l (heartbeatLease c l)
  | wake {l' : AttemptLease} (hepoch : l.leaseEpoch < l'.leaseEpoch) : LeaseMove e id l l'

variable {l : AttemptLease} {a : AttemptRecord}

theorem Holds.lease_move (h : Holds s e t) (ha : s.attempts[id]? = some a) (hl : a.lease = some l)
    (hleases : e.leases ≠ some id) :
    ∃ a' l', t.attempts[id]? = some a' ∧ a'.lease = some l' ∧ LeaseMove e id l l' := by
  obtain ⟨a', ha', hheld⟩ := h id a ha
  exact ⟨a', l, ha', (hheld.lease hleases).trans hl, .keep⟩

theorem applyCommand_lease_move {c : RunCommand} (h : applyCommand P s c = .ok t)
    (hs : ReachableWhere P C s) (ha : s.attempts[id]? = some a) (hl : a.lease = some l) :
    ∃ a' l', t.attempts[id]? = some a' ∧ a'.lease = some l' ∧ LeaseMove (.command c) id l l' := by
  have hmoves := applyCommand_moves h
  by_cases hleases : (command c).leases = some id
  · cases c with
    | leaseAttempt =>
      -- an attempt that is still to be leased holds no lease
      cases hleases
      simp only [applyCommand, applyLeaseAttempt, bind_eq_ok, findAttempt_eq_ok, refuseIf_eq_ok,
        exists_const, not_not] at h
      obtain ⟨-, -, b, hb, hcreated, -⟩ := h
      rw [ha] at hb
      cases hb
      rw [(hs.sound.attempt _ a ha).unleased hcreated] at hl
      cases hl
    | resumeAttempt =>
      cases hleases
      obtain ⟨b, b', lease, hb, -, hsuspended, hb', hstarting⟩ := resume_inv h
      rw [ha] at hb
      cases hb
      obtain ⟨l', hl', hepoch⟩ :=
        hmoves.board.wake_grows hs.fenced ha hb' hsuspended hstarting hl
      exact ⟨b', l', hb', hl', .wake hepoch⟩
    | recordHeartbeat =>
      cases hleases
      obtain ⟨b, lease, hb, -, hlease, hnames, -, rfl⟩ := applyRecordHeartbeat_spec h
      rw [ha] at hb
      cases hb
      rw [hl] at hlease
      cases hlease
      exact ⟨_, _, OrdMap.get_insert_self _ _ _, rfl, .beat rfl rfl hnames⟩
    | _ => cases hleases
  · exact hmoves.holds.lease_move ha hl hleases

theorem Occurs.lease_move (h : Occurs P s e t) (hs : ReachableWhere P C s)
    (ha : s.attempts[id]? = some a) (hl : a.lease = some l) :
    ∃ a' l', t.attempts[id]? = some a' ∧ a'.lease = some l' ∧ LeaseMove e id l l' := by
  cases h with
  | @command c u n events h =>
    obtain ⟨a', l', ha', hl', hmove⟩ := applyCommand_lease_move h hs ha hl
    exact ⟨a', l', ha', hl', hmove⟩
  | @expire k b now t hb hexp h =>
    have hholds : Holds s (.expire k now) t := failure_holds h hb rfl rfl rfl fun _ => .inr rfl
    exact hholds.lease_move ha hl (by simp [leases])
  | quarantine => exact ⟨a, l, ha, hl, .keep⟩

/-- The sequence number of a heartbeat of the attempt under the epoch. -/
def RunEvent.heartbeat (id : AttemptId) (epoch : UInt64) : RunEvent → Option UInt64
  | .command (.recordHeartbeat c) =>
    if c.attemptId = id ∧ c.leaseProof.leaseEpoch = epoch then some c.heartbeatSequence else none
  | _ => none

/-- A heartbeat that carries a new expiry also asks for the renewal. -/
def RenewalAsked (_ : RunSnapshot) (e : RunEvent) : Prop :=
  ∀ c : RecordHeartbeat, e = .command (.recordHeartbeat c) → c.renewedExpiresAt.isSome = true →
    c.report.leaseRenewalRequested = true

theorem heartbeatLease_records {c : RecordHeartbeat} (l : AttemptLease)
    (h : c.renewedExpiresAt.isSome = true → c.report.leaseRenewalRequested = true) :
    (heartbeatLease c l).lastHeartbeatSequence = c.heartbeatSequence := by
  unfold heartbeatLease
  cases hr : c.renewedExpiresAt with
  | none => rfl
  | some =>
    rw [hr] at h
    simp only [h rfl, if_true]
    rfl

/-- The lease has moved past the heartbeat: it has a later epoch, or has recorded as much. -/
def PastHeartbeat (s : RunSnapshot) (id : AttemptId) (epoch n : UInt64) : Prop :=
  ∃ a l, s.attempts[id]? = some a ∧ a.lease = some l ∧
    (epoch < l.leaseEpoch ∨ l.leaseEpoch = epoch ∧ n ≤ l.lastHeartbeatSequence)

variable {epoch n : UInt64}

theorem PastHeartbeat.mono {m : UInt64} (h : PastHeartbeat s id epoch n) (hle : m ≤ n) :
    PastHeartbeat s id epoch m := by
  obtain ⟨a, l, ha, hl, hpast⟩ := h
  exact ⟨a, l, ha, hl, hpast.imp_right fun hn => ⟨hn.1, UInt64.le_trans hle hn.2⟩⟩

theorem RunEvent.heartbeat_eq_some (h : e.heartbeat id epoch = some n) :
    ∃ c : RecordHeartbeat, e = .command (.recordHeartbeat c) ∧ c.attemptId = id ∧
      c.leaseProof.leaseEpoch = epoch ∧ c.heartbeatSequence = n := by
  unfold heartbeat at h
  split at h
  · rename_i c
    split at h
    · rename_i hboth
      cases h
      exact ⟨c, rfl, hboth.1, hboth.2, rfl⟩
    · cases h
  · cases h

/-- An accepted heartbeat is above everything the lease has moved past, and the lease moves past
it. -/
theorem Occurs.heartbeat_fresh (h : Occurs P s e t) (hasked : RenewalAsked s e)
    (hbeat : e.heartbeat id epoch = some n) :
    PastHeartbeat t id epoch n ∧ ∀ m, PastHeartbeat s id epoch m → m < n := by
  obtain ⟨c, rfl, rfl, rfl, rfl⟩ := heartbeat_eq_some hbeat
  cases h with
  | @command _ u _ _ h =>
    obtain ⟨a, l, ha, -, hl, hnames, hnewer, rfl⟩ := applyRecordHeartbeat_spec h
    constructor
    · refine ⟨_, _, OrdMap.get_insert_self _ _ _, rfl, .inr ⟨?_, ?_⟩⟩
      · rw [(heartbeatLease_sameFence c l).leaseEpoch]
        exact hnames.2.1
      · rw [heartbeatLease_records l (hasked c rfl)]
        exact UInt64.le_refl _
    · intro m hm
      obtain ⟨b, l', hb, hl', hpast⟩ := hm
      rw [ha] at hb
      cases hb
      rw [hl] at hl'
      cases hl'
      rcases hpast with hlt | hle
      · rw [hnames.2.1] at hlt
        exact absurd hlt (UInt64.lt_irrefl _)
      · exact UInt64.lt_of_le_of_lt hle.2 hnewer

theorem Occurs.pastHeartbeat (h : Occurs P s e t) (hs : ReachableWhere P C s)
    (hbeat : e.heartbeat id epoch = none) (hpast : PastHeartbeat s id epoch n) :
    PastHeartbeat t id epoch n := by
  obtain ⟨a, l, ha, hl, hpast⟩ := hpast
  obtain ⟨a', l', ha', hl', hmove⟩ := h.lease_move hs ha hl
  refine ⟨a', l', ha', hl', ?_⟩
  cases hmove with
  | keep => exact hpast
  | @beat c hevent hid hnames =>
    -- the heartbeat is under another epoch, so the lease has a later one already
    subst hevent
    rw [(heartbeatLease_sameFence c l).leaseEpoch]
    rcases hpast with hlt | heq
    · exact .inl hlt
    · simp [heartbeat, hid, ← hnames.2.1, heq.1] at hbeat
  | wake hepoch =>
    rcases hpast with hlt | heq
    · exact .inl (UInt64.lt_trans hlt hepoch)
    · rw [heq.1] at hepoch
      exact .inl hepoch

theorem Trace.pastHeartbeats {runId : RunId} {session : Option SessionId}
    (h : Trace P RenewalAsked (emptySnapshot runId session) es s) (id : AttemptId)
    (epoch : UInt64) :
    (es.filterMap (heartbeat id epoch)).Pairwise (· < ·) ∧
      ∀ n ∈ es.filterMap (heartbeat id epoch), PastHeartbeat s id epoch n := by
  induction h with
  | nil => simp
  | @snoc es e s t htrace hasked ho ih =>
    cases hbeat : e.heartbeat id epoch with
    | none =>
      simp only [List.filterMap_append, List.filterMap_cons_none hbeat, List.filterMap_nil,
        List.append_nil]
      exact ⟨ih.1, fun n hn => ho.pastHeartbeat htrace.reachable hbeat (ih.2 n hn)⟩
    | some =>
      obtain ⟨hpast, hfresh⟩ := ho.heartbeat_fresh hasked hbeat
      simp only [List.filterMap_append, List.filterMap_cons_some hbeat, List.filterMap_nil]
      constructor
      · refine List.pairwise_append.mpr ⟨ih.1, List.pairwise_singleton _ _, ?_⟩
        intro m hm n' hn'
        rw [List.mem_singleton.mp hn']
        exact hfresh m (ih.2 m hm)
      · intro m hm
        rcases List.mem_append.mp hm with hm | hm
        · exact hpast.mono (UInt64.le_of_lt (hfresh m (ih.2 m hm)))
        · rw [List.mem_singleton.mp hm]
          exact hpast

/-- The heartbeats accepted for an attempt under one epoch carry increasing sequence numbers, in
every history in which a heartbeat that carries a new expiry asks for the renewal. -/
theorem heartbeats_increase (P : Platform) {runId : RunId} {session : Option SessionId}
    {es : List RunEvent} {s : RunSnapshot}
    (h : Trace P RenewalAsked (emptySnapshot runId session) es s) (id : AttemptId)
    (epoch : UInt64) : (es.filterMap (heartbeat id epoch)).Pairwise (· < ·) :=
  (h.pastHeartbeats id epoch).1

namespace Demo

def heartbeat (id : AttemptId) (epoch sequence : UInt64) (requested : Bool)
    (renewed : Option UInt64) : RunCommand := .recordHeartbeat {
  envelope := envelope ("heartbeat:" ++ id) 6
  runId := "run"
  attemptId := id
  leaseProof := proof epoch
  heartbeatSequence := sequence
  report := ⟨requested⟩
  renewedExpiresAt := renewed }

def expireLease (id : AttemptId) (expiredAt : UInt64) : RunCommand :=
  .expireLease ⟨envelope ("expire:" ++ id) 7, "run", id, expiredAt⟩

def renewalTest (_ : RunSnapshot) : RunCommand → Bool
  | .recordHeartbeat c => c.renewedExpiresAt.isNone || c.report.leaseRenewalRequested
  | _ => true

theorem renewalTest_asked (s : RunSnapshot) (c : RunCommand) (h : renewalTest s c = true) :
    RenewalAsked s (.command c) := by
  intro c' he hsome
  cases he
  simpa [renewalTest, Option.isNone_eq_false_iff.mpr hsome] using h

def leasedRun : RunSnapshot := (ran leasedUntil).toOption.get rfl

end Demo
open Demo

theorem heartbeats_increase_renewed :
    ∃ es s, Trace platform RenewalAsked (emptySnapshot "run" none) es s ∧
      es.filterMap (heartbeat "a" 1) = [1, 2, 3] ∧
      (es.filterMap (heartbeat "a" 1)).Pairwise (· < ·) := by
  have hs := ran_trace renewalTest_asked (leasedUntil ++ [heartbeat "a" 1 1 true (some 600),
    heartbeat "a" 1 2 false none, heartbeat "a" 1 3 true (some 700)]) (by decide +kernel) rfl
  exact ⟨_, _, hs, by decide, heartbeats_increase platform hs "a" 1⟩

/-- A heartbeat that carries a new expiry and does not ask for the renewal is accepted and leaves no
trace, so it is accepted again. -/
theorem heartbeat_replayed :
    ∃ cs s, Accepted platform (emptySnapshot "run" none) cs s ∧
      (cs.map command).filterMap (heartbeat "a" 1) = [1, 1] ∧
      ¬ ((cs.map command).filterMap (heartbeat "a" 1)).Pairwise (· < ·) := by
  have hs := ran_accepted (leasedUntil ++ [heartbeat "a" 1 1 false (some 600),
    heartbeat "a" 1 1 false (some 600)]) rfl
  exact ⟨_, _, hs, by decide, by decide⟩

variable {a' : AttemptRecord}

theorem Occurs.expires (h : Occurs P s e t) (ha : s.attempts[id]? = some a)
    (ha' : t.attempts[id]? = some a') (hbefore : a.state ≠ .leaseExpired)
    (hafter : a'.state = .leaseExpired) :
    a.state.inFlight = true ∧ e.expires id := by
  obtain ⟨u, n, events, hmoves, rfl⟩ := h.moves
  replace ha' : u.attempts[id]? = some a' := ha'
  obtain ⟨b, hb, hheld⟩ := hmoves.holds id a ha
  rw [ha'] at hb
  cases hb
  refine ⟨?_, (hheld.expired hafter).resolve_left hbefore⟩
  obtain ⟨b, hb, hmove⟩ := hmoves.board.attempt_after ha
  replace hb : u.attempts[id]? = some b := hb
  rw [ha'] at hb
  cases hb
  cases hmove with
  | fail hs => exact hs
  | stay | beat | quiesce => exact absurd hafter hbefore
  | _ => cases hafter

theorem Trace.attempt_kept (h : Trace P C s es t) (ha : s.attempts[id]? = some a) :
    ∃ a', t.attempts[id]? = some a' := by
  induction h with
  | nil => exact ⟨a, ha⟩
  | snoc _ _ ho ih =>
    obtain ⟨b, hb⟩ := ih
    obtain ⟨a', ha', -⟩ := ho.board_step.attempt_after hb
    exact ⟨a', ha'⟩

theorem Trace.expires (h : Trace P C s es t) (ha : s.attempts[id]? = some a)
    (hbefore : a.state ≠ .leaseExpired) (ha' : t.attempts[id]? = some a')
    (hafter : a'.state = .leaseExpired) :
    ∃ before e after u v b, es = before ++ e :: after ∧ Trace P C s before u ∧ Occurs P u e v ∧
      u.attempts[id]? = some b ∧ b.state.inFlight = true ∧ e.expires id := by
  induction h generalizing a' with
  | nil =>
    rw [ha] at ha'
    cases ha'
    exact absurd hafter hbefore
  | @snoc es e u t htrace hc ho ih =>
    obtain ⟨b, hb⟩ := htrace.attempt_kept ha
    by_cases hexpired : b.state = .leaseExpired
    · obtain ⟨before, e', after, u', v, b', rfl, hrest⟩ := ih hb hexpired
      exact ⟨before, e', after ++ [e], u', v, b', by simp, hrest⟩
    · obtain ⟨hfly, hexpires⟩ := ho.expires hb ha' hexpired hafter
      exact ⟨es, e, [], u, t, b, rfl, htrace, ho, hb, hfly, hexpires⟩

variable {now : UInt64}

theorem AttemptRecord.expiredAt_iff :
    a.expiredAt now = true ↔
      a.state.inFlight = true ∧ ∃ l, a.lease = some l ∧ l.expiresAt < now := by
  unfold AttemptRecord.expiredAt
  cases a.lease with
  | none | some => simp

/-- A recovery pass changes only the attempts whose lease it finds expired. -/
theorem recoverExpiredLeases_spares (h : recoverExpiredLeases P s now = .ok t)
    (ha : s.attempts[id]? = some a) (hcurrent : a.expiredAt now = false) :
    t.attempts[id]? = some a := by
  obtain ⟨ids, htrace⟩ := recoverExpiredLeases_trace h
  generalize hes : ids.map (expire · now) = es at htrace
  have honly : ∀ e ∈ es, ∃ k, e = expire k now := by
    intro e he
    rw [← hes] at he
    obtain ⟨k, -, rfl⟩ := List.mem_map.mp he
    exact ⟨k, rfl⟩
  clear hes h
  induction htrace with
  | nil => exact ha
  | snoc _ _ ho ih =>
    obtain ⟨k, rfl⟩ := honly _ (List.mem_append_right _ List.mem_cons_self)
    have hu := ih (fun e he => honly e (List.mem_append_left _ he))
    cases ho with
    | expire hb hexp h =>
      by_cases hk : k = id
      · subst hk
        rw [hu] at hb
        cases hb
        rw [hcurrent] at hexp
        cases hexp
      · exact (expireAttempt_others h hk).trans hu

theorem heartbeatLease_expiresAt (c : RecordHeartbeat) (l : AttemptLease) :
    (heartbeatLease c l).expiresAt =
      if c.report.leaseRenewalRequested then c.renewedExpiresAt.getD l.expiresAt
      else l.expiresAt := by
  unfold heartbeatLease
  cases c.renewedExpiresAt with
  | none => simp
  | some =>
    by_cases hr : c.report.leaseRenewalRequested
    · simp [hr, renewLease]
    · simp [hr]

/-- An attempt comes to be expired by a recovery pass later than the expiry of its lease, by a
command that expires it whatever the time it names, or by a report of its failure. A heartbeat moves
the expiry only where it asks for a renewal, and then to the time it carries. -/
theorem lease_ends (P : Platform) :
    (∀ (s t : RunSnapshot) (es : List RunEvent), Trace P (fun _ _ => True) s es t →
      ∀ (id : AttemptId) (a a' : AttemptRecord), s.attempts[id]? = some a →
        a.state ≠ .leaseExpired → t.attempts[id]? = some a' → a'.state = .leaseExpired →
        ∃ before e after u v b, es = before ++ e :: after ∧
          Trace P (fun _ _ => True) s before u ∧ Occurs P u e v ∧
          u.attempts[id]? = some b ∧ b.state.inFlight = true ∧
          ((∃ now l, e = .expire id now ∧ b.lease = some l ∧ l.expiresAt < now) ∨
            (∃ c, e = .command (.expireLease c) ∧ c.attemptId = id) ∨
            ∃ c, e = .command (.failAttempt c) ∧ c.attemptId = id)) ∧
    (∀ (s t : RunSnapshot) (now : UInt64), recoverExpiredLeases P s now = .ok t →
      ∀ (id : AttemptId) (a : AttemptRecord) (l : AttemptLease), s.attempts[id]? = some a →
        a.lease = some l → now ≤ l.expiresAt → t.attempts[id]? = some a) ∧
    (∀ s : RunSnapshot, Reachable P s → ∀ (c : ExpireLease) (a : AttemptRecord),
      s.attempts[c.attemptId]? = some a → a.state.inFlight = true →
        ∃ t a', applyCommand P s (.expireLease c) = .ok t ∧
          t.attempts[c.attemptId]? = some a' ∧ a'.state = .leaseExpired) ∧
    (∀ (s t : RunSnapshot) (c : RecordHeartbeat), applyCommand P s (.recordHeartbeat c) = .ok t →
      ∃ a l l', s.attempts[c.attemptId]? = some a ∧ a.lease = some l ∧
        t.attempts[c.attemptId]? = some { a with lease := some l' } ∧
        l'.expiresAt = if c.report.leaseRenewalRequested then c.renewedExpiresAt.getD l.expiresAt
          else l.expiresAt) := by
  refine ⟨?_, ?_, ?_, ?_⟩
  · intro s t es htrace id a a' ha hbefore ha' hafter
    obtain ⟨before, e, after, u, v, b, hes, hu, ho, hb, hfly, hexpires⟩ :=
      htrace.expires ha hbefore ha' hafter
    refine ⟨before, e, after, u, v, b, hes, hu, ho, hb, hfly, ?_⟩
    cases ho with
    | @command c =>
      cases c with
      | expireLease c => exact .inr (.inl ⟨c, rfl, hexpires⟩)
      | failAttempt c => exact .inr (.inr ⟨c, rfl, hexpires⟩)
      | _ => exact hexpires.elim
    | @expire k r now v hr hexp =>
      replace hexpires : k = id := hexpires
      subst hexpires
      rw [hb] at hr
      cases hr
      obtain ⟨-, l, hl, hlt⟩ := AttemptRecord.expiredAt_iff.mp hexp
      exact .inl ⟨now, l, rfl, hl, hlt⟩
    | quarantine => exact hexpires.elim
  · intro s t now h id a l ha hl hle
    refine recoverExpiredLeases_spares h ha ?_
    rw [Bool.eq_false_iff]
    intro hexp
    obtain ⟨-, l', hl', hlt⟩ := AttemptRecord.expiredAt_iff.mp hexp
    rw [hl] at hl'
    cases hl'
    exact UInt64.lt_irrefl _ (UInt64.lt_of_lt_of_le hlt hle)
  · intro s hs c a ha hfly
    obtain ⟨task, htask⟩ := hs.sound.attemptTask _ a ha
    obtain ⟨t, ht⟩ := applyFailureWithRetry_total P (s := { s with
      attempts := s.attempts.insert c.attemptId { a with
        state := .leaseExpired
        failureClass := some .leaseExpired
        failureReason := some "lease expired" } }) .leaseExpired "lease expired" c.expiredAt htask
    obtain ⟨task', retry, st, -, -, hr⟩ := applyFailureWithRetry_spec ht
    refine ⟨t, _, ?_, by rw [hr.attempts]; exact OrdMap.get_insert_self _ _ _, rfl⟩
    simp only [applyCommand, applyExpireLease, bind_eq_ok, findAttempt_eq_ok, ha, Option.some.injEq,
      exists_eq_left', hfly, Bool.true_eq_false, if_false]
    exact ht
  · intro s t c h
    obtain ⟨a, l, ha, -, hl, -, -, rfl⟩ := applyRecordHeartbeat_spec h
    exact ⟨a, l, heartbeatLease c l, ha, hl, OrdMap.get_insert_self _ _ _,
      heartbeatLease_expiresAt c l⟩

theorem lease_ends_early :
    ∃ s a, Reachable platform s ∧ s.attempts["a"]? = some a ∧ a.state.inFlight = true ∧
      (∃ t a', Trace platform (fun _ _ => True) s [.command (expireLease "a" 100)] t ∧
        t.attempts["a"]? = some a' ∧ a'.state = .leaseExpired ∧
        ∃ before e after u v b, [command (expireLease "a" 100)] = before ++ e :: after ∧
          Trace platform (fun _ _ => True) s before u ∧ Occurs platform u e v ∧
          u.attempts["a"]? = some b ∧ b.state.inFlight = true ∧
          ((∃ now l, e = .expire "a" now ∧ b.lease = some l ∧ l.expiresAt < now) ∨
            (∃ c, e = .command (.expireLease c) ∧ c.attemptId = "a") ∨
            ∃ c, e = .command (.failAttempt c) ∧ c.attemptId = "a")) ∧
      (∃ t, recoverExpiredLeases platform s 500 = .ok t ∧ t.attempts["a"]? = some a) ∧
      ∃ (t : RunSnapshot) (b : AttemptRecord) (l' : AttemptLease),
        applyCommand platform s (heartbeat "a" 1 1 true (some 600)) = .ok t ∧
        t.attempts["a"]? = some { b with lease := some l' } ∧ l'.expiresAt = 600 := by
  obtain ⟨hends, hspares, hexpires, hbeats⟩ := lease_ends platform
  have hs : Reachable platform leasedRun := ran_reachable leasedUntil rfl
  obtain ⟨t, a', ht, ha', hexpired⟩ :=
    hexpires leasedRun hs ⟨envelope "expire:a" 7, "run", "a", 100⟩ _ rfl rfl
  have htrace : Trace platform (fun _ _ => True) leasedRun [.command (expireLease "a" 100)] t :=
    Trace.nil.snoc trivial (.command ht)
  refine ⟨leasedRun, _, hs, rfl, rfl, ⟨t, a', htrace, ha', hexpired,
    hends leasedRun t _ htrace "a" _ a' rfl (by simp) ha' hexpired⟩,
    ⟨_, rfl, hspares leasedRun _ 500 rfl "a" _ _ rfl rfl (UInt64.le_refl _)⟩, ?_⟩
  obtain ⟨b, _, l', -, -, hu, hexpiresAt⟩ := hbeats leasedRun _
    ⟨envelope "heartbeat:a" 6, "run", "a", proof 1, 1, ⟨true⟩, some 600⟩ rfl
  exact ⟨_, b, l', rfl, hu, hexpiresAt⟩

/-- A lease that runs to 500 is expired at 100, and a heartbeat moves its expiry back to 450. -/
theorem lease_cut_short :
    ∃ s a l, Reachable platform s ∧ s.attempts["a"]? = some a ∧ a.state.inFlight = true ∧
      a.lease = some l ∧ l.expiresAt = 500 ∧ (∃ t a', Accepted platform s [expireLease "a" 100] t ∧
        t.attempts["a"]? = some a' ∧ a'.state = .leaseExpired) ∧
      ∃ t a' l', Accepted platform s [heartbeat "a" 1 1 true (some 450)] t ∧
        t.attempts["a"]? = some a' ∧ a'.lease = some l' ∧ l'.expiresAt = 450 := by
  have hs := ran_reachable leasedUntil rfl
  exact ⟨_, _, _, hs, rfl, rfl, rfl, rfl, ⟨_, _, runCommands_accepted rfl, rfl, rfl⟩,
    _, _, _, runCommands_accepted rfl, rfl, rfl, rfl⟩

end Tetonic.Run
