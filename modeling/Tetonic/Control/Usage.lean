import Tetonic.Control.Attenuation
import Tetonic.Control.Work
set_option autoImplicit false

/-! What inference costs, from the first call of an attempt to its settlement. The execution that
holds an attempt's allowance goes by the fence it began under; a resumed attempt takes it over in
the transaction that appends its event. -/

namespace Tetonic.Control
open Lib Run

def Store.execution (s : Store) (attempt : String) : Option WorkBudgetExecution :=
  s.executions.find? (·.attemptId = attempt)

def Store.updateExecution (s : Store) (attempt : String)
    (f : WorkBudgetExecution → WorkBudgetExecution) : Store :=
  { s with executions := s.executions.map fun e => if e.attemptId = attempt then f e else e }

def Store.resumeWorkUsage (s : Store) (old next : RunSnapshot) (c : ResumeAttempt) :
    Result Store := do
  let before ← orDeny old.attempts[c.attemptId]?
  let after ← orDeny next.attempts[c.attemptId]?
  let oldTask ← orDeny old.tasks[before.taskId]?
  let newTask ← orDeny next.tasks[before.taskId]?
  let oldLease ← orDeny before.lease
  let newLease ← orDeny after.lease
  denyIf (c.runId ≠ next.runId || old.sequence + 1 ≠ next.sequence ||
    before.state ≠ .suspended || !before.executionQuiesced || !before.executionClaimed ||
    before.suspension.map (·.checkpoint) ≠ some c.checkpoint || after.state ≠ .starting ||
    after.executionClaimed || after.executionQuiesced || after.suspension.isSome ||
    before.taskId ≠ after.taskId || before.taskVersion ≠ after.taskVersion ||
    oldTask.state ≠ .parked || newTask.state ≠ .leased ||
    oldTask.binding.jobSpec ≠ newTask.binding.jobSpec ||
    oldTask.binding.executionScope ≠ newTask.binding.executionScope ||
    oldTask.binding.executionGrantId ≠ newTask.binding.executionGrantId ||
    oldTask.binding.activation ≠ newTask.binding.activation ||
    oldLease.leaseId ≠ newLease.leaseId || newLease.leaseEpoch ≤ oldLease.leaseEpoch ||
    c.leaseProof ≠ ⟨oldLease.leaseId, oldLease.leaseEpoch, oldLease.holder⟩ ||
    newLease.holder ≠ c.holder)
  match s.execution c.attemptId with
  | none => .ok s
  | some e =>
    let held ← executionFence before
    denyIf (e.runId ≠ next.runId || e.taskId ≠ before.taskId || e.fence ≠ held ||
      e.releasedTokens ≠ 0)
    let fence ← executionFence after
    .ok (s.updateExecution c.attemptId ({ · with fence }))

/-- What the transaction of an event does to the executions. -/
def Store.resumeWorkUsageInTx (s : Store) (old next : RunSnapshot) : RunCommand → Result Store
  | .resumeAttempt c => s.resumeWorkUsage old next c
  | _ => .ok s

inductive UsageOp where
  | begin (E : Surroundings) (c : BeginWorkInference) (ownLimit : Option Int) (minimum : Int)
  | finish (call : String) (input output : Option Int)
  | settle (E : Surroundings) (attempt : String)
  | commit (old next : RunSnapshot) (command : RunCommand)

def Store.use (s : Store) : UsageOp → Result Store
  | .begin E c ownLimit minimum => do
    let (_, t) ← s.beginWorkInferenceWithHeadroom E c ownLimit minimum
    .ok t
  | .finish call input output => s.finishWorkInference call input output
  | .settle E attempt => s.settleWorkInference E attempt
  | .commit old next command => s.resumeWorkUsageInTx old next command

def Uses : Store → Store → Prop := Relation.ReflTransGen fun s t => ∃ op, s.use op = .ok t

variable {s t : Store} {a : String} {op : UsageOp} {e e' : WorkBudgetExecution} {E : Surroundings}
  {c : BeginWorkInference} {ownLimit : Option Int} {minimum : Int}

theorem execution_attempt (h : s.execution a = some e) : e.attemptId = a := by
  simpa using List.find?_some h

theorem execution_updateExecution {k : String} {f : WorkBudgetExecution → WorkBudgetExecution}
    (hf : ∀ e, (f e).attemptId = e.attemptId) :
    (s.updateExecution k f).execution a =
      (s.execution a).map fun e => if a = k then f e else e := by
  have hkey : ((fun e : WorkBudgetExecution => decide (e.attemptId = a)) ∘ fun e =>
      if e.attemptId = k then f e else e) = fun e => decide (e.attemptId = a) := by
    funext e
    by_cases he : e.attemptId = k
    · simp [he, hf]
    · simp [he]
  rw [Store.execution, Store.updateExecution, List.find?_map, hkey]
  cases h : s.execution a with
  | none => rw [← Store.execution, h, Option.map_none, Option.map_none]
  | some e => rw [← Store.execution, h, Option.map_some, Option.map_some, execution_attempt h]

/-- The attempt has ended, its host is done with it, it has the fence of the execution still, and
all its calls are reported. -/
def Releases (s : Store) (E : Surroundings) (e : WorkBudgetExecution) (released : Int) : Prop :=
  ∃ snapshot owner, E.run e.runId = some snapshot ∧ snapshot.attempts[e.attemptId]? = some owner ∧
    isTerminalAttempt owner.state = true ∧ owner.executionQuiesced = true ∧
    executionFence owner = .ok e.fence ∧ s.unresolved e.attemptId = false ∧
    e.allowance = some (s.used e.attemptId + released)

/-- The attempt is resumed, from the fence of the execution to a later one. -/
def TakesOver (old next : RunSnapshot) (c : ResumeAttempt) (e : WorkBudgetExecution)
    (fence : ExecutionFence) : Prop :=
  ∃ before after, old.attempts[c.attemptId]? = some before ∧ executionFence before = .ok e.fence ∧
    next.attempts[c.attemptId]? = some after ∧ executionFence after = .ok fence ∧
    e.fence.leaseEpoch < fence.leaseEpoch ∧ e.releasedTokens = 0

/-- What an operation that changed something did. -/
inductive UsageStep (s : Store) : UsageOp → Store → Prop
  | begin {E : Surroundings} {c : BeginWorkInference} {ownLimit : Option Int} {minimum : Int}
      {t : Store} {snapshot : RunSnapshot} {attempt : AttemptRecord} {fence : ExecutionFence}
      (found : E.run c.run = some snapshot) (at_work : snapshot.attempts[c.attempt]? = some attempt)
      (fenced : executionFence attempt = .ok fence)
      (fresh : s.calls.any (·.callId = c.call) = false)
      (calls : t.calls = s.calls ++ [⟨c.call, c.attempt, c.model, none, none, .pending⟩])
      (execution : (∃ e, s.execution c.attempt = some e ∧ e.fence = fence ∧ e.releasedTokens = 0 ∧
          e.allowance ≠ some (s.used c.attempt) ∧ t.executions = s.executions) ∨
        s.execution c.attempt = none ∧ ∃ e, e.attemptId = c.attempt ∧ e.releasedTokens = 0 ∧
          t.executions = s.executions ++ [e]) : UsageStep s (.begin E c ownLimit minimum) t
  | finish {call : String} {input output : Option Int} {row : WorkUsageCall} (state : CallState)
      (found : s.calls.find? (·.callId = call) = some row) (pending : row.state = .pending) :
      UsageStep s (.finish call input output) { s with calls := s.calls.map fun c =>
        if c.callId = call then { c with inputTokens := input, outputTokens := output, state }
        else c }
  | settle {E : Surroundings} {attempt : String} {e : WorkBudgetExecution} {n : Int}
      (found : s.execution attempt = some e) (releases : Releases s E e n) :
      UsageStep s (.settle E attempt) (s.updateExecution attempt ({ · with releasedTokens := n }))
  | resume {old next : RunSnapshot} {c : ResumeAttempt} {e : WorkBudgetExecution}
      {fence : ExecutionFence} (found : s.execution c.attemptId = some e)
      (takes : TakesOver old next c e fence) :
      UsageStep s (.commit old next (.resumeAttempt c))
        (s.updateExecution c.attemptId ({ · with fence }))

theorem begin_step {x : Option Int × Store}
    (h : s.beginWorkInferenceWithHeadroom E c ownLimit minimum = .ok x) :
    UsageStep s (.begin E c ownLimit minimum) x.2 := by
  simp only [Store.beginWorkInferenceWithHeadroom, TeamWorkItem.requireAttempt, bind_eq_ok,
    orDeny_eq_ok, failIf_eq_ok, denyIf_eq_ok] at h
  obtain ⟨-, -, -, -, -, -, -, -, row, -, fence, ⟨snapshot, hrun, task, -, attempt, hattempt, scope,
    -, lease, -, activation, -, -, -, hfence⟩, p, henter, -, hopen, headroom, -, -, -, -, hfresh,
    h⟩ := h
  cases h
  unfold Store.enterExecution at henter
  cases hfind : s.executions.find? (·.attemptId = c.attempt) with
  | some old =>
    simp only [hfind, bind_eq_ok, denyIf_eq_ok, Bool.or_eq_false_iff, decide_eq_false_iff_not,
      Decidable.not_not] at henter
    obtain ⟨-, hsame, henter⟩ := henter
    cases henter
    exact .begin hrun hattempt hfence hfresh rfl
      (.inl ⟨old, hfind, hsame.1.1.1.1.2, hsame.1.1.1.2,
        fun hspent => by simp [hspent] at hopen, rfl⟩)
  | none =>
    simp only [hfind, bind_eq_ok] at henter
    obtain ⟨allowance, -, s₁, hreserve, henter⟩ := henter
    cases henter
    have hframe : s₁.executions = s.executions ∧ s₁.calls = s.calls := by
      cases allowance with
      | none =>
        cases hreserve
        exact ⟨rfl, rfl⟩
      | some tokens =>
        simp only [Store.reserveAllowance, Store.reserveWorkBudget, bind_eq_ok] at hreserve
        obtain ⟨-, -, -, -, -, -, hreserve⟩ := hreserve
        split at hreserve
        · simp only [bind_eq_ok] at hreserve
          obtain ⟨-, -, hreserve⟩ := hreserve
          cases hreserve
          exact ⟨rfl, rfl⟩
        · simp only [bind_eq_ok] at hreserve
          obtain ⟨-, -, -, -, budget, -, -, -, hreserve⟩ := hreserve
          cases hreserve
          exact ⟨rfl, rfl⟩
    exact .begin hrun hattempt hfence (hframe.2 ▸ hfresh) (by rw [hframe.2])
      (.inr ⟨hfind, ⟨c.attempt, c.org, c.team, c.work, c.run, c.task, fence,
        allowance.map fun _ => "execution/" ++ c.attempt, allowance, 0⟩, rfl, rfl,
        by rw [hframe.1]⟩)

theorem use_step (h : s.use op = .ok t) : t = s ∨ UsageStep s op t := by
  cases op with
  | begin E c ownLimit minimum =>
    obtain ⟨x, hx, h⟩ := bind_eq_ok.mp h
    cases h
    exact .inr (begin_step hx)
  | finish call input output =>
    simp only [Store.use, Store.finishWorkInference, bind_eq_ok] at h
    obtain ⟨_, _, h⟩ := h
    cases hrow : s.calls.find? fun c => decide (c.callId = call) with
    | none =>
      simp only [hrow] at h
      cases h
    | some row =>
      cases hstate : row.state with
      | pending =>
        simp only [hrow, hstate] at h
        cases h
        exact .inr (.finish _ hrow hstate)
      | _ =>
        simp only [hrow, hstate, bind_eq_ok] at h
        obtain ⟨_, _, h⟩ := h
        cases h
        exact .inl rfl
  | settle E attempt =>
    simp only [Store.use, Store.settleWorkInference] at h
    cases hfind : s.executions.find? fun e => decide (e.attemptId = attempt) with
    | none =>
      simp only [hfind] at h
      cases h
      exact .inl rfl
    | some e =>
      obtain rfl := execution_attempt hfind
      cases hallowance : e.allowance with
      | none =>
        simp only [hfind, hallowance] at h
        cases h
        exact .inl rfl
      | some n =>
        simp only [hfind, hallowance, bind_eq_ok, WorkBudgetExecution.requireEnded, orDeny_eq_ok,
          denyIf_eq_ok, Bool.or_eq_false_iff, Bool.not_eq_false', decide_eq_false_iff_not,
          Decidable.not_not] at h
        obtain ⟨-, ⟨snapshot, hrun, owner, howner, fence, hfence, ⟨⟨hquiet, -⟩, rfl⟩, hended⟩, h⟩ :=
          h
        split at h
        · cases h
          exact .inl rfl
        · rename_i hsettles
          cases h
          rw [Bool.or_eq_true, not_or, Bool.not_eq_true] at hsettles
          refine .inr (.settle hfind ⟨snapshot, owner, hrun, howner, hended, hquiet, hfence,
            hsettles.1, ?_⟩)
          rw [hallowance, show s.used e.attemptId + (n - s.used e.attemptId) = n by omega]
  | commit old next command =>
    cases command with
    | resumeAttempt c =>
      simp only [Store.use, Store.resumeWorkUsageInTx, Store.resumeWorkUsage, bind_eq_ok,
        orDeny_eq_ok,
        denyIf_eq_ok, Bool.or_eq_false_iff, decide_eq_false_iff_not, Decidable.not_not] at h
      obtain ⟨before, hbefore, after, hafter, _, -, _, -, lease, hold, lease', hnew, -,
        hchecks, h⟩ := h
      split at h
      · cases h
        exact .inl rfl
      · rename_i e hfind
        simp only [bind_eq_ok, denyIf_eq_ok, Bool.or_eq_false_iff, decide_eq_false_iff_not,
          Decidable.not_not] at h
        obtain ⟨held, hheld, -, ⟨⟨-, rfl⟩, hreleased⟩, fence, hfence, h⟩ := h
        cases h
        refine .inr (.resume hfind ⟨before, after, hbefore, hheld, hafter, hfence, ?_, hreleased⟩)
        simp only [executionFence, hold, bind_eq_ok, orDeny_eq_ok] at hheld
        simp only [executionFence, hnew, bind_eq_ok, orDeny_eq_ok] at hfence
        obtain ⟨_, hlease, hheld⟩ := hheld
        obtain ⟨_, hlease', hfence⟩ := hfence
        cases hlease
        cases hlease'
        cases hfence
        rw [← Except.ok.inj hheld]
        exact UInt64.not_le.mp hchecks.1.1.2
    | _ =>
      cases h
      exact .inl rfl

/-- What an operation leaves of an execution. -/
structure Carries (s : Store) (op : UsageOp) (e e' : WorkBudgetExecution) : Prop where
  allowance : e'.allowance = e.allowance
  released : e'.releasedTokens = e.releasedTokens ∨
    ∃ E, op = .settle E e.attemptId ∧ Releases s E e e'.releasedTokens
  fence : e'.fence = e.fence ∨ ∃ old next c, op = .commit old next (.resumeAttempt c) ∧
    c.attemptId = e.attemptId ∧ TakesOver old next c e e'.fence

theorem UsageStep.carries (h : UsageStep s op t) (he : s.execution a = some e) :
    ∃ e', t.execution a = some e' ∧ Carries s op e e' := by
  cases h with
  | begin _ _ _ _ _ execution =>
    refine ⟨e, ?_, rfl, .inl rfl, .inl rfl⟩
    cases execution with
    | inl h =>
      obtain ⟨_, _, _, _, _, h⟩ := h
      rwa [Store.execution, h]
    | inr h =>
      obtain ⟨_, _, _, _, h⟩ := h
      rw [Store.execution, h, List.find?_append]
      exact Option.or_eq_some_iff.mpr (.inl he)
  | finish => exact ⟨e, he, rfl, .inl rfl, .inl rfl⟩
  | @settle E k d n found releases =>
    rw [execution_updateExecution (by exact fun _ => rfl), he, Option.map_some]
    refine ⟨_, rfl, ?_⟩
    by_cases hk : a = k
    · subst hk
      cases he.symm.trans found
      rw [if_pos rfl, ← execution_attempt he]
      exact ⟨rfl, .inr ⟨E, rfl, releases⟩, .inl rfl⟩
    · rw [if_neg hk]
      exact ⟨rfl, .inl rfl, .inl rfl⟩
  | @resume old next c d fence found takes =>
    rw [execution_updateExecution (by exact fun _ => rfl), he, Option.map_some]
    refine ⟨_, rfl, ?_⟩
    by_cases hk : a = c.attemptId
    · subst hk
      cases he.symm.trans found
      rw [if_pos rfl]
      exact ⟨rfl, .inl rfl, .inr ⟨old, next, c, rfl, (execution_attempt he).symm, takes⟩⟩
    · rw [if_neg hk]
      exact ⟨rfl, .inl rfl, .inl rfl⟩

theorem UsageStep.arises (h : UsageStep s op t) (he : t.execution a = some e)
    (hne : e.releasedTokens ≠ 0) : (s.execution a).isSome = true := by
  cases h with
  | begin _ _ _ _ _ execution =>
    cases execution with
    | inl h =>
      obtain ⟨_, _, _, _, _, h⟩ := h
      rw [Store.execution, h] at he
      exact Option.isSome_of_mem he
    | inr h =>
      obtain ⟨_, d, _, hd, h⟩ := h
      rw [Store.execution, h, List.find?_append, Option.or_eq_some_iff] at he
      cases he with
      | inl he => exact Option.isSome_of_mem he
      | inr he =>
        rw [List.mem_singleton.mp (List.mem_of_find?_eq_some he.2)] at hne
        exact absurd hd hne
  | finish => exact Option.isSome_of_mem he
  | settle | resume =>
    rw [execution_updateExecution (by exact fun _ => rfl)] at he
    exact Option.isSome_map.symm.trans (Option.isSome_of_mem he)

/-- All calls are reported, and they and the release are the whole allowance. -/
def Settled (s : Store) (e : WorkBudgetExecution) : Prop :=
  s.unresolved e.attemptId = false ∧ e.allowance = some (s.used e.attemptId + e.releasedTokens)

structure Accounted (s : Store) : Prop where
  ids {c d : WorkUsageCall} : c ∈ s.calls → d ∈ s.calls → c.callId = d.callId → c = d
  settled {a : String} {e : WorkBudgetExecution} :
    s.execution a = some e → e.releasedTokens ≠ 0 → Settled s e

theorem UsageStep.unsettled (h : UsageStep s (.begin E c ownLimit minimum) t)
    (he : s.execution c.attempt = some e) : ¬ Settled s e := by
  intro hsettled
  cases h with
  | begin _ _ _ _ _ execution =>
    obtain ⟨d, hd, _, hzero, hleft, _⟩ | ⟨hnone, _⟩ := execution
    · cases he.symm.trans hd
      rw [← execution_attempt he] at hleft
      exact hleft (by simpa [hzero] using hsettled.2)
    · cases he.symm.trans hnone

section
variable (h : UsageStep s op t) (hs : Accounted s)
include h hs

theorem UsageStep.callsOf (he : s.execution a = some e)
    (hsettled : Settled s e) : t.callsOf a = s.callsOf a := by
  have hstep := h
  cases hstep with
  | @begin _ c _ _ _ _ _ _ _ _ _ _ calls _ =>
    have hk : c.attempt ≠ a := fun hk => h.unsettled (hk ▸ he) hsettled
    rw [Store.callsOf, calls, List.filter_append]
    simp [hk, Store.callsOf]
  | @finish k input output row state found pending =>
    -- The pending call is not one of this attempt, since all of those are reported.
    have hother : ∀ c ∈ s.callsOf a, c.callId ≠ k := by
      intro c hc hk
      have hid : row.callId = k := by simpa using List.find?_some found
      have hrow := hs.ids (List.mem_of_mem_filter hc) (List.mem_of_find?_eq_some found)
        (hk.trans hid.symm)
      have := List.any_eq_false.mp hsettled.1 c (execution_attempt he ▸ hc)
      simp [hrow, pending] at this
    have hkey : ((fun c : WorkUsageCall => decide (c.attemptId = a)) ∘ fun c => if c.callId = k then
        { c with inputTokens := input, outputTokens := output, state } else c) =
        fun c => decide (c.attemptId = a) := by
      funext c
      by_cases hc : c.callId = k <;> simp [hc]
    rw [Store.callsOf, List.filter_map, hkey]
    exact (List.map_congr_left fun c hc => if_neg (hother c hc)).trans (List.map_id _)
  | settle | resume => rfl

theorem UsageStep.settled (he : s.execution a = some e) (he' : t.execution a = some e')
    (hcarries : Carries s op e e') (hsettled : Settled s e) :
    Settled t e' ∧ e'.releasedTokens = e.releasedTokens := by
  have hcalls := h.callsOf hs he hsettled
  have hreleased : e'.releasedTokens = e.releasedTokens := by
    cases hcarries.released with
    | inl h => exact h
    | inr h =>
      obtain ⟨_, _, _, _, _, _, _, _, _, _, hallowance⟩ := h
      have := Option.some.inj (hsettled.2.symm.trans hallowance)
      omega
  refine ⟨?_, hreleased⟩
  rw [Settled, Store.unresolved, Store.used, hcarries.allowance, hreleased, execution_attempt he',
    hcalls, ← execution_attempt he]
  exact hsettled

theorem UsageStep.accounted : Accounted t where
  ids {c d} hc hd hid := by
    cases h with
    | @begin _ b _ _ _ _ _ _ _ _ _ fresh calls _ =>
      have hnew : ∀ c ∈ s.calls, c.callId ≠ b.call := by simpa using fresh
      rw [calls, List.mem_append, List.mem_singleton] at hc hd
      obtain hc | rfl := hc
      · obtain hd | rfl := hd
        · exact hs.ids hc hd hid
        · exact absurd hid (hnew c hc)
      · obtain hd | rfl := hd
        · exact absurd hid.symm (hnew d hd)
        · rfl
    | @finish k input output row state found pending =>
      obtain ⟨c', hc', rfl⟩ := List.mem_map.mp hc
      obtain ⟨d', hd', rfl⟩ := List.mem_map.mp hd
      rw [hs.ids hc' hd' (by simpa only [apply_ite WorkUsageCall.callId, ite_self] using hid)]
    | settle | resume => exact hs.ids hc hd hid
  settled {a e'} he' hne := by
    obtain ⟨e, he⟩ := Option.isSome_iff_exists.mp (h.arises he' hne)
    obtain ⟨d, hd, hcarries⟩ := h.carries he
    cases he'.symm.trans hd
    cases hcarries.released with
    | inl hsame => exact (h.settled hs he he' hcarries (hs.settled he (hsame ▸ hne))).1
    | inr hsettle =>
      obtain ⟨E, rfl, _, _, _, _, _, _, _, hreported, hallowance⟩ := hsettle
      cases h
      rw [execution_attempt he, ← execution_attempt he'] at hreported hallowance
      exact ⟨hreported, hcarries.allowance.trans hallowance⟩

end

theorem UsageStep.reported {c : WorkUsageCall} (h : UsageStep s op t) (hs : Accounted s)
    (hc : c ∈ s.calls) (hreported : c.state = .reported) : c ∈ t.calls := by
  cases h with
  | begin _ _ _ _ calls _ =>
    rw [calls]
    exact List.mem_append_left _ hc
  | @finish k input output row state found pending =>
    have hid : row.callId = k := by simpa using List.find?_some found
    refine List.mem_map.mpr ⟨c, hc, if_neg ?_⟩
    intro hk
    cases hs.ids hc (List.mem_of_find?_eq_some found) (hk.trans hid.symm)
    cases pending.symm.trans hreported
  | settle | resume => exact hc

/-- What is still true later. -/
structure Retains (s t : Store) : Prop where
  accounted : Accounted t
  reported {c : WorkUsageCall} : c ∈ s.calls → c.state = .reported → c ∈ t.calls
  execution {a : String} {e : WorkBudgetExecution} : s.execution a = some e →
    ∃ e', t.execution a = some e' ∧ e.fence.leaseEpoch ≤ e'.fence.leaseEpoch ∧
      (Settled s e → Settled t e' ∧ e'.releasedTokens = e.releasedTokens)

theorem UsageStep.retains (h : UsageStep s op t) (hs : Accounted s) : Retains s t where
  accounted := h.accounted hs
  reported := h.reported hs
  execution {_ e} he := by
    obtain ⟨e', he', hcarries⟩ := h.carries he
    refine ⟨e', he', ?_, h.settled hs he he' hcarries⟩
    cases hcarries.fence with
    | inl h => exact UInt64.le_of_eq (congrArg _ h.symm)
    | inr h =>
      obtain ⟨_, _, _, _, _, _, _, _, _, _, _, hlater, _⟩ := h
      exact UInt64.le_of_lt hlater

theorem Uses.retains (h : Uses s t) (hs : Accounted s) : Retains s t := by
  induction h with
  | refl => exact ⟨hs, fun hc _ => hc, fun he => ⟨_, he, UInt64.le_refl _, fun h => ⟨h, rfl⟩⟩⟩
  | tail _ hstep ih =>
    obtain ⟨op, hop⟩ := hstep
    obtain rfl | hstep := use_step hop
    · exact ih
    · have hlater := hstep.retains ih.accounted
      refine ⟨hlater.accounted, fun hc hr => hlater.reported (ih.reported hc hr) hr, ?_⟩
      intro a e he
      obtain ⟨d, hd, hle, hsettled⟩ := ih.execution he
      obtain ⟨e', he', hle', hsettled'⟩ := hlater.execution hd
      refine ⟨e', he', UInt64.le_trans hle hle', ?_⟩
      intro h
      obtain ⟨hd', hsame⟩ := hsettled h
      obtain ⟨h', hsame'⟩ := hsettled' hd'
      exact ⟨h', hsame'.trans hsame⟩

section
variable {s₀ : Store} (hcalls : s₀.calls = []) (hexecutions : s₀.executions = []) (h : Uses s₀ s)
include hcalls hexecutions h

theorem Uses.accounted : Accounted s := by
  have hs : Accounted s₀ := ⟨by simp [hcalls], by simp [Store.execution, hexecutions]⟩
  exact (h.retains hs).accounted

/-- Reports are not changed; a release is an ended attempt's, of what its calls left of the
allowance, and nothing that happens later changes it or adds a call. -/
theorem settlement_exact_and_final :
    (∀ t, Uses s t → ∀ c ∈ s.calls, c.state = .reported →
      c ∈ t.calls ∧ ∀ d ∈ t.calls, d.callId = c.callId → d = c) ∧
    (∀ op t a e e', s.use op = .ok t → s.execution a = some e → t.execution a = some e' →
      e'.releasedTokens ≠ e.releasedTokens →
      ∃ E, op = .settle E a ∧ Releases s E e e'.releasedTokens) ∧
    ∀ a e, s.execution a = some e → (e.releasedTokens ≠ 0 → Settled s e) ∧
      (Settled s e → ∀ t, Uses s t →
        (∃ e', t.execution a = some e' ∧ e'.releasedTokens = e.releasedTokens) ∧
        ∀ E c ownLimit minimum x, c.attempt = a →
          t.beginWorkInferenceWithHeadroom E c ownLimit minimum ≠ .ok x) := by
  have hs := h.accounted hcalls hexecutions
  refine ⟨?_, ?_, ?_⟩
  · intro t ht c hc hreported
    have hlater := (ht.retains hs).reported hc hreported
    exact ⟨hlater, fun d hd hid => (ht.retains hs).accounted.ids hd hlater hid⟩
  · intro op t a e e' hop he he' hne
    obtain rfl | hstep := use_step hop
    · cases he.symm.trans he'
      exact absurd rfl hne
    · obtain ⟨d, hd, hcarries⟩ := hstep.carries he
      cases he'.symm.trans hd
      rw [← execution_attempt he]
      exact hcarries.released.resolve_left hne
  · intro a e he
    refine ⟨hs.settled he, ?_⟩
    intro hsettled t ht
    obtain ⟨e', he', -, hsettles⟩ := (ht.retains hs).execution he
    obtain ⟨hsettled', hsame⟩ := hsettles hsettled
    refine ⟨⟨e', he', hsame⟩, ?_⟩
    intro E c ownLimit minimum x hc hx
    subst hc
    exact (begin_step hx).unsettled he' hsettled'

/-- The fence of an execution changes in a resume of its attempt, to a later epoch. From then on a
call needs the fence that is stored, which has none of the earlier epochs. -/
theorem fence_follows_resume (hop : s.use op = .ok t) (he : s.execution a = some e) :
    ∃ e', t.execution a = some e' ∧ (e'.fence = e.fence ∨
      (∃ old next c, op = .commit old next (.resumeAttempt c) ∧ c.attemptId = a ∧
        TakesOver old next c e e'.fence) ∧
      ∀ u, Uses t u → ∀ E c ownLimit minimum x snapshot attempt lease, c.attempt = a →
        E.run c.run = some snapshot → snapshot.attempts[a]? = some attempt →
        attempt.lease = some lease → u.beginWorkInferenceWithHeadroom E c ownLimit minimum = .ok x →
        lease.leaseEpoch ≠ e.fence.leaseEpoch ∧
          ∃ d, u.execution a = some d ∧ lease.holder = d.fence.holder) := by
  obtain rfl | hstep := use_step hop
  · exact ⟨e, he, .inl rfl⟩
  obtain ⟨e', he', hcarries⟩ := hstep.carries he
  refine ⟨e', he', hcarries.fence.imp_right ?_⟩
  intro htakes
  rw [execution_attempt he] at htakes
  refine ⟨htakes, ?_⟩
  intro u hu E c ownLimit minimum x snapshot attempt lease hc hrun hattempt hlease hx
  subst hc
  obtain ⟨d, hd, hle, -⟩ :=
    (hu.retains (hstep.accounted (h.accounted hcalls hexecutions))).execution he'
  cases begin_step hx with
  | begin found at_work fenced _ _ execution =>
    cases found.symm.trans hrun
    cases at_work.symm.trans hattempt
    obtain ⟨d', hd', rfl, _⟩ | ⟨hnone, _⟩ := execution
    · cases hd.symm.trans hd'
      simp only [executionFence, hlease, bind_eq_ok, orDeny_eq_ok] at fenced
      obtain ⟨_, hsome, hfence⟩ := fenced
      cases hsome
      rw [← Except.ok.inj hfence] at hle
      obtain ⟨_, _, _, _, _, _, _, _, _, _, _, hlater, _⟩ := htakes
      refine ⟨(UInt64.ne_of_lt (UInt64.lt_of_lt_of_le hlater hle)).symm, d, hd, ?_⟩
      rw [← Except.ok.inj hfence]
    · cases hd.symm.trans hnone

end

namespace Demo

def inference (call : String) : BeginWorkInference :=
  ⟨"principal", "org", "team", "work", "run", "task", "attempt", call, "model", 20⟩

def lease (epoch : UInt64) : AttemptLease := ⟨"lease", "attempt", epoch, .local, 1, 90, 30, 0⟩

def runWith (sequence : Nat) (state : TaskState) (a : AttemptRecord) : RunSnapshot := { run with
  sequence
  tasks := Std.ExtTreeMap.empty.insert "task" { task with state }
  attempts := Std.ExtTreeMap.empty.insert "attempt" a }

def seeing (r : RunSnapshot) : Surroundings := { surroundings with run := fun _ => some r }

def checkpoint : ArtifactRef := ⟨"checkpoint", "digest"⟩

def ended : RunSnapshot :=
  runWith 1 .succeeded { attempt with state := .succeeded, executionQuiesced := true }

def suspendedRun : RunSnapshot := runWith 1 .parked { attempt with
  state := .suspended
  executionQuiesced := true
  suspension := some ⟨checkpoint, .humanInput, 5, 10⟩ }

def resumedRun : RunSnapshot :=
  runWith 2 .leased { attempt with
    state := .starting
    executionClaimed := false
    lease := some (lease 2) }

def resumption : RunCommand :=
  .resumeAttempt ⟨⟨"resume", none, 6, none⟩, "run", "attempt", checkpoint,
    ⟨"lease", 1, .local⟩, .local⟩

/-- After a call of seven tokens. -/
def used : Store := { staffed with
  reservations := [⟨"org", "team", "work", "execution/attempt", 900, "principal"⟩]
  executions := [⟨"attempt", "org", "team", "work", "run", "task",
    ⟨"lease", 1, .local, attempt.taskVersion⟩, some "execution/attempt", some 900, 0⟩]
  calls := [⟨"call", "attempt", "model", some 3, some 4, .reported⟩] }

def resumed : Store :=
  used.updateExecution "attempt" ({ · with fence := ⟨"lease", 2, .local, attempt.taskVersion⟩ })

theorem uses : Uses staffed used :=
  .tail (.single ⟨.begin surroundings (inference "call") none 1, rfl⟩)
    ⟨.finish "call" (some 3) (some 4), rfl⟩

theorem resumes : used.use (.commit suspendedRun resumedRun resumption) = .ok resumed := rfl

end Demo

open Demo

theorem settlement_of_one_call : ∃ s e, Uses staffed s ∧ s.execution "attempt" = some e ∧
    e.releasedTokens = 893 ∧ ∀ t, Uses s t →
      ∀ E x, t.beginWorkInferenceWithHeadroom E (inference "next") none 1 ≠ .ok x := by
  have h : Uses staffed _ := uses.tail ⟨.settle (seeing ended) "attempt", rfl⟩
  have hfinal := (settlement_exact_and_final rfl rfl h).2.2 "attempt" _ rfl
  exact ⟨_, _, h, rfl, rfl, fun t ht E x =>
    (hfinal.2 (hfinal.1 (by decide)) t ht).2 E _ none 1 x rfl⟩

theorem fence_follows_one_resume :
    used.use (.commit suspendedRun resumedRun resumption) = .ok resumed ∧ ∀ u, Uses resumed u →
      ∀ x, u.beginWorkInferenceWithHeadroom surroundings (inference "next") none 1 ≠ .ok x := by
  refine ⟨resumes, ?_⟩
  intro u hu x hx
  obtain ⟨e', he', hsame | ⟨-, hstale⟩⟩ :=
    fence_follows_resume rfl rfl uses resumes (show used.execution "attempt" = some _ from rfl)
  · cases he'
    exact absurd hsame (by decide)
  · exact (hstale u hu surroundings _ none 1 x run attempt (lease 1) rfl rfl rfl rfl hx).1 rfl

/-- The holder of the earlier lease resumes, and goes on. -/
theorem fence_resumed_by_its_holder :
    Uses staffed used ∧ used.use (.commit suspendedRun resumedRun resumption) = .ok resumed ∧
    ∃ e e' x, used.execution "attempt" = some e ∧ resumed.execution "attempt" = some e' ∧
      e'.fence ≠ e.fence ∧ (lease 2).holder = e.fence.holder ∧
      resumed.beginWorkInferenceWithHeadroom (seeing
        (runWith 3 .running { attempt with lease := some (lease 2) }))
          (inference "next") none 1 = .ok x :=
  ⟨uses, resumes, _, _, _, rfl, rfl, by decide, rfl, rfl⟩

end Tetonic.Control
