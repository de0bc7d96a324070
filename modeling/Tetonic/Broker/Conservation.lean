import Tetonic.Broker.Ledger
set_option autoImplicit false

/-! Conservation: the usage of every scope is the sum of the active reservations charged to it. -/

namespace Tetonic.Broker
open Lib OrdMap BudgetState

inductive Resource where
  | memory | vram | processes | inference | tokens | tasks | speculation
  deriving DecidableEq, Repr

def Resource.bound : Resource → Nat
  | .memory | .vram | .tokens => 18446744073709551616
  | .processes | .inference | .tasks | .speculation => 4294967296

def ScopeUsage.amount (u : ScopeUsage) : Resource → Nat
  | .memory => u.memoryBytes.toNat
  | .vram => u.vramBytes.toNat
  | .processes => u.processSlots.toNat
  | .inference => u.inferenceSlots.toNat
  | .tokens => u.tokenBudget.toNat
  | .tasks => u.activeTasks.toNat
  | .speculation => u.speculationSlots.toNat

def charge (r : ReservedResources) (speculative : Bool) : Resource → Nat
  | .memory => r.memoryBytes.toNat
  | .vram => r.vramBytes.toNat
  | .processes => r.processSlots.toNat
  | .inference => r.inferenceSlots.toNat
  | .tokens => r.tokenBudget.toNat
  | .tasks => 1
  | .speculation => if speculative then 1 else 0

variable {b : UInt64}

theorem toNat_add64 {a : UInt64} (h : a.toNat + b.toNat < 18446744073709551616) :
    (a + b).toNat = a.toNat + b.toNat := by
  rw [UInt64.toNat_add]
  exact Nat.mod_eq_of_lt h

variable {a : UInt32}

theorem toNat_add32 {b : UInt32} (h : a.toNat + b.toNat < 4294967296) :
    (a + b).toNat = a.toNat + b.toNat := by
  rw [UInt32.toNat_add]
  exact Nat.mod_eq_of_lt h

theorem toNat_saturatingSub64 (a b : UInt64) : (saturatingSub64 a b).toNat = a.toNat - b.toNat := by
  unfold saturatingSub64
  split
  · rename_i h
    exact UInt64.toNat_sub_of_le a b h
  · rename_i h
    have := UInt64.not_le.mp h
    rw [UInt64.lt_iff_toNat_lt] at this
    simp only [UInt64.toNat_zero]
    omega

theorem toNat_saturatingSub32 (a b : UInt32) : (saturatingSub32 a b).toNat = a.toNat - b.toNat := by
  unfold saturatingSub32
  split
  · rename_i h
    exact UInt32.toNat_sub_of_le a b h
  · rename_i h
    have := UInt32.not_le.mp h
    rw [UInt32.lt_iff_toNat_lt] at this
    simp only [UInt32.toNat_zero]
    omega

variable {x : Resource} {attempt : String}

theorem applyUsage_amount {u : ScopeUsage} {r : ReservedResources} {speculative : Bool}
    (h : u.amount x + charge r speculative x < x.bound) :
    (applyUsage u r speculative attempt).amount x = u.amount x + charge r speculative x := by
  cases x with
  | memory | vram | tokens => exact toNat_add64 h
  | processes | inference | tasks => exact toNat_add32 h
  | speculation =>
    cases speculative with
    | false => rfl
    | true => exact toNat_add32 h

theorem reverseUsage_amount (u : ScopeUsage) (r : ReservedResources) (speculative : Bool)
    (attempt : String) (x : Resource) :
    (reverseUsage u r speculative attempt).amount x = u.amount x - charge r speculative x := by
  cases x with
  | memory | vram | tokens => exact toNat_saturatingSub64 _ _
  | processes | inference | tasks => exact toNat_saturatingSub32 _ _
  | speculation =>
    cases speculative with
    | false => rfl
    | true => exact toNat_saturatingSub32 _ _

inductive Scope where
  | global
  | project (id : String)
  | run (id : String)
  | task (id : String)
  | worker (key : String)
  deriving DecidableEq, Repr

def BudgetState.usage (g : BudgetState) : Scope → ScopeUsage
  | .global => g.global
  | .project id => g.projects id
  | .run id => g.runs id
  | .task id => g.tasks id
  | .worker key => g.workers key

def Scope.covers (run task worker : String) (project : Option String) : Scope → Bool
  | .global => true
  | .project id => project = some id
  | .run id => run = id
  | .task id => task = id
  | .worker key => worker = key

theorem changeScopes_usage (g : BudgetState) (run task worker : String) (project : Option String)
    (f : ScopeUsage → ScopeUsage) (scope : Scope) :
    (g.changeScopes run task worker project f).usage scope =
      if scope.covers run task worker project then f (g.usage scope) else g.usage scope := by
  have hchange : ∀ (m : String → ScopeUsage) (a id : String),
      changeAt m a f id = if a = id then f (m id) else m id := by
    intro m a id
    unfold changeAt
    by_cases h : id = a
    · simp [h]
    · simp [h, Ne.symm h]
  cases scope with
  | global => simp [changeScopes, usage, Scope.covers]
  | run | task | worker => simp [changeScopes, usage, Scope.covers, hchange]
  | project =>
    cases project with
    | none => simp [changeScopes, usage, Scope.covers]
    | some => simp [changeScopes, usage, Scope.covers, hchange]

def BudgetState.projectOf (g : BudgetState) (rid : String) : Option String :=
  g.bindings[rid]?.bind (·.projectId)

def BudgetState.charges (g : BudgetState) (scope : Scope) (rid : String)
    (r : ResourceReservation) : Bool :=
  !r.state.isTerminal && scope.covers r.runId r.taskId r.targetScope.workerKey (g.projectOf rid)

def BudgetState.chargeOf (g : BudgetState) (scope : Scope) (x : Resource) (rid : String)
    (r : ResourceReservation) : Nat :=
  if g.charges scope rid r then charge r.resources r.speculative x else 0

def BudgetState.charged (g : BudgetState) (scope : Scope) (x : Resource) : Nat :=
  sumOver g.reservations (g.chargeOf scope x)

/-- The limits that `reserve` holds a scope to. -/
def BudgetLimits.limitOf (l : BudgetLimits) : Scope → Resource → Option Nat
  | .global, .memory => some l.maxMemoryBytesGlobal.toNat
  | .global, .vram => some l.maxVramBytesGlobal.toNat
  | .global, .processes => some l.maxLocalProcesses.toNat
  | .global, .inference => some l.maxConcurrentInference.toNat
  | .global, .speculation => some l.maxSpeculationSlots.toNat
  | .run _, .memory => some l.maxMemoryBytesPerRun.toNat
  | .run _, .tokens => some l.maxTokensPerRun.toNat
  | .run _, .tasks => some l.maxActiveTasksPerRun.toNat
  | .task _, .tokens => some l.maxTokensPerTask.toNat
  | .task _, .tasks => some l.maxAttemptsPerTask.toNat
  | .worker _, .vram => some l.maxVramBytesPerWorker.toNat
  | .worker _, .processes => some l.maxProcessesPerWorker.toNat
  | .worker _, .inference => some l.maxConcurrentInference.toNat
  | .project _, .memory => some l.maxMemoryBytesGlobal.toNat
  | _, _ => none

/-- A reservation that has not ended is active, is the one of its attempt, and is bound to the
request it was made for. -/
def Filed (g : BudgetState) : Prop :=
  ∀ (rid : String) (r : ResourceReservation), g.reservations[rid]? = some r →
    r.state.isTerminal = false → r.state.isActive = true ∧ g.byAttempt[r.attemptId]? = some rid ∧
      ∃ b, g.bindings[rid]? = some b ∧ r.resources = b.request.reserved

variable {g : BudgetState} {rid : String} {rec : ResourceReservation}

theorem dropReservation_live (terminal : ReservationState)
    (hfound : g.reservations[rid]? = some rec) (hlive : rec.state.isTerminal = false) :
    g.dropReservation rid terminal =
      { g.changeScopes rec.runId rec.taskId rec.targetScope.workerKey (g.projectOf rid)
          (fun u => reverseUsage u rec.resources rec.speculative rec.attemptId) with
        bindings := g.bindings.erase rid
        reservations := g.reservations.insert rid { rec with state := terminal }
        byAttempt := g.byAttempt.erase rec.attemptId } := by
  unfold dropReservation
  rw [hfound]
  simp only [hlive, Bool.false_eq_true, if_false]
  rfl

variable {terminal : ReservationState}

theorem dropReservation_ended
    (h : ∀ rec, g.reservations[rid]? = some rec → rec.state.isTerminal = true) :
    g.dropReservation rid terminal = g := by
  unfold dropReservation
  split
  · rfl
  · rename_i rec hrec
    rw [if_pos (h rec hrec)]

theorem dropReservation_cases (g : BudgetState) (rid : String) :
    (∀ rec, g.reservations[rid]? = some rec → rec.state.isTerminal = true) ∨
      ∃ rec, g.reservations[rid]? = some rec ∧ rec.state.isTerminal = false := by
  cases hfound : g.reservations[rid]? with
  | none => exact .inl fun _ h => by cases h
  | some rec =>
    cases hends : rec.state.isTerminal with
    | true =>
      left
      intro rec' h
      cases h
      exact hends
    | false => exact .inr ⟨rec, rfl, hends⟩

theorem not_terminal_of_active {s : ReservationState} (h : s.isActive = true) :
    s.isTerminal = false := by
  cases s <;> simp_all [ReservationState.isActive, ReservationState.isTerminal]

variable {r : ResourceReservation}

theorem Filed.single (h : Filed g) {rid' : String} {r' : ResourceReservation}
    (hr : g.reservations[rid]? = some r) (hr' : g.reservations[rid']? = some r')
    (hlive : r.state.isTerminal = false) (hlive' : r'.state.isTerminal = false)
    (hattempt : r.attemptId = r'.attemptId) :
    rid = rid' := by
  have hfiled := (h rid r hr hlive).2.1
  rw [hattempt, (h rid' r' hr' hlive').2.1] at hfiled
  exact (Option.some.inj hfiled).symm

theorem Filed.drop (h : Filed g) (rid : String) (ends : terminal.isTerminal = true) :
    Filed (g.dropReservation rid terminal) := by
  obtain hended | ⟨rec, hfound, hlive⟩ := dropReservation_cases g rid
  · rw [dropReservation_ended hended]
    exact h
  rw [dropReservation_live terminal hfound hlive]
  intro a r hr hactive
  obtain ⟨rfl, rfl⟩ | ⟨hne, hr⟩ := get_insert_cases hr
  · rw [show ({ rec with state := terminal } : ResourceReservation).state = terminal from rfl,
      ends] at hactive
    cases hactive
  · obtain ⟨hstate, hattempt, b, hb, hresources⟩ := h a r hr hactive
    have hother : rec.attemptId ≠ r.attemptId := fun heq =>
      hne (h.single hfound hr hlive hactive heq)
    exact ⟨hstate, (get_erase_ne _ hother).trans hattempt, b,
      (get_erase_ne _ hne).trans hb, hresources⟩

variable {state : ReservationState}

theorem Filed.mark (h : Filed g) (hfound : g.reservations[rid]? = some rec)
    (hlive : rec.state.isTerminal = false) (hactive : state.isActive = true) :
    Filed (g.mark rid rec state) := by
  intro a r hr hends
  obtain ⟨rfl, rfl⟩ | ⟨-, hr⟩ := get_insert_cases hr
  · exact ⟨hactive, (h rid rec hfound hlive).2⟩
  · exact h a r hr hends

theorem Filed.free (h : Filed g) (hfree : g.activeOf attempt = none)
    (hr : g.reservations[rid]? = some r) (hlive : r.state.isTerminal = false) :
    r.attemptId ≠ attempt := by
  rintro rfl
  obtain ⟨hactive, hattempt, -⟩ := h rid r hr hlive
  simp [activeOf, hattempt, hr, hactive] at hfree

variable {c : ReserveCall}

theorem Filed.book (h : Filed g) (hfree : g.activeOf c.attemptId = none) :
    Filed (g.book rid c) := by
  intro a r hr hlive
  obtain ⟨rfl, rfl⟩ | ⟨hne, hr⟩ := get_insert_cases hr
  · exact ⟨rfl, get_insert_self _ _ _, _, get_insert_self _ _ _, rfl⟩
  · have hother := h.free hfree hr hlive
    obtain ⟨hactive, hattempt, b, hb, hresources⟩ := h a r hr hlive
    exact ⟨hactive, (get_insert_ne _ _ (Ne.symm hother)).trans hattempt, b,
      (get_insert_ne _ _ hne).trans hb, hresources⟩

variable {limits : BudgetLimits}

theorem Filed.of_reaches {C : BudgetState → BudgetOp → Prop} (h : Reaches C limits g) : Filed g :=
  h.invariant (fun _ _ hr => by simp [new] at hr)
    (fun _ rid _ hg ends => hg.drop rid ends)
    (fun _ _ _ _ hg found live active => hg.mark found live active)
    fun _ _ _ hg _ _ hfree _ => hg.book hfree

/-- The counters are the sums, and the limits are kept. -/
structure Balanced (limits : BudgetLimits) (g : BudgetState) : Prop where
  held : g.limits = limits
  sums : ∀ scope x, (g.usage scope).amount x = g.charged scope x
  within : ∀ scope x l, limits.limitOf scope x = some l → (g.usage scope).amount x ≤ l

variable {g' : BudgetState}

theorem charged_insert (hreservations : g'.reservations = g.reservations.insert rid r)
    (hbindings : ∀ a, rid ≠ a → g'.projectOf a = g.projectOf a) (scope : Scope) (x : Resource) :
    g'.charged scope x = g'.chargeOf scope x rid r +
      sumOver (g.reservations.erase rid) (g.chargeOf scope x) := by
  unfold charged
  rw [hreservations, sumOver_insert]
  congr 1
  refine sumOver_congr fun a v ha => ?_
  obtain ⟨hne, -⟩ := get_of_erase ha
  unfold chargeOf charges
  rw [hbindings a hne]

variable {scope : Scope}

theorem chargeOf_terminal (h : r.state.isTerminal = true) : g.chargeOf scope x rid r = 0 := by
  simp [chargeOf, charges, h]

theorem usage_new (limits : BudgetLimits) (scope : Scope) (x : Resource) :
    ((new limits).usage scope).amount x = 0 := by
  cases scope <;> cases x <;> rfl

theorem Balanced.new (limits : BudgetLimits) : Balanced limits (.new limits) := by
  refine ⟨rfl, fun scope x => ?_, fun scope x l _ => ?_⟩
  · rw [usage_new]
    exact (sumOver_empty _).symm
  · rw [usage_new]
    exact Nat.zero_le l

theorem dropReservation_amount (terminal : ReservationState)
    (hfound : g.reservations[rid]? = some rec) (hlive : rec.state.isTerminal = false)
    (scope : Scope) (x : Resource) : ((g.dropReservation rid terminal).usage scope).amount x =
      (g.usage scope).amount x - g.chargeOf scope x rid rec := by
  have husage : (g.dropReservation rid terminal).usage scope =
      if g.charges scope rid rec then
        reverseUsage (g.usage scope) rec.resources rec.speculative rec.attemptId
      else g.usage scope := by
    rw [dropReservation_live terminal hfound hlive]
    have := changeScopes_usage g rec.runId rec.taskId rec.targetScope.workerKey (g.projectOf rid)
      (fun u => reverseUsage u rec.resources rec.speculative rec.attemptId) scope
    simp only [charges, hlive, Bool.not_false, Bool.true_and]
    rw [← this]
    cases scope <;> rfl
  rw [husage, chargeOf]
  split
  · exact reverseUsage_amount _ _ _ _ _
  · rfl

theorem Balanced.drop (h : Balanced limits g) (rid : String) (ends : terminal.isTerminal = true) :
    Balanced limits (g.dropReservation rid terminal) := by
  obtain hended | ⟨rec, hfound, hlive⟩ := dropReservation_cases g rid
  · rw [dropReservation_ended hended]
    exact h
  have hdrop := dropReservation_live terminal hfound hlive
  have hbefore : ∀ scope x, g.charged scope x = g.chargeOf scope x rid rec +
      sumOver (g.reservations.erase rid) (g.chargeOf scope x) := fun scope x =>
    sumOver_of_get hfound _
  have hafter : ∀ scope x, (g.dropReservation rid terminal).charged scope x =
      sumOver (g.reservations.erase rid) (g.chargeOf scope x) := by
    intro scope x
    rw [charged_insert (g := g) (r := { rec with state := terminal }) (by rw [hdrop])
      (fun a hne => by simp [projectOf, hdrop, get_erase_ne _ hne]),
      chargeOf_terminal ends, Nat.zero_add]
  have hamount := dropReservation_amount terminal hfound hlive
  refine ⟨?_, fun scope x => ?_, fun scope x l hl => ?_⟩
  · rw [hdrop]
    exact h.held
  · rw [hamount, hafter, h.sums, hbefore]
    omega
  · rw [hamount]
    have := h.within scope x l hl
    omega

theorem Balanced.mark (h : Balanced limits g) (hfound : g.reservations[rid]? = some rec)
    (hlive : rec.state.isTerminal = false) (hactive : state.isActive = true) :
    Balanced limits (g.mark rid rec state) := by
  have husage : ∀ scope, (g.mark rid rec state).usage scope = g.usage scope := by
    intro scope
    cases scope <;> rfl
  refine ⟨h.held, fun scope x => ?_, fun scope x l hl => ?_⟩
  · have hsame : (g.mark rid rec state).chargeOf scope x rid { rec with state } =
        g.chargeOf scope x rid rec := by
      simp only [chargeOf, charges, hlive, not_terminal_of_active hactive]
      rfl
    have hreservations : (g.mark rid rec state).reservations =
        g.reservations.insert rid { rec with state } := rfl
    have hafter := charged_insert hreservations (fun _ _ => rfl) scope x
    rw [husage, h.sums, hafter, hsame]
    exact sumOver_of_get hfound _
  · rw [husage]
    exact h.within scope x l hl

def BudgetState.fits (g : BudgetState) (c : ReserveCall) : Prop :=
  ∀ (scope : Scope) (x : Resource), scope.covers c.runId c.taskId c.target.workerKey c.projectId →
    (g.usage scope).amount x + charge c.request.reserved c.speculative x < x.bound

def NoOverflow (g : BudgetState) : BudgetOp → Prop
  | .reserve _ c => (g.expireIn c.now).fits c
  | _ => True

theorem le_of_check64 {a l : UInt64} (h : a + b ≤ l)
    (hfits : a.toNat + b.toNat < 18446744073709551616) : a.toNat + b.toNat ≤ l.toNat := by
  rw [← toNat_add64 hfits]
  exact UInt64.le_iff_toNat_le.mp h

variable {l : UInt32}

theorem le_of_check32 {b : UInt32} (h : a + b ≤ l) (hfits : a.toNat + b.toNat < 4294967296) :
    a.toNat + b.toNat ≤ l.toNat := by
  rw [← toNat_add32 hfits]
  exact UInt32.le_iff_toNat_le.mp h

theorem lt_of_check32 (h : a < l) : a.toNat + 1 ≤ l.toNat :=
  UInt32.lt_iff_toNat_lt.mp h

theorem within_of_checks (hchecks : firstReject (g.checks c) = .ok ()) (hfits : g.fits c) {l : Nat}
    (hl : g.limits.limitOf scope x = some l) (hbefore : (g.usage scope).amount x ≤ l)
    (hcovers : scope.covers c.runId c.taskId c.target.workerKey c.projectId) :
    (g.usage scope).amount x + charge c.request.reserved c.speculative x ≤ l := by
  have hok := firstReject_eq_ok.mp hchecks
  simp only [checks, List.forall_mem_cons, decide_eq_false_iff_not, UInt64.not_lt,
    UInt32.not_lt, gt_iff_lt, ge_iff_le, UInt32.not_le] at hok
  obtain ⟨-, hspeculation, hrunTasks, hrunTokens, hrunMemory, htaskTasks, htaskTokens, hinference,
    hmemory, hvram, hprocesses, hworkerProcesses, hworkerVram, hworkerInference, -, hproject, -⟩ :=
      hok
  have hfit := hfits scope x hcovers
  cases scope with
  | global =>
    cases x <;> cases hl
    · exact le_of_check64 hmemory hfit
    · exact le_of_check64 hvram hfit
    · exact le_of_check32 hprocesses hfit
    · exact le_of_check32 hinference hfit
    · cases hs : c.speculative with
      | false => exact hbefore
      | true =>
        have hlimit : g.global.speculationSlots < g.limits.maxSpeculationSlots := by
          simpa [hs] using hspeculation
        exact lt_of_check32 hlimit
  | run id =>
    obtain rfl : c.runId = id := by simpa [Scope.covers] using hcovers
    cases x <;> cases hl
    · exact le_of_check64 hrunMemory hfit
    · exact le_of_check64 hrunTokens hfit
    · exact lt_of_check32 hrunTasks
  | task id =>
    obtain rfl : c.taskId = id := by simpa [Scope.covers] using hcovers
    cases x <;> cases hl
    · exact le_of_check64 htaskTokens hfit
    · exact lt_of_check32 htaskTasks
  | worker key =>
    obtain rfl : c.target.workerKey = key := by simpa [Scope.covers] using hcovers
    cases x <;> cases hl
    · exact le_of_check64 hworkerVram hfit
    · exact le_of_check32 hworkerProcesses hfit
    · exact le_of_check32 hworkerInference hfit
  | project id =>
    have hid : c.projectId = some id := by simpa [Scope.covers] using hcovers
    cases x <;> cases hl
    have hlimit : (g.projects id).memoryBytes + c.request.memoryBytes ≤
        g.limits.maxMemoryBytesGlobal := by
      simpa [hid] using hproject
    exact le_of_check64 hlimit hfit

theorem Balanced.book (h : Balanced limits g) (hnew : g.reservations[rid]? = none)
    (hfits : g.fits c) (hchecks : firstReject (g.checks c) = .ok ()) :
    Balanced limits (g.book rid c) := by
  have husage : ∀ scope, (g.book rid c).usage scope =
      if scope.covers c.runId c.taskId c.target.workerKey c.projectId then
        applyUsage (g.usage scope) c.request.reserved c.speculative c.attemptId
      else g.usage scope := by
    intro scope
    have := changeScopes_usage g c.runId c.taskId c.target.workerKey c.projectId
      (fun u => applyUsage u c.request.reserved c.speculative c.attemptId) scope
    rw [← this]
    cases scope <;> rfl
  have hproject : (g.book rid c).projectOf rid = c.projectId := by
    simp [projectOf, BudgetState.book]
  have hcharge : ∀ scope x, (g.book rid c).chargeOf scope x rid (g.reservation rid c) =
      if scope.covers c.runId c.taskId c.target.workerKey c.projectId then
        charge c.request.reserved c.speculative x else 0 := by
    intro scope x
    unfold chargeOf charges
    rw [hproject]
    rfl
  have hamount : ∀ scope x, ((g.book rid c).usage scope).amount x =
      (g.book rid c).chargeOf scope x rid (g.reservation rid c) + (g.usage scope).amount x := by
    intro scope x
    rw [husage, hcharge]
    split
    · rename_i hcovers
      rw [applyUsage_amount (hfits scope x hcovers), Nat.add_comm]
    · rw [Nat.zero_add]
  refine ⟨h.held, fun scope x => ?_, fun scope x l hl => ?_⟩
  · have hafter : (g.book rid c).charged scope x = _ := charged_insert (g := g)
      (r := g.reservation rid c) rfl (fun a hne => by
        simp [projectOf, BudgetState.book, get_insert_ne _ _ hne]) scope x
    rw [hamount, hafter, h.sums, erase_eq_self hnew]
    rfl
  · have hbefore := h.within scope x l hl
    rw [husage]
    split
    · rename_i hcovers
      rw [applyUsage_amount (hfits scope x hcovers)]
      rw [← h.held] at hl
      exact within_of_checks hchecks hfits hl hbefore hcovers
    · exact hbefore

theorem Balanced.of_reaches (h : Reaches NoOverflow limits g) : Balanced limits g :=
  h.invariant (.new limits) (fun _ rid _ hg ends => hg.drop rid ends)
    (fun _ _ _ _ hg found live active => hg.mark found live active)
    fun _ _ _ hg hnew hfits _ hchecks => hg.book hnew hfits hchecks

theorem drops_ended (h : Drops g g') (hr : g.reservations[rid]? = some r)
    (hends : r.state.isTerminal = true) : g'.reservations[rid]? = some r := by
  induction h with
  | refl => exact hr
  | @drop g₁ _ a terminal ends ih =>
    obtain hended | ⟨rec, hfound, hlive⟩ := dropReservation_cases g₁ a
    · rw [dropReservation_ended hended]
      exact ih
    · rw [dropReservation_live terminal hfound hlive]
      have hne : a ≠ rid := by
        rintro rfl
        rw [ih] at hfound
        cases hfound
        rw [hends] at hlive
        cases hlive
      exact (get_insert_ne _ _ hne).trans ih

theorem perform_ended {op : BudgetOp} (hadmits : g.admits op) (hr : g.reservations[rid]? = some r)
    (hends : r.state.isTerminal = true) : (g.perform op).reservations[rid]? = some r := by
  have hdoes := perform_does hadmits
  generalize g.perform op = g' at hdoes ⊢
  cases hdoes with
  | drops hd => exact drops_ended hd hr hends
  | @marks a rec state found live =>
    have hne : a ≠ rid := by
      rintro rfl
      rw [hr] at found
      cases found
      rw [hends] at live
      cases live
    exact (get_insert_ne _ _ hne).trans hr
  | @books a c g' call expired =>
    subst call expired
    have hkept := drops_ended (drops_expireIn g c.now) hr hends
    have hne : a ≠ rid := by
      rintro rfl
      rw [admits, hr] at hadmits
      cases hadmits
    exact (get_insert_ne _ _ hne).trans hkept

/-- What the ledger guarantees of a state: the counters are the sums over the active reservations,
no scope is over a limit, no attempt has two active reservations, a release returns what the
reservation was charged, and what has ended is never returned again. -/
structure Conserved (limits : BudgetLimits) (g : BudgetState) : Prop where
  sums : ∀ scope x, (g.usage scope).amount x = g.charged scope x
  within : ∀ scope x l, limits.limitOf scope x = some l → (g.usage scope).amount x ≤ l
  single : ∀ (rid rid' : String) (r r' : ResourceReservation), g.reservations[rid]? = some r →
    g.reservations[rid']? = some r' → r.state.isTerminal = false → r'.state.isTerminal = false →
    r.attemptId = r'.attemptId → rid = rid'
  returned : ∀ (rid : String) (r : ResourceReservation) (terminal : ReservationState),
    g.reservations[rid]? = some r → r.state.isTerminal = false → terminal.isTerminal = true →
    ∀ scope x, ((g.release rid terminal).usage scope).amount x + g.chargeOf scope x rid r =
      (g.usage scope).amount x
  final : ∀ (rid : String) (r : ResourceReservation), g.reservations[rid]? = some r →
    r.state.isTerminal = true → (∀ terminal, g.release rid terminal = g) ∧
      ∀ op, g.admits op → (g.perform op).reservations[rid]? = some r

theorem Balanced.returned (h : Balanced limits g) (hr : g.reservations[rid]? = some r)
    (hlive : r.state.isTerminal = false) (scope : Scope) (x : Resource) :
    ((g.release rid terminal).usage scope).amount x + g.chargeOf scope x rid r =
      (g.usage scope).amount x := by
  have hbefore : g.charged scope x = _ := sumOver_of_get hr (g.chargeOf scope x)
  rw [release, dropReservation_amount terminal hr hlive, h.sums, hbefore]
  omega

/-- In every state that a ledger comes to by calls that overflow no counter, usage is conserved. -/
theorem budget_conservation {limits : BudgetLimits} {g : BudgetState}
    (h : Reaches NoOverflow limits g) : Conserved limits g where
  sums := (Balanced.of_reaches h).sums
  within := (Balanced.of_reaches h).within
  single _ _ _ _ hr hr' hlive hlive' := (Filed.of_reaches h).single hr hr' hlive hlive'
  returned _ _ _ hr hlive _ := (Balanced.of_reaches h).returned hr hlive
  final rid r hr hends := by
    refine ⟨fun terminal => dropReservation_ended fun rec hrec => ?_, fun op hadmits =>
      perform_ended hadmits hr hends⟩
    rw [hr] at hrec
    cases hrec
    exact hends

namespace Demo

def call : ReserveCall where
  runId := "run"
  taskId := "task"
  attemptId := "attempt"
  projectId := none
  target := .localTarget
  request := .default
  speculative := false
  now := 0

/-- Charging the call overflows none of the counters that it is charged to. -/
def roomy (g : BudgetState) (c : ReserveCall) : Bool :=
  ([.global, .run c.runId, .task c.taskId, .worker c.target.workerKey] ++
      c.projectId.toList.map .project : List Scope).all fun scope =>
    [Resource.memory, .vram, .processes, .inference, .tokens, .tasks, .speculation].all fun x =>
      decide ((g.usage scope).amount x + charge c.request.reserved c.speculative x < x.bound)

theorem fits_of_roomy {g : BudgetState} {c : ReserveCall} (h : roomy g c = true) : g.fits c := by
  intro scope x hcovers
  simp only [roomy, List.all_eq_true, decide_eq_true_eq] at h
  refine h scope ?_ x (by cases x <;> simp)
  cases scope <;> simp_all [Scope.covers, Option.mem_toList]

def first : BudgetState := (new .default).perform (.reserve "res" call)

def later : ReserveCall := { call with attemptId := "attempt_2", projectId := some "project" }

/-- Two reservations, the first of which is released. -/
def secondAlone : BudgetState :=
  (first.perform (.reserve "res_2" later)).perform (.release "res" .released)

def hugeCall (run : String) : ReserveCall :=
  { call with
    runId := run, taskId := run, attemptId := run
    request := { ResourceRequest.default with totalTokenBudget := 9223372036854775808 } }

def unlimited : BudgetLimits :=
  { BudgetLimits.default with
    maxTokensPerTask := 18446744073709551615, maxTokensPerRun := 18446744073709551615 }

def twoRuns : BudgetState :=
  ((new unlimited).perform (.reserve "res_1" (hugeCall "run_1"))).perform
    (.reserve "res_2" (hugeCall "run_2"))

end Demo

theorem budget_conservation_call :
    Demo.secondAlone.charged (.run "run") .tokens = 8192 ∧
      Conserved .default Demo.secondAlone := by
  have hfirst : Reaches NoOverflow .default Demo.first :=
    .performs .new (by simp [admits, new]) (Demo.fits_of_roomy (by decide +kernel))
  have hsecond : Reaches NoOverflow .default (Demo.first.perform (.reserve "res_2" Demo.later)) :=
    .performs hfirst (show Demo.first.reservations["res_2"]? = none by decide +kernel)
      (Demo.fits_of_roomy (by decide +kernel))
  exact ⟨by decide +kernel, budget_conservation (.performs hsecond rfl trivial)⟩

/-- Two reservations of half of the counter each: the global counter is back at zero. -/
theorem tokens_overflow :
    ∃ (limits : BudgetLimits) (g : BudgetState), Reaches (fun _ _ => True) limits g ∧
      (g.usage .global).amount .tokens = 0 ∧ g.charged .global .tokens = 18446744073709551616 := by
  refine ⟨Demo.unlimited, Demo.twoRuns, .performs (.performs .new ?_ trivial) ?_ trivial, ?_, ?_⟩
  · simp [admits, new]
  · change ((new Demo.unlimited).perform
      (.reserve "res_1" (Demo.hugeCall "run_1"))).reservations["res_2"]? = none
    decide +kernel
  all_goals decide +kernel

end Tetonic.Broker
