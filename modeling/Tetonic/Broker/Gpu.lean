import Tetonic.Broker.Conservation
set_option autoImplicit false

/-! Exclusive devices: who holds a device of a worker exclusively has it alone. -/

namespace Tetonic.Broker
open Lib BudgetState OrdMap

def ResourceRequest.names (r : ResourceRequest) (device : Nat) : Prop :=
  ∃ gpu ∈ r.gpuDevices, gpu.deviceIndex = some device

/-- A device that an active reservation holds exclusively is in no such use by another active
reservation on the same worker. -/
def Alone (uses : ResourceRequest → Nat → Prop) (g : BudgetState) : Prop :=
  ∀ (rid rid' : String) (r r' : ResourceReservation) (b : ReservationBinding) (device : Nat),
    g.reservations[rid]? = some r → g.reservations[rid']? = some r' →
    r.state.isTerminal = false → r'.state.isTerminal = false →
    r.targetScope.workerKey = r'.targetScope.workerKey → g.bindings[rid']? = some b →
    device ∈ r.resources.exclusiveGpuIndices → uses b.request device → rid = rid'

/-- A device that is held exclusively is named by no other active reservation on the worker. -/
def ExclusiveUse (g : BudgetState) : Prop := Alone ResourceRequest.names g

/-- A device of the call's request is named by another attempt's active reservation on the worker,
the one exclusively and the other not. -/
def BudgetState.clashes (g : BudgetState) (c : ReserveCall) : Bool :=
  g.reservations.toList.any fun (rid, r) =>
    !r.state.isTerminal && r.attemptId ≠ c.attemptId &&
      r.targetScope.workerKey = c.target.workerKey && g.bindings[rid]?.any fun b =>
        b.request.gpuDevices.any fun held => c.request.gpuDevices.any fun wanted =>
          held.deviceIndex.isSome && held.deviceIndex = wanted.deviceIndex &&
            held.exclusive ≠ wanted.exclusive

/-- A call that passes the checks does not clash with what is held when it is made. -/
def Unmixed (g : BudgetState) : BudgetOp → Prop
  | .reserve _ c => firstReject ((g.expireIn c.now).checks c) = .ok () →
      (g.expireIn c.now).clashes c = false
  | _ => True

theorem mem_exclusive {r : ResourceRequest} {device : Nat} :
    device ∈ r.reserved.exclusiveGpuIndices ↔
      ∃ gpu ∈ r.gpuDevices, gpu.exclusive = true ∧ gpu.deviceIndex = some device := by
  simp [ResourceRequest.reserved, and_assoc]

def ResourceRequest.shares (r : ResourceRequest) (device : Nat) : Prop :=
  ∃ gpu ∈ r.gpuDevices, gpu.deviceIndex = some device ∧ gpu.exclusive = false

/-- A device that is held exclusively is shared by no other active reservation on the worker. -/
def Apart (g : BudgetState) : Prop := Alone ResourceRequest.shares g

/-- The worker's table has the holder of every device that is held exclusively, and none of these
is shared. -/
structure Held (g : BudgetState) : Prop where
  filed : Filed g
  holder : ∀ (rid : String) (r : ResourceReservation) (device : Nat),
    g.reservations[rid]? = some r → r.state.isTerminal = false →
    device ∈ r.resources.exclusiveGpuIndices →
    (g.workers r.targetScope.workerKey).exclusiveGpus device = some r.attemptId
  apart : Apart g

section
variable {g : BudgetState}

theorem Held.exclusiveUse (h : Held g) : ExclusiveUse g := by
  intro rid rid' r r' b device hr hr' hlive hlive' hworker hb hholds hnames
  obtain ⟨gpu, hgpu, hindex⟩ := hnames
  cases hexclusive : gpu.exclusive with
  | false =>
    exact h.apart rid rid' r r' b device hr hr' hlive hlive' hworker hb hholds
      ⟨gpu, hgpu, hindex, hexclusive⟩
  | true =>
    obtain ⟨-, -, b', hb', hresources⟩ := h.filed rid' r' hr' hlive'
    cases hb.symm.trans hb'
    have hholds' : device ∈ r'.resources.exclusiveGpuIndices :=
      hresources ▸ mem_exclusive.mpr ⟨gpu, hgpu, hexclusive, hindex⟩
    have hholder := h.holder rid r device hr hlive hholds
    rw [hworker, h.holder rid' r' device hr' hlive' hholds'] at hholder
    exact h.filed.single hr hr' hlive hlive' (Option.some.inj hholder).symm

theorem Apart.mono {g' : BudgetState} (h : Apart g)
    (hlive : ∀ (rid : String) (r : ResourceReservation), g'.reservations[rid]? = some r →
      r.state.isTerminal = false → ∃ r₀, g.reservations[rid]? = some r₀ ∧
        r₀.state.isTerminal = false ∧ r₀.targetScope = r.targetScope ∧ r₀.resources = r.resources)
    (hbound : ∀ (rid : String) (b : ReservationBinding), g'.bindings[rid]? = some b →
      g.bindings[rid]? = some b) : Apart g' := by
  intro rid rid' r r' b device hr hr' hends hends' hworker hb hholds hshares
  obtain ⟨r₀, hr₀, hends₀, htarget, hresources⟩ := hlive rid r hr hends
  obtain ⟨r₁, hr₁, hends₁, htarget', -⟩ := hlive rid' r' hr' hends'
  exact h rid rid' r₀ r₁ b device hr₀ hr₁ hends₀ hends₁ (by rw [htarget, htarget', hworker])
    (hbound rid' b hb) (hresources ▸ hholds) hshares

theorem Held.drop (h : Held g) (rid : String) {terminal : ReservationState}
    (ends : terminal.isTerminal = true) : Held (g.dropReservation rid terminal) := by
  obtain hended | ⟨rec, hfound, hlive⟩ := dropReservation_cases g rid
  · rw [dropReservation_ended hended]
    exact h
  refine ⟨h.filed.drop rid ends, ?_, ?_⟩ <;> rw [dropReservation_live terminal hfound hlive]
  · intro a r device hr hactive hholds
    obtain ⟨rfl, rfl⟩ | ⟨hne, hr⟩ := get_insert_cases hr
    · exact absurd ends (hactive ▸ Bool.false_ne_true)
    · have hholder := h.holder a r device hr hactive hholds
      have hother : r.attemptId ≠ rec.attemptId := fun heq =>
        hne (h.filed.single hr hfound hactive hlive heq).symm
      change (changeAt _ _ _ _).exclusiveGpus device = _
      unfold changeAt
      split
      · simp [reverseUsage, hholder, hother]
      · exact hholder
  · refine h.apart.mono (fun a r hr hactive => ?_) fun a b hb => (get_of_erase hb).2
    obtain ⟨rfl, rfl⟩ | ⟨-, hr⟩ := get_insert_cases hr
    · exact absurd ends (hactive ▸ Bool.false_ne_true)
    · exact ⟨r, hr, hactive, rfl, rfl⟩

theorem Held.mark (h : Held g) {rid : String} {rec : ResourceReservation}
    {state : ReservationState} (hfound : g.reservations[rid]? = some rec)
    (hlive : rec.state.isTerminal = false) (hactive : state.isActive = true) :
    Held (g.mark rid rec state) := by
  refine ⟨h.filed.mark hfound hlive hactive, ?_, ?_⟩
  · intro a r device hr hends hholds
    obtain ⟨rfl, rfl⟩ | ⟨-, hr⟩ := get_insert_cases hr
    · exact h.holder rid rec device hfound hlive hholds
    · exact h.holder a r device hr hends hholds
  · refine h.apart.mono (fun a r hr hends => ?_) fun _ _ hb => hb
    obtain ⟨rfl, rfl⟩ | ⟨-, hr⟩ := get_insert_cases hr
    · exact ⟨rec, hfound, hlive, rfl, rfl⟩
    · exact ⟨r, hr, hends, rfl, rfl⟩

theorem gpu_free_of_checks {c : ReserveCall} (hchecks : firstReject (g.checks c) = .ok ()) :
    gpuTaken (g.workers c.target.workerKey) c.attemptId c.request.gpuDevices = false :=
  firstReject_eq_ok.mp hchecks
    (gpuTaken (g.workers c.target.workerKey) c.attemptId c.request.gpuDevices, .vramBudgetExceeded)
    (by simp [checks])

/-- What is wanted of a device is what is held of it. -/
theorem same_mode {c : ReserveCall} (h : g.clashes c = false) {rid : String}
    {r : ResourceReservation} {b : ReservationBinding} (hr : g.reservations[rid]? = some r)
    (hlive : r.state.isTerminal = false) (hattempt : r.attemptId ≠ c.attemptId)
    (hworker : r.targetScope.workerKey = c.target.workerKey) (hb : g.bindings[rid]? = some b)
    {held wanted : GpuRequirement} (hheld : held ∈ b.request.gpuDevices)
    (hwanted : wanted ∈ c.request.gpuDevices) {device : Nat}
    (hindex : held.deviceIndex = some device) (hindex' : wanted.deviceIndex = some device) :
    held.exclusive = wanted.exclusive := by
  by_contra hmode
  refine absurd h (Bool.not_eq_false _ ▸ List.any_eq_true.mpr ⟨(rid, r), ?_, ?_⟩)
  · exact Std.ExtTreeMap.mem_toList_iff_getElem?_eq_some.mpr hr
  · simp only [hlive, hattempt, hworker, hb, Option.any_some, List.any_eq_true, Bool.and_eq_true,
      decide_eq_true_eq, Bool.not_false, ne_eq, not_false_eq_true, and_self, true_and]
    exact ⟨held, hheld, wanted, hwanted, ⟨by simp [hindex], hindex.trans hindex'.symm⟩, hmode⟩

theorem Apart.book (h : Held g) {rid : String} {c : ReserveCall} (hclash : g.clashes c = false)
    (hfree : g.activeOf c.attemptId = none) : Apart (g.book rid c) := by
  intro a a' r r' b device hr hr' hlive hlive' hworker hb hholds hshares
  obtain ⟨gpu, hgpu, hindex, hshared⟩ := hshares
  obtain ⟨rfl, rfl⟩ | ⟨hne, hr⟩ := get_insert_cases hr
  · obtain ⟨rfl, -⟩ | ⟨hne', hr'⟩ := get_insert_cases hr'
    · rfl
    · obtain ⟨wanted, hwanted, hexclusive, hindex'⟩ := mem_exclusive.mp hholds
      have hmode := same_mode hclash hr' hlive' (h.filed.free hfree hr' hlive') hworker.symm
        ((get_insert_ne _ _ hne').symm.trans hb) hgpu hwanted hindex hindex'
      rw [hshared, hexclusive] at hmode
      cases hmode
  · obtain ⟨rfl, rfl⟩ | ⟨hne', hr'⟩ := get_insert_cases hr'
    · cases (get_insert_self g.bindings rid ⟨c.projectId, c.request⟩).symm.trans hb
      obtain ⟨-, -, b₀, hb₀, hresources⟩ := h.filed a r hr hlive
      rw [hresources] at hholds
      obtain ⟨held, hheld, hexclusive, hindex'⟩ := mem_exclusive.mp hholds
      have hmode := same_mode hclash hr hlive (h.filed.free hfree hr hlive) hworker hb₀ hheld hgpu
        hindex' hindex
      rw [hshared, hexclusive] at hmode
      cases hmode
    · exact h.apart a a' r r' b device hr hr' hlive hlive' hworker
        ((get_insert_ne _ _ hne').symm.trans hb) hholds ⟨gpu, hgpu, hindex, hshared⟩

theorem Held.book (h : Held g) {rid : String} {c : ReserveCall} (hclash : g.clashes c = false)
    (hfree : g.activeOf c.attemptId = none) (hchecks : firstReject (g.checks c) = .ok ()) :
    Held (g.book rid c) := by
  refine ⟨h.filed.book hfree, ?_, .book h hclash hfree⟩
  · intro a r device hr hlive hholds
    change (changeAt _ _ _ _).exclusiveGpus device = _
    obtain ⟨rfl, rfl⟩ | ⟨-, hr⟩ := get_insert_cases hr
    · have hmem : device ∈ c.request.reserved.exclusiveGpuIndices := hholds
      simp [changeAt, applyUsage, reservation, hmem]
    · have hholder := h.holder a r device hr hlive hholds
      unfold changeAt
      split
      · rename_i hworker
        -- the checks refuse a device that another attempt holds
        have hnot : device ∉ c.request.reserved.exclusiveGpuIndices := by
          intro hmem
          obtain ⟨gpu, hgpu, hexclusive, hindex⟩ := mem_exclusive.mp hmem
          have htaken : gpuTaken (g.workers c.target.workerKey) c.attemptId
              c.request.gpuDevices = true := by
            refine List.any_eq_true.mpr ⟨gpu, hgpu, ?_⟩
            rw [← hworker, hindex]
            simp [hexclusive, hholder, h.filed.free hfree hr hlive]
          rw [gpu_free_of_checks hchecks] at htaken
          cases htaken
        simp [applyUsage, hnot, hholder]
      · exact hholder

end

/-- In every state that a ledger comes to by calls that do not mix exclusive and shared use of a
device, whatever the order of reservations and releases, a device that is held exclusively is named
by no other active reservation on the worker. -/
theorem gpu_exclusive_use {limits : BudgetLimits} {g : BudgetState}
    (h : Reaches Unmixed limits g) : ExclusiveUse g := by
  have hheld : Held g := by
    refine h.invariant ⟨.of_reaches (.new (C := Unmixed)), ?_, ?_⟩
      (fun _ rid _ hg ends => hg.drop rid ends)
      (fun _ _ _ _ hg found live active => hg.mark found live active)
      fun _ _ _ hg _ hmeets hfree hchecks => hg.book (hmeets hchecks) hfree hchecks
    · intro rid r device hr
      simp [new] at hr
    · intro rid rid' r r' b device hr
      simp [new] at hr
  exact hheld.exclusiveUse

namespace Demo

def gpuCall (attempt : String) (device : Nat) (exclusive : Bool) : ReserveCall :=
  { call with
    attemptId := attempt, target := .worker "gpu-box"
    request := { ResourceRequest.default with gpuDevices := [⟨some device, exclusive, 0⟩] } }

def exclusive : BudgetState :=
  (new .default).perform (.reserve "res_1" (gpuCall "one" 0 true))

def sharedAfterExclusive : BudgetState :=
  exclusive.perform (.reserve "res_2" (gpuCall "two" 0 false))

/-- Two attempts share device 1 beside it. -/
def beside : BudgetState := exclusive.perform (.reserve "res_2" (gpuCall "two" 1 false))

def sharing : BudgetState := beside.perform (.reserve "res_3" (gpuCall "three" 1 false))

/-- The device that was held exclusively goes to another attempt. -/
def handedOn : BudgetState :=
  (sharing.perform (.release "res_1" .released)).perform (.reserve "res_4" (gpuCall "four" 0 true))

end Demo

theorem gpu_exclusive_use_shared :
    (["res_1", "res_2", "res_3", "res_4"].map fun rid =>
      Demo.handedOn.reservations[rid]?.map (·.state)) =
        [some .released, some .reserved, some .reserved, some .reserved] ∧
      ExclusiveUse Demo.handedOn := by
  have hone : Reaches Unmixed .default Demo.exclusive :=
    .performs .new (by simp [admits, new]) fun _ => by decide +kernel
  have htwo : Reaches Unmixed .default Demo.beside :=
    .performs hone (show Demo.exclusive.reservations["res_2"]? = none by decide +kernel) fun _ =>
      by decide +kernel
  have hthree : Reaches Unmixed .default Demo.sharing :=
    .performs htwo (show Demo.beside.reservations["res_3"]? = none by decide +kernel) fun _ =>
      by decide +kernel
  have hreleased : Reaches Unmixed .default
      (Demo.sharing.perform (.release "res_1" .released)) := .performs hthree rfl trivial
  refine ⟨by decide +kernel, gpu_exclusive_use (.performs hreleased ?_ fun _ => by decide +kernel)⟩
  show (Demo.sharing.perform (.release "res_1" .released)).reservations["res_4"]? = none
  decide +kernel

/-- A shared reservation is let in on a device that is held exclusively. -/
theorem shared_device_admitted :
    ∃ (limits : BudgetLimits) (g : BudgetState),
      Reaches (fun _ _ => True) limits g ∧ ¬ ExclusiveUse g := by
  refine ⟨.default, Demo.sharedAfterExclusive, .performs (.performs .new ?_ trivial) ?_ trivial, ?_⟩
  · simp [admits, new]
  · change Demo.exclusive.reservations["res_2"]? = none
    decide +kernel
  · intro h
    have heq := h "res_1" "res_2"
      ((new .default).reservation "res_1" (Demo.gpuCall "one" 0 true))
      (Demo.exclusive.reservation "res_2" (Demo.gpuCall "two" 0 false))
      ⟨none, (Demo.gpuCall "two" 0 false).request⟩ 0 (by decide +kernel) (by decide +kernel)
      rfl rfl rfl (by decide +kernel) (by decide) ⟨_, List.mem_singleton_self _, rfl⟩
    revert heq
    decide

end Tetonic.Broker
