import Tetonic.Control.Attenuation
import Tetonic.Control.Work
set_option autoImplicit false

/-! A stop covers the whole tree of work below its scope. -/

namespace Tetonic.Control
open Lib Run Store

variable {D : StopBinding → String} {s s' : Store} {E : Surroundings} {now : Int}
variable {org team work : String}

/-- A work item and those it was delegated from, in any number of steps. -/
inductive AtOrAbove (s : Store) (org team work : String) : String → Prop where
  | self : AtOrAbove s org team work work
  | parent {a : String} {d : WorkDelegation} (below : AtOrAbove s org team work a)
      (recorded : d ∈ s.delegations) (inOrg : d.orgId = org) (inTeam : d.teamId = team)
      (child : d.childWorkId = a) : AtOrAbove s org team work d.parentWorkId

theorem take_two_eq_single {α : Type} {l : List α} {a : α} (h : l.take 2 = [a]) : l = [a] := by
  cases l with
  | nil => simp at h
  | cons b rest =>
    cases rest with
    | nil => simpa using h
    | cons => simp at h

theorem mem_parents {a : String} {d : WorkDelegation} (hd : d ∈ s.delegations)
    (horg : d.orgId = org) (hteam : d.teamId = team) (hchild : d.childWorkId = a) :
    s.parents org team a ≠ [] ∧ ∀ p, s.parents org team a = [p] → d.parentWorkId = p := by
  have hmem : d.parentWorkId ∈ (s.delegations.filter fun d => d.orgId = org && d.teamId = team &&
      d.childWorkId = a).map (·.parentWorkId) := by
    refine List.mem_map_of_mem (List.mem_filter.mpr ⟨hd, ?_⟩)
    simp [horg, hteam, hchild]
  refine ⟨?_, ?_⟩
  · intro hnone
    unfold parents at hnone
    rw [List.take_eq_nil_iff] at hnone
    obtain hzero | hnone := hnone
    · cases hzero
    · rw [hnone] at hmem
      cases hmem
  · intro p hp
    rw [take_two_eq_single hp] at hmem
    simpa using hmem

theorem AtOrAbove.of_root {a : String} (h : AtOrAbove s org team work a)
    (hroot : s.parents org team work = []) : a = work := by
  induction h with
  | self => rfl
  | parent _ recorded inOrg inTeam child ih =>
    rw [ih] at child
    exact absurd hroot (mem_parents recorded inOrg inTeam child).1

theorem AtOrAbove.of_child {a p : String} (h : AtOrAbove s org team work a)
    (hparent : s.parents org team work = [p]) : a = work ∨ AtOrAbove s org team p a := by
  induction h with
  | self => exact .inl rfl
  | parent _ recorded inOrg inTeam child ih =>
    obtain rfl | habove := ih
    · rw [(mem_parents recorded inOrg inTeam child).2 p hparent]
      exact .inr .self
    · exact .inr (.parent habove recorded inOrg inTeam child)

theorem ancestorsFrom_ok {room : Nat} {found : List String} {next : String} {all : List String}
    (h : s.ancestorsFrom org team room found next = .ok all) :
    ∃ more, all = found ++ next :: more ∧ (s.parents org team next = [] ∧ more = [] ∨
        ∃ p rest, s.parents org team next = [p] ∧ more = p :: rest) ∧
      ∀ a, AtOrAbove s org team next a → a ∈ next :: more := by
  induction room generalizing found next with
  | zero => cases h
  | succ room ih =>
    unfold ancestorsFrom at h
    split at h
    · cases h
    split at h
    · rename_i hroot
      cases h
      refine ⟨[], rfl, .inl ⟨hroot, rfl⟩, ?_⟩
      intro a ha
      rw [ha.of_root hroot]
      exact List.mem_cons_self
    · rename_i p hparent
      obtain ⟨more, hall, -, habove⟩ := ih h
      refine ⟨p :: more, by simp [hall], .inr ⟨p, more, hparent, rfl⟩, ?_⟩
      intro a ha
      obtain rfl | ha := ha.of_child hparent
      · exact List.mem_cons_self
      · exact List.mem_cons_of_mem _ (habove a ha)
    · cases h

theorem workAncestors_ok {all : List String} (h : s.workAncestors org team work = .ok all) :
    (s.parents org team work = [] ∧ all = [work] ∨
      ∃ p rest, s.parents org team work = [p] ∧ all = work :: p :: rest) ∧
      ∀ a, AtOrAbove s org team work a → a ∈ all := by
  obtain ⟨more, rfl, hmore, habove⟩ := ancestorsFrom_ok h
  refine ⟨?_, habove⟩
  obtain ⟨hroot, rfl⟩ | ⟨p, rest, hparent, rfl⟩ := hmore
  · exact .inl ⟨hroot, rfl⟩
  · exact .inr ⟨p, rest, hparent, rfl⟩

def InForce (s : Store) (org : String) (kind : ScopeKind) (id : String) : Prop :=
  ∃ c ∈ s.stops, c.isOn org kind id = true ∧ c.cleared = false

theorem newest_eq_none {l : List ControlStop} : newest l = none ↔ l = [] := by
  cases l with
  | nil => simp [newest]
  | cons =>
    unfold newest
    split
    · simp
    · split <;> simp

theorem activeControlStop_eq_none {kind : ScopeKind} {id : String} :
    s.activeControlStop org kind id = none ↔ ¬ InForce s org kind id := by
  unfold activeControlStop
  rw [newest_eq_none, List.filter_eq_nil_iff]
  simp [InForce]

theorem firstStop_eq_none {scopes : List (ScopeKind × String)} :
    s.firstStop org scopes = none ↔ ∀ kind id, (kind, id) ∈ scopes → ¬ InForce s org kind id := by
  unfold firstStop
  rw [List.findSome?_eq_none_iff]
  simp [activeControlStop_eq_none]

/-- The scopes whose stops are to hold a work item up. -/
inductive Covers (s : Store) (org team work : String) : ScopeKind → String → Prop where
  | org : Covers s org team work .org org
  | team : Covers s org team work .team team
  | work {a : String} (above : AtOrAbove s org team work a) : Covers s org team work .work a
  | goal {a goal : String} {item : TeamWorkItem} (above : AtOrAbove s org team work a)
      (found : s.workItem org team a = some item) (aims : item.goalId = some goal) :
      Covers s org team work .goal goal

def Stopped (s : Store) (org team work : String) : Prop :=
  ∃ kind id, Covers s org team work kind id ∧ InForce s org kind id

theorem activationBlockedByStop_none {goal : Option String}
    (h : s.activationBlockedByStop org team work goal none = .ok none) :
    ¬ InForce s org .org org ∧ ¬ InForce s org .team team ∧
      (∀ g, goal = some g → ¬ InForce s org .goal g) ∧
      ∀ a, AtOrAbove s org team work a → ¬ InForce s org .work a := by
  unfold activationBlockedByStop at h
  cases hfirst : s.firstStop org ([(.org, org), (.team, team)] ++
      goal.toList.map (ScopeKind.goal, ·)) with
  | some stop =>
    rw [hfirst] at h
    cases h
  | none =>
    simp only [hfirst, bind_eq_ok] at h
    obtain ⟨all, hall, h⟩ := h
    have hworks := firstStop_eq_none.mp (Except.ok.inj h)
    have hscopes := firstStop_eq_none.mp hfirst
    refine ⟨hscopes _ _ (by simp), hscopes _ _ (by simp), ?_, ?_⟩
    · intro g hg
      exact hscopes _ _ (by simp [hg])
    · intro a ha
      have hmem := (workAncestors_ok hall).2 a ha
      exact hworks _ _ (by simpa using hmem)

theorem requireAll_ok {α : Type} {check : α → Result Unit} {l : List α}
    (h : requireAll check l = .ok ()) : ∀ a ∈ l, check a = .ok () := by
  induction l with
  | nil => simp
  | cons a rest ih =>
    unfold requireAll at h
    obtain ⟨_, ha, hrest⟩ := bind_eq_ok.mp h
    exact List.forall_mem_cons.mpr ⟨ha, ih hrest⟩

theorem requireOpenAt_ok {id : String} (h : s.requireOpenAt org team id = .ok ()) :
    ∃ item, s.workItem org team id = some item ∧
      s.activationBlockedByStop org team id item.goalId none = .ok none := by
  unfold requireOpenAt at h
  simp only [bind_eq_ok, orDeny_eq_ok, denyIf_eq_ok] at h
  obtain ⟨item, hitem, -, -, stop, hstop, hnone⟩ := h
  rw [Option.isSome_eq_false_iff, Option.isNone_iff_eq_none] at hnone
  rw [hnone] at hstop
  exact ⟨item, hitem, hstop⟩

theorem requireWorkAllocationOpen_not_stopped
    (h : s.requireWorkAllocationOpen org team work = .ok ()) : ¬ Stopped s org team work := by
  unfold requireWorkAllocationOpen at h
  obtain ⟨all, hall, hrequired⟩ := bind_eq_ok.mp h
  have hopen : ∀ a, AtOrAbove s org team work a → ∃ item, s.workItem org team a = some item ∧
      s.activationBlockedByStop org team a item.goalId none = .ok none := by
    intro a ha
    exact requireOpenAt_ok (requireAll_ok hrequired a ((workAncestors_ok hall).2 a ha))
  rintro ⟨kind, id, hcovers, hforce⟩
  cases hcovers with
  | org =>
    obtain ⟨item, -, hblocked⟩ := hopen work .self
    exact (activationBlockedByStop_none hblocked).1 hforce
  | team =>
    obtain ⟨item, -, hblocked⟩ := hopen work .self
    exact (activationBlockedByStop_none hblocked).2.1 hforce
  | work above =>
    obtain ⟨item, -, hblocked⟩ := hopen _ above
    exact (activationBlockedByStop_none hblocked).2.2.2 _ .self hforce
  | goal above found aims =>
    obtain ⟨item, hitem, hblocked⟩ := hopen _ above
    rw [found] at hitem
    cases hitem
    exact (activationBlockedByStop_none hblocked).2.2.1 _ aims hforce

/-- Work that may be activated is under no stop: its own scopes were looked at, and the goals above
it with the allocation of its parent. -/
theorem requireActivation_not_stopped {actor : String} {item : TeamWorkItem}
    (h : s.requireActivation E actor org team work = .ok item) : ¬ Stopped s org team work := by
  unfold requireActivation at h
  simp only [bind_eq_ok, denyIf_eq_ok, orDeny_eq_ok, Option.isSome_eq_false_iff,
    Option.isNone_iff_eq_none] at h
  obtain ⟨-, -, current, hcurrent, _, hblocked, -, rfl, all, hall, h⟩ := h
  obtain ⟨horg, hteam, hgoal, hworks⟩ := activationBlockedByStop_none hblocked
  have habove : ∀ a, AtOrAbove s org team work a → a = work ∨
      ∃ p, AtOrAbove s org team p a ∧ ¬ Stopped s org team p := by
    intro a ha
    obtain ⟨⟨hroot, -⟩ | ⟨p, rest, hparent, rfl⟩, -⟩ := workAncestors_ok hall
    · exact .inl (ha.of_root hroot)
    · simp only [List.getElem?_cons_succ, List.getElem?_cons_zero, bind_eq_ok] at h
      obtain ⟨_, hopen, -⟩ := h
      obtain rfl | ha := ha.of_child hparent
      · exact .inl rfl
      · exact .inr ⟨p, ha, requireWorkAllocationOpen_not_stopped hopen⟩
  rintro ⟨kind, id, hcovers, hforce⟩
  cases hcovers with
  | org => exact horg hforce
  | team => exact hteam hforce
  | work above => exact hworks _ above hforce
  | goal above found aims =>
    obtain rfl | ⟨p, ha, hopen⟩ := habove _ above
    · rw [hcurrent] at found
      cases found
      exact hgoal _ aims hforce
    · exact hopen ⟨_, _, .goal ha found aims, hforce⟩

/-- A lineage is filed under the grant of its request, for the request's delegation. -/
def Filed (s : Store) : Prop :=
  ∀ (id : String) (row : LineageRow), s.lineages[id]? = some row →
    row.request.grantId = id ∧ row.lineage.delegationId = row.request.delegationId

theorem GrantChange.filed (h : GrantChange s s') (hfiled : Filed s) : Filed s' := by
  have same : s'.lineages = s.lineages → Filed s' := by
    intro hsame
    unfold Filed
    rw [hsame]
    exact hfiled
  cases h with
  | same _ lineages | issue _ _ _ lineages | revoke _ _ lineages => exact same lineages
  | derive hid named _ _ _ lineages =>
    intro id row hrow
    rw [lineages] at hrow
    obtain ⟨rfl, rfl⟩ | ⟨-, hrow⟩ := OrdMap.get_insert_cases hrow
    · exact ⟨hid.symm, named⟩
    · exact hfiled id row hrow

theorem Steps.filed (h : Steps D s s') (hfiled : Filed s) : Filed s' := by
  induction h with
  | refl => exact hfiled
  | step _ step ih => exact step.changes.1.filed ih

theorem derivedFor_ok {requestId : String} {row : LineageRow}
    (h : s.derivedFor org team requestId = some row) :
    row.lineage.orgId = org ∧ row.lineage.teamId = team ∧
      ∃ id : String, s.lineages[id]? = some row := by
  unfold derivedFor at h
  obtain ⟨entry, hfind, rfl⟩ := Option.map_eq_some_iff.mp h
  have hmatch := List.find?_some hfind
  simp only [Bool.and_eq_true, decide_eq_true_eq] at hmatch
  obtain ⟨⟨horg, hteam⟩, -⟩ := hmatch
  refine ⟨horg, hteam, entry.1, ?_⟩
  exact Std.ExtTreeMap.mem_toList_iff_getElem?_eq_some.mp (List.mem_of_find?_eq_some hfind)

theorem validateAllocation_ok {l : DelegatedGrantLineage} (h : s.validateAllocation l = .ok ()) :
    s.requireWorkAllocationOpen l.orgId l.teamId l.childWorkId = .ok () ∧
      ∃ d, s.delegation l.orgId l.teamId l.delegationId = some d ∧
        d.childWorkId = l.childWorkId := by
  unfold validateAllocation at h
  simp only [bind_eq_ok, orDeny_eq_ok, denyIf_eq_ok, Bool.or_eq_false_iff, decide_eq_false_iff_not,
    Decidable.not_not] at h
  obtain ⟨_, hopen, _, -, d, hd, hmatch⟩ := h
  exact ⟨hopen, d, hd, hmatch.1.2⟩

theorem validateDelegatedChain_allocation {g : ExecutionGrant} {l : DelegatedGrantLineage}
    (h : s.validateDelegatedChain D E g now = .ok ()) (hl : s.grantLineage g.grantId = some l) :
    s.validateAllocation l = .ok () := by
  obtain hroot | ⟨l', _, _, parent, hl', -, hlink, -⟩ := validateChainFrom_cases h
  · rw [hl] at hroot
    cases hroot
  · rw [hl] at hl'
    cases hl'
    exact (validateLink_ok hlink).2.2.2

theorem deriveExecutionGrant_open {actor : String} {r : DelegatedGrantRequest} {d : WorkDelegation}
    {x : (ExecutionGrant × DelegatedGrantLineage) × Store} (hfiled : Filed s)
    (hd : s.delegation org team r.delegationId = some d)
    (h : s.deriveExecutionGrant D E actor org team r now = .ok x) :
    s.requireWorkAllocationOpen org team d.childWorkId = .ok () := by
  obtain ⟨parent, -, ⟨existing, hexisting, rfl, -, hgrant, hchain, hlineage⟩ | ⟨-, hnew, -⟩⟩ :=
    deriveExecutionGrant_ok h
  · obtain ⟨rfl, rfl, id, hrow⟩ := derivedFor_ok hexisting
    obtain ⟨rfl, hnamed⟩ := hfiled id existing hrow
    obtain ⟨hid, -⟩ := liveGrant_ok hgrant
    have hl : s.grantLineage x.1.1.grantId = some existing.lineage := by
      simp [grantLineage, hid, hrow]
    obtain ⟨hopen, d', hd', hchild⟩ :=
      validateAllocation_ok (validateDelegatedChain_allocation hchain hl)
    rw [hnamed, hd] at hd'
    cases hd'
    rw [hchild]
    exact hopen
  · obtain ⟨-, -, -, ⟨d', hd', -, hopen⟩, -⟩ := newLineage_ok hnew
    rw [hd] at hd'
    cases hd'
    exact hopen

/-- A delegation that succeeded was recorded before for the same request, or is made under work
whose allocation is open. -/
theorem createWorkDelegation_cases {c : CreateWorkDelegation} {x : WorkDelegation × Store}
    (h : s.createWorkDelegation E c = .ok x) :
    s.delegationByRequest c.org c.team c.requestId = some x.1 ∧ x.2 = s ∨
      s.requireWorkAllocationOpen c.org c.team c.parentWorkId = .ok () := by
  unfold createWorkDelegation at h
  simp only [bind_eq_ok] at h
  obtain ⟨-, -, budget, -, -, -, -, -, h⟩ := h
  cases hrequest : s.delegationByRequest c.org c.team c.requestId with
  | some =>
    simp only [hrequest, bind_eq_ok] at h
    obtain ⟨-, -, h⟩ := h
    cases h
    exact .inl ⟨rfl, rfl⟩
  | none =>
    simp only [hrequest, bind_eq_ok] at h
    obtain ⟨_, -, _, hopen, -⟩ := h
    exact .inr hopen

/-- None of the calls goes through for the work item; a delegation that was recorded before is only
answered again. -/
structure Halted (D : StopBinding → String) (s : Store) (org team work : String) : Prop where
  inference : ∀ (E : Surroundings) (c : BeginWorkInference) (ownLimit : Option Int) (minimum : Int),
    c.org = org → c.team = team → c.work = work →
    ∀ x, s.beginWorkInferenceWithHeadroom E c ownLimit minimum ≠ .ok x
  delegation : ∀ (E : Surroundings) (c : CreateWorkDelegation) (x : WorkDelegation × Store),
    c.org = org → c.team = team → c.parentWorkId = work → s.createWorkDelegation E c = .ok x →
    s.delegationByRequest org team c.requestId = some x.1 ∧ x.2 = s
  derivation : ∀ (E : Surroundings) (actor : String) (r : DelegatedGrantRequest) (now : Int)
    (d : WorkDelegation), s.delegation org team r.delegationId = some d → d.childWorkId = work →
    ∀ x, s.deriveExecutionGrant D E actor org team r now ≠ .ok x
  activation : ∀ (E : Surroundings) (actor attempt run : String),
    ∀ x, s.activateTeamWorkItem E actor org team work attempt run ≠ .ok x
  resumption : ∀ (E : Surroundings) (actor : String),
    ∀ x, s.resumeTeamWorkItem E actor org team work ≠ .ok x
  deadline : ∀ (E : Surroundings) (attempt : String) (now : UInt64),
    ∀ x, s.liveWorkExecutionDeadline E org team work attempt now ≠ .ok x
  grants : ∀ (E : Surroundings) (id : String) (l : DelegatedGrantLineage) (scope : ExecutionScope)
    (job : AgentJobSpec) (run attempt : String) (now : Int), s.grantLineage id = some l →
    l.orgId = org → l.teamId = team → l.childWorkId = work →
    s.delegatedExecutionGrantAllows D E id scope job run attempt now ≠ .ok true

/-- While a stop is in force on the organization, the team, a work item at or above, or one of their
goals, no call goes on with the work item. -/
theorem stop_covers_work (reached : Steps D .empty s) (stopped : Stopped s org team work) :
    Halted D s org team work where
  inference E c ownLimit minimum horg hteam hwork x h := by
    subst horg hteam hwork
    unfold beginWorkInferenceWithHeadroom at h
    simp only [bind_eq_ok] at h
    obtain ⟨-, -, -, -, _, hopen, -⟩ := h
    exact requireWorkAllocationOpen_not_stopped hopen stopped
  delegation E c x horg hteam hwork h := by
    subst horg hteam hwork
    obtain hreplay | hopen := createWorkDelegation_cases h
    · exact hreplay
    · exact absurd stopped (requireWorkAllocationOpen_not_stopped hopen)
  derivation E actor r now d hd hwork x h := by
    subst hwork
    have hfiled : Filed s := reached.filed fun id row hrow => by simp [empty] at hrow
    exact requireWorkAllocationOpen_not_stopped (deriveExecutionGrant_open hfiled hd h) stopped
  activation E actor attempt run x h := by
    unfold activateTeamWorkItem at h
    simp only [bind_eq_ok] at h
    obtain ⟨-, -, current, hcurrent, -⟩ := h
    exact requireActivation_not_stopped hcurrent stopped
  resumption E actor x h := by
    unfold resumeTeamWorkItem at h
    simp only [bind_eq_ok] at h
    obtain ⟨current, hcurrent, -⟩ := h
    exact requireActivation_not_stopped hcurrent stopped
  deadline E attempt now x h := by
    unfold liveWorkExecutionDeadline at h
    simp only [bind_eq_ok] at h
    obtain ⟨_, hopen, -⟩ := h
    exact requireWorkAllocationOpen_not_stopped hopen stopped
  grants E id l scope job run attempt now hl horg hteam hwork h := by
    subst horg hteam hwork
    obtain ⟨_, g, -, -, -, hgrant, -, -, hchain⟩ := delegatedAllows_iff.mp h
    obtain ⟨rfl, -⟩ := liveGrant_ok hgrant
    have hallocation := validateDelegatedChain_allocation hchain hl
    exact requireWorkAllocationOpen_not_stopped (validateAllocation_ok hallocation).1 stopped

namespace Demo

def goalStop : ControlStop := ⟨"org", .goal, "goal", .pause, 1, "reason", "principal", false⟩

/-- The store after a stop on the parent's goal: the parent is parked, the child is not. -/
def halted : Store := { derived .parentLease none with
  works := [parentWork.park, childWork]
  stops := [goalStop] }

theorem halted_reached : Steps digest .empty halted := by
  have hcall : (derived .parentLease none).requestControlStopWithRuns surroundings "principal" "org"
      .goal "goal" .pause "reason" = .ok ((goalStop, ["run"]), halted) := by
    decide +kernel
  exact derived_reached.step (.stops hcall)

theorem goal_inForce : InForce halted "org" .goal "goal" :=
  ⟨goalStop, List.mem_cons_self, rfl, rfl⟩

theorem work_stopped : Stopped halted "org" "team" "work" :=
  have hitem : halted.workItem "org" "team" "work" = some parentWork.park := by decide +kernel
  ⟨.goal, "goal", .goal .self hitem rfl, goal_inForce⟩

theorem child_stopped : Stopped halted "org" "team" "child" := by
  have habove : AtOrAbove halted "org" "team" "child" "work" :=
    .parent (d := delegation) .self List.mem_cons_self rfl rfl rfl
  have hitem : halted.workItem "org" "team" "work" = some parentWork.park := by decide +kernel
  exact ⟨.goal, "goal", .goal habove hitem rfl, goal_inForce⟩

def delegate : CreateWorkDelegation where
  actor := "principal"
  org := "org"
  team := "team"
  delegationId := "delegation"
  parentWorkId := "work"
  childWorkId := "child"
  childTitle := "child"
  requestId := "delegate"
  parentBudgetTokens := 1000
  childBudgetTokens := 100
  stopScope := "inherit"
  peerOrg := none
  peerTeam := none

end Demo
open Demo

theorem stop_covers_child : Halted digest halted "org" "team" "child" :=
  stop_covers_work halted_reached child_stopped

/-- A delegation under stopped work succeeds if it was recorded before the stop. -/
theorem recorded_delegation_under_stop :
    Steps digest .empty halted ∧ Stopped halted "org" "team" "work" ∧
      halted.createWorkDelegation surroundings delegate = .ok (delegation, halted) :=
  ⟨halted_reached, work_stopped, by decide +kernel⟩

end Tetonic.Control
