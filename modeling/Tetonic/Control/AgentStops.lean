import Tetonic.Control.Coverage
import Tetonic.Control.StopBinding
set_option autoImplicit false

/-! A stop on an agent: only the stop bindings of work authority look at it. Of the agent's work it
halts what another stop halts. -/

namespace Tetonic.Control
open Lib Run Store

variable {D : StopBinding → String} {s s' t : Store} {E : Surroundings} {now : Int}
  {org org' team key id : String} {kind : ScopeKind}
  {l : DelegatedGrantLineage} {g : ExecutionGrant} {visited : List String}
  {parent child : AgentJobSpec}

theorem clearOn_of_not_isOn {c : ControlStop} (h : c.isOn org kind id = false) :
    clearOn org kind id c = c := by
  simp [clearOn, h]

theorem Step.inForce (h : Step D s s') (force : InForce s org kind id) :
    InForce s' org kind id ∨ ∃ E actor, s.clearControlStop E actor org kind id = .ok s' := by
  obtain ⟨-, hsame | ⟨org', kind', id', more, hstops, hmore⟩⟩ := h.changes
  · unfold InForce
    rw [hsame]
    exact .inl force
  obtain ⟨c, hc, hon, huncleared⟩ := force
  cases hother : c.isOn org' kind' id' with
  | true =>
    -- the call is about the very scope
    simp only [ControlStop.isOn, Bool.and_eq_true, decide_eq_true_eq] at hon hother
    obtain ⟨⟨rfl, rfl⟩, rfl⟩ := hon
    obtain ⟨⟨rfl, rfl⟩, rfl⟩ := hother
    refine hmore.imp_left fun hnew => ?_
    obtain ⟨c', hc', hnew⟩ := hnew
    exact ⟨c', hstops ▸ List.mem_append_right _ hc', hnew⟩
  | false =>
    refine .inl ⟨c, ?_, hon, huncleared⟩
    rw [hstops, ← clearOn_of_not_isOn hother]
    exact List.mem_append_left _ (List.mem_map_of_mem hc)

/-- Calls after a stop on the agent, none of which clears it. -/
inductive Standing (D : StopBinding → String) (org key : String) (s : Store) : Store → Prop where
  | refl : Standing D org key s s
  | step {s' s'' : Store} (steps : Standing D org key s s') (step : Step D s' s'')
      (kept : ∀ E actor, s'.clearControlStop E actor org .agent key ≠ .ok s'') :
      Standing D org key s s''

theorem Standing.inForce (h : Standing D org key s t) (force : InForce s org .agent key) :
    InForce t org .agent key := by
  induction h with
  | refl => exact force
  | step _ step kept ih =>
    refine (step.inForce ih).resolve_right fun hcleared => ?_
    obtain ⟨E, actor, hcleared⟩ := hcleared
    exact kept E actor hcleared

theorem requestAgentStop_ok {actor reason : String} {mode : StopMode} {stop : ControlStop}
    {runs : List String}
    (h : s.requestControlStopWithRuns E actor org .agent key mode reason = .ok ((stop, runs), s')) :
    runs = [] ∧ InForce s' org .agent key := by
  obtain ⟨-, hruns, -⟩ := requestControlStop_ok h
  have hnone : s.works.filter (s.parkedBy org .agent key) = [] :=
    List.filter_eq_nil_iff.mpr fun w _ => by simp [parkedBy]
  rw [runIdsUnderStop, hnone] at hruns
  exact ⟨hruns, _, requestControlStop_stops h ▸ List.mem_append_right _ List.mem_cons_self,
    by simp [ControlStop.isOn], rfl⟩

/-- The link is one of work authority, between jobs of which one is the agent's. -/
def Names (E : Surroundings) (org key : String) (l : DelegatedGrantLineage)
    (parent child : AgentJobSpec) : Prop :=
  l.lifetime = .parentWork ∧ l.orgId = org ∧
    (E.agentKey l.orgId parent.identityId = some key ∨
      E.agentKey l.orgId child.identityId = some key)

theorem workScopes_kind {ids : List String} {scopes : List (ScopeKind × String)}
    (h : s.workScopes org team ids = .ok scopes) : ∀ scope ∈ scopes, scope.1 ≠ .agent := by
  induction ids generalizing scopes with
  | nil =>
    cases h
    simp
  | cons id rest ih =>
    unfold workScopes at h
    simp only [bind_eq_ok, orDeny_eq_ok] at h
    obtain ⟨work, -, others, hothers, h⟩ := h
    cases h
    intro scope hscope
    simp only [List.cons_append, List.mem_cons, List.mem_append, List.mem_map] at hscope
    obtain rfl | ⟨goal, -, rfl⟩ | hscope := hscope
    · simp
    · simp
    · exact ih hothers scope hscope

theorem agentKeyOf_eq_ok {job : AgentJobSpec} {found : String} :
    agentKeyOf E org job = .ok found ↔ E.agentKey org job.identityId = some found := by
  unfold agentKeyOf
  cases E.agentKey org job.identityId <;> simp

theorem agent_mem_delegationScopes {scopes : List (ScopeKind × String)}
    (h : s.delegationScopes E l parent child = .ok scopes) :
    (.agent, key) ∈ scopes ↔ E.agentKey l.orgId parent.identityId = some key ∨
        E.agentKey l.orgId child.identityId = some key := by
  unfold delegationScopes at h
  simp only [bind_eq_ok, agentKeyOf_eq_ok] at h
  obtain ⟨ancestors, -, works, hworks, parentKey, hparent, childKey, hchild, h⟩ := h
  cases h
  have hnone : (ScopeKind.agent, key) ∉ works := fun hmem => workScopes_kind hworks _ hmem rfl
  rw [hparent, hchild]
  simp [hnone, eq_comm]

theorem generations_of_active {scopes : List (ScopeKind × String)} {b : StopBinding}
    (h : s.generations org' scopes = .ok b) {kind : ScopeKind} (hmem : (kind, id) ∈ scopes) :
    s.activeControlStop org' kind id = none := by
  induction scopes generalizing b with
  | nil => cases hmem
  | cons scope rest ih =>
    unfold generations at h
    simp only [bind_eq_ok, denyIf_eq_ok, Option.isSome_eq_false_iff, Option.isNone_iff_eq_none] at h
    obtain ⟨-, hnone, others, hothers, -⟩ := h
    obtain rfl | hmem := List.mem_cons.mp hmem
    · exact hnone
    · exact ih hothers hmem

theorem validateStopBinding_parentWork (hlifetime : l.lifetime = .parentWork) :
    s.validateStopBinding D E l parent child = .ok () ↔
      ∃ scopes generations, s.delegationScopes E l parent child = .ok scopes ∧
        s.generations l.orgId (scopeSet scopes) = .ok generations ∧
        l.stopBinding = some (D generations) := by
  simp only [validateStopBinding, hlifetime, delegationStopBinding, bind_eq_ok,
    denyIf_eq_ok, decide_eq_false_iff_not, Decidable.not_not, Except.ok.injEq]
  constructor
  · rintro ⟨_, ⟨scopes, hscopes, generations, hgenerations, rfl⟩, hbinding⟩
    exact ⟨scopes, generations, hscopes, hgenerations, hbinding⟩
  · rintro ⟨scopes, generations, hscopes, hgenerations, hbinding⟩
    exact ⟨_, ⟨scopes, hscopes, generations, hgenerations, rfl⟩, hbinding⟩

/-- With a stop on the agent in force, the check of the binding of a link that names it fails. -/
theorem validateStopBinding_named (force : InForce s org .agent key)
    (names : Names E org key l parent child) :
    s.validateStopBinding D E l parent child ≠ .ok () := by
  intro h
  obtain ⟨hlifetime, rfl, hagents⟩ := names
  obtain ⟨scopes, generations, hscopes, hgenerations, -⟩ :=
    (validateStopBinding_parentWork hlifetime).mp h
  have hmem := mem_scopeSet.mpr ((agent_mem_delegationScopes hscopes).mpr hagents)
  exact activeControlStop_eq_none.mp (generations_of_active hgenerations hmem) force

/-- A link at or above the grant names the agent. -/
inductive ChainNames (s : Store) (E : Surroundings) (org key : String) (now : Int) :
    ExecutionGrant → Prop where
  | here {g parent : ExecutionGrant} {l : DelegatedGrantLineage}
      (lineage : s.grantLineage g.grantId = some l)
      (live : s.liveGrant E l.parentGrantId now = .ok parent)
      (names : Names E org key l parent.job g.job) : ChainNames s E org key now g
  | above {g parent : ExecutionGrant} {l : DelegatedGrantLineage}
      (lineage : s.grantLineage g.grantId = some l)
      (live : s.liveGrant E l.parentGrantId now = .ok parent)
      (rest : ChainNames s E org key now parent) : ChainNames s E org key now g

theorem ChainNames.refused (h : ChainNames s E org key now g) (force : InForce s org .agent key)
    {room : Nat} : s.validateChainFrom D E now room visited g ≠ .ok () := by
  induction h generalizing room visited with
  | here lineage live names =>
    intro hchain
    obtain hroot | ⟨l', _, _, _, hl, -, hlink, -⟩ := validateChainFrom_cases hchain
    · rw [lineage] at hroot
      cases hroot
    · rw [lineage] at hl
      cases hl
      obtain ⟨hparent, hbinding, -⟩ := validateLink_ok hlink
      rw [live] at hparent
      cases hparent
      exact validateStopBinding_named force names hbinding
  | above lineage live _ ih =>
    intro hchain
    obtain hroot | ⟨l', _, _, _, hl, -, hlink, hrest⟩ := validateChainFrom_cases hchain
    · rw [lineage] at hroot
      cases hroot
    · rw [lineage] at hl
      cases hl
      rw [(validateLink_ok hlink).1] at live
      cases live
      exact ih hrest

def AttemptOf (E : Surroundings) (org key run attempt : String) : Prop :=
  ∃ snapshot a t job, E.run run = some snapshot ∧ snapshot.attempts[attempt]? = some a ∧
    snapshot.tasks[a.taskId]? = some t ∧ t.binding.jobSpec = some job ∧
    E.agentKey org job.identityId = some key

/-- The calls that a stop on an agent is to hold up. -/
inductive AgentCall where
  | inference (c : BeginWorkInference) (ownLimit : Option Int) (minimum : Int)
  | activation (actor org team work attempt run : String)
  | grant (id : String) (scope : ExecutionScope) (job : AgentJobSpec) (run attempt : String)
      (now : Int)

namespace AgentCall

def isFor (E : Surroundings) (org key : String) : AgentCall → Prop
  | inference c _ _ => c.org = org ∧ AttemptOf E org key c.run c.attempt
  | activation _ org' _ _ attempt run => org' = org ∧ AttemptOf E org key run attempt
  | grant _ _ job _ _ _ => E.agentKey org job.identityId = some key

def succeeds (D : StopBinding → String) (E : Surroundings) (s : Store) : AgentCall → Prop
  | inference c ownLimit minimum => ∃ x,
      s.beginWorkInferenceWithHeadroom E c ownLimit minimum = .ok x
  | activation actor org team work attempt run =>
    ∃ x, s.activateTeamWorkItem E actor org team work attempt run = .ok x
  | grant id scope job run attempt now =>
    s.delegatedExecutionGrantAllows D E id scope job run attempt now = .ok true

/-- Something else than the agent's stop covers the work, or the grant's chain names the agent. -/
def held (E : Surroundings) (s : Store) (org key : String) : AgentCall → Prop
  | inference c _ _ => Stopped s c.org c.team c.work
  | activation _ org' team work _ _ => Stopped s org' team work
  | grant id _ _ _ _ now => ∀ g, s.liveGrant E id now = .ok g → ChainNames s E org key now g ∨
      ∃ l, s.grantLineage id = some l ∧ Stopped s l.orgId l.teamId l.childWorkId

theorem held.refused {call : AgentCall} (h : call.held E s org key)
    (force : InForce s org .agent key) : ¬ call.succeeds D E s := by
  cases call with
  | inference c ownLimit minimum =>
    rintro ⟨x, hx⟩
    simp only [beginWorkInferenceWithHeadroom, bind_eq_ok] at hx
    obtain ⟨-, -, -, -, _, hopen, -⟩ := hx
    exact requireWorkAllocationOpen_not_stopped hopen h
  | activation actor org team work attempt run =>
    rintro ⟨x, hx⟩
    simp only [activateTeamWorkItem, bind_eq_ok] at hx
    obtain ⟨-, -, current, hcurrent, -⟩ := hx
    exact requireActivation_not_stopped hcurrent h
  | grant id scope job run attempt now =>
    intro hallows
    obtain ⟨_, g, -, -, -, hgrant, -, -, hchain⟩ := delegatedAllows_iff.mp hallows
    obtain hnames | ⟨l, hl, hstopped⟩ := h g hgrant
    · exact hnames.refused force hchain
    · obtain ⟨rfl, -⟩ := liveGrant_ok hgrant
      have hallocation := validateAllocation_ok (validateDelegatedChain_allocation hchain hl)
      exact requireWorkAllocationOpen_not_stopped hallocation.1 hstopped

end AgentCall

/-- The work item executes an attempt of the agent, bound to the run. -/
def Executes (E : Surroundings) (org key : String) (w : TeamWorkItem) (run : String) : Prop :=
  w.orgId = org ∧ w.runId = some run ∧ ∃ attempt, w.attemptId = some attempt ∧
    AttemptOf E org key run attempt

/-- A stop on an agent returns all of the agent's runs exactly if none is bound. From then on, until
it is cleared, the calls for the agent are refused whose work another stop covers, and its grants
whose chain names it. -/
theorem agent_stop_halts {E' : Surroundings} {actor reason : String} {mode : StopMode}
    {stop : ControlStop} {runs : List String}
    (stops : s.requestControlStopWithRuns E' actor org .agent key mode reason =
      .ok ((stop, runs), s')) :
    ((∀ w ∈ s.works, ∀ run, Executes E org key w run → run ∈ runs) ↔
      ∀ w ∈ s.works, ∀ run, ¬ Executes E org key w run) ∧
    ∀ t, Standing D org key s' t → ∀ E (call : AgentCall), call.isFor E org key →
      call.held E t org key → ¬ call.succeeds D E t := by
  obtain ⟨rfl, hforce⟩ := requestAgentStop_ok stops
  refine ⟨by simp, fun t hstanding E call _ hheld => ?_⟩
  exact hheld.refused (hstanding.inForce hforce)

namespace Demo

def parentStop : ControlStop := ⟨"org", .agent, "parent", .estop, 1, "reason", "principal", false⟩

def call : BeginWorkInference :=
  ⟨"principal", "org", "team", "work", "run", "task", "attempt", "call", "model", 20⟩

def withStops (s : Store) (stops : List ControlStop) : Store := { s with stops }

def parentStopped : Store := withStops (derived .parentLease none) [parentStop]

def calling : Store := { parentStopped with
  reservations := [⟨"org", "team", "work", "execution/attempt", 900, "principal"⟩]
  executions := [⟨"attempt", "org", "team", "work", "run", "task",
    ⟨"lease", 1, .local, attempt.taskVersion⟩, some "execution/attempt", some 900, 0⟩]
  calls := [⟨"call", "attempt", "model", none, none, .pending⟩] }

theorem attemptOf_parent : AttemptOf surroundings "org" "parent" "run" "attempt" :=
  ⟨_, attempt, task, _, rfl, by decide +kernel, by decide +kernel, rfl, by decide +kernel⟩

/-- The goal of the work is stopped, then the agent, then another agent. -/
def bothStopped : Store := withStops halted [goalStop, parentStop, agentStop false]

theorem bothStopped_standing :
    Standing digest "org" "parent" (withStops halted [goalStop, parentStop]) bothStopped := by
  have hcall : (withStops halted [goalStop, parentStop]).requestControlStopWithRuns surroundings
      "principal" "org" .agent "child" .estop "reason" =
        .ok ((agentStop false, []), bothStopped) := by
    decide +kernel
  refine .step .refl (.stops hcall) fun E actor hcleared => ?_
  have hstops := congrArg Store.stops (clearControlStop_ok hcleared)
  revert hstops
  decide +kernel

theorem bothStopped_work : Stopped bothStopped "org" "team" "work" :=
  have hitem : bothStopped.workItem "org" "team" "work" = some parentWork.park := by decide +kernel
  ⟨.goal, "goal", .goal .self hitem rfl, goalStop, List.mem_cons_self, rfl, rfl⟩

theorem bound_chainNames : ∀ g,
    (withStops bound [agentStop false]).liveGrant surroundings "grant" 20 = .ok g →
      ChainNames (withStops bound [agentStop false]) surroundings "org" "child" 20 g := by
  intro g hg
  have hlive : (withStops bound [agentStop false]).liveGrant surroundings "grant" 20 =
      .ok grant := by
    decide +kernel
  obtain rfl : grant = g := Except.ok.inj (hlive.symm.trans hg)
  have hlineage : (withStops bound [agentStop false]).grantLineage "grant" =
      some (lineage .parentWork (some binding)) := by decide +kernel
  have hparent : (withStops bound [agentStop false]).liveGrant surroundings
      (lineage .parentWork (some binding)).parentGrantId 20 = .ok root := by decide +kernel
  exact .here hlineage hparent ⟨rfl, rfl, .inr (by decide +kernel)⟩

end Demo
open Demo

/-- A call for the agent whose work a goal's stop covers too, and a grant of work authority. -/
theorem agent_stop_halts_covered :
    ¬ (AgentCall.inference call none 1).succeeds digest surroundings bothStopped ∧
      ¬ (AgentCall.grant "grant" scope grant.job "run" "attempt" 20).succeeds digest surroundings
        (withStops bound [agentStop false]) := by
  have hparent : halted.requestControlStopWithRuns surroundings "principal" "org" .agent "parent"
      .estop "reason" = .ok ((parentStop, []), withStops halted [goalStop, parentStop]) := by
    decide +kernel
  have hchild : bound.requestControlStopWithRuns surroundings "principal" "org" .agent "child"
      .estop "reason" = .ok ((agentStop false, []), withStops bound [agentStop false]) := by
    decide +kernel
  constructor
  · exact (agent_stop_halts (E := surroundings) hparent).2 _ bothStopped_standing surroundings _
      ⟨rfl, attemptOf_parent⟩ bothStopped_work
  · have hkey : surroundings.agentKey "org" grant.job.identityId = some "child" := by decide +kernel
    exact (agent_stop_halts (E := surroundings) hchild).2 _ .refl surroundings _ hkey
      fun g hg => .inl (bound_chainNames g hg)

/-- A stop on the agent of the running parent names no run to cancel, and its attempt goes on to
activate and to call for inference; a stop on the agent of a child leaves its grant under the
parent's lease in force. -/
theorem agent_stop_leaves_work_going :
    (derived .parentLease none).requestControlStopWithRuns surroundings "principal" "org"
        .agent "parent" .estop "reason" = .ok ((parentStop, []), parentStopped) ∧
      parentStopped.activateTeamWorkItem surroundings "principal" "org" "team" "work"
        "attempt" "run" = .ok (parentWork, parentStopped) ∧
      parentStopped.beginWorkInferenceWithHeadroom surroundings call none 1 =
        .ok (some 900, calling) ∧
      (derived .parentLease none).requestControlStopWithRuns surroundings "principal" "org"
        .agent "child" .estop "reason" = .ok ((agentStop false, []),
            withStops (derived .parentLease none) [agentStop false]) ∧
      (withStops (derived .parentLease none) [agentStop false]).delegatedExecutionGrantAllows
        digest surroundings "grant" scope grant.job "run" "attempt" 20 = .ok true := by
  decide +kernel

end Tetonic.Control
