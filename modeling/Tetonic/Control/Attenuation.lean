import Tetonic.Control.Stops
import Tetonic.Run.Transition
set_option autoImplicit false

/-! Derived authority only attenuates: what an allowed grant has, every grant above it has. -/

namespace Tetonic.Control
open Lib Run

variable {D : StopBinding → String} {s s' : Store} {E : Surroundings} {now : Int}

/-- One call that changed the store. What else is done to work and its budget is left open. -/
inductive Step (D : StopBinding → String) (s : Store) : Store → Prop where
  | issues {s' : Store} {E : Surroundings} {actor : String} {grant : ExecutionGrant} {now : Int}
      (call : s.issueExecutionGrant E actor grant now = .ok s') : Step D s s'
  | derives {s' : Store} {E : Surroundings} {actor org team : String} {r : DelegatedGrantRequest}
      {now : Int} {x : ExecutionGrant × DelegatedGrantLineage}
      (call : s.deriveExecutionGrant D E actor org team r now = .ok (x, s')) : Step D s s'
  | revokes {s' : Store} {E : Surroundings} {actor org id : String} {now : Int}
      (call : s.revokeExecutionGrant E actor org id now = .ok s') : Step D s s'
  | stops {s' : Store} {E : Surroundings} {actor org : String} {kind : ScopeKind} {id : String}
      {mode : StopMode} {reason : String} {x : ControlStop × List String}
      (call : s.requestControlStopWithRuns E actor org kind id mode reason = .ok (x, s')) :
      Step D s s'
  | clears {s' : Store} {E : Surroundings} {actor org : String} {kind : ScopeKind} {id : String}
      (call : s.clearControlStop E actor org kind id = .ok s') : Step D s s'
  | works (works : List TeamWorkItem) (delegations : List WorkDelegation)
      (envelopes : List WorkBudgetEnvelope) (reservations : List WorkBudgetReservation)
      (executions : List WorkBudgetExecution) (calls : List WorkUsageCall) :
      Step D s { s with works, delegations, envelopes, reservations, executions, calls }

inductive Steps (D : StopBinding → String) (s : Store) : Store → Prop where
  | refl : Steps D s s
  | step {s' s'' : Store} (steps : Steps D s s') (step : Step D s' s'') : Steps D s s''

/-- The grants and lineages after a call: unchanged, one more grant, one more derived grant, or
one grant revoked. -/
inductive GrantChange (s : Store) : Store → Prop where
  | same {s' : Store} (grants : s'.grants = s.grants) (lineages : s'.lineages = s.lineages) :
      GrantChange s s'
  | issue {s' : Store} {grant : ExecutionGrant} (fresh : s.grants[grant.grantId]? = none)
      (root : s.isDelegated grant.grantId = false)
      (grants : s'.grants = s.grants.insert grant.grantId grant.row)
      (lineages : s'.lineages = s.lineages) : GrantChange s s'
  | derive {s' : Store} {grant : ExecutionGrant} {r : DelegatedGrantRequest}
      {l : DelegatedGrantLineage} (id : grant.grantId = r.grantId)
      (named : l.delegationId = r.delegationId) (fresh : s.grants[grant.grantId]? = none)
      (root : s.isDelegated grant.grantId = false)
      (grants : s'.grants = s.grants.insert grant.grantId grant.row)
      (lineages : s'.lineages = s.lineages.insert grant.grantId ⟨r, l⟩) : GrantChange s s'
  | revoke {s' : Store} {id : String} {row : GrantRow} {time : Int}
      (found : s.grants[id]? = some row)
      (grants : s'.grants = s.grants.insert id { row with revokedAt := some time })
      (lineages : s'.lineages = s.lineages) : GrantChange s s'

theorem insertExecutionGrant_cases {grant : ExecutionGrant}
    (h : s.insertExecutionGrant grant = .ok s') :
    s' = s ∧ (∃ row, s.grants[grant.grantId]? = some row ∧ row.payload = grant ∧
        row.revokedAt = none) ∨ s.grants[grant.grantId]? = none ∧
        s' = { s with grants := s.grants.insert grant.grantId grant.row } := by
  unfold Store.insertExecutionGrant at h
  split at h
  · rename_i old hold
    split at h
    · cases h
    · rename_i hsame
      cases h
      simp only [Bool.or_eq_true, decide_eq_true_eq, not_or, Decidable.not_not,
        Option.not_isSome_iff_eq_none] at hsame
      exact .inl ⟨rfl, old, hold, hsame⟩
  · rename_i hnone
    cases h
    exact .inr ⟨hnone, rfl⟩

variable {actor : String}

theorem issueExecutionGrant_ok {grant : ExecutionGrant}
    (h : s.issueExecutionGrant E actor grant now = .ok s') :
    s.isDelegated grant.grantId = false ∧ s.insertExecutionGrant grant = .ok s' := by
  unfold Store.issueExecutionGrant at h
  simp only [bind_eq_ok, failIf_eq_ok, denyIf_eq_ok] at h
  obtain ⟨-, -, -, -, -, -, -, hroot, h⟩ := h
  exact ⟨hroot, h⟩

variable {org id : String}

theorem revokeExecutionGrant_ok (h : s.revokeExecutionGrant E actor org id now = .ok s') :
    ∃ row, s.grants[id]? = some row ∧ (row.revokedAt ≠ none ∧ s' = s ∨ row.revokedAt = none ∧
        s' = { s with grants := s.grants.insert id { row with revokedAt := some now } }) := by
  unfold Store.revokeExecutionGrant at h
  simp only [bind_eq_ok, denyIf_eq_ok, orDeny_eq_ok] at h
  obtain ⟨-, -, row, hrow, h⟩ := h
  obtain ⟨hfound, -⟩ := Option.filter_eq_some_iff.mp hrow
  refine ⟨row, hfound, ?_⟩
  cases hrevoked : row.revokedAt with
  | none =>
    simp only [hrevoked] at h
    cases h
    exact .inr ⟨rfl, rfl⟩
  | some =>
    simp only [hrevoked] at h
    cases h
    exact .inl ⟨by simp, rfl⟩

variable {team : String} {r : DelegatedGrantRequest}

/-- A derivation that succeeded: the parent passed its checks, and the request was answered before,
or a new grant and its lineage were entered and pass the checks as well. -/
theorem deriveExecutionGrant_ok {x : ExecutionGrant × DelegatedGrantLineage}
    (h : s.deriveExecutionGrant D E actor org team r now = .ok (x, s')) :
    ∃ parent, s.deriveParent D E actor org team r now = .ok parent ∧
      ((∃ existing, s.derivedFor org team r.requestId = some existing ∧ existing.request = r ∧
          s' = s ∧ s.liveGrant E r.grantId now = .ok x.1 ∧
          s.validateDelegatedChain D E x.1 now = .ok () ∧ s.grantLineage x.1.grantId = some x.2) ∨
        s.grants[r.grantId]? = none ∧ s.newLineage D E org team r parent now = .ok x.2 ∧
          x.1 = ⟨r.grantId, parent.scope, r.job, r.expiresAt⟩ ∧
          s.insertDerived r x.1 x.2 = .ok s' ∧ s'.validateDelegatedChain D E x.1 now = .ok ()) := by
  unfold Store.deriveExecutionGrant at h
  obtain ⟨parent, hparent, h⟩ := bind_eq_ok.mp h
  refine ⟨parent, hparent, ?_⟩
  cases hexisting : s.derivedFor org team r.requestId with
  | some existing =>
    simp only [hexisting, bind_eq_ok, failIf_eq_ok, orDeny_eq_ok, decide_eq_false_iff_not,
      Decidable.not_not] at h
    obtain ⟨_, hsame, grant, hgrant, _, hchain, lineage, hlineage, h⟩ := h
    cases h
    exact .inl ⟨existing, rfl, hsame, rfl, hgrant, hchain, hlineage⟩
  | none =>
    simp only [hexisting, bind_eq_ok, failIf_eq_ok, Option.isSome_eq_false_iff,
      Option.isNone_iff_eq_none] at h
    obtain ⟨_, hfree, lineage, hlineage, s₁, hinsert, _, -, _, hchain, h⟩ := h
    cases h
    exact .inr ⟨hfree, hlineage, rfl, hinsert, hchain⟩

variable {l : DelegatedGrantLineage}

theorem insertDerived_ok {grant : ExecutionGrant} (hid : grant.grantId = r.grantId)
    (hfree : s.grants[grant.grantId]? = none) (h : s.insertDerived r grant l = .ok s') :
    s.isDelegated grant.grantId = false ∧ s' = { s with
      grants := s.grants.insert grant.grantId grant.row
      lineages := s.lineages.insert grant.grantId ⟨r, l⟩ } := by
  unfold Store.insertDerived at h
  obtain ⟨s₁, hs₁, h⟩ := bind_eq_ok.mp h
  obtain ⟨-, row, hrow, -⟩ | ⟨-, rfl⟩ := insertExecutionGrant_cases hs₁
  · rw [hfree] at hrow
    cases hrow
  simp only [bind_eq_ok, failIf_eq_ok] at h
  obtain ⟨-, -, -, hroot, h⟩ := h
  cases h
  rw [hid]
  exact ⟨hroot, rfl⟩

variable {parent : ExecutionGrant}

theorem newLineage_ok (h : s.newLineage D E org team r parent now = .ok l) :
    l.lifetime = r.lifetime ∧ l.orgId = org ∧ l.parentGrantId = r.parentGrantId ∧
      (∃ d, s.delegation org team r.delegationId = some d ∧ l.delegationId = r.delegationId ∧
        s.requireWorkAllocationOpen org team d.childWorkId = .ok ()) ∧
      (r.lifetime = .parentWork → ∃ binding, l.stopBinding = some binding ∧
        s.delegationStopBinding D E l parent.job r.job = .ok binding) := by
  unfold Store.newLineage at h
  simp only [bind_eq_ok, orDeny_eq_ok] at h
  obtain ⟨d, hd, _, hopen, _, -, -, -, _, -, _, -, _, -, _, -, _, -, _, -, _, -, -, -, -, -, h⟩ := h
  cases hlifetime : r.lifetime with
  | parentLease =>
    simp only [hlifetime] at h
    cases h
    refine ⟨rfl, rfl, rfl, ⟨d, hd, rfl, hopen⟩, ?_⟩
    intro hwork
    cases hwork
  | parentWork =>
    simp only [hlifetime, bind_eq_ok] at h
    obtain ⟨binding, hbinding, h⟩ := h
    cases h
    exact ⟨rfl, rfl, rfl, ⟨d, hd, rfl, hopen⟩, fun _ => ⟨binding, rfl, hbinding⟩⟩

/-- A call leaves the stops as they are, or clears those on one scope, with a new one or without. -/
theorem Step.changes (h : Step D s s') : GrantChange s s' ∧ (s'.stops = s.stops ∨
    ∃ org kind id more, s'.stops = s.stops.map (clearOn org kind id) ++ more ∧
      ((∃ c ∈ more, c.isOn org kind id = true ∧ c.cleared = false) ∨
        ∃ E actor, s.clearControlStop E actor org kind id = .ok s')) := by
  cases h with
  | issues call =>
    obtain ⟨hroot, hinsert⟩ := issueExecutionGrant_ok call
    obtain ⟨rfl, -⟩ | ⟨hfresh, rfl⟩ := insertExecutionGrant_cases hinsert
    · exact ⟨.same rfl rfl, .inl rfl⟩
    · exact ⟨.issue hfresh hroot rfl rfl, .inl rfl⟩
  | derives call =>
    obtain ⟨parent, -, ⟨_, -, -, rfl, -⟩ | ⟨hfresh, hlineage, hgrant, hinsert, -⟩⟩ :=
      deriveExecutionGrant_ok call
    · exact ⟨.same rfl rfl, .inl rfl⟩
    · rename_i r _ x
      have hid : x.1.grantId = r.grantId := by rw [hgrant]
      rw [← hid] at hfresh
      obtain ⟨hroot, rfl⟩ := insertDerived_ok hid hfresh hinsert
      obtain ⟨-, -, -, ⟨_, -, hnamed, -⟩, -⟩ := newLineage_ok hlineage
      exact ⟨.derive hid hnamed hfresh hroot rfl rfl, .inl rfl⟩
  | revokes call =>
    obtain ⟨row, hrow, ⟨-, rfl⟩ | ⟨-, rfl⟩⟩ := revokeExecutionGrant_ok call
    · exact ⟨.same rfl rfl, .inl rfl⟩
    · exact ⟨.revoke hrow rfl rfl, .inl rfl⟩
  | stops call =>
    obtain ⟨rfl, -⟩ := requestControlStop_ok call
    refine ⟨.same rfl rfl, .inr ⟨_, _, _, _, rfl, .inl ⟨_, List.mem_singleton_self _, ?_, rfl⟩⟩⟩
    simp [ControlStop.isOn]
  | clears call =>
    have hcleared := clearControlStop_ok call
    refine ⟨?_, .inr ⟨_, _, _, [], ?_, .inr ⟨_, _, call⟩⟩⟩ <;> rw [hcleared]
    · exact .same rfl rfl
    · exact (List.append_nil _).symm
  | works => exact ⟨.same rfl rfl, .inl rfl⟩

/-- A row is kept under its grant's id, with the grant's expiry in its column. -/
def Kept (s : Store) : Prop :=
  ∀ (id : String) (row : GrantRow), s.grants[id]? = some row →
    row.payload.grantId = id ∧ row.expiresAt = row.payload.expiresAt

theorem Kept.empty : Kept .empty := by
  intro id row h
  simp [Store.empty] at h

variable {row : GrantRow}

theorem Kept.insert (h : Kept s) (hgrants : s'.grants = s.grants.insert id row)
    (hrow : row.payload.grantId = id ∧ row.expiresAt = row.payload.expiresAt) : Kept s' := by
  intro other found hfound
  rw [hgrants] at hfound
  obtain ⟨rfl, rfl⟩ | ⟨-, hfound⟩ := OrdMap.get_insert_cases hfound
  · exact hrow
  · exact h other found hfound

theorem GrantChange.kept (h : GrantChange s s') (hkept : Kept s) : Kept s' := by
  cases h with
  | same grants =>
    unfold Kept
    rw [grants]
    exact hkept
  | issue _ _ grants | derive _ _ _ _ grants => exact hkept.insert grants ⟨rfl, rfl⟩
  | revoke found grants =>
    have hrow := hkept _ _ found
    exact hkept.insert grants hrow

theorem Steps.kept (h : Steps D s s') (hkept : Kept s) : Kept s' := by
  induction h with
  | refl => exact hkept
  | step _ step ih => exact step.changes.1.kept ih

def Live (s : Store) (now : Int) (g : ExecutionGrant) : Prop :=
  ∃ row, s.grants[g.grantId]? = some row ∧ row.payload = g ∧ row.revokedAt = none ∧
    now < row.expiresAt

theorem liveRow_eq_some :
    s.liveRow id now = some row ↔
      s.grants[id]? = some row ∧ row.revokedAt = none ∧ now < row.expiresAt := by
  simp [Store.liveRow, Option.filter_eq_some_iff]

variable {g : ExecutionGrant}

theorem liveGrant_ok (h : s.liveGrant E id now = .ok g) :
    g.grantId = id ∧ Live s now g ∧
      E.registered g.scope.organizationId g.job.identityId g.job.definitionDigest = true := by
  unfold Store.liveGrant at h
  simp only [bind_eq_ok, orDeny_eq_ok, denyIf_eq_ok, liveRow_eq_some] at h
  obtain ⟨row, ⟨hrow, hrevoked, hexpiry⟩, -, hid, -, hregistered, h⟩ := h
  cases h
  simp only [Bool.or_eq_false_iff, decide_eq_false_iff_not, Decidable.not_not] at hid
  obtain ⟨⟨rfl, -⟩, -⟩ := hid
  exact ⟨rfl, ⟨row, hrow, rfl, hrevoked, hexpiry⟩, by simpa using hregistered⟩

variable {child : ExecutionGrant}

theorem validateLink_ok (h : s.validateLink D E l child now = .ok parent) :
    s.liveGrant E l.parentGrantId now = .ok parent ∧
      s.validateStopBinding D E l parent.job child.job = .ok () ∧
      exceedsParent l child parent = false ∧ s.validateAllocation l = .ok () := by
  unfold Store.validateLink at h
  simp only [bind_eq_ok, denyIf_eq_ok] at h
  obtain ⟨g, hparent, _, hbinding, -, -, -, hexceeds, -, -, -, -, _, hallocation, -, -, h⟩ := h
  cases h
  exact ⟨hparent, hbinding, hexceeds, hallocation⟩

variable {room : Nat} {visited : List String}

theorem validateChainFrom_cases (h : s.validateChainFrom D E now room visited child = .ok ()) :
    s.grantLineage child.grantId = none ∨
      ∃ l room' visited' parent, s.grantLineage child.grantId = some l ∧ room = room' + 1 ∧
        s.validateLink D E l child now = .ok parent ∧
        s.validateChainFrom D E now room' visited' parent = .ok () := by
  unfold Store.validateChainFrom at h
  cases hl : s.grantLineage child.grantId with
  | none => exact .inl rfl
  | some l =>
    simp only [hl] at h
    cases room with
    | zero => cases h
    | succ room =>
      simp only at h
      split at h
      · cases h
      · obtain ⟨parent, hlink, hrest⟩ := bind_eq_ok.mp h
        exact .inr ⟨l, room, _, parent, rfl, rfl, hlink, hrest⟩

/-- A grant and those above it by lineage, up to one that was not derived. -/
inductive Chain (s : Store) : List ExecutionGrant → Prop where
  | root {g : ExecutionGrant} (root : s.isDelegated g.grantId = false) : Chain s [g]
  | link {g parent : ExecutionGrant} {l : DelegatedGrantLineage} {above : List ExecutionGrant}
      (lineage : s.grantLineage g.grantId = some l) (id : parent.grantId = l.parentGrantId)
      (rest : Chain s (parent :: above)) : Chain s (g :: parent :: above)

def Store.carriesEnvironment (s : Store) (g : ExecutionGrant) : Bool :=
  (s.grantLineage g.grantId).any (·.approvedEnvironment.isSome)

/-- Whose capabilities bound those of the first: the nearest grant with an environment approved for
it, or the last. -/
def Store.capabilitySource (s : Store) : List ExecutionGrant → Option ExecutionGrant
  | [] => none
  | [root] => some root
  | g :: parent :: above =>
    if s.carriesEnvironment g then some g else s.capabilitySource (parent :: above)

def ExecutionGrant.Narrows (child parent : ExecutionGrant) : Prop :=
  child.expiresAt ≤ parent.expiresAt ∧
    ∀ a ∈ child.job.artifactBindings, a ∈ parent.job.artifactBindings

theorem ExecutionGrant.Narrows.trans {a b c : ExecutionGrant} (hab : a.Narrows b)
    (hbc : b.Narrows c) : a.Narrows c :=
  ⟨Int.le_trans hab.1 hbc.1, fun x hx => hbc.2 x (hab.2 x hx)⟩

structure Attenuates (s : Store) (now : Int) (chain : List ExecutionGrant) : Prop where
  unrevoked : ∀ g ∈ chain, ∃ row, s.grants[g.grantId]? = some row ∧ row.payload = g ∧
    row.revokedAt = none
  unexpired : ∀ g ∈ chain, now < g.expiresAt
  scope : ∀ g ∈ chain, ∀ root ∈ chain.getLast?, g.scope = root.scope
  narrows : chain.Pairwise ExecutionGrant.Narrows
  capabilities : ∀ g ∈ chain.head?, ∀ source ∈ s.capabilitySource chain,
    ∀ c ∈ g.job.capabilityBindings, c ∈ source.job.capabilityBindings

theorem exceedsParent_eq_false :
    exceedsParent l child parent = false ↔ child.scope = parent.scope ∧ child.Narrows parent ∧
      (l.approvedEnvironment = none →
        ∀ c ∈ child.job.capabilityBindings, c ∈ parent.job.capabilityBindings) := by
  unfold exceedsParent ExecutionGrant.Narrows
  rw [← subset_iff, ← subset_iff]
  simp only [Bool.or_eq_false_iff, decide_eq_false_iff_not, Decidable.not_not,
    Bool.and_eq_false_iff,
    Bool.not_eq_false', Int.not_lt, gt_iff_lt, Option.isNone_eq_false_iff]
  cases l.approvedEnvironment <;> simp <;> tauto

theorem Live.unexpired (h : Live s now g) (hkept : Kept s) : now < g.expiresAt := by
  obtain ⟨row, hrow, rfl, -, hexpiry⟩ := h
  rw [(hkept _ _ hrow).2] at hexpiry
  exact hexpiry

theorem Live.unrevoked (h : Live s now g) :
    ∃ row, s.grants[g.grantId]? = some row ∧ row.payload = g ∧ row.revokedAt = none := by
  obtain ⟨row, hrow, hpayload, hrevoked, -⟩ := h
  exact ⟨row, hrow, hpayload, hrevoked⟩

theorem Attenuates.root (hkept : Kept s) (hlive : Live s now g) :
    Attenuates s now [g] where
  unrevoked := by simpa using hlive.unrevoked
  unexpired := by simpa using hlive.unexpired hkept
  scope := by simp
  narrows := by simp
  capabilities := by simp [Store.capabilitySource]

theorem Attenuates.link {above : List ExecutionGrant} (h : Attenuates s now (parent :: above))
    (hkept : Kept s) (hlive : Live s now g) (hl : s.grantLineage g.grantId = some l)
    (hexceeds : exceedsParent l g parent = false) : Attenuates s now (g :: parent :: above) := by
  obtain ⟨hscope, hnarrows, hcapabilities⟩ := exceedsParent_eq_false.mp hexceeds
  refine ⟨?_, ?_, ?_, ?_, ?_⟩
  · exact List.forall_mem_cons.mpr ⟨hlive.unrevoked, h.unrevoked⟩
  · exact List.forall_mem_cons.mpr ⟨hlive.unexpired hkept, h.unexpired⟩
  · rw [List.getLast?_cons_cons]
    refine List.forall_mem_cons.mpr ⟨?_, h.scope⟩
    intro root hroot
    rw [hscope]
    exact h.scope parent List.mem_cons_self root hroot
  · refine List.pairwise_cons.mpr ⟨?_, h.narrows⟩
    intro x hx
    obtain rfl | hx := List.mem_cons.mp hx
    · exact hnarrows
    · exact hnarrows.trans (List.rel_of_pairwise_cons h.narrows hx)
  · intro x hx source hsource c hc
    cases hx
    unfold Store.capabilitySource at hsource
    split at hsource
    · cases hsource
      exact hc
    · -- without an environment of its own, the grant has only what the parent has
      rename_i hcarries
      have hnone : l.approvedEnvironment = none := by
        simpa [Store.carriesEnvironment, hl] using hcarries
      exact h.capabilities parent rfl source hsource c (hcapabilities hnone c hc)

theorem validateChainFrom_attenuates (hkept : Kept s) (hlive : Live s now g)
    (h : s.validateChainFrom D E now room visited g = .ok ()) :
    ∃ above, Chain s (g :: above) ∧ Attenuates s now (g :: above) := by
  -- on the turns that are left: each turn that checks a link has one less for the parent
  induction room generalizing visited g with
  | zero =>
    obtain hroot | ⟨_, _, _, _, -, hroom, -⟩ := validateChainFrom_cases h
    · exact ⟨[], .root (by simp [Store.isDelegated, hroot]), .root hkept hlive⟩
    · cases hroom
  | succ room ih =>
    obtain hroot | ⟨l, room', _, parent, hl, hroom, hlink, hrest⟩ := validateChainFrom_cases h
    · exact ⟨[], .root (by simp [Store.isDelegated, hroot]), .root hkept hlive⟩
    · cases hroom
      obtain ⟨hparent, -, hexceeds, -⟩ := validateLink_ok hlink
      obtain ⟨hid, hparentLive, -⟩ := liveGrant_ok hparent
      obtain ⟨above, hchain, hattenuates⟩ := ih hparentLive hrest
      exact ⟨parent :: above, .link hl hid hchain, hattenuates.link hkept hlive hl hexceeds⟩

theorem delegatedAllows_iff {scope : ExecutionScope} {job : AgentJobSpec} {run attempt : String} :
    s.delegatedExecutionGrantAllows D E id scope job run attempt now = .ok true ↔
      ∃ l grant, s.grantLineage id = some l ∧ l.parentRunId = run ∧ l.parentAttemptId = attempt ∧
        s.liveGrant E id now = .ok grant ∧ grant.scope = scope ∧ grant.job = job ∧
        s.validateDelegatedChain D E grant now = .ok () := by
  constructor
  · intro h
    unfold Store.delegatedExecutionGrantAllows Store.delegatedExecutionGrantLifetime at h
    cases hcheck : s.checkDelegated D E id scope job run attempt now with
    | error e => cases e <;> simp [hcheck, Except.map] at h
    | ok =>
      unfold Store.checkDelegated at hcheck
      simp only [bind_eq_ok, orDeny_eq_ok, denyIf_eq_ok, Bool.or_eq_false_iff,
        decide_eq_false_iff_not, Decidable.not_not] at hcheck
      obtain ⟨l, hl, -, ⟨hrun, hattempt⟩, grant, hgrant, -, ⟨hscope, hjob⟩, _, hchain, -⟩ := hcheck
      exact ⟨l, grant, hl, hrun, hattempt, hgrant, hscope, hjob, hchain⟩
  · rintro ⟨l, grant, hl, rfl, rfl, hgrant, rfl, rfl, hchain⟩
    simp [Store.delegatedExecutionGrantAllows, Store.delegatedExecutionGrantLifetime,
      Store.checkDelegated, hl, hgrant, hchain, orDeny, denyIf, failIf, Except.map, bind,
      Except.bind]

/-- What a delegated grant is allowed was given from a root down: the lineage above it ends at a
grant that was not derived, and each grant on the way is in force and gives no more than the one
above it. -/
theorem delegated_authority_attenuates (reached : Steps D .empty s) {id : String}
    {scope : ExecutionScope} {job : AgentJobSpec} {run attempt : String}
    (allows : s.delegatedExecutionGrantAllows D E id scope job run attempt now = .ok true) :
    ∃ grant above, grant.grantId = id ∧ grant.scope = scope ∧ grant.job = job ∧
      Chain s (grant :: above) ∧ Attenuates s now (grant :: above) := by
  obtain ⟨_, grant, -, -, -, hgrant, hscope, hjob, hchain⟩ := delegatedAllows_iff.mp allows
  obtain ⟨hid, hlive, -⟩ := liveGrant_ok hgrant
  obtain ⟨above, hchain, hattenuates⟩ :=
    validateChainFrom_attenuates (reached.kept Kept.empty) hlive hchain
  exact ⟨grant, above, hid, hscope, hjob, hchain, hattenuates⟩

/-! A small organization: a running parent whose grant was issued, and open work below it. -/

namespace Demo

def scope : ExecutionScope := ⟨"principal", "org", "context"⟩

def job (identity : String) (capabilities : List String) : AgentJobSpec :=
  ⟨identity, "definition", "input", capabilities, ["artifact"], "recovery"⟩

def root : ExecutionGrant := ⟨"root", scope, job "parent" ["read", "write"], 100⟩

def task : TaskRecord where
  taskId := "task"
  state := .running
  binding := { TaskInputBinding.default with
    activation := some ⟨"request", "digest", "audit"⟩
    executionScope := some scope
    executionGrantId := some "root"
    jobSpec := some root.job }
  acceptedArtifact := none
  activeAttempt := some "attempt"
  winningAttempt := none
  finalizationClaim := none
  completedVersion := none
  retry := {}
  sideEffectKeys := []

def attempt : AttemptRecord where
  suspension := none
  executionQuiesced := false
  executionClaimed := true
  attemptId := "attempt"
  taskId := "task"
  state := .running
  taskVersion := task.binding.taskDefinitionVersion
  workspaceVersion := none
  inputDigest := "input"
  resultDigest := none
  deliveryKey := none
  lease := some ⟨"lease", "attempt", 1, .local, 1, 90, 30, 0⟩
  failureClass := none
  failureReason := none
  attemptNumber := 1

def run : RunSnapshot := { emptySnapshot "run" none with
  state := .active
  tasks := Std.ExtTreeMap.empty.insert "task" task
  attempts := Std.ExtTreeMap.empty.insert "attempt" attempt }

def surroundings : Surroundings where
  requestJsonLength _ := 1
  grantJsonLength _ := 1
  boundedId _ := true
  issuableId _ := true
  boundedTitle _ := true
  activationRequestId request := request
  stopReason _ := true
  controlAccess _ _ _ _ := true
  teamParticipant _ _ _ := true
  orgMember _ _ := true
  contextAccess _ _ _ := true
  sharedContext _ _ _ := true
  agentKey _ identity := some identity
  definitionRevision _ _ := true
  run id := if id = "run" then some run else none

def parentWork : TeamWorkItem :=
  ⟨"org", "team", "work", some "goal", "parent", .running, "request", some "attempt", some "run", 1⟩

def childWork : TeamWorkItem :=
  ⟨"org", "team", "child", none, "child", .opened, "delegated", none, none, 1⟩

def delegation : WorkDelegation :=
  ⟨"org", "team", "delegation", "work", "child", none, "principal", "work/work", 1000, 100,
    "delegate",
    "principal"⟩

def envelope : WorkBudgetEnvelope := ⟨"org", "team", "work", 1000, "principal", "fund"⟩

def staffed : Store := { Store.empty with
  works := [parentWork, childWork]
  delegations := [delegation]
  envelopes := [envelope] }

def issued : Store := { staffed with grants := Std.ExtTreeMap.empty.insert "root" root.row }

def grant : ExecutionGrant := ⟨"grant", scope, job "child" ["read"], 80⟩

def request (lifetime : DelegationLifetime) : DelegatedGrantRequest :=
  ⟨lifetime, none, "derive", "grant", "root", "delegation", grant.job, 80⟩

def lineage (lifetime : DelegationLifetime) (stopBinding : Option String) :
    DelegatedGrantLineage where
  lifetime
  stopBinding
  approvedEnvironment := none
  orgId := "org"
  teamId := "team"
  delegationId := "delegation"
  parentGrantId := "root"
  parentWorkId := "work"
  childWorkId := "child"
  parentRunId := "run"
  parentTaskId := "task"
  parentAttemptId := "attempt"
  parentTaskVersion := attempt.taskVersion
  parentLease := ⟨"lease", 1, .local⟩
  payerPrincipalId := "principal"
  stopScope := "work/work"
  allocatedTokens := 100

def derived (lifetime : DelegationLifetime) (stopBinding : Option String) : Store := { issued with
  grants := issued.grants.insert "grant" grant.row
  lineages := Std.ExtTreeMap.empty.insert "grant" ⟨request lifetime, lineage lifetime stopBinding⟩ }

/-- Words that can be told apart: a plus before each character, a dot after each word. -/
def spell (words : List (List Char)) : List Char :=
  words.flatMap fun word => (word.flatMap fun c => ['+', c]) ++ ['.']

def digest (generations : StopBinding) : String :=
  String.ofList (spell (generations.flatMap fun e =>
    [e.1.text.toList, e.2.1.toList, List.replicate e.2.2 '1']))

theorem issued_reached : Steps digest .empty issued := by
  have hstaffed : Steps digest .empty staffed := Steps.refl.step (.works _ _ _ _ _ _)
  have hcall : staffed.issueExecutionGrant surroundings "principal" root 10 = .ok issued := by
    decide +kernel
  exact hstaffed.step (.issues hcall)

theorem derived_reached : Steps digest .empty (derived .parentLease none) := by
  have hcall : issued.deriveExecutionGrant digest surroundings "principal" "org" "team"
      (request .parentLease) 10 =
        .ok ((grant, lineage .parentLease none), derived .parentLease none) := by
    decide +kernel
  exact issued_reached.step (.derives hcall)

end Demo

theorem delegated_authority_attenuates_child :
    ∃ grant above, grant.grantId = "grant" ∧ grant.scope = Demo.scope ∧ grant.job = Demo.grant.job ∧
      Chain (Demo.derived .parentLease none) (grant :: above) ∧
      Attenuates (Demo.derived .parentLease none) 20 (grant :: above) := by
  have hallows : (Demo.derived .parentLease none).delegatedExecutionGrantAllows Demo.digest
      Demo.surroundings "grant" Demo.scope Demo.grant.job "run" "attempt" 20 = .ok true := by
    decide +kernel
  exact delegated_authority_attenuates Demo.derived_reached hallows

end Tetonic.Control
