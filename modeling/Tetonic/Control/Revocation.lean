import Tetonic.Control.Attenuation
set_option autoImplicit false

/-! A grant that was revoked stays revoked, and with it every grant whose lineage leads to it. -/

namespace Tetonic.Control
open Lib Run

variable {D : StopBinding → String} {s s' : Store} {E : Surroundings} {now : Int}

/-- The payload of a grant and its lineage are as they were, and a revoked grant is revoked. -/
structure Lasts (s s' : Store) : Prop where
  payload : ∀ (id : String) (row : GrantRow), s.grants[id]? = some row →
    ∃ row', s'.grants[id]? = some row' ∧ row'.payload = row.payload ∧
      (row.revokedAt ≠ none → row'.revokedAt ≠ none)
  lineage : ∀ (id : String) (row : LineageRow), s.lineages[id]? = some row →
    s'.lineages[id]? = some row

theorem Lasts.refl (s : Store) : Lasts s s :=
  ⟨fun _ row h => ⟨row, h, rfl, fun hr => hr⟩, fun _ _ h => h⟩

theorem Lasts.trans {s'' : Store} (h : Lasts s s') (h' : Lasts s' s'') : Lasts s s'' := by
  refine ⟨?_, fun id row hrow => h'.lineage id row (h.lineage id row hrow)⟩
  intro id row hrow
  obtain ⟨row', hrow', hpayload, hrevoked⟩ := h.payload id row hrow
  obtain ⟨row'', hrow'', hpayload', hrevoked'⟩ := h'.payload id row' hrow'
  exact ⟨row'', hrow'', hpayload'.trans hpayload, fun hr => hrevoked' (hrevoked hr)⟩

variable {id : String}

theorem get_insert_fresh {β : Type} {m : OrdMap String β} {key : String} {new old : β}
    (fresh : m[key]? = none) (h : m[id]? = some old) : (m.insert key new)[id]? = some old := by
  rw [OrdMap.get_insert_ne m new (OrdMap.ne_of_get h fresh).symm]
  exact h

theorem GrantChange.lasts (h : GrantChange s s') : Lasts s s' := by
  have unlisted : ∀ {id : String}, s.isDelegated id = false → s.lineages[id]? = none := by
    intro id hid
    cases hrow : s.lineages[id]? with
    | none => rfl
    | some => simp [Store.isDelegated, Store.grantLineage, hrow] at hid
  cases h with
  | same grants lineages =>
    refine ⟨?_, ?_⟩
    · rw [grants]
      exact (Lasts.refl s).payload
    · rw [lineages]
      exact fun _ _ hrow => hrow
  | issue fresh _ grants lineages =>
    refine ⟨?_, ?_⟩
    · intro id row hrow
      rw [grants]
      exact ⟨row, get_insert_fresh fresh hrow, rfl, fun hr => hr⟩
    · rw [lineages]
      exact fun _ _ hrow => hrow
  | derive _ _ fresh root grants lineages =>
    refine ⟨?_, ?_⟩
    · intro id row hrow
      rw [grants]
      exact ⟨row, get_insert_fresh fresh hrow, rfl, fun hr => hr⟩
    · intro id row hrow
      rw [lineages]
      exact get_insert_fresh (unlisted root) hrow
  | revoke found grants lineages =>
    refine ⟨?_, ?_⟩
    · intro id row hrow
      rename_i key old time
      rw [grants]
      by_cases hkey : key = id
      · subst hkey
        rw [found] at hrow
        cases hrow
        exact ⟨_, OrdMap.get_insert_self _ _ _, rfl, fun _ => by simp⟩
      · exact ⟨row, by rw [OrdMap.get_insert_ne _ _ hkey]; exact hrow, rfl, fun hr => hr⟩
    · rw [lineages]
      exact fun _ _ hrow => hrow

theorem Steps.lasts (h : Steps D s s') : Lasts s s' := by
  induction h with
  | refl => exact Lasts.refl _
  | step _ step ih => exact ih.trans step.changes.1.lasts

def Revoked (s : Store) (id : String) : Prop :=
  ∃ row, s.grants[id]? = some row ∧ row.revokedAt ≠ none

theorem Revoked.lasts (h : Revoked s id) (hlasts : Lasts s s') : Revoked s' id := by
  obtain ⟨row, hrow, hrevoked⟩ := h
  obtain ⟨row', hrow', -, hrevoked'⟩ := hlasts.payload id row hrow
  exact ⟨row', hrow', hrevoked' hrevoked⟩

variable {org actor : String}

theorem revokeExecutionGrant_revoked (h : s.revokeExecutionGrant E actor org id now = .ok s') :
    Revoked s' id := by
  obtain ⟨row, hrow, ⟨hrevoked, rfl⟩ | ⟨-, rfl⟩⟩ := revokeExecutionGrant_ok h
  · exact ⟨row, hrow, hrevoked⟩
  · exact ⟨_, OrdMap.get_insert_self _ _ _, by simp⟩

/-- The lineage of the first leads to the second, in any number of steps. -/
inductive Below (s : Store) : String → String → Prop where
  | refl (id : String) : Below s id id
  | step {id top : String} {l : DelegatedGrantLineage} (lineage : s.grantLineage id = some l)
      (rest : Below s l.parentGrantId top) : Below s id top

variable {g : ExecutionGrant}

theorem Revoked.not_live (h : Revoked s g.grantId) : ¬ Live s now g := by
  intro hlive
  obtain ⟨row, hrow, hrevoked⟩ := h
  obtain ⟨row', hrow', -, hnone, -⟩ := hlive
  rw [hrow] at hrow'
  cases hrow'
  exact hrevoked hnone

variable {top : String}

theorem Below.not_checked (h : Below s id top) (hrevoked : Revoked s top) (hid : g.grantId = id)
    (hlive : Live s now g) {room : Nat} {visited : List String} :
    s.validateChainFrom D E now room visited g ≠ .ok () := by
  induction h generalizing g room visited with
  | refl =>
    subst hid
    exact absurd hlive hrevoked.not_live
  | step lineage _ ih =>
    intro hchain
    subst hid
    obtain hroot | ⟨l, _, _, parent, hl, -, hlink, hrest⟩ := validateChainFrom_cases hchain
    · rw [lineage] at hroot
      cases hroot
    · rw [lineage] at hl
      cases hl
      obtain ⟨hparent, -⟩ := validateLink_ok hlink
      obtain ⟨hparentId, hparentLive, -⟩ := liveGrant_ok hparent
      exact ih hrevoked hparentId hparentLive hrest

theorem Below.not_validated (h : Below s id top) (hrevoked : Revoked s top)
    (hgrant : s.liveGrant E id now = .ok g) :
    s.validateDelegatedChain D E g now ≠ .ok () := by
  obtain ⟨hid, hlive, -⟩ := liveGrant_ok hgrant
  exact h.not_checked hrevoked hid hlive

variable {team : String} {r : DelegatedGrantRequest}

theorem deriveParent_ok {parent : ExecutionGrant}
    (h : s.deriveParent D E actor org team r now = .ok parent) :
    s.liveGrant E r.parentGrantId now = .ok parent ∧ parent.scope.organizationId = org ∧
      s.validateDelegatedChain D E parent now = .ok () := by
  unfold Store.deriveParent at h
  simp only [bind_eq_ok, failIf_eq_ok, denyIf_eq_ok, requireSharedGrantContext] at h
  obtain ⟨-, -, -, -, -, -, g, hparent, -, hshared, -, -, _, hchain, h⟩ := h
  cases h
  simp only [Bool.or_eq_false_iff, decide_eq_false_iff_not, Decidable.not_not] at hshared
  exact ⟨hparent, hshared.1, hchain⟩

/-- No check passes for the id, nothing is derived from it, and it is not given out again. -/
structure Dead (D : StopBinding → String) (s : Store) (id : String) : Prop where
  notAllowed : ∀ (E : Surroundings) (scope : ExecutionScope) (job : AgentJobSpec) (now : Int),
    s.executionGrantAllows E id scope job now = false
  notAllowedDelegated : ∀ (E : Surroundings) (scope : ExecutionScope) (job : AgentJobSpec)
    (run attempt : String) (now : Int),
    s.delegatedExecutionGrantAllows D E id scope job run attempt now ≠ .ok true
  notDerivedFrom : ∀ (E : Surroundings) (actor org team : String) (r : DelegatedGrantRequest)
    (now : Int), r.parentGrantId = id →
    ∀ x, s.deriveExecutionGrant D E actor org team r now ≠ .ok x
  notDerived : ∀ (E : Surroundings) (actor org team : String) (r : DelegatedGrantRequest)
    (now : Int), r.grantId = id → ∀ x, s.deriveExecutionGrant D E actor org team r now ≠ .ok x
  notIssued : ∀ (E : Surroundings) (actor : String) (grant : ExecutionGrant) (now : Int),
    grant.grantId = id → ∀ s', s.issueExecutionGrant E actor grant now ≠ .ok s'

section
variable (h : Below s id top) (hrevoked : Revoked s top)
include h hrevoked

theorem Below.not_allowed (scope : ExecutionScope) (job : AgentJobSpec) :
    s.executionGrantAllows E id scope job now = false := by
  cases h with
  | refl =>
    obtain ⟨row, hrow, hrow'⟩ := hrevoked
    have hnone : s.liveRow id now = none := by simp [Store.liveRow, hrow, Option.filter, hrow']
    simp [Store.executionGrantAllows, hnone]
  | step lineage => simp [Store.executionGrantAllows, Store.isDelegated, lineage]

theorem Below.not_derived (hid : r.grantId = id)
    (x : (ExecutionGrant × DelegatedGrantLineage) × Store) :
    s.deriveExecutionGrant D E actor org team r now ≠ .ok x := by
  intro hcall
  subst hid
  obtain ⟨parent, -, ⟨_, -, -, -, hgrant, hchain, -⟩ | ⟨hfree, -, hnew, hinsert, -⟩⟩ :=
    deriveExecutionGrant_ok hcall
  · exact h.not_validated hrevoked hgrant hchain
  · have hnewId : x.1.1.grantId = r.grantId := by rw [hnew]
    rw [← hnewId] at hfree
    obtain ⟨hroot, -⟩ := insertDerived_ok hnewId hfree hinsert
    rw [hnewId] at hfree hroot
    cases h with
    | refl =>
      obtain ⟨row, hrow, -⟩ := hrevoked
      rw [hfree] at hrow
      cases hrow
    | step lineage => simp [Store.isDelegated, lineage] at hroot

theorem Below.not_issued {grant : ExecutionGrant} (hid : grant.grantId = id) (s' : Store) :
    s.issueExecutionGrant E actor grant now ≠ .ok s' := by
  intro hcall
  subst hid
  obtain ⟨hroot, hinsert⟩ := issueExecutionGrant_ok hcall
  cases h with
  | refl =>
    obtain ⟨row, hrow, hrow'⟩ := hrevoked
    obtain ⟨-, old, hold, -, hnone⟩ | ⟨hfree, -⟩ := insertExecutionGrant_cases hinsert
    · rw [hrow] at hold
      cases hold
      exact hrow' hnone
    · rw [hfree] at hrow
      cases hrow
  | step lineage => simp [Store.isDelegated, lineage] at hroot

theorem Below.dead :
    Dead D s id where
  notAllowed E scope job now := h.not_allowed hrevoked scope job
  notAllowedDelegated E scope job run attempt now hallows := by
    obtain ⟨_, grant, -, -, -, hgrant, -, -, hchain⟩ := delegatedAllows_iff.mp hallows
    exact h.not_validated hrevoked hgrant hchain
  notDerivedFrom E actor org team r now hparent x hcall := by
    subst hparent
    obtain ⟨parent, hderive, -⟩ := deriveExecutionGrant_ok hcall
    obtain ⟨hgrant, -, hchain⟩ := deriveParent_ok hderive
    exact h.not_validated hrevoked hgrant hchain
  notDerived E actor org team r now hid x := h.not_derived hrevoked hid x
  notIssued E actor grant now hid s' := h.not_issued hrevoked hid s'

end

/-- After a revocation, whatever calls come later, neither the grant nor any below it is allowed,
derived from or given out again. -/
theorem revocation_cascades {actor org top : String} {s₁ s₂ : Store}
    (revokes : s.revokeExecutionGrant E actor org top now = .ok s₁) (later : Steps D s₁ s₂)
    {id : String} (below : Below s₂ id top) : Dead D s₂ id := by
  have hrevoked := revokeExecutionGrant_revoked revokes
  exact below.dead (hrevoked.lasts later.lasts)

namespace Demo

def revoked : Store := { derived .parentLease none with
  grants := (derived .parentLease none).grants.insert "root"
    { root.row with revokedAt := some 30 } }

end Demo

theorem revocation_cascades_child : Dead Demo.digest Demo.revoked "grant" := by
  have hrevokes : (Demo.derived .parentLease none).revokeExecutionGrant Demo.surroundings
      "principal" "org" "root" 30 = .ok Demo.revoked := by decide +kernel
  have hlineage : Demo.revoked.grantLineage "grant" = some (Demo.lineage .parentLease none) := by
    decide +kernel
  exact revocation_cascades hrevokes .refl (.step hlineage (.refl _))

end Tetonic.Control
