import Tetonic.Control.Revocation
set_option autoImplicit false

/-! Work authority is bound to the stop generations it was issued under. Generations only grow, so a
stop on one of its scopes ends it for good, whether or not the stop is cleared. -/

namespace Tetonic.Control
open Lib Run Store

variable {D : StopBinding → String} {s s' : Store} {E : Surroundings} {now : Int}

variable {n : Nat}

theorem foldr_max_le_iff {l : List Nat} : l.foldr max 0 ≤ n ↔ ∀ x ∈ l, x ≤ n := by
  induction l with
  | nil => simp
  | cons x l ih => simp [ih]

variable {id org : String} {kind : ScopeKind}

theorem stopGeneration_le_iff :
    s.stopGeneration org kind id ≤ n ↔
      ∀ c ∈ s.stops, c.isOn org kind id = true → c.generation ≤ n := by
  unfold stopGeneration
  rw [foldr_max_le_iff, List.forall_mem_map]
  simp

theorem le_stopGeneration {c : ControlStop} (hc : c ∈ s.stops) (hon : c.isOn org kind id = true) :
    c.generation ≤ s.stopGeneration org kind id :=
  stopGeneration_le_iff.mp (Nat.le_refl _) c hc hon

theorem clearOn_isOn (org id org' id' : String) (kind kind' : ScopeKind) (c : ControlStop) :
    (clearOn org kind id c).isOn org' kind' id' = c.isOn org' kind' id' := by
  unfold clearOn
  split <;> rfl

theorem clearOn_generation (org id : String) (kind : ScopeKind) (c : ControlStop) :
    (clearOn org kind id c).generation = c.generation := by
  unfold clearOn
  split <;> rfl

def Advances (s s' : Store) : Prop :=
  ∀ org kind id, s.stopGeneration org kind id ≤ s'.stopGeneration org kind id

theorem advances_of_clearOn {more : List ControlStop}
    (h : s'.stops = s.stops.map (clearOn org kind id) ++ more) : Advances s s' := by
  intro org' kind' id'
  rw [stopGeneration_le_iff]
  intro c hc hon
  have hmem : clearOn org kind id c ∈ s'.stops := by
    rw [h]
    exact List.mem_append_left _ (List.mem_map_of_mem hc)
  have hle : (clearOn org kind id c).generation ≤ s'.stopGeneration org' kind' id' :=
    le_stopGeneration hmem ((clearOn_isOn ..).trans hon)
  rwa [clearOn_generation] at hle

variable {x : ControlStop × List String} {mode : StopMode} {reason actor : String}

section
variable (h : s.requestControlStopWithRuns E actor org kind id mode reason = .ok (x, s'))
include h

theorem requestControlStop_stops :
    s'.stops = s.stops.map (clearOn org kind id) ++
      [⟨org, kind, id, mode, s.stopGeneration org kind id + 1, reason, actor, false⟩] := by
  obtain ⟨rfl, -⟩ := requestControlStop_ok h
  rfl

theorem requestControlStop_advances :
    s.stopGeneration org kind id < s'.stopGeneration org kind id := by
  have hstops := requestControlStop_stops h
  have hmem : ⟨org, kind, id, mode, s.stopGeneration org kind id + 1, reason, actor, false⟩ ∈
      s'.stops := by
    rw [hstops]
    exact List.mem_append_right _ List.mem_cons_self
  exact le_stopGeneration hmem (by simp [ControlStop.isOn])

end

theorem Step.advances (h : Step D s s') : Advances s s' := by
  obtain ⟨-, hsame | ⟨_, _, _, more, hstops, -⟩⟩ := h.changes
  · intro org kind id
    have hequal : s'.stopGeneration org kind id = s.stopGeneration org kind id := by
      unfold stopGeneration
      rw [hsame]
    exact Nat.le_of_eq hequal.symm
  · exact advances_of_clearOn hstops

theorem Steps.advances (h : Steps D s s') : Advances s s' := by
  induction h with
  | refl => exact fun _ _ _ => Nat.le_refl _
  | step _ step ih =>
    exact fun org kind id => Nat.le_trans (ih org kind id) (step.advances org kind id)

variable {scopes : List (ScopeKind × String)}

theorem generations_ok {b : StopBinding} (h : s.generations org scopes = .ok b) :
    b = scopes.map fun scope => (scope.1, scope.2, s.stopGeneration org scope.1 scope.2) := by
  induction scopes generalizing b with
  | nil =>
    cases h
    rfl
  | cons scope rest ih =>
    unfold generations at h
    simp only [bind_eq_ok, denyIf_eq_ok] at h
    obtain ⟨-, -, others, hothers, h⟩ := h
    cases h
    rw [ih hothers]
    rfl

variable {child parent : AgentJobSpec} {l : DelegatedGrantLineage}

theorem delegationStopBinding_ok {binding : String}
    (h : s.delegationStopBinding D E l parent child = .ok binding) :
    ∃ scopes, s.delegationScopes E l parent child = .ok scopes ∧
      binding = D ((scopeSet scopes).map fun scope =>
        (scope.1, scope.2, s.stopGeneration l.orgId scope.1 scope.2)) := by
  unfold delegationStopBinding at h
  simp only [bind_eq_ok] at h
  obtain ⟨scopes, hscopes, generations, hgenerations, h⟩ := h
  cases h
  exact ⟨scopes, hscopes, congrArg D (generations_ok hgenerations)⟩

theorem binding_generation (hD : Function.Injective D) {parent' child' : AgentJobSpec}
    {E' : Surroundings} {binding : String}
    (h : s.delegationStopBinding D E l parent child = .ok binding)
    (hscopes : s.delegationScopes E l parent child = .ok scopes)
    (h' : s'.delegationStopBinding D E' l parent' child' = .ok binding)
    (hin : (kind, id) ∈ scopes) :
    s'.stopGeneration l.orgId kind id = s.stopGeneration l.orgId kind id := by
  obtain ⟨_, hscopes₁, hbinding⟩ := delegationStopBinding_ok h
  rw [hscopes] at hscopes₁
  cases hscopes₁
  obtain ⟨scopes', -, hbinding'⟩ := delegationStopBinding_ok h'
  have hequal := hD (hbinding.symm.trans hbinding')
  have hmem : (kind, id, s.stopGeneration l.orgId kind id) ∈ (scopeSet scopes').map fun scope =>
      (scope.1, scope.2, s'.stopGeneration l.orgId scope.1 scope.2) := by
    rw [← hequal]
    exact List.mem_map.mpr ⟨(kind, id), mem_scopeSet.mpr hin, rfl⟩
  obtain ⟨scope, -, heq⟩ := List.mem_map.mp hmem
  simp only [Prod.mk.injEq] at heq
  obtain ⟨rfl, rfl, hgeneration⟩ := heq
  exact hgeneration

def OnlyDenies {α : Type} (x : Result α) : Prop := ∀ e, x = .error e → e = .controlAccessDenied

variable {α : Type}

theorem onlyDenies_ok (a : α) : OnlyDenies (.ok a : Result α) := by
  intro e h
  cases h

theorem onlyDenies_orDeny (o : Option α) : OnlyDenies (orDeny o) := by
  intro e h
  cases o with
  | none => exact (Except.error.inj h).symm
  | some => cases h

theorem onlyDenies_denyIf (condition : Bool) : OnlyDenies (denyIf condition) := by
  intro e h
  cases condition with
  | false => cases h
  | true => exact (Except.error.inj h).symm

variable {β : Type} {f : α → Result β}

theorem OnlyDenies.bind {x : Result α} (hx : OnlyDenies x) (hf : ∀ a, x = .ok a → OnlyDenies
    (f a)) : OnlyDenies (x >>= f) := by
  cases x with
  | error =>
    intro e' h
    exact hx e' (by rw [← Except.error.inj h])
  | ok a => exact hf a rfl

theorem OnlyDenies.bind_deny {x : Result α} (hx : OnlyDenies x) (hf : ∀ a, x = .ok a → f a = deny) :
    x >>= f = deny := by
  cases x with
  | error e => exact congrArg Except.error (hx e rfl)
  | ok a => exact hf a rfl

theorem onlyDenies_ancestorsFrom (org team : String) (room : Nat) (found : List String)
    (next : String) : OnlyDenies (s.ancestorsFrom org team room found next) := by
  induction room generalizing found next with
  | zero => exact onlyDenies_orDeny none
  | succ room ih =>
    unfold ancestorsFrom
    split
    · exact onlyDenies_orDeny none
    · split
      · exact onlyDenies_ok _
      · exact ih _ _
      · exact onlyDenies_orDeny none

theorem onlyDenies_workScopes (org team : String) (ids : List String) :
    OnlyDenies (s.workScopes org team ids) := by
  induction ids with
  | nil => exact onlyDenies_ok _
  | cons id rest ih =>
    unfold workScopes
    exact (onlyDenies_orDeny _).bind fun work _ => ih.bind fun others _ => onlyDenies_ok _

theorem onlyDenies_generations (org : String) (scopes : List (ScopeKind × String)) :
    OnlyDenies (s.generations org scopes) := by
  induction scopes with
  | nil => exact onlyDenies_ok _
  | cons scope rest ih =>
    unfold generations
    exact (onlyDenies_denyIf _).bind fun _ _ => ih.bind fun others _ => onlyDenies_ok _

theorem onlyDenies_liveGrant (id : String) : OnlyDenies (s.liveGrant E id now) := by
  unfold liveGrant
  refine (onlyDenies_orDeny _).bind fun row _ => ?_
  refine (onlyDenies_denyIf _).bind fun _ _ => ?_
  exact (onlyDenies_denyIf _).bind fun _ _ => onlyDenies_ok _

theorem onlyDenies_delegationStopBinding
    (hparent : (E.agentKey l.orgId parent.identityId).isSome = true)
    (hchild : (E.agentKey l.orgId child.identityId).isSome = true) :
    OnlyDenies (s.delegationStopBinding D E l parent child) := by
  have hkey : ∀ {job : AgentJobSpec}, (E.agentKey l.orgId job.identityId).isSome = true →
      OnlyDenies (agentKeyOf E l.orgId job) := by
    intro job hjob
    obtain ⟨key, hkey⟩ := Option.isSome_iff_exists.mp hjob
    simp only [agentKeyOf, hkey]
    exact onlyDenies_ok _
  have hscopes : OnlyDenies (s.delegationScopes E l parent child) := by
    unfold delegationScopes
    refine (onlyDenies_ancestorsFrom _ _ _ _ _).bind fun ancestors _ => ?_
    refine (onlyDenies_workScopes _ _ _).bind fun works _ => ?_
    exact (hkey hparent).bind fun _ _ => (hkey hchild).bind fun _ _ => onlyDenies_ok _
  unfold delegationStopBinding
  exact hscopes.bind fun scopes _ => (onlyDenies_generations _ _).bind fun _ _ => onlyDenies_ok _

theorem delegatedAllows_of_binding (hl : s.grantLineage id = some l)
    (hlifetime : l.lifetime = .parentWork)
    (horg : ∀ g : ExecutionGrant, Live s now g → g.grantId = id ∨ g.grantId = l.parentGrantId →
      g.scope.organizationId = l.orgId) (hbinding : ∀ parent child binding,
      s.delegationStopBinding D E l parent child = .ok binding → l.stopBinding ≠ some binding)
    (scope : ExecutionScope) (job : AgentJobSpec) (run attempt : String) :
    s.delegatedExecutionGrantAllows D E id scope job run attempt now = .ok false := by
  have hkey : ∀ {key : String} {g : ExecutionGrant}, s.liveGrant E key now = .ok g →
      key = id ∨ key = l.parentGrantId → (E.agentKey l.orgId g.job.identityId).isSome = true := by
    intro key g hg hwhich
    obtain ⟨rfl, hlive, hregistered⟩ := liveGrant_ok hg
    rw [horg g hlive hwhich] at hregistered
    simp only [Surroundings.registered, Bool.and_eq_true] at hregistered
    exact hregistered.1
  have hlink : ∀ g, s.liveGrant E id now = .ok g → s.validateLink D E l g now = deny := by
    intro g hg
    unfold validateLink
    refine (onlyDenies_liveGrant _).bind_deny fun parent hparent => ?_
    have hkeys := onlyDenies_delegationStopBinding (s := s) (D := D) (hkey hparent (.inr rfl))
      (hkey hg (.inl rfl))
    have hstop : s.validateStopBinding D E l parent.job g.job = deny := by
      unfold validateStopBinding
      simp only [hlifetime]
      refine hkeys.bind_deny fun binding hb => ?_
      simp [hbinding _ _ binding hb, denyIf, failIf, deny]
    rw [hstop]
    rfl
  have hcheck : s.checkDelegated D E id scope job run attempt now = deny := by
    unfold checkDelegated
    rw [hl]
    refine (onlyDenies_denyIf _).bind_deny fun _ _ => ?_
    refine (onlyDenies_liveGrant _).bind_deny fun g hg => ?_
    refine (onlyDenies_denyIf _).bind_deny fun _ _ => ?_
    have hchain : s.validateDelegatedChain D E g now = deny := by
      obtain ⟨rfl, -⟩ := liveGrant_ok hg
      unfold validateDelegatedChain validateChainFrom
      simp only [hl, List.not_mem_nil, if_false, hlink g hg]
      rfl
    rw [hchain]
    rfl
  unfold delegatedExecutionGrantAllows delegatedExecutionGrantLifetime
  rw [hcheck]
  rfl

theorem Lasts.live {g : ExecutionGrant} (h : Lasts s s') {row : GrantRow}
    (hrow : s.grants[g.grantId]? = some row) (hlive : Live s' now g) : g = row.payload := by
  obtain ⟨row', hrow', hpayload, -⟩ := h.payload _ row hrow
  obtain ⟨row'', hrow'', rfl, -⟩ := hlive
  rw [hrow'] at hrow''
  cases hrow''
  exact hpayload

/-- A grant of work authority as its issue leaves it: bound to the generations at that time, with
the grant and its parent's in the store. -/
structure BoundGrant (D : StopBinding → String) (s s₁ : Store) (E : Surroundings)
    (grant parent : ExecutionGrant) (l : DelegatedGrantLineage) : Prop where
  lifetime : l.lifetime = .parentWork
  lineage : s₁.grantLineage grant.grantId = some l
  parentId : l.parentGrantId = parent.grantId
  binding : ∃ binding, l.stopBinding = some binding ∧
    s.delegationStopBinding D E l parent.job grant.job = .ok binding
  row : ∃ row, s₁.grants[grant.grantId]? = some row ∧ row.payload = grant
  parentRow : ∃ row, s₁.grants[parent.grantId]? = some row ∧ row.payload = parent
  org : grant.scope.organizationId = l.orgId
  parentOrg : parent.scope.organizationId = l.orgId

theorem deriveExecutionGrant_bound {team : String} {r : DelegatedGrantRequest}
    {grant parent : ExecutionGrant} {s₁ : Store}
    (derives : s.deriveExecutionGrant D E actor org team r now = .ok ((grant, l), s₁))
    (new : s.derivedFor org team r.requestId = none) (lifetime : r.lifetime = .parentWork)
    (source : s.liveGrant E r.parentGrantId now = .ok parent) :
    grant.grantId = r.grantId ∧ l.orgId = org ∧ BoundGrant D s s₁ E grant parent l := by
  obtain ⟨parent', hderive, ⟨_, hsome, -⟩ | ⟨hfree, hlineage, hgrant, hinsert, -⟩⟩ :=
    deriveExecutionGrant_ok derives
  · rw [new] at hsome
    cases hsome
  obtain ⟨hparent, hparentOrg, -⟩ := deriveParent_ok hderive
  rw [source] at hparent
  cases hparent
  simp only at hgrant hinsert hlineage
  have hid : grant.grantId = r.grantId := by rw [hgrant]
  rw [← hid] at hfree
  obtain ⟨-, hs₁⟩ := insertDerived_ok hid hfree hinsert
  obtain ⟨hlifetime, horg, hparentId, -, hbound⟩ := newLineage_ok hlineage
  obtain ⟨hsourceId, ⟨row, hrow, hpayload, -⟩, -⟩ := liveGrant_ok source
  have hjob : grant.job = r.job := by rw [hgrant]
  have hlasts : Lasts s s₁ := (Step.changes (D := D) (.derives derives)).1.lasts
  obtain ⟨row', hrow', hpayload', -⟩ := hlasts.payload _ row hrow
  refine ⟨hid, horg, ⟨hlifetime.trans lifetime, ?_, hparentId.trans hsourceId.symm, ?_, ?_,
    ?_, ?_, ?_⟩⟩
  · rw [hs₁, grantLineage, OrdMap.get_insert_self]
    rfl
  · rw [hjob]
    exact hbound lifetime
  · rw [hs₁]
    exact ⟨_, OrdMap.get_insert_self _ _ _, rfl⟩
  · exact ⟨row', hrow', hpayload'.trans hpayload⟩
  · rw [hgrant, horg]
    exact hparentOrg
  · rw [horg]
    exact hparentOrg

/-- Once a stop was requested on a scope that a grant of work authority was bound to when it was
issued, the grant is not allowed again, whatever stops are cleared or requested after. -/
theorem stopped_work_stays_stopped (injective : Function.Injective D) {actor org team : String}
    {r : DelegatedGrantRequest} {grant parent : ExecutionGrant} {l : DelegatedGrantLineage}
    {s₁ s₂ s₃ s₄ : Store}
    (derives : s.deriveExecutionGrant D E actor org team r now = .ok ((grant, l), s₁))
    (new : s.derivedFor org team r.requestId = none) (lifetime : r.lifetime = .parentWork)
    {scopes : List (ScopeKind × String)} (source : s.liveGrant E r.parentGrantId now = .ok parent)
    (bound : s.delegationScopes E l parent.job grant.job = .ok scopes) {kind : ScopeKind}
    {id : String} (inBinding : (kind, id) ∈ scopes) (between : Steps D s₁ s₂) {E' : Surroundings}
    {actor' reason : String} {mode : StopMode} {x : ControlStop × List String}
    (stops : s₂.requestControlStopWithRuns E' actor' org kind id mode reason = .ok (x, s₃))
    (later : Steps D s₃ s₄) (E'' : Surroundings) (scope : ExecutionScope) (job : AgentJobSpec)
    (run attempt : String) (time : Int) :
    s₄.delegatedExecutionGrantAllows D E'' grant.grantId scope job run attempt time =
      .ok false := by
  obtain ⟨-, rfl, hgrant⟩ := deriveExecutionGrant_bound derives new lifetime source
  obtain ⟨binding, hstored, hbinding⟩ := hgrant.binding
  have hlasts : Lasts s₁ s₄ :=
    (between.lasts.trans (Step.changes (D := D) (.stops stops)).1.lasts).trans later.lasts
  have hlineage : s₄.grantLineage grant.grantId = some l := by
    obtain ⟨row, hrow, rfl⟩ := Option.map_eq_some_iff.mp hgrant.lineage
    simp [grantLineage, hlasts.lineage _ row hrow]
  refine delegatedAllows_of_binding hlineage hgrant.lifetime ?_ ?_ scope job run attempt
  · -- the rows of the grant and of its parent are the ones of the issue
    intro g hlive hwhich
    obtain hid | hid := hwhich
    · obtain ⟨row, hrow, hpayload⟩ := hgrant.row
      rw [hlasts.live (hid ▸ hrow) hlive, hpayload]
      exact hgrant.org
    · obtain ⟨row, hrow, hpayload⟩ := hgrant.parentRow
      rw [hlasts.live ((hid.trans hgrant.parentId) ▸ hrow) hlive, hpayload]
      exact hgrant.parentOrg
  · -- an equal binding would have the scope's generation at the issue, and there is a later one
    intro p c b hb hequal
    rw [hstored] at hequal
    cases hequal
    have hsame := binding_generation injective hbinding bound hb inBinding
    have hissue := (Step.derives derives : Step D s s₁).advances l.orgId kind id
    have hbetween := between.advances l.orgId kind id
    have hstop := requestControlStop_advances stops
    have hlater := later.advances l.orgId kind id
    omega

namespace Demo

theorem letters_injective {word word' rest rest' : List Char}
    (h : (word.flatMap fun c => ['+', c]) ++ '.' :: rest =
      (word'.flatMap fun c => ['+', c]) ++ '.' :: rest') : word = word' ∧ rest = rest' := by
  induction word generalizing word' with
  | nil =>
    cases word' with
    | nil => simpa using h
    | cons => simp at h
  | cons c word ih =>
    cases word' with
    | nil => simp at h
    | cons =>
      simp only [List.flatMap_cons, List.cons_append, List.nil_append, List.cons.injEq,
        true_and] at h
      obtain ⟨rfl, rfl⟩ := ih h.2
      exact ⟨by rw [h.1], rfl⟩

theorem spell_injective : Function.Injective spell := by
  intro words
  induction words with
  | nil =>
    intro words' h
    cases words' with
    | nil => rfl
    | cons => simp [spell] at h
  | cons word words ih =>
    intro words' h
    cases words' with
    | nil => simp [spell] at h
    | cons =>
      simp only [spell, List.flatMap_cons, List.append_assoc, List.cons_append,
        List.nil_append] at h
      obtain ⟨rfl, hrest⟩ := letters_injective h
      rw [ih hrest]

theorem text_injective : Function.Injective ScopeKind.text := by
  intro a b h
  cases a <;> cases b <;> first | rfl | simp [ScopeKind.text] at h

theorem digest_injective : Function.Injective digest := by
  intro a b h
  have hwords := spell_injective (String.ofList_injective h)
  clear h
  induction a generalizing b with
  | nil =>
    cases b with
    | nil => rfl
    | cons => simp at hwords
  | cons e a ih =>
    cases b with
    | nil => simp at hwords
    | cons e' =>
      simp only [List.flatMap_cons, List.cons_append, List.nil_append, List.cons.injEq] at hwords
      obtain ⟨hkind, hid, hgeneration, hrest⟩ := hwords
      have hequal : e = e' := by
        refine Prod.ext (text_injective (String.toList_injective hkind)) ?_
        refine Prod.ext (String.toList_injective hid) ?_
        simpa using congrArg List.length hgeneration
      rw [hequal, ih hrest]

def binding : String :=
  digest [(.agent, "child", 0), (.agent, "parent", 0), (.goal, "goal", 0), (.org, "org", 0),
    (.team, "team", 0), (.work, "child", 0), (.work, "work", 0)]

def bound : Store := derived .parentWork (some binding)

def agentStop (cleared : Bool) : ControlStop :=
  ⟨"org", .agent, "child", .estop, 1, "reason", "principal", cleared⟩

end Demo
open Demo

theorem stopped_work_stays_stopped_cleared :
    ({ bound with stops := [agentStop true] } : Store).delegatedExecutionGrantAllows
      digest surroundings "grant" scope grant.job "run" "attempt" 20 =
        .ok false := by
  have hderives : issued.deriveExecutionGrant digest surroundings "principal" "org"
      "team" (request .parentWork) 10 =
        .ok ((grant, lineage .parentWork (some binding)), bound) := by
    decide +kernel
  have hscopes : issued.delegationScopes surroundings
      (lineage .parentWork (some binding)) root.job grant.job =
        .ok [(.org, "org"), (.team, "team"), (.work, "child"), (.work, "work"), (.goal, "goal"),
          (.agent, "parent"), (.agent, "child")] := rfl
  have hstops : bound.requestControlStopWithRuns surroundings "principal" "org" .agent
      "child" .estop "reason" =
        .ok ((agentStop false, []), { bound with stops := [agentStop false] }) := rfl
  have hclears : ({ bound with stops := [agentStop false] } : Store).clearControlStop
      surroundings "principal" "org" .agent "child" =
        .ok { bound with stops := [agentStop true] } := rfl
  exact stopped_work_stays_stopped digest_injective hderives rfl rfl rfl hscopes
    (by simp) .refl hstops
    (Steps.refl.step (.clears hclears)) _ _ _ _ _ _

end Tetonic.Control
