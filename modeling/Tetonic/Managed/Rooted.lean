import Tetonic.Managed.Activation
set_option autoImplicit false

/-! The root of a run. Whatever overtakes what, every snapshot of a run goes back to its one
creation and keeps the binding of the root task. -/

namespace Tetonic.Run
open Lib

variable {P : Platform} {p q u : RunSnapshot}

/-- The tasks of one snapshot are tasks of the other, under the same bindings. -/
def Continues (p q : RunSnapshot) : Prop :=
  ∀ (k : TaskId) (task : TaskRecord), p.tasks[k]? = some task →
    ∃ task', q.tasks[k]? = some task' ∧ task'.binding.undated = task.binding.undated

theorem Continues.refl (p : RunSnapshot) : Continues p p := fun _ task h => ⟨task, h, rfl⟩

theorem Continues.trans (hpq : Continues p q) (hqu : Continues q u) : Continues p u := by
  intro k task hk
  obtain ⟨task', hk', heq'⟩ := hpq k task hk
  obtain ⟨task'', hk'', heq''⟩ := hqu k task' hk'
  exact ⟨task'', hk'', heq''.trans heq'⟩

theorem SameCore.continues (h : SameCore p q) : Continues p q := by
  intro k task hk
  have ht := h.tasks k
  rw [hk, Option.map_some, Option.map_eq_some_iff] at ht
  obtain ⟨task', hk', heq⟩ := ht
  exact ⟨task', hk', congrArg _ (Prod.mk.inj heq).1⟩

theorem applyCommand_continues {command : RunCommand} (h : applyCommand P p command = .ok q) :
    Continues p q := by
  intro k task hk
  obtain ⟨task', hk', hkeep⟩ := (applyCommand_step h).tasks_keep.present k task hk
  exact ⟨task', hk', hkeep.binding⟩

theorem applyAddTask_get {c : AddTask} (h : applyCommand P p (.addTask c) = .ok q) :
    p.tasks[c.taskId]? = none ∧ ∃ task, q.tasks[c.taskId]? = some task := by
  simp only [applyCommand, addTask, bind_eq_ok, ensureRunAcceptsMutations_eq_ok, refuseIf_eq_ok,
    pure_eq_ok, exists_const] at h
  obtain ⟨-, -, -, hid, rfl⟩ := h
  refine ⟨get_none_of_contains_false hid, ?_⟩
  have hr := (recomputeBlockedReady_rescheduled
    { p with tasks := p.tasks.insert c.taskId (newTask c.taskId c.binding) }).tasksIdle
  obtain ⟨task, htask, -⟩ := hr.present c.taskId _ (OrdMap.get_insert_self _ _ _)
  exact ⟨task, htask⟩

theorem applyCreateRun_get {c : CreateRun} (h : applyCommand P p (.createRun c) = .ok q) :
    q.tasks[c.rootTaskId]? = some (newTask c.rootTaskId c.rootBinding) := by
  simp only [applyCommand, applyCreateRun, bind_eq_ok, refuseIf_eq_ok, pure_eq_ok,
    exists_const] at h
  obtain ⟨-, rfl⟩ := h
  exact OrdMap.get_insert_self _ _ _

end Tetonic.Run

namespace Tetonic.Managed
open Lib Run

variable {P : Platform} {r : RunId} {κ : Type} {p q : RunSnapshot} {log log' : List RunCommand}

/-- The root task is there, with the binding of a creation in the log. -/
def Rooted (r : RunId) (log : List RunCommand) (p : RunSnapshot) : Prop :=
  ∃ c task, .createRun c ∈ log ∧ p.tasks[rootTaskId r]? = some task ∧
    task.binding.undated = c.rootBinding.undated

theorem Rooted.mono (h : Rooted r log p) (hsub : log ⊆ log') : Rooted r log' p := by
  obtain ⟨c, task, hc, htask, hbinding⟩ := h
  exact ⟨c, task, hsub hc, htask, hbinding⟩

theorem Rooted.continues (h : Rooted r log p) (hpq : Continues p q) : Rooted r log q := by
  obtain ⟨c, task, hc, htask, hbinding⟩ := h
  obtain ⟨task', htask', heq⟩ := hpq _ task htask
  exact ⟨c, task', hc, htask', heq.trans hbinding⟩

/-- What the instances hold and work on is rooted; a creation works on nothing yet. -/
structure RootedIn (r : RunId) (s : Shared κ) : Prop where
  recorded : ∀ command ∈ s.log, ∃ p, s.projection = some p
  projection : ∀ p, s.projection = some p → Rooted r s.log p
  bases : ∀ (i : InstanceId) (a : Activity κ) (base : RunSnapshot), s.hosts[i]? = some a →
    a.basis = some base → Rooted r s.log base ∨
      ∃ caller c next event, a = .serving caller (.createRun c) (.decided base next event)

namespace RootedIn

variable {s s' : Shared κ} {host : InstanceId}

theorem start : RootedIn r ({} : Shared κ) where
  recorded command hc := by cases hc
  projection p hp := by cases hp
  bases i a base ha := by simp at ha

theorem of_hosts (h : RootedIn r s) (hp : s'.projection = s.projection) (hl : s'.log = s.log)
    (hhosts : ∀ (i : InstanceId) (a : Activity κ) (base : RunSnapshot), s'.hosts[i]? = some a →
      a.basis = some base → s.hosts[i]? = some a ∨ s.projection = some base) :
    RootedIn r s' where
  recorded := by
    rw [hp, hl]
    exact h.recorded
  projection p hp' := by
    rw [hl]
    exact h.projection p (hp ▸ hp')
  bases i a base ha hbase := by
    rw [hl]
    rcases hhosts i a base ha hbase with hold | hload
    · exact h.bases i a base hold hbase
    · exact .inl (h.projection base hload)

theorem serve (h : RootedIn r s) {caller : κ} {command : RunCommand}
    (hs : s.serve host caller command = some s') : RootedIn r s' := by
  unfold Shared.serve at hs
  split at hs
  · cases hs
  · cases hs
    refine h.of_hosts rfl rfl fun i a base ha hbase => ?_
    rcases OrdMap.get_insert_cases ha with ⟨-, rfl⟩ | ⟨-, ha⟩
    · cases hbase
    · exact .inl ha

theorem release (h : RootedIn r s) (host : InstanceId) : RootedIn r (s.release host) :=
  h.of_hosts rfl rfl fun _ _ _ ha _ => .inl (OrdMap.get_of_erase ha).2

variable (P) in
theorem restart (h : RootedIn r s) (host : InstanceId) (now : UInt64) :
    RootedIn r (s.restart P host now) := by
  unfold Shared.restart
  cases hstart : startingPass P s.tables now with
  | none => exact h.release host
  | some =>
    obtain ⟨before, snap, hload, -, rfl⟩ := Shared.startingPass_cases hstart
    refine h.of_hosts rfl rfl fun i a base ha hbase => ?_
    rcases OrdMap.get_insert_cases ha with ⟨-, rfl⟩ | ⟨-, ha⟩
    · cases hbase
      exact .inr hload
    · exact .inl ha

theorem move (h : RootedIn r s) (hok : s.Ok P r) (hm : s.Move host s')
    (hcreate : ∀ caller c base next event, s.hosts[host]? =
      some (.serving caller (.createRun c) (.decided base next event)) →
        c.rootTaskId = rootTaskId r) :
    s.log ⊆ s'.log ∧ (∀ command ∈ s'.log, ∃ p, s'.projection = some p) ∧
      ∀ p, s'.projection = some p → Rooted r s'.log p := by
  cases hm with
  | still hp hd hl =>
    rw [hp, hl]
    exact ⟨List.Subset.refl _, h.recorded, h.projection⟩
  | @pass before snap hat hp hd hl =>
    rw [hp, hl]
    refine ⟨List.Subset.refl _, fun _ _ => ⟨_, rfl⟩, fun p heq => ?_⟩
    cases heq
    have hcore := (hok.recovering_stored hat).1
    rcases h.bases host _ before hat rfl with hrooted | ⟨_, _, _, _, heq⟩
    · exact hrooted.continues hcore.continues
    · cases heq
  | @commit caller command base next event hat hnew hp hd hl =>
    rw [hp, hl]
    have hsub : s.log ⊆ s.log ++ [command] := List.subset_append_left _ _
    refine ⟨hsub, fun _ _ => ⟨_, rfl⟩, fun p heq => ?_⟩
    cases heq
    obtain ⟨-, current, applied, eventId, -, -, -, haccept, rfl, -⟩ := hok.hosts host _ hat
    rcases h.bases host _ base hat rfl with hrooted | ⟨caller', c, next', event', heq⟩
    · have hcontinues := applyCommand_continues haccept
      exact (hrooted.mono hsub).continues fun k task hk => hcontinues k task hk
    · cases heq
      have hroot := hcreate _ _ _ _ _ hat
      have hget := applyCreateRun_get haccept
      rw [hroot] at hget
      exact ⟨c, _, List.mem_append_right _ (List.mem_singleton.mpr rfl), hget, rfl⟩

theorem turn (h : RootedIn r s) (hok : s.Ok P r) {env : TurnEnv}
    {ans : Option (κ × RunOutcome RunCommandResult)} (hs : s.turn P host env = some (s', ans))
    (hcreate : ∀ caller c base next event, s.hosts[host]? =
      some (.serving caller (.createRun c) (.decided base next event)) →
        c.rootTaskId = rootTaskId r) : RootedIn r s' := by
  obtain ⟨hsub, hrecorded, hprojection⟩ := h.move hok (hok.turn hs).1 hcreate
  refine ⟨hrecorded, hprojection, fun i a base ha hbase => ?_⟩
  rcases Shared.turn_basis hs ha hbase with hold | ⟨caller, command, next, event, rfl, hload⟩
  · exact (h.bases i a base hold hbase).imp_left fun hrooted => hrooted.mono hsub
  · rcases baseSnapshot_eq_ok.mp hload with ⟨c, rfl, -, -⟩ | ⟨hsome, -⟩
    · exact .inr ⟨caller, c, next, event, rfl⟩
    · exact .inl ((h.projection base hsome).mono hsub)

end RootedIn

end Tetonic.Managed
