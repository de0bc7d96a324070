import Tetonic.Run.Lease
set_option autoImplicit false

/-! The task graph (`dag.rs`): cycle test, dependency policies and the two passes that
move waiting tasks between `Blocked`, `Ready` and `Skipped`. -/

namespace Tetonic.Run
open Lib

/-- `visited` and `stack` of the depth-first search. -/
structure DfsState where
  (visited stack : List TaskId)

/-- The loop over the neighbours of a node, left at the first cycle. -/
def visitEach (visit : TaskId → DfsState → Bool × DfsState) :
    List TaskId → DfsState → Bool × DfsState
  | [], st => (false, st)
  | n :: rest, st =>
    match visit n st with
    | (true, st') => (true, st')
    | (false, st') => visitEach visit rest st'

/-- `dfs`. Every call below the two early returns marks a new node, so the number of nodes
bounds the depth; the fuel is that bound. -/
def dfs (adj : OrdMap TaskId (List TaskId)) : Nat → TaskId → DfsState → Bool × DfsState
  | 0, _, st => (false, st)
  | fuel + 1, node, st =>
    if st.stack.contains node then (true, st)
    else if st.visited.contains node then (false, st)
    else
      match visitEach (dfs adj fuel) (adj[node]?.getD [])
          ⟨node :: st.visited, node :: st.stack⟩ with
      | (true, st') => (true, st')
      | (false, st') => (false, { st' with stack := st'.stack.erase node })

/-- The nodes of the graph: its keys and everything they point to. -/
def graphNodes (adj : OrdMap TaskId (List TaskId)) : List TaskId :=
  adj.toList.flatMap fun e => e.1 :: e.2

def hasCycle (adj : OrdMap TaskId (List TaskId)) : Bool :=
  (visitEach (dfs adj ((graphNodes adj).length + 1)) adj.keys ⟨[], []⟩).1

def adjacency (dependencies : OrdMap TaskId (List TaskDependency)) : OrdMap TaskId (List TaskId) :=
  (dependencies.filter fun _ deps => !deps.isEmpty).map fun _ deps => deps.map (·.dependsOn)

def wouldCreateCycle (dependencies : OrdMap TaskId (List TaskDependency))
    (source target : TaskId) : Bool :=
  if source = target then true
  else
    let adj := adjacency dependencies
    hasCycle (adj.insert source (adj[source]?.getD [] ++ [target]))

def taskIsExecutable : TaskState → Bool
  | .created | .blocked | .ready => true
  | _ => false

def taskIsLocked : TaskState → Bool
  | .leased | .running | .parked => true
  | _ => false

def dependencySatisfied (snapshot : RunSnapshot) (dep : TaskDependency) : Bool :=
  match snapshot.tasks[dep.dependsOn]? with
  | none => false
  | some depTask =>
    match dep.policy with
    | .requireSuccess => decide (depTask.state = .succeeded)
    | .allowPartial | .continueOnFailure =>
      !(taskIsExecutable depTask.state || taskIsLocked depTask.state)
    | .fallbackTask _ => decide (depTask.state = .succeeded ∨ depTask.state = .failed)

def dependenciesSatisfied (snapshot : RunSnapshot) (taskId : TaskId) : Bool :=
  match snapshot.dependencies[taskId]? with
  | none => true
  | some deps => deps.all (dependencySatisfied snapshot)

/-- `if let Some(task) = snapshot.tasks.get_mut(id) { task.state = state }`. -/
def setTaskState (snapshot : RunSnapshot) (id : TaskId) (state : TaskState) : RunSnapshot :=
  { snapshot with tasks := snapshot.tasks.modify id fun task => { task with state := state } }

def taskIs (snapshot : RunSnapshot) (id : TaskId) (p : TaskState → Bool) : Bool :=
  match snapshot.tasks[id]? with
  | some task => p task.state
  | none => false

/-- The body of the inner loop of `apply_dependency_failure`, for one edge of `taskId`. -/
def dependencyFailureEdge (failedTask taskId : TaskId) (snapshot : RunSnapshot)
    (dep : TaskDependency) : RunSnapshot :=
  if dep.dependsOn ≠ failedTask then snapshot
  else
    match dep.policy with
    | .allowPartial | .continueOnFailure =>
      if taskIs snapshot taskId (· = .blocked) ∧ dependenciesSatisfied snapshot taskId then
        setTaskState snapshot taskId .ready
      else snapshot
    | .requireSuccess =>
      if taskIs snapshot taskId (fun st => st = .blocked ∨ st = .created) then
        setTaskState snapshot taskId .skipped
      else snapshot
    | .fallbackTask fallback =>
      if taskIs snapshot taskId (fun st => st = .blocked ∨ st = .created) then
        let skipped := setTaskState snapshot taskId .skipped
        if taskIs skipped fallback (· = .blocked) then setTaskState skipped fallback .ready
        else skipped
      else snapshot

def applyDependencyFailure (snapshot : RunSnapshot) (failedTask : TaskId) : RunSnapshot :=
  snapshot.dependencies.toList.foldl
    (fun s e => e.2.foldl (dependencyFailureEdge failedTask e.1) s) snapshot

/-- The body of the loop of `recompute_blocked_ready`. -/
def recomputeTask (snapshot : RunSnapshot) (taskId : TaskId) : RunSnapshot :=
  if taskIs snapshot taskId taskIsExecutable then
    if dependenciesSatisfied snapshot taskId then setTaskState snapshot taskId .ready
    else setTaskState snapshot taskId .blocked
  else snapshot

def recomputeBlockedReady (snapshot : RunSnapshot) : RunSnapshot :=
  snapshot.tasks.keys.foldl recomputeTask snapshot

/-- A waiting task moved to another state a task can have before it is leased. -/
def TaskRecord.rescheduled (before after : TaskRecord) : Prop :=
  after = before ∨
    taskIsExecutable before.state = true ∧
      ∃ st, (st = .ready ∨ st = .blocked ∨ st = .skipped) ∧ after = { before with state := st }

theorem TaskRecord.rescheduled.eq {task task' : TaskRecord} (h : task.rescheduled task') :
    ∃ state, task' = { task with state } := by
  rcases h with rfl | ⟨-, state, -, rfl⟩
  · exact ⟨task'.state, rfl⟩
  · exact ⟨state, rfl⟩

/-- All that the graph passes do to a snapshot: the states of waiting tasks change. -/
structure Rescheduled (s t : RunSnapshot) : Prop where
  rest : t = { s with tasks := t.tasks }
  size : t.tasks.size = s.tasks.size
  missing : ∀ k : TaskId, s.tasks[k]? = none → t.tasks[k]? = none
  present : ∀ (k : TaskId) (task : TaskRecord), s.tasks[k]? = some task →
    ∃ task', t.tasks[k]? = some task' ∧ task.rescheduled task'

theorem TaskRecord.rescheduled_trans {a b c : TaskRecord} (hab : a.rescheduled b)
    (hbc : b.rescheduled c) : a.rescheduled c := by
  rcases hab with rfl | ⟨ha, st, hst, rfl⟩
  · exact hbc
  · rcases hbc with rfl | ⟨-, st', hst', rfl⟩
    · exact .inr ⟨ha, st, hst, rfl⟩
    · exact .inr ⟨ha, st', hst', rfl⟩

theorem Rescheduled.refl (s : RunSnapshot) : Rescheduled s s where
  rest := rfl
  size := rfl
  missing _ h := h
  present _ task h := ⟨task, h, .inl rfl⟩

theorem Rescheduled.trans {s t u : RunSnapshot} (hst : Rescheduled s t) (htu : Rescheduled t u) :
    Rescheduled s u where
  rest := by
    rw [htu.rest, hst.rest]
  size := htu.size.trans hst.size
  missing k h := htu.missing k (hst.missing k h)
  present k task h := by
    obtain ⟨task', h', hr⟩ := hst.present k task h
    obtain ⟨task'', h'', hr'⟩ := htu.present k task' h'
    exact ⟨task'', h'', TaskRecord.rescheduled_trans hr hr'⟩

theorem Rescheduled.before {s t : RunSnapshot} (h : Rescheduled s t) {k : TaskId}
    {task : TaskRecord} (hk : t.tasks[k]? = some task) :
    ∃ old, s.tasks[k]? = some old ∧ old.rescheduled task :=
  OrdMap.get_before h.missing h.present hk

theorem Rescheduled.foldl {α : Type} (f : RunSnapshot → α → RunSnapshot)
    (hf : ∀ s a, Rescheduled s (f s a)) (l : List α) (s : RunSnapshot) :
    Rescheduled s (l.foldl f s) := by
  induction l generalizing s with
  | nil => exact Rescheduled.refl s
  | cons a rest ih => exact (hf s a).trans (ih (f s a))

theorem taskIs_iff {snapshot : RunSnapshot} {id : TaskId} {p : TaskState → Bool} :
    taskIs snapshot id p = true ↔
      ∃ task, snapshot.tasks[id]? = some task ∧ p task.state = true := by
  unfold taskIs
  cases snapshot.tasks[id]? with
  | none | some => simp

theorem setTaskState_rescheduled {s : RunSnapshot} {id : TaskId} {task : TaskRecord}
    {st : TaskState} (hid : s.tasks[id]? = some task) (he : taskIsExecutable task.state = true)
    (hst : st = .ready ∨ st = .blocked ∨ st = .skipped) :
    Rescheduled s (setTaskState s id st) where
  rest := rfl
  size := Std.ExtTreeMap.size_modify
  missing k h := by
    simp [setTaskState, OrdMap.get_modify, h]
  present k before h := by
    by_cases hk : id = k
    · subst hk
      rw [hid, Option.some.injEq] at h
      subst h
      exact ⟨{ task with state := st }, by simp [setTaskState, hid], .inr ⟨he, st, hst, rfl⟩⟩
    · exact ⟨before, by simp [setTaskState, OrdMap.get_modify, hk, h], .inl rfl⟩

theorem dependencyFailureEdge_rescheduled (failedTask taskId : TaskId) (s : RunSnapshot)
    (dep : TaskDependency) :
    Rescheduled s (dependencyFailureEdge failedTask taskId s dep) := by
  have skip : ∀ {s' : RunSnapshot} {id : TaskId} {p : TaskState → Bool} {st : TaskState},
      taskIs s' id p = true → (∀ x, p x = true → taskIsExecutable x = true) →
      (st = .ready ∨ st = .blocked ∨ st = .skipped) → Rescheduled s' (setTaskState s' id st) := by
    intro s' id p st hp hx hst
    obtain ⟨task, hid, hstate⟩ := taskIs_iff.mp hp
    exact setTaskState_rescheduled hid (hx _ hstate) hst
  have hwait : ∀ x : TaskState, decide (x = .blocked ∨ x = .created) = true →
      taskIsExecutable x = true := by
    intro x hx
    cases x <;> simp_all [taskIsExecutable]
  have hblocked : ∀ x : TaskState, decide (x = .blocked) = true → taskIsExecutable x = true := by
    intro x hx
    cases x <;> simp_all [taskIsExecutable]
  unfold dependencyFailureEdge
  split
  · exact Rescheduled.refl s
  · split
    · split
      · exact skip (by simp_all) hblocked (by simp)
      · exact Rescheduled.refl s
    · split
      · exact skip (by simp_all) hblocked (by simp)
      · exact Rescheduled.refl s
    · split
      · exact skip ‹_› hwait (by simp)
      · exact Rescheduled.refl s
    · split
      · dsimp only
        have h1 := skip ‹_› hwait (.inr (.inr rfl))
        split
        · exact h1.trans (skip ‹_› hblocked (by simp))
        · exact h1
      · exact Rescheduled.refl s

theorem applyDependencyFailure_rescheduled (s : RunSnapshot) (failedTask : TaskId) :
    Rescheduled s (applyDependencyFailure s failedTask) := by
  refine Rescheduled.foldl _ (fun s' e => ?_) _ _
  exact Rescheduled.foldl _ (fun s'' dep => dependencyFailureEdge_rescheduled _ _ s'' dep) _ _

theorem recomputeBlockedReady_rescheduled (s : RunSnapshot) :
    Rescheduled s (recomputeBlockedReady s) := by
  refine Rescheduled.foldl _ (fun s' id => ?_) _ _
  unfold recomputeTask
  split
  · obtain ⟨task, hid, he⟩ := taskIs_iff.mp ‹_›
    split
    all_goals exact setTaskState_rescheduled hid he (by simp)
  · exact Rescheduled.refl s'

end Tetonic.Run
