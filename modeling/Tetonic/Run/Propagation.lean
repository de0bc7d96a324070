import Tetonic.Run.Cycles
set_option autoImplicit false

/-! How a failure reaches the tasks that wait for the failed one. `apply_dependency_failure` skips
those that depend on it directly and are blocked or created; it does not go on from a task it
skipped, passes over tasks that are ready, and is not called by `CancelTask` at all. -/

namespace Tetonic.Run
open Lib OrdMap

variable {s t : RunSnapshot} {j : TaskId}
variable {P : Platform}

def DependencyPolicy.skips : DependencyPolicy → Bool
  | .requireSuccess | .fallbackTask _ => true
  | .allowPartial | .continueOnFailure => false

/-- Both loops of `apply_dependency_failure` as one, over the edges in their order. -/
def failEdges (failed : TaskId) (edges : List (TaskId × TaskDependency)) (s : RunSnapshot) :
    RunSnapshot :=
  edges.foldl (fun s e => dependencyFailureEdge failed e.1 s e.2) s

def dependencyEdges (dependencies : OrdMap TaskId (List TaskDependency)) :
    List (TaskId × TaskDependency) :=
  dependencies.toList.flatMap fun e => e.2.map fun dep => (e.1, dep)

theorem applyDependencyFailure_eq (s : RunSnapshot) (failed : TaskId) :
    applyDependencyFailure s failed = failEdges failed (dependencyEdges s.dependencies) s := by
  unfold applyDependencyFailure failEdges dependencyEdges
  rw [List.foldl_flatMap]
  simp only [List.foldl_map]

variable {k : TaskId} {dep : TaskDependency}

theorem mem_dependencyEdges {dependencies : OrdMap TaskId (List TaskDependency)} :
    (k, dep) ∈ dependencyEdges dependencies ↔ dep ∈ dependencies[k]?.getD [] := by
  simp only [dependencyEdges, List.mem_flatMap, List.mem_map, Prod.mk.injEq]
  refine ⟨?_, ?_⟩
  · intro h
    obtain ⟨e, he, dep', hdep, rfl, rfl⟩ := h
    rw [Std.ExtTreeMap.mem_toList_iff_getElem?_eq_some.mp he]
    exact hdep
  · intro h
    cases hk : dependencies[k]? with
    | none =>
      rw [hk] at h
      cases h
    | some deps =>
      rw [hk] at h
      exact ⟨(k, deps), Std.ExtTreeMap.mem_toList_iff_getElem?_eq_some.mpr hk, dep, h, rfl, rfl⟩

/-- What the body of the loop for the edge `dep` of `k` does to the task `j`. -/
inductive EdgeMove (s : RunSnapshot) (failed k : TaskId) (dep : TaskDependency) (j : TaskId) :
    TaskRecord → TaskRecord → Prop where
  | keep {r : TaskRecord} : EdgeMove s failed k dep j r r
  | release {r : TaskRecord} (hblocked : r.state = .blocked)
      (hsat : dependenciesSatisfied s j = true) :
      EdgeMove s failed k dep j r { r with state := .ready }
  | fallback {r : TaskRecord} (hblocked : r.state = .blocked)
      (hdep : dep = ⟨failed, .fallbackTask j⟩) :
      EdgeMove s failed k dep j r { r with state := .ready }
  | skip {r : TaskRecord} (hidle : r.state = .blocked ∨ r.state = .created) (hk : k = j)
      (hdep : dep.dependsOn = failed) (hskips : dep.policy.skips = true) :
      EdgeMove s failed k dep j r { r with state := .skipped }

variable {r : TaskRecord}

theorem setTaskState_get (hr : s.tasks[j]? = some r) (k : TaskId) (st : TaskState) :
    (setTaskState s k st).tasks[j]? = some (if k = j then { r with state := st } else r) := by
  unfold setTaskState
  dsimp only
  rw [get_modify, hr]
  split <;> rfl

theorem dependencyFailureEdge_move (failed k : TaskId) (dep : TaskDependency)
    (hr : s.tasks[j]? = some r) :
    ∃ r', (dependencyFailureEdge failed k s dep).tasks[j]? = some r' ∧
      EdgeMove s failed k dep j r r' := by
  have hstate : ∀ {p : TaskState → Bool}, taskIs s j p = true → p r.state = true := by
    intro p hp
    obtain ⟨r', hr', hp⟩ := taskIs_iff.mp hp
    rw [hr] at hr'
    cases hr'
    exact hp
  have hrelease : taskIs s k (· = .blocked) = true ∧ dependenciesSatisfied s k = true →
      ∃ r', (setTaskState s k .ready).tasks[j]? = some r' ∧ EdgeMove s failed k dep j r r' := by
    intro h
    refine ⟨_, setTaskState_get hr k .ready, ?_⟩
    split
    · rename_i hk
      subst hk
      exact .release (of_decide_eq_true (hstate h.1)) h.2
    · exact .keep
  have hskip : dep.dependsOn = failed → dep.policy.skips = true →
      taskIs s k (fun st => st = .blocked ∨ st = .created) = true →
      EdgeMove s failed k dep j r (if k = j then { r with state := .skipped } else r) := by
    intro hdep hskips h
    split
    · rename_i hk
      subst hk
      exact .skip (of_decide_eq_true (hstate h)) rfl hdep hskips
    · exact .keep
  unfold dependencyFailureEdge
  split
  · exact ⟨r, hr, .keep⟩
  · rename_i hdep
    rw [not_not] at hdep
    cases hpolicy : dep.policy with
    | allowPartial | continueOnFailure =>
      dsimp only
      split
      · exact hrelease ‹_›
      · exact ⟨r, hr, .keep⟩
    | requireSuccess =>
      dsimp only
      split
      · exact ⟨_, setTaskState_get hr k .skipped, hskip hdep (by rw [hpolicy]; rfl) ‹_›⟩
      · exact ⟨r, hr, .keep⟩
    | fallbackTask f =>
      dsimp only
      split
      · have hmove := hskip hdep (by rw [hpolicy]; rfl) ‹_›
        have hget := setTaskState_get hr k .skipped
        split
        · rename_i hf
          refine ⟨_, setTaskState_get hget f .ready, ?_⟩
          by_cases hfj : f = j
          · subst hfj
            obtain ⟨r', hr', hblocked⟩ := taskIs_iff.mp hf
            rw [hget] at hr'
            cases hr'
            rw [if_pos rfl]
            -- A task that is its own fallback has just been skipped, and is not blocked.
            by_cases hk : k = f
            · rw [if_pos hk] at hblocked
              cases hblocked
            · rw [if_neg hk] at hblocked ⊢
              exact .fallback (of_decide_eq_true hblocked) (by rw [← hdep, ← hpolicy])
          · rw [if_neg hfj]
            exact hmove
        · exact ⟨_, hget, hmove⟩
      · exact ⟨r, hr, .keep⟩

variable {failed : TaskId}

theorem dependencyFailureEdge_skips (hr : s.tasks[k]? = some r)
    (hidle : r.state = .blocked ∨ r.state = .created) (hdep : dep.dependsOn = failed)
    (hskips : dep.policy.skips = true) :
    (dependencyFailureEdge failed k s dep).tasks[k]? = some { r with state := .skipped } := by
  have hwaits : taskIs s k (fun st => st = .blocked ∨ st = .created) = true :=
    taskIs_iff.mpr ⟨r, hr, decide_eq_true hidle⟩
  have hget := setTaskState_get hr k .skipped
  rw [if_pos rfl] at hget
  unfold dependencyFailureEdge
  rw [if_neg (not_not.mpr hdep)]
  cases hpolicy : dep.policy with
  | allowPartial | continueOnFailure =>
    rw [hpolicy] at hskips
    cases hskips
  | requireSuccess =>
    dsimp only
    rw [if_pos hwaits]
    exact hget
  | fallbackTask f =>
    dsimp only
    rw [if_pos hwaits]
    split
    · rename_i hf
      rw [setTaskState_get hget f .ready, if_neg]
      intro hfk
      subst hfk
      obtain ⟨r', hr', hblocked⟩ := taskIs_iff.mp hf
      rw [hget] at hr'
      cases hr'
      cases hblocked
    · exact hget

section
variable (failed : TaskId) (edges : List (TaskId × TaskDependency)) (hr : s.tasks[j]? = some r)
include hr

/-- Over all edges a task stays, or is made ready, or is skipped: the last only if it was blocked
or created and has an edge that skips. -/
theorem failEdges_move :
    ∃ r', (failEdges failed edges s).tasks[j]? = some r' ∧
      (r' = r ∨ taskIsExecutable r.state = true ∧ r'.state = .ready ∨
        (r.state = .blocked ∨ r.state = .created) ∧ r'.state = .skipped ∧
          ∃ dep, (j, dep) ∈ edges ∧ dep.dependsOn = failed ∧ dep.policy.skips = true) := by
  induction edges generalizing s r with
  | nil => exact ⟨r, hr, .inl rfl⟩
  | cons e rest ih =>
    obtain ⟨r₁, hr₁, hmove⟩ := dependencyFailureEdge_move failed e.1 e.2 hr
    obtain ⟨r', hr', hrest⟩ := ih hr₁
    refine ⟨r', hr', ?_⟩
    have hready : r.state = .blocked → r₁.state = .ready →
        taskIsExecutable r.state = true ∧ r'.state = .ready := by
      intro hblocked hstate
      refine ⟨by rw [hblocked]; rfl, ?_⟩
      obtain rfl | ⟨-, hready⟩ | ⟨hidle, -⟩ := hrest
      · exact hstate
      · exact hready
      · rw [hstate] at hidle
        simp at hidle
    cases hmove with
    | keep =>
      obtain rfl | hready | ⟨hidle, hskipped, dep, hdep, hskips⟩ := hrest
      · exact .inl rfl
      · exact .inr (.inl hready)
      · exact .inr (.inr ⟨hidle, hskipped, dep, List.mem_cons_of_mem e hdep, hskips⟩)
    | release hblocked | fallback hblocked => exact .inr (.inl (hready hblocked rfl))
    | skip hidle hk hdep hskips =>
      refine .inr (.inr ⟨hidle, ?_, e.2, ?_, hdep, hskips⟩)
      · obtain rfl | ⟨hexec, -⟩ | ⟨hidle', -⟩ := hrest
        · rfl
        · cases hexec
        · simp at hidle'
      · rw [← hk]
        exact List.mem_cons_self

theorem failEdges_skipped (hstate : r.state = .skipped) :
    ∃ r', (failEdges failed edges s).tasks[j]? = some r' ∧ r'.state = .skipped := by
  obtain ⟨r', hr', rfl | ⟨hexec, -⟩ | ⟨-, hskipped, -⟩⟩ := failEdges_move failed edges hr
  · exact ⟨r', hr', hstate⟩
  · rw [hstate] at hexec
    cases hexec
  · exact ⟨r', hr', hskipped⟩

end

/-- The loop skips a blocked or created task that has an edge that skips, unless another edge makes
it ready first: as a fallback, or because its dependencies are satisfied, which they are not while
it requires the success of a task that has not succeeded. -/
theorem failEdges_skips {edges : List (TaskId × TaskDependency)} {d : TaskId}
    (hr : s.tasks[j]? = some r) (hidle : r.state = .blocked ∨ r.state = .created)
    (hedge : (j, dep) ∈ edges) (hdep : dep.dependsOn = failed) (hskips : dep.policy.skips = true)
    (hfall : ∀ k, (k, ⟨failed, .fallbackTask j⟩) ∉ edges)
    (hrequires : ⟨d, .requireSuccess⟩ ∈ s.dependencies[j]?.getD [])
    (hopen : ∀ target, s.tasks[d]? = some target → target.state ≠ .succeeded) :
    ∃ r', (failEdges failed edges s).tasks[j]? = some r' ∧ r'.state = .skipped := by
  induction edges generalizing s r with
  | nil => cases hedge
  | cons e rest ih =>
    by_cases hhere : (j, dep) = e
    · subst hhere
      exact failEdges_skipped failed rest (dependencyFailureEdge_skips hr hidle hdep hskips) rfl
    · have hlater : (j, dep) ∈ rest := (List.mem_cons.mp hedge).resolve_left hhere
      obtain ⟨r₁, hr₁, hmove⟩ := dependencyFailureEdge_move failed e.1 e.2 hr
      cases hmove with
      | keep =>
        have hresched := dependencyFailureEdge_rescheduled failed e.1 s e.2
        refine ih hr₁ hidle hlater (fun k hk => hfall k (List.mem_cons_of_mem e hk)) ?_ ?_
        · dsimp only
          rw [hresched.rest]
          exact hrequires
        · intro target htarget hsucceeded
          obtain ⟨before, hbefore, rfl | ⟨-, st, hst, rfl⟩⟩ := hresched.before htarget
          · exact hopen _ hbefore hsucceeded
          · dsimp only at hsucceeded
            rw [hsucceeded] at hst
            simp at hst
      | release hblocked hsat =>
        have hdepSat := (dependenciesSatisfied_iff s j).mp hsat _ hrequires
        rw [dependencySatisfied_eq, Option.any_eq_true] at hdepSat
        obtain ⟨target, htarget, hsucceeded⟩ := hdepSat
        exact absurd (of_decide_eq_true hsucceeded) (hopen target htarget)
      | fallback hblocked he =>
        refine absurd ?_ (hfall e.1)
        rw [← he]
        exact List.mem_cons_self
      | skip => exact failEdges_skipped failed rest hr₁ rfl

/-- A task ended in this state satisfies no dependency that requires its success. -/
def TaskState.dead : TaskState → Bool
  | .failed | .skipped | .canceled => true
  | _ => false

theorem TaskState.dead_not_executable {st : TaskState} (h : st.dead = true) :
    taskIsExecutable st = false := by
  revert h
  cases st <;> decide

def RunSnapshot.Requires (s : RunSnapshot) (k d : TaskId) : Prop :=
  ⟨d, .requireSuccess⟩ ∈ s.dependencies[k]?.getD []

def RunSnapshot.NoneStranded (s : RunSnapshot) : Prop :=
  ∀ (k d : TaskId) (task target : TaskRecord), s.tasks[k]? = some task →
    taskIsExecutable task.state = true → s.Requires k d → s.tasks[d]? = some target →
    target.state.dead = false

/-- The failure of `failed` skips the task `k`: it is blocked or created, and has an edge that
skips. -/
def SkippedWith (s : RunSnapshot) (failed k : TaskId) : Prop :=
  ∃ (task : TaskRecord) (dep : TaskDependency), s.tasks[k]? = some task ∧
    (task.state = .blocked ∨ task.state = .created) ∧ dep ∈ s.dependencies[k]?.getD [] ∧
    dep.dependsOn = failed ∧ dep.policy.skips = true

/-- The failure of `failed` makes it impossible for `k` to run: `k` requires its success, or that
of a task skipped with it. -/
def StrandedBy (s : RunSnapshot) (failed k : TaskId) : Prop :=
  s.Requires k failed ∨ ∃ d, SkippedWith s failed d ∧ s.Requires k d

/-- Every waiting task that the failure of `failed` strands is skipped with it, and is no fallback
for it. -/
def FailureAbsorbed (s : RunSnapshot) (failed : TaskId) : Prop :=
  ∀ (k : TaskId) (task : TaskRecord), s.tasks[k]? = some task →
    taskIsExecutable task.state = true → StrandedBy s failed k →
    SkippedWith s failed k ∧
      ∀ j : TaskId, ⟨failed, .fallbackTask k⟩ ∉ s.dependencies[j]?.getD []

theorem TaskRecord.recomputed_executable (ok : Bool) (task : TaskRecord) :
    taskIsExecutable (task.recomputed ok).state = taskIsExecutable task.state := by
  unfold TaskRecord.recomputed
  split
  · rename_i hexec
    rw [hexec]
    cases ok <;> rfl
  · rfl

theorem TaskRecord.recomputed_dead (ok : Bool) (task : TaskRecord) :
    (task.recomputed ok).state.dead = task.state.dead := by
  unfold TaskRecord.recomputed
  split
  · rename_i hexec
    have hlive : task.state.dead = false := by
      by_contra hdead
      rw [Bool.not_eq_false] at hdead
      rw [TaskState.dead_not_executable hdead] at hexec
      cases hexec
    rw [hlive]
    cases ok <;> rfl
  · rfl

variable {task : TaskRecord}

theorem Rescheduled.executable_before (h : Rescheduled s t) (hk : t.tasks[k]? = some task)
    (hexec : taskIsExecutable task.state = true) :
    ∃ before, s.tasks[k]? = some before ∧ taskIsExecutable before.state = true := by
  obtain ⟨before, hbefore, rfl | ⟨hwas, -⟩⟩ := h.before hk
  · exact ⟨task, hbefore, hexec⟩
  · exact ⟨before, hbefore, hwas⟩

theorem RunSnapshot.NoneStranded.recompute (hs : s.NoneStranded) :
    (recomputeBlockedReady s).NoneStranded := by
  intro k d task target hk hwaits hrequires hd
  rw [recomputeBlockedReady_get, Option.map_eq_some_iff] at hk hd
  obtain ⟨old, hold, rfl⟩ := hk
  obtain ⟨oldTarget, holdTarget, rfl⟩ := hd
  rw [TaskRecord.recomputed_executable] at hwaits
  rw [TaskRecord.recomputed_dead]
  refine hs k d old oldTarget hold hwaits ?_ holdTarget
  rw [recomputeBlockedReady_eq] at hrequires
  exact hrequires

section
variable {old new : TaskRecord}

/-- One task changes. If it is waiting only now, it requires no dead task; if it is dead only now,
no waiting task requires it. -/
theorem RunSnapshot.NoneStranded.update (hs : s.NoneStranded) (hold : s.tasks[j]? = some old)
    (hdeps : t.dependencies = s.dependencies) (htasks : t.tasks = s.tasks.insert j new)
    (hwaits : taskIsExecutable new.state = true → taskIsExecutable old.state = true ∨
      ∀ (d : TaskId) (target : TaskRecord), s.Requires j d → s.tasks[d]? = some target →
        target.state.dead = false) (hdead : new.state.dead = true → old.state.dead = true ∨
      ∀ (k : TaskId) (task : TaskRecord), s.tasks[k]? = some task →
        taskIsExecutable task.state = true → ¬ s.Requires k j) : t.NoneStranded := by
  intro k d task target hk hexec hrequires hd
  rw [RunSnapshot.Requires, hdeps] at hrequires
  rw [htasks] at hk hd
  by_contra hended
  rw [Bool.not_eq_false] at hended
  obtain ⟨rfl, rfl⟩ | ⟨-, hk⟩ := get_insert_cases hk
  · obtain ⟨rfl, rfl⟩ | ⟨-, hd⟩ := get_insert_cases hd
    · rw [TaskState.dead_not_executable hended] at hexec
      cases hexec
    · obtain hwas | hfree := hwaits hexec
      · rw [hs j d old target hold hwas hrequires hd] at hended
        cases hended
      · rw [hfree d target hrequires hd] at hended
        cases hended
  · obtain ⟨rfl, rfl⟩ | ⟨-, hd⟩ := get_insert_cases hd
    · obtain hwas | hfree := hdead hended
      · rw [hs k j task old hk hexec hrequires hold] at hwas
        cases hwas
      · exact hfree k task hk hexec hrequires
    · rw [hs k d task target hk hexec hrequires hd] at hended
      cases hended

theorem RunSnapshot.NoneStranded.insert_new (hs : s.NoneStranded) (hgraph : s.GraphSound)
    (hnone : s.tasks[j]? = none) (hdeps : t.dependencies = s.dependencies)
    (htasks : t.tasks = s.tasks.insert j new) : t.NoneStranded := by
  intro k d task target hk hexec hrequires hd
  rw [RunSnapshot.Requires, hdeps] at hrequires
  have hedge : DependsOn s.dependencies k d := ⟨_, hrequires, rfl⟩
  have hsource := hgraph.source k d hedge
  have htarget := hgraph.target k d hedge
  rw [htasks] at hk hd
  obtain ⟨rfl, -⟩ | ⟨-, hk⟩ := get_insert_cases hk
  · rw [hnone] at hsource
    cases hsource
  · obtain ⟨rfl, -⟩ | ⟨-, hd⟩ := get_insert_cases hd
    · rw [hnone] at htarget
      cases htarget
    · exact hs k d task target hk hexec hrequires hd

theorem FailureAbsorbed.skips (h : FailureAbsorbed s j) (hdeps : t.dependencies = s.dependencies)
    (htasks : t.tasks = s.tasks.insert j new) (hnew : new.state = .failed) (hne : j ≠ k)
    (hk : s.tasks[k]? = some task) (hexec : taskIsExecutable task.state = true)
    (hstranded : StrandedBy s j k) :
    ∃ r, (applyDependencyFailure t j).tasks[k]? = some r ∧ r.state = .skipped := by
  obtain ⟨⟨r, dep, hr, hidle, hdep, hj, hskips⟩, hfall⟩ := h k task hk hexec hstranded
  have hopen : ∃ d, s.Requires k d ∧
      ∀ target, t.tasks[d]? = some target → target.state ≠ .succeeded := by
    obtain hrequires | ⟨d, ⟨target, -, htarget, hwaiting, -⟩, hrequires⟩ := hstranded
    · refine ⟨j, hrequires, ?_⟩
      intro target htarget
      rw [htasks, get_insert_self] at htarget
      cases htarget
      rw [hnew]
      simp
    · refine ⟨d, hrequires, ?_⟩
      intro target' htarget'
      rw [htasks] at htarget'
      obtain ⟨rfl, rfl⟩ | ⟨-, htarget'⟩ := get_insert_cases htarget'
      · rw [hnew]
        simp
      · rw [htarget] at htarget'
        cases htarget'
        obtain hwaiting | hwaiting := hwaiting
        all_goals
          rw [hwaiting]
          simp
  obtain ⟨d, hrequires, hopen⟩ := hopen
  rw [applyDependencyFailure_eq, hdeps]
  refine failEdges_skips ?_ hidle (mem_dependencyEdges.mpr hdep) hj hskips ?_ ?_ hopen
  · rw [htasks, get_insert_ne _ _ hne]
    exact hr
  · intro i hi
    exact hfall i (mem_dependencyEdges.mp hi)
  · rw [hdeps]
    exact hrequires

theorem RunSnapshot.NoneStranded.failure (hs : s.NoneStranded) (h : FailureAbsorbed s j)
    (hdeps : t.dependencies = s.dependencies) (htasks : t.tasks = s.tasks.insert j new)
    (hnew : new.state = .failed) :
    (applyDependencyFailure t j).NoneStranded := by
  intro k d task target hk hexec hrequires hd
  have hresched := applyDependencyFailure_rescheduled t j
  rw [RunSnapshot.Requires, hresched.rest] at hrequires
  dsimp only at hrequires
  rw [hdeps] at hrequires
  obtain ⟨before, hbefore, hwas⟩ := hresched.executable_before hk hexec
  have hne : j ≠ k := by
    intro hjk
    subst hjk
    rw [htasks, get_insert_self] at hbefore
    cases hbefore
    rw [hnew] at hwas
    cases hwas
  rw [htasks, get_insert_ne _ _ hne] at hbefore
  -- A task the failure strands is skipped, and `k` is not.
  have hfree : ¬ StrandedBy s j k := by
    intro hstranded
    obtain ⟨r, hr, hskipped⟩ := h.skips hdeps htasks hnew hne hbefore hwas hstranded
    rw [hk] at hr
    cases hr
    rw [hskipped] at hexec
    cases hexec
  cases hd₀ : t.tasks[d]? with
  | none =>
    rw [hresched.missing d hd₀] at hd
    cases hd
  | some target₀ =>
    obtain ⟨r, hr, hmove⟩ := failEdges_move j (dependencyEdges t.dependencies) hd₀
    rw [← applyDependencyFailure_eq, hd] at hr
    cases hr
    rw [htasks] at hd₀
    obtain rfl | ⟨-, hready⟩ | ⟨hidle, -, dep, hdep, hj, hskips⟩ := hmove
    · obtain ⟨rfl, -⟩ | ⟨-, hd₀⟩ := get_insert_cases hd₀
      · exact absurd (.inl hrequires) hfree
      · exact hs k d before target hbefore hwas hrequires hd₀
    · rw [hready]
      rfl
    · obtain ⟨rfl, rfl⟩ | ⟨-, hd₀⟩ := get_insert_cases hd₀
      · rw [hnew] at hidle
        simp at hidle
      · rw [mem_dependencyEdges, hdeps] at hdep
        exact absurd (.inr ⟨d, ⟨target₀, dep, hd₀, hidle, hdep, hj, hskips⟩, hrequires⟩) hfree

end

/-- No task is canceled, and none skipped, while a task that is not skipped with it waits for its
success; and no task starts to wait for the success of a dead one. -/
structure PropagationSuffices (s : RunSnapshot) (e : RunEvent) : Prop where
  cancel : ∀ c : CancelTask, e = .command (.cancelTask c) →
    ∀ (k : TaskId) (task : TaskRecord), s.tasks[k]? = some task →
      taskIsExecutable task.state = true → ¬ s.Requires k c.taskId
  edge : ∀ (c : AddDependency) (task target : TaskRecord), e = .command (.addDependency c) →
    c.policy = .requireSuccess → s.tasks[c.taskId]? = some task →
    taskIsExecutable task.state = true → s.tasks[c.dependsOn]? = some target →
    target.state.dead = false
  retry : ∀ (id : AttemptId) (a : AttemptRecord) (failure : FailureClass),
    e.Fails s id a failure → willRetry s a.taskId failure = true →
    ∀ (d : TaskId) (target : TaskRecord), s.Requires a.taskId d → s.tasks[d]? = some target →
      target.state.dead = false
  giveUp : ∀ (id : AttemptId) (a : AttemptRecord) (failure : FailureClass),
    e.Fails s id a failure → willRetry s a.taskId failure = false → FailureAbsorbed s a.taskId

theorem addDependency_noneStranded {c : AddDependency}
    (hc : PropagationSuffices s (.command (.addDependency c))) (hs : s.NoneStranded) :
    RunSnapshot.NoneStranded { s with
      dependencies := s.dependencies.insert c.taskId
        (s.dependencies[c.taskId]?.getD [] ++ [⟨c.dependsOn, c.policy⟩]) } := by
  intro k d task target hk hexec hrequires hd
  unfold RunSnapshot.Requires at hrequires
  dsimp only at hk hd hrequires
  rw [get_insert] at hrequires
  split at hrequires
  · rename_i heq
    subst heq
    rw [Option.getD_some, List.mem_append, List.mem_singleton, TaskDependency.mk.injEq] at hrequires
    obtain hrequires | ⟨rfl, hpolicy⟩ := hrequires
    · exact hs _ d task target hk hexec hrequires hd
    · exact hc.edge c task target rfl hpolicy.symm hk hexec hd
  · exact hs k d task target hk hexec hrequires hd

variable {e : RunEvent}

theorem Effect.noneStranded (h : Effect s e t) (hgraph : s.GraphSound)
    (hc : PropagationSuffices s e) (hs : s.NoneStranded) :
    t.NoneStranded := by
  cases h with
  | still | adjust => exact hs
  | createRun hempty =>
    exact hs.insert_new hgraph (get_eq_none_of_isEmpty _ hempty _) rfl rfl
  | startRun => exact RunSnapshot.NoneStranded.recompute hs
  | addTask hid => exact RunSnapshot.NoneStranded.recompute (hs.insert_new hgraph hid rfl rfl)
  | addDependency => exact (addDependency_noneStranded hc hs).recompute
  | @markReady c task htask hstate =>
    refine hs.update htask rfl rfl ?_ (by simp [TaskState.dead])
    obtain hstate | hstate := hstate
    all_goals
      rw [hstate]
      exact fun _ => .inl rfl
  | @createAttempt c a task index htask =>
    refine hs.update htask rfl rfl ?_ ?_
    · dsimp only
      split
      · simp [taskIsExecutable]
      · exact .inl
    · dsimp only
      split
      · simp [TaskState.dead]
      · exact .inl
  | claimExecution ha hstate htask | suspend ha hstate hsame hsuspended htask
  | resume ha hstate hsame hstarting htask | accept ha hstate hid htask =>
    exact hs.update htask rfl rfl (by simp [taskIsExecutable]) (by simp [TaskState.dead])
  | claimFinalization htask | complete ha hfly hsame hsucceeded htask | note htask =>
    exact hs.update htask rfl rfl .inl .inl
  | @failed _ id a failure _ hfails hhandled =>
    cases hhandled with
    | retry _ _ htask hretry =>
      refine RunSnapshot.NoneStranded.recompute (hs.update htask rfl rfl ?_ ?_)
      · exact fun _ => .inr (hc.retry id a failure hfails hretry)
      · simp [TaskRecord.retried, TaskState.dead]
    | giveUp _ _ _ hretry =>
      have habsorbed := hc.giveUp id a failure hfails hretry
      exact RunSnapshot.NoneStranded.recompute (hs.failure habsorbed rfl rfl rfl)
  | @cancelTask c task htask =>
    refine hs.update htask rfl rfl (by simp [taskIsExecutable]) ?_
    exact fun _ => .inr (hc.cancel c rfl)
  | cancelRun =>
    intro k d task target hk hexec
    dsimp only at hk
    rw [get_map, Option.map_eq_some_iff] at hk
    obtain ⟨old, -, rfl⟩ := hk
    rw [cancelTaskRecord_executable] at hexec
    cases hexec

theorem ReachableWhere.noneStranded (h : ReachableWhere P PropagationSuffices s) :
    s.NoneStranded := by
  refine h.invariant (I := RunSnapshot.NoneStranded) ?_ ?_ ?_
  · intro runId session k d task target hk
    simp [emptySnapshot] at hk
  · intro u sequence events hu
    exact hu
  · intro s u e hreach hc hs heffect
    exact heffect.noneStranded hreach.graphSound hc hs

theorem Rescheduled.ended_before (h : Rescheduled s t) (hk : t.tasks[k]? = some task)
    (hend : task.state = .failed ∨ task.state = .canceled) :
    s.tasks[k]? = some task := by
  obtain ⟨before, hbefore, rfl | ⟨-, st, hst, rfl⟩⟩ := h.before hk
  · exact hbefore
  · obtain rfl | rfl | rfl := hst
    all_goals simp at hend

/-- The event that leaves a task newly failed or canceled cancels it, or ends the run, or is a
failure that is not retried. -/
theorem Effect.ended (h : Effect s e t) {old new : TaskRecord} (hold : s.tasks[k]? = some old)
    (hnew : t.tasks[k]? = some new) (hend : new.state = .failed ∨ new.state = .canceled)
    (hchange : new.state ≠ old.state) :
    (∃ c : CancelTask, e = .command (.cancelTask c) ∧ c.taskId = k) ∨ t.state = .canceled ∨
    ∃ (id : AttemptId) (a : AttemptRecord) (failure : FailureClass) (u : RunSnapshot)
      (failed : TaskRecord), e.Fails s id a failure ∧ a.taskId = k ∧
      willRetry s a.taskId failure = false ∧
      t = recomputeBlockedReady (applyDependencyFailure u k) ∧
      u.dependencies = s.dependencies ∧ u.tasks = s.tasks.insert k failed ∧
      failed.state = .failed := by
  have hdead : new.state.dead = true := by
    obtain hend | hend := hend
    all_goals
      rw [hend]
      rfl
  have hsame : s.tasks[k]? ≠ some new := by
    intro hk
    rw [hold] at hk
    cases hk
    exact hchange rfl
  have hinsert : ∀ {d : TaskId} {r : TaskRecord}, (s.tasks.insert d r)[k]? = some new →
      d = k ∧ r = new := by
    intro d r hr
    obtain hhere | ⟨-, hr⟩ := get_insert_cases hr
    · exact hhere
    · exact absurd hr hsame
  have hkept : ∀ {d : TaskId} {r task : TaskRecord}, s.tasks[d]? = some task →
      r.state = task.state → (s.tasks.insert d r)[k]? ≠ some new := by
    intro d r task htask hstate hr
    obtain ⟨rfl, rfl⟩ := hinsert hr
    rw [hold] at htask
    cases htask
    exact hchange hstate
  have hrecompute : ∀ {u : RunSnapshot}, (recomputeBlockedReady u).tasks[k]? = some new →
      u.tasks[k]? = some new := by
    intro u hu
    exact (recomputeBlockedReady_rescheduled u).ended_before hu hend
  cases h with
  | still | adjust => exact absurd hnew hsame
  | createRun | markReady | claimExecution | suspend | resume | accept =>
    obtain ⟨-, rfl⟩ := hinsert hnew
    cases hdead
  | startRun | addDependency => exact absurd (hrecompute hnew) hsame
  | addTask =>
    obtain ⟨-, rfl⟩ := hinsert (hrecompute hnew)
    cases hdead
  | @createAttempt c a task index htask =>
    by_cases hready : task.state = .ready
    · obtain ⟨-, rfl⟩ := hinsert hnew
      dsimp only at hdead
      rw [if_pos hready] at hdead
      cases hdead
    · exact absurd hnew (hkept htask (if_neg hready))
  | claimFinalization htask | complete ha hfly hsame' hsucceeded htask | note htask =>
    exact absurd hnew (hkept htask rfl)
  | @failed _ id a failure _ hfails hhandled =>
    cases hhandled with
    | retry =>
      obtain ⟨-, rfl⟩ := hinsert (hrecompute hnew)
      cases hdead
    | giveUp _ _ _ hretry =>
      have hbefore := (applyDependencyFailure_rescheduled _ _).ended_before (hrecompute hnew) hend
      obtain ⟨rfl, -⟩ := hinsert hbefore
      exact .inr (.inr ⟨id, a, failure, _, _, hfails, rfl, hretry, rfl, rfl, rfl, rfl⟩)
  | @cancelTask c =>
    obtain ⟨hk, -⟩ := hinsert hnew
    exact .inl ⟨c, rfl, hk⟩
  | cancelRun => exact .inr (.inl rfl)

/-- `j` and the tasks between it and `k` have not started, and each requires the success of the
next. -/
def WaitsOn (s : RunSnapshot) : TaskId → TaskId → Prop :=
  Relation.TransGen fun j d =>
    (∃ task, s.tasks[j]? = some task ∧ taskIsExecutable task.state = true) ∧ s.Requires j d

theorem WaitsOn.dependsOn (h : WaitsOn s j k) :
    Relation.TransGen (DependsOn s.dependencies) j k := by
  refine Relation.TransGen.mono ?_ j k h
  intro a b hedge
  exact ⟨_, hedge.2, rfl⟩

theorem WaitsOn.stranded (h : WaitsOn s j k) (habsorbed : FailureAbsorbed s k) :
    (∃ task, s.tasks[j]? = some task ∧ taskIsExecutable task.state = true) ∧ StrandedBy s k j := by
  induction h using Relation.TransGen.head_induction_on with
  | single hedge => exact ⟨hedge.1, .inl hedge.2⟩
  | head hedge _ ih =>
    obtain ⟨⟨task, htask, hexec⟩, hstranded⟩ := ih
    exact ⟨hedge.1, .inr ⟨_, (habsorbed _ task htask hexec hstranded).1, hedge.2⟩⟩

theorem Occurs.skips_waiting (hgraph : s.GraphSound) (hc : PropagationSuffices s e)
    (ho : Occurs P s e t) (hactive : t.state = .active) {old new : TaskRecord}
    (hold : s.tasks[k]? = some old) (hnew : t.tasks[k]? = some new)
    (hend : new.state = .failed ∨ new.state = .canceled) (hchange : new.state ≠ old.state)
    (hwaits : WaitsOn s j k) :
    ∃ r, t.tasks[j]? = some r ∧ r.state = .skipped := by
  obtain ⟨u, sequence, events, ⟨-, heffect⟩, rfl⟩ := ho.moves
  obtain ⟨c, rfl, rfl⟩ | hcanceled | ⟨id, a, failure, v, failed, hfails, rfl, hretry, rfl, hdeps,
    htasks, hfailed⟩ := heffect.ended hold hnew hend hchange
  · obtain ⟨d, -, hlast⟩ := Relation.TransGen.tail'_iff.mp hwaits
    obtain ⟨⟨task, htask, hexec⟩, hrequires⟩ := hlast
    exact absurd hrequires (hc.cancel c rfl d task htask hexec)
  · rw [show u.state = .active from hactive] at hcanceled
    cases hcanceled
  · have habsorbed := hc.giveUp id a failure hfails hretry
    obtain ⟨⟨task, htask, hexec⟩, hstranded⟩ := hwaits.stranded habsorbed
    have hne : a.taskId ≠ j := by
      intro heq
      have hcycle := hwaits.dependsOn
      rw [heq] at hcycle
      exact hgraph.acyclic ⟨j, hcycle⟩
    obtain ⟨r, hr, hskipped⟩ := habsorbed.skips hdeps htasks hfailed hne htask hexec hstranded
    refine ⟨r, ?_, hskipped⟩
    dsimp only
    rw [recomputeBlockedReady_get, hr, Option.map_some,
      TaskRecord.recomputed_of_not_executable (by rw [hskipped]; rfl)]

/-- In a run where the propagation suffices, no task stays blocked on the success of a task that
failed or was skipped or canceled, and a failure or cancellation skips every task that waits for
it, along chains of any length. -/
theorem failure_propagates (P : Platform) {s : RunSnapshot}
    (h : ReachableWhere P PropagationSuffices s) :
    (∀ (k d : TaskId) (task target : TaskRecord), s.tasks[k]? = some task →
      task.state = .blocked → s.Requires k d → s.tasks[d]? = some target →
      target.state ≠ .failed ∧ target.state ≠ .skipped ∧ target.state ≠ .canceled) ∧
    ∀ (e : RunEvent) (t : RunSnapshot), PropagationSuffices s e → Occurs P s e t →
      t.state = .active → ∀ (k : TaskId) (old new : TaskRecord), s.tasks[k]? = some old →
      t.tasks[k]? = some new → (new.state = .failed ∨ new.state = .canceled) →
      new.state ≠ old.state → ∀ j, WaitsOn s j k →
      ∃ r, t.tasks[j]? = some r ∧ r.state = .skipped := by
  refine ⟨?_, ?_⟩
  · intro k d task target hk hblocked hrequires hd
    have hlive := h.noneStranded k d task target hk (by rw [hblocked]; rfl) hrequires hd
    refine ⟨?_, ?_, ?_⟩
    all_goals
      intro hstate
      rw [hstate] at hlive
      cases hlive
  · intro e t hc ho hactive k old new hold hnew hend hchange j hwaits
    exact ho.skips_waiting h.graphSound hc hactive hold hnew hend hchange hwaits

namespace Demo

def skippedTest (s : RunSnapshot) (failed k : TaskId) : Bool :=
  taskHas k (fun task => decide (task.state = .blocked ∨ task.state = .created)) s &&
    (s.dependencies[k]?.getD []).any fun dep =>
      decide (dep.dependsOn = failed) && dep.policy.skips

/-- The condition on a command, where a failing task requires nothing itself, nothing is canceled,
no fallback is named, and waiting tasks require the failing task only. -/
def propagationTest (s : RunSnapshot) : RunCommand → Bool
  | .addDependency c => taskHas c.dependsOn (fun task => !task.state.dead) s
  | .failAttempt c => s.attempts[c.attemptId]?.all fun a =>
      (s.dependencies[a.taskId]?.getD []).isEmpty &&
      (dependencyEdges s.dependencies).all fun e =>
        skippedTest s a.taskId e.1 && decide (e.2 = ⟨a.taskId, .requireSuccess⟩)
  | .cancelTask _ | .expireLease _ | .rejectArtifact _ => false
  | _ => true

theorem skippedTest_sound (h : skippedTest s failed k = true) : SkippedWith s failed k := by
  simp only [skippedTest, Bool.and_eq_true, List.any_eq_true, decide_eq_true_eq] at h
  obtain ⟨hidle, dep, hdep, hfailed, hskips⟩ := h
  obtain ⟨task, htask, hidle⟩ := taskHas_iff.mp hidle
  exact ⟨task, dep, htask, of_decide_eq_true hidle, hdep, hfailed, hskips⟩

theorem propagationTest_fails {c : RunCommand} (h : propagationTest s c = true) {id : AttemptId}
    {a : AttemptRecord} {failure : FailureClass}
    (hfails : RunEvent.Fails (.command c) s id a failure) :
    s.dependencies[a.taskId]?.getD [] = [] ∧
      ∀ (k : TaskId) (dep : TaskDependency), dep ∈ s.dependencies[k]?.getD [] →
        SkippedWith s a.taskId k ∧ dep = ⟨a.taskId, .requireSuccess⟩ := by
  have hevent := hfails.event
  cases c with
  | failAttempt =>
    cases hevent
    simp only [propagationTest, hfails.attempt, Option.all_some, Bool.and_eq_true,
      List.isEmpty_iff, List.all_eq_true, decide_eq_true_eq] at h
    refine ⟨h.1, ?_⟩
    intro k dep hdep
    obtain ⟨hskipped, heq⟩ := h.2 (k, dep) (mem_dependencyEdges.mpr hdep)
    exact ⟨skippedTest_sound hskipped, heq⟩
  | expireLease | rejectArtifact => cases h
  | _ => cases hevent

theorem propagationTest_suffices (s : RunSnapshot) (c : RunCommand)
    (h : propagationTest s c = true) : PropagationSuffices s (.command c) := by
  refine ⟨?_, ?_, ?_, ?_⟩
  · intro c' he
    cases he
    cases h
  · intro c' task target he _ _ _ htarget
    cases he
    obtain ⟨r, hr, hlive⟩ := taskHas_iff.mp h
    rw [htarget] at hr
    cases hr
    simpa using hlive
  · intro id a failure hfails _ d target hrequires
    obtain ⟨hempty, -⟩ := propagationTest_fails h hfails
    rw [RunSnapshot.Requires, hempty] at hrequires
    cases hrequires
  · intro id a failure hfails _ k task _ _ hstranded
    obtain ⟨-, hall⟩ := propagationTest_fails h hfails
    refine ⟨?_, ?_⟩
    · obtain hrequires | ⟨d, -, hrequires⟩ := hstranded
      all_goals exact (hall k _ hrequires).1
    · intro j hfall
      have hpolicy := (hall j _ hfall).2
      cases hpolicy

def failTask : RunCommand := failAttempt "a" .permanentExecutionFailure

end Demo
open Demo

theorem failure_propagates_second :
    ∃ s t, ReachableWhere platform PropagationSuffices s ∧ WaitsOn s "second" "task" ∧
      Occurs platform s (.command failTask) t ∧
      ∃ r, t.tasks["second"]? = some r ∧ r.state = .skipped := by
  have hs := ran_reachableWhere propagationTest_suffices [createRun, Demo.addTask "second",
    addDependency "second" "task" .requireSuccess, startRun, createAttempt "a",
    leaseAttempt "a" 1 500] (by decide +kernel) rfl
  exact ⟨_, _, hs, .single ⟨⟨_, rfl, rfl⟩, List.mem_singleton_self _⟩, occurs failTask rfl,
    (failure_propagates platform hs).2 _ _ (propagationTest_suffices _ failTask (by decide +kernel))
      (occurs failTask rfl) rfl "task" _ _ rfl rfl (.inl rfl) (by simp) "second"
      (.single ⟨⟨_, rfl, rfl⟩, List.mem_singleton_self _⟩)⟩

/-- A chain of three tasks: the first fails, the second is skipped, and the third stays blocked on
it. -/
theorem failure_stops_at_skipped :
    ∃ s task target, Reachable platform s ∧ s.state = .active ∧
      s.tasks["third"]? = some task ∧ task.state = .blocked ∧ s.Requires "third" "second" ∧
      s.tasks["second"]? = some target ∧ target.state = .skipped := by
  have hs := ran_reachable [createRun, Demo.addTask "second", Demo.addTask "third",
    addDependency "second" "task" .requireSuccess, addDependency "third" "second" .requireSuccess,
    startRun, createAttempt "a", leaseAttempt "a" 1 500,
    failAttempt "a" .permanentExecutionFailure] (by with_unfolding_all rfl)
  exact ⟨_, _, _, hs, rfl, rfl, rfl, List.mem_singleton_self _, rfl, rfl⟩

end Tetonic.Run
