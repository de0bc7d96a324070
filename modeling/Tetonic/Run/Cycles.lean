import Tetonic.Lib.Digraph
import Tetonic.Run.Events
set_option autoImplicit false

/-! The task graph has no cycles (`would_create_cycle`). The search comes to an end on every graph
because each call below its early returns marks a node that was not marked before. -/

namespace Tetonic.Run
open Lib Lib.Digraph

def neighbors (adj : OrdMap TaskId (List TaskId)) (node : TaskId) : List TaskId :=
  adj[node]?.getD []

def DfsState.marks (st : DfsState) : Marks TaskId := ⟨st.visited, st.stack⟩

section
variable {adj : OrdMap TaskId (List TaskId)}

theorem mem_neighbors {a b : TaskId} : b ∈ neighbors adj a ↔ ∃ ns, adj[a]? = some ns ∧ b ∈ ns := by
  unfold neighbors
  cases adj[a]? with
  | none | some => simp

theorem mem_graphNodes_of_neighbor {a b : TaskId}
    (h : b ∈ neighbors adj a) : b ∈ graphNodes adj := by
  obtain ⟨ns, hns, hb⟩ := mem_neighbors.mp h
  refine List.mem_flatMap.mpr ⟨(a, ns), ?_, List.mem_cons_of_mem a hb⟩
  exact Std.ExtTreeMap.mem_toList_iff_getElem?_eq_some.mpr hns

theorem mem_graphNodes_of_key {a : TaskId} (h : a ∈ adj.keys) : a ∈ graphNodes adj := by
  obtain ⟨ns, hns⟩ := Option.isSome_iff_exists.mp
    (Std.ExtTreeMap.mem_iff_isSome_getElem?.mp (Std.ExtTreeMap.mem_keys.mp h))
  refine List.mem_flatMap.mpr ⟨(a, ns), ?_, List.mem_cons_self⟩
  exact Std.ExtTreeMap.mem_toList_iff_getElem?_eq_some.mpr hns

end

section
variable {adj : OrdMap TaskId (List TaskId)}

theorem visitEach_visits {fuel : Nat}
    (hdfs : ∀ (node : TaskId) (st : DfsState), node ∈ graphNodes adj →
      fresh (graphNodes adj) st.visited < fuel →
      Visits (neighbors adj) [node] st.marks (dfs adj fuel node st).1
        (dfs adj fuel node st).2.marks)
    (ns : List TaskId) (st : DfsState) (hns : ∀ n ∈ ns, n ∈ graphNodes adj)
    (hfuel : fresh (graphNodes adj) st.visited < fuel) :
    Visits (neighbors adj) ns st.marks (visitEach (dfs adj fuel) ns st).1
      (visitEach (dfs adj fuel) ns st).2.marks := by
  induction ns generalizing st with
  | nil => exact .nil _
  | cons n rest ih =>
    have hn := hdfs n st (hns n List.mem_cons_self) hfuel
    unfold visitEach
    cases hvisit : dfs adj fuel n st with
    | mk found st' =>
      rw [hvisit] at hn
      cases found with
      | true => exact hn.cons_true
      | false =>
        refine hn.cons_false (ih st' ?_ ?_)
        · intro k hk
          exact hns k (List.mem_cons_of_mem n hk)
        · exact Nat.lt_of_le_of_lt (fresh_mono (hn.kept rfl).2) hfuel

theorem dfs_visits (fuel : Nat) (node : TaskId) (st : DfsState) (hnode : node ∈ graphNodes adj)
    (hfuel : fresh (graphNodes adj) st.visited < fuel) :
    Visits (neighbors adj) [node] st.marks (dfs adj fuel node st).1
      (dfs adj fuel node st).2.marks := by
  induction fuel generalizing node st with
  | zero => exact absurd hfuel (Nat.not_lt_zero _)
  | succ fuel ih =>
    unfold dfs
    by_cases hs : node ∈ st.stack
    · rw [if_pos (by simpa using hs)]
      exact .cycle hs
    · rw [if_neg (by simpa using hs)]
      by_cases hv : node ∈ st.visited
      · rw [if_pos (by simpa using hv)]
        exact .seen hs hv (.nil _)
      · rw [if_neg (by simpa using hv)]
        have hless := fresh_cons_lt hnode hv
        have hnext := visitEach_visits ih (neighbors adj node)
          ⟨node :: st.visited, node :: st.stack⟩ (fun _ hk => mem_graphNodes_of_neighbor hk)
          (Nat.lt_of_lt_of_le hless (Nat.le_of_lt_succ hfuel))
        unfold neighbors at hnext
        cases hvisit : visitEach (dfs adj fuel) (adj[node]?.getD [])
            ⟨node :: st.visited, node :: st.stack⟩ with
        | mk found st' =>
          rw [hvisit] at hnext
          cases found with
          | true => exact .found hs hv hnext
          | false => exact .left hs hv hnext (.nil _)

end

theorem hasCycle_visits (adj : OrdMap TaskId (List TaskId)) :
    ∃ marks, Visits (neighbors adj) adj.keys ⟨[], []⟩ (hasCycle adj) marks := by
  refine ⟨_, visitEach_visits (dfs_visits _) adj.keys ⟨[], []⟩ ?_ ?_⟩
  · intro n hn
    exact mem_graphNodes_of_key hn
  · exact Nat.lt_succ_of_le (List.length_filter_le _ _)

theorem hasCycle_iff (adj : OrdMap TaskId (List TaskId)) :
    hasCycle adj = true ↔ Cyclic fun a b => b ∈ neighbors adj a := by
  obtain ⟨marks, hvisits⟩ := hasCycle_visits adj
  refine visits_cyclic_iff hvisits ?_
  intro a b hb
  obtain ⟨ns, hns, -⟩ := mem_neighbors.mp hb
  refine Std.ExtTreeMap.mem_keys.mpr (Std.ExtTreeMap.mem_iff_isSome_getElem?.mpr ?_)
  rw [hns]
  rfl

def DependsOn (dependencies : OrdMap TaskId (List TaskDependency)) (a b : TaskId) : Prop :=
  ∃ dep ∈ dependencies[a]?.getD [], dep.dependsOn = b

theorem neighbors_adjacency (dependencies : OrdMap TaskId (List TaskDependency)) (a b : TaskId) :
    b ∈ neighbors (adjacency dependencies) a ↔ DependsOn dependencies a b := by
  unfold neighbors adjacency DependsOn
  rw [OrdMap.get_map]
  cases hdeps : dependencies[a]? with
  | none => simp [Std.ExtTreeMap.getElem?_filter, hdeps]
  | some deps =>
    rw [OrdMap.get_filter _ _ hdeps]
    cases deps with
    | nil => simp
    | cons => simp [eq_comm (a := b)]

/-- The graph `would_create_cycle` searches: the one there is, and the edge. -/
def searchedGraph (dependencies : OrdMap TaskId (List TaskDependency)) (source target : TaskId) :
    OrdMap TaskId (List TaskId) :=
  (adjacency dependencies).insert source ((adjacency dependencies)[source]?.getD [] ++ [target])

theorem neighbors_searchedGraph (dependencies : OrdMap TaskId (List TaskDependency))
    (source target a b : TaskId) :
    b ∈ neighbors (searchedGraph dependencies source target) a ↔
      WithEdge (DependsOn dependencies) source target a b := by
  unfold WithEdge
  rw [← neighbors_adjacency]
  unfold searchedGraph neighbors
  by_cases ha : source = a
  · subst ha
    rw [OrdMap.get_insert_self]
    simp
  · rw [OrdMap.get_insert_ne _ _ ha]
    simp [Ne.symm ha]

theorem wouldCreateCycle_iff (dependencies : OrdMap TaskId (List TaskDependency))
    (source target : TaskId) :
    wouldCreateCycle dependencies source target = true ↔
      Cyclic (WithEdge (DependsOn dependencies) source target) := by
  have hgraph : (fun a b => b ∈ neighbors (searchedGraph dependencies source target) a) =
      WithEdge (DependsOn dependencies) source target := by
    funext a b
    exact propext (neighbors_searchedGraph dependencies source target a b)
  unfold wouldCreateCycle
  split
  · rename_i heq
    refine ⟨fun _ => ⟨source, .single (.inr ⟨rfl, heq.symm ▸ rfl⟩)⟩, fun _ => rfl⟩
  · rw [← hgraph]
    exact hasCycle_iff (searchedGraph dependencies source target)

/-- The task graph has no cycle, and its edges join tasks that exist. -/
structure RunSnapshot.GraphSound (s : RunSnapshot) : Prop where
  acyclic : ¬ Cyclic (DependsOn s.dependencies)
  source : ∀ a b, DependsOn s.dependencies a b → s.tasks[a]?.isSome = true
  target : ∀ a b, DependsOn s.dependencies a b → s.tasks[b]?.isSome = true

theorem dependsOn_insert (dependencies : OrdMap TaskId (List TaskDependency))
    (source : TaskId) (dep : TaskDependency) (a b : TaskId) :
    DependsOn (dependencies.insert source (dependencies[source]?.getD [] ++ [dep])) a b ↔
      WithEdge (DependsOn dependencies) source dep.dependsOn a b := by
  unfold WithEdge DependsOn
  by_cases ha : source = a
  · subst ha
    rw [OrdMap.get_insert_self]
    simp [or_and_right, exists_or, eq_comm (a := b)]
  · rw [OrdMap.get_insert_ne _ _ ha]
    simp [Ne.symm ha]

theorem Effect.graphSound {s t : RunSnapshot} {e : RunEvent} (h : Effect s e t)
    (hs : s.GraphSound) : t.GraphSound := by
  obtain hdeps | ⟨c, hsource, htarget, hcycle, hdeps⟩ := h.dependencies
  · refine ⟨?_, ?_, ?_⟩
    · rw [hdeps]
      exact hs.acyclic
    · intro a b hab
      rw [hdeps] at hab
      exact h.task_kept (hs.source a b hab)
    · intro a b hab
      rw [hdeps] at hab
      exact h.task_kept (hs.target a b hab)
  · have hedges : ∀ a b, DependsOn t.dependencies a b ↔
        WithEdge (DependsOn s.dependencies) c.taskId c.dependsOn a b := by
      intro a b
      rw [hdeps]
      exact dependsOn_insert _ _ _ a b
    refine ⟨?_, ?_, ?_⟩
    · intro hcyclic
      have hrel : DependsOn t.dependencies =
          WithEdge (DependsOn s.dependencies) c.taskId c.dependsOn := by
        funext a b
        exact propext (hedges a b)
      rw [hrel, ← wouldCreateCycle_iff, hcycle] at hcyclic
      cases hcyclic
    · intro a b hab
      obtain hold | ⟨rfl, -⟩ := (hedges a b).mp hab
      · exact h.task_kept (hs.source a b hold)
      · exact h.task_kept hsource
    · intro a b hab
      obtain hold | ⟨-, rfl⟩ := (hedges a b).mp hab
      · exact h.task_kept (hs.target a b hold)
      · exact h.task_kept htarget

theorem ReachableWhere.graphSound {P : Platform} {C : RunSnapshot → RunEvent → Prop}
    {s : RunSnapshot} (h : ReachableWhere P C s) : s.GraphSound := by
  refine h.invariant (I := RunSnapshot.GraphSound) ?_ ?_ ?_
  · intro runId session
    have hnone : ∀ a b, ¬ DependsOn (emptySnapshot runId session).dependencies a b := by
      intro a b hab
      obtain ⟨dep, hdep, -⟩ := hab
      simp [emptySnapshot] at hdep
    refine ⟨?_, fun a b hab => absurd hab (hnone a b), fun a b hab => absurd hab (hnone a b)⟩
    intro hcyclic
    obtain ⟨a, ha⟩ := hcyclic
    obtain ⟨b, hab, -⟩ := Relation.TransGen.head'_iff.mp ha
    exact hnone a b hab
  · intro u sequence events hu
    exact ⟨hu.acyclic, hu.source, hu.target⟩
  · intro s u e _ _ hs heffect
    exact heffect.graphSound hs

/-- The test for cycles is exact and comes to its end on every graph, and so the graph of a run
has none: every edge was tested when it was added. -/
theorem taskGraph_sound (P : Platform) :
    (∀ adj : OrdMap TaskId (List TaskId),
      ∃ marks, Visits (neighbors adj) adj.keys ⟨[], []⟩ (hasCycle adj) marks) ∧
    (∀ (dependencies : OrdMap TaskId (List TaskDependency)) (source target : TaskId),
      (wouldCreateCycle dependencies source target = true ↔
        Cyclic (WithEdge (DependsOn dependencies) source target)) ∧
      (¬ Cyclic (DependsOn dependencies) → (wouldCreateCycle dependencies source target = true ↔
          Relation.ReflTransGen (DependsOn dependencies) target source))) ∧
    ∀ s : RunSnapshot, Reachable P s → ¬ Cyclic (DependsOn s.dependencies) ∧
      ∀ a b, DependsOn s.dependencies a b →
        (∃ task, s.tasks[a]? = some task) ∧ ∃ task, s.tasks[b]? = some task := by
  refine ⟨hasCycle_visits, ?_, ?_⟩
  · intro dependencies source target
    have hexact := wouldCreateCycle_iff dependencies source target
    refine ⟨hexact, ?_⟩
    intro hacyclic
    rw [hexact]
    exact cyclic_withEdge_iff hacyclic source target
  · intro s hs
    have hgraph := hs.events.graphSound
    refine ⟨hgraph.acyclic, ?_⟩
    intro a b hab
    exact ⟨Option.isSome_iff_exists.mp (hgraph.source a b hab),
      Option.isSome_iff_exists.mp (hgraph.target a b hab)⟩

theorem taskGraph_sound_edge :
    ∃ s, Reachable Demo.platform s ∧ DependsOn s.dependencies "second" "task" ∧
      ¬ Cyclic (DependsOn s.dependencies) ∧
      wouldCreateCycle s.dependencies "task" "second" = true := by
  obtain ⟨s, hs, hedge⟩ : ∃ s, Reachable Demo.platform s ∧
    DependsOn s.dependencies "second" "task" :=
    ⟨_, Demo.ran_reachable [Demo.createRun, Demo.startRun, Demo.addTask "second",
      Demo.addDependency "second" "task" .requireSuccess] rfl, _, List.mem_singleton_self _, rfl⟩
  obtain ⟨-, hexact, hreach⟩ := taskGraph_sound Demo.platform
  have hacyclic := (hreach s hs).1
  exact ⟨s, hs, hedge, hacyclic, ((hexact s.dependencies "task" "second").2 hacyclic).mpr
    (.single hedge)⟩

end Tetonic.Run
