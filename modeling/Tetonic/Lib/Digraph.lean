import Mathlib.Logic.Relation
set_option autoImplicit false

/-! Cycles of a directed graph, and the depth-first search that looks for one. The search marks
the nodes it has entered and keeps those it is still in on a stack. It is given here as a
relation, one derivation for each search that comes to an end. -/

namespace Tetonic.Lib.Digraph

variable {α : Type}

def Cyclic (r : α → α → Prop) : Prop := ∃ a, Relation.TransGen r a a

def WithEdge (r : α → α → Prop) (a b : α) (x y : α) : Prop := r x y ∨ x = a ∧ y = b

section
variable {r : α → α → Prop}

theorem transGen_withEdge {a b x y : α} (h : Relation.TransGen (WithEdge r a b) x y) :
    Relation.TransGen r x y ∨ Relation.ReflTransGen r x a ∧ Relation.ReflTransGen r b y := by
  induction h with
  | single h =>
    obtain h | ⟨rfl, rfl⟩ := h
    · exact .inl (.single h)
    · exact .inr ⟨.refl, .refl⟩
  | tail _ h ih =>
    obtain h | ⟨rfl, rfl⟩ := h
    · obtain hold | ⟨hbefore, hafter⟩ := ih
      · exact .inl (hold.tail h)
      · exact .inr ⟨hbefore, hafter.tail h⟩
    · obtain hold | ⟨hbefore, -⟩ := ih
      · exact .inr ⟨hold.to_reflTransGen, .refl⟩
      · exact .inr ⟨hbefore, .refl⟩

theorem cyclic_withEdge_iff (hr : ¬ Cyclic r) (a b : α) :
    Cyclic (WithEdge r a b) ↔ Relation.ReflTransGen r b a := by
  constructor
  · intro h
    obtain ⟨x, hx⟩ := h
    obtain hold | ⟨hbefore, hafter⟩ := transGen_withEdge hx
    · exact absurd ⟨x, hold⟩ hr
    · exact hafter.trans hbefore
  · intro h
    refine ⟨a, .head' (.inr ⟨rfl, rfl⟩) ?_⟩
    exact Relation.ReflTransGen.mono (fun _ _ hxy => .inl hxy) _ _ h

theorem not_transGen_of_acc {a : α} (h : Acc (fun y x => r x y) a) : ¬ Relation.TransGen r a a := by
  induction h with
  | intro a _ ih =>
    intro hcycle
    obtain ⟨b, hab, hba⟩ := Relation.TransGen.head'_iff.mp hcycle
    exact ih b hab (.tail' hba hab)

end

structure Marks (α : Type) where
  (visited stack : List α)

/-- The search goes through the nodes of the list in turn. It ends with `true` at the first node
that is on the stack. -/
inductive Visits [DecidableEq α] (next : α → List α) :
    List α → Marks α → Bool → Marks α → Prop where
  | nil (m : Marks α) : Visits next [] m false m
  | cycle {n : α} {rest : List α} {m : Marks α} (h : n ∈ m.stack) :
      Visits next (n :: rest) m true m
  | seen {n : α} {rest : List α} {m m' : Marks α} {found : Bool} (hs : n ∉ m.stack)
      (hv : n ∈ m.visited) (h : Visits next rest m found m') : Visits next (n :: rest) m found m'
  | found {n : α} {rest : List α} {m m' : Marks α} (hs : n ∉ m.stack) (hv : n ∉ m.visited)
      (h : Visits next (next n) ⟨n :: m.visited, n :: m.stack⟩ true m') :
      Visits next (n :: rest) m true m'
  | left {n : α} {rest : List α} {m m₁ m' : Marks α} {found : Bool} (hs : n ∉ m.stack)
      (hv : n ∉ m.visited) (h : Visits next (next n) ⟨n :: m.visited, n :: m.stack⟩ false m₁)
      (hrest : Visits next rest ⟨m₁.visited, m₁.stack.erase n⟩ found m') :
      Visits next (n :: rest) m found m'

section
variable [DecidableEq α] {next : α → List α}

theorem Visits.cons_true {n : α} {rest : List α} {m m' : Marks α}
    (h : Visits next [n] m true m') : Visits next (n :: rest) m true m' := by
  cases h with
  | cycle h => exact .cycle h
  | seen hs hv h => cases h
  | found hs hv h => exact .found hs hv h
  | left hs hv h hrest => cases hrest

theorem Visits.cons_false {n : α} {rest : List α} {m m₁ m' : Marks α} {found : Bool}
    (h : Visits next [n] m false m₁) (hrest : Visits next rest m₁ found m') :
    Visits next (n :: rest) m found m' := by
  cases h with
  | seen hs hv h =>
    cases h
    exact .seen hs hv hrest
  | left hs hv h hnil =>
    cases hnil
    exact .left hs hv h hrest

section
variable {ns : List α} {m m' : Marks α} {found : Bool} (h : Visits next ns m found m')
include h

theorem Visits.kept (hfound : found = false) : m'.stack = m.stack ∧ m.visited ⊆ m'.visited := by
  induction h with
  | nil => exact ⟨rfl, List.Subset.refl _⟩
  | cycle | found => cases hfound
  | seen hs hv h ih => exact ih hfound
  | @left n rest m m₁ m' found hs hv h hrest ih ihrest =>
    obtain ⟨hstack, hvisited⟩ := ih rfl
    obtain ⟨hstack', hvisited'⟩ := ihrest hfound
    refine ⟨?_, ?_⟩
    · rw [hstack', hstack]
      simp
    · intro v hv'
      exact hvisited' (hvisited (List.mem_cons_of_mem n hv'))

theorem Visits.cyclic (hfound : found = true)
    (hstack : ∀ v ∈ m.stack, ∀ n ∈ ns, Relation.TransGen (fun x y => y ∈ next x) v n) :
    Cyclic fun x y => y ∈ next x := by
  induction h with
  | nil => cases hfound
  | @cycle n rest m h => exact ⟨n, hstack n h n List.mem_cons_self⟩
  | @seen n rest m m' found hs hv h ih =>
    refine ih hfound ?_
    intro v hv' k hk
    exact hstack v hv' k (List.mem_cons_of_mem n hk)
  | @found n rest m m' hs hv h ih =>
    refine ih rfl ?_
    intro v hv' k hk
    obtain rfl | hv' := List.mem_cons.mp hv'
    · exact .single hk
    · exact (hstack v hv' n List.mem_cons_self).tail hk
  | @left n rest m m₁ m' found hs hv h hrest ih ihrest =>
    refine ihrest hfound ?_
    intro v hv' k hk
    dsimp only at hv'
    rw [(h.kept rfl).1] at hv'
    simp only [List.erase_cons_head] at hv'
    exact hstack v hv' k (List.mem_cons_of_mem n hk)

end

/-- A node that is marked and off the stack has nothing but such nodes below it, and so there is no
way on forever. -/
theorem Visits.acc {ns : List α} {m m' : Marks α} {found : Bool} (h : Visits next ns m found m')
    (hfound : found = false)
    (hblack : ∀ v ∈ m.visited, v ∉ m.stack → Acc (fun y x => y ∈ next x) v) :
    (∀ v ∈ m'.visited, v ∉ m'.stack → Acc (fun y x => y ∈ next x) v) ∧
      ∀ n ∈ ns, Acc (fun y x => y ∈ next x) n := by
  induction h with
  | nil =>
    refine ⟨hblack, ?_⟩
    intro n hn
    cases hn
  | cycle | found => cases hfound
  | @seen n rest m m' found hs hv h ih =>
    obtain ⟨hblack', hrest⟩ := ih hfound hblack
    refine ⟨hblack', ?_⟩
    intro k hk
    obtain rfl | hk := List.mem_cons.mp hk
    · exact hblack k hv hs
    · exact hrest k hk
  | @left n rest m m₁ m' found hs hv h hrest ih ihrest =>
    have hkept := (h.kept rfl).1
    dsimp only at hkept
    obtain ⟨hblack₁, hnext⟩ := ih rfl (by
      intro v hv' hs'
      dsimp only at hv' hs'
      simp only [List.mem_cons, not_or] at hv' hs'
      exact hblack v (hv'.resolve_left hs'.1) hs'.2)
    have hn : Acc (fun y x => y ∈ next x) n := Acc.intro n hnext
    obtain ⟨hblack', hrest'⟩ := ihrest hfound (by
      intro v hv' hs'
      dsimp only at hv' hs'
      rw [hkept, List.erase_cons_head] at hs'
      by_cases heq : v = n
      · rw [heq]
        exact hn
      · refine hblack₁ v hv' ?_
        rw [hkept]
        simp [heq, hs'])
    refine ⟨hblack', ?_⟩
    intro k hk
    obtain rfl | hk := List.mem_cons.mp hk
    · exact hn
    · exact hrest' k hk

theorem visits_cyclic_iff {ns : List α} {m' : Marks α} {found : Bool}
    (h : Visits next ns ⟨[], []⟩ found m') (hns : ∀ x y, y ∈ next x → x ∈ ns) :
    found = true ↔ Cyclic fun x y => y ∈ next x := by
  constructor
  · intro hfound
    refine h.cyclic hfound ?_
    intro v hv
    cases hv
  · intro hcyclic
    obtain ⟨a, ha⟩ := hcyclic
    cases found with
    | true => rfl
    | false =>
      obtain ⟨b, hab, -⟩ := Relation.TransGen.head'_iff.mp ha
      obtain ⟨-, hacc⟩ := h.acc rfl (by
        intro v hv
        cases hv)
      exact absurd ha (not_transGen_of_acc (hacc a (hns a b hab)))

def fresh (nodes visited : List α) : Nat := (nodes.filter fun n => n ∉ visited).length

theorem fresh_mono {nodes visited visited' : List α} (h : visited ⊆ visited') :
    fresh nodes visited' ≤ fresh nodes visited := by
  unfold fresh
  rw [← List.countP_eq_length_filter, ← List.countP_eq_length_filter]
  refine List.countP_mono_left ?_
  intro n _ hn
  simp only [decide_eq_true_eq] at hn ⊢
  intro hmem
  exact hn (h hmem)

theorem fresh_cons_lt {nodes visited : List α} {n : α} (hn : n ∈ nodes) (hv : n ∉ visited) :
    fresh nodes (n :: visited) < fresh nodes visited := by
  have hfilter : (nodes.filter fun k => k ∉ n :: visited) =
      (nodes.filter fun k => k ∉ visited).filter fun k => k ≠ n := by
    rw [List.filter_filter]
    congr 1
    funext k
    simp
  unfold fresh
  rw [hfilter, List.length_filter_lt_length_iff_exists]
  exact ⟨n, by simp [hn, hv], by simp⟩

end

end Tetonic.Lib.Digraph
