import Mathlib.Tactic.Common
set_option autoImplicit false

/-! Directory trees. Paths are any type in which every path has a list of directories it lies in;
a tree is a map from paths to nodes in which whatever exists lies in directories. The operations
are those of a file system seen from outside: make the directories a path lies in, put a node,
remove a path with all below it, move a node. -/

namespace Tetonic.Lib

/-- Paths, each with the directories above it. -/
class Located (π : Type) where
  above : π → List π
  above_trans : ∀ {p a b : π}, a ∈ above p → b ∈ above a → b ∈ above p
  not_above_self : ∀ p : π, p ∉ above p

open Located

inductive Node (φ ℓ : Type) where
  | file (f : φ)
  | link (l : ℓ)
  | dir
  deriving DecidableEq, Repr

def Node.isDir {φ ℓ : Type} : Node φ ℓ → Bool
  | .dir => true
  | _ => false

theorem Node.isDir_iff {φ ℓ : Type} {n : Node φ ℓ} : n.isDir = true ↔ n = .dir := by
  cases n <;> simp [isDir]

structure FileTree (π : Type) [Located π] (φ ℓ : Type) where
  node : π → Option (Node φ ℓ)
  closed : ∀ p n, node p = some n → ∀ a ∈ above p, node a = some .dir

namespace FileTree

variable {π φ ℓ : Type} [Located π] {t u : FileTree π φ ℓ} {p q a : π}

/-- Every path above `p` is a directory or free. -/
def openTo (t : FileTree π φ ℓ) (p : π) : Bool :=
  (above p).all fun a => (t.node a).all Node.isDir

theorem openTo_iff : t.openTo p = true ↔ ∀ a ∈ above p, t.node a = none ∨ t.node a = some .dir := by
  simp only [openTo, List.all_eq_true]
  refine forall_congr' fun a => imp_congr_right fun _ => ?_
  cases t.node a <;> simp [Node.isDir_iff]

/-- All paths above `p` are directories, and `p` itself is not one. -/
def writable (t : FileTree π φ ℓ) (p : π) : Bool :=
  ((above p).all fun a => (t.node a).any Node.isDir) && !(t.node p).any Node.isDir

theorem writable_iff :
    t.writable p = true ↔ (∀ a ∈ above p, t.node a = some .dir) ∧ t.node p ≠ some .dir := by
  have hdir : ∀ o : Option (Node φ ℓ), o.any Node.isDir = true ↔ o = some .dir := by
    intro o
    cases o <;> simp [Node.isDir_iff]
  simp only [writable, Bool.and_eq_true, List.all_eq_true, Bool.not_eq_true', hdir,
    ← Bool.not_eq_true]

variable [DecidableEq π]

/-- The directories above `p`, made where they are missing. -/
def makeParents (t : FileTree π φ ℓ) (p : π) : Option (FileTree π φ ℓ) :=
  if h : t.openTo p = true then
    some
      { node := fun q => if q ∈ above p then some .dir else t.node q
        closed := by
          intro q n hq b hb
          by_cases hqp : q ∈ above p
          · simp [above_trans hqp hb]
          · simp only [hqp, if_false] at hq
            simp [t.closed q n hq b hb] }
  else none

section
variable (h : t.makeParents p = some u)
include h

theorem makeParents_node : u.node q = if q ∈ above p then some .dir else t.node q := by
  unfold makeParents at h
  split at h
  · cases h
    rfl
  · cases h

theorem makeParents_open : t.openTo p = true := by
  unfold makeParents at h
  split at h
  · assumption
  · cases h

theorem makeParents_keeps (hq : t.node q ≠ none) : u.node q = t.node q := by
  rw [makeParents_node h]
  split
  · have := openTo_iff.mp (makeParents_open h) q ‹_›
    exact (this.resolve_left hq).symm
  · rfl

end

/-- A node put at `p`, in the place of what was there. -/
def put (t : FileTree π φ ℓ) (p : π) (n : Node φ ℓ) : Option (FileTree π φ ℓ) :=
  if h : t.writable p = true then
    some
      { node := fun q => if q = p then some n else t.node q
        closed := by
          intro q m hq b hb
          obtain ⟨hdirs, hp⟩ := writable_iff.mp h
          by_cases hqp : q = p
          · subst hqp
            have hne : b ≠ q := fun heq => not_above_self q (heq ▸ hb)
            simp [hne, hdirs b hb]
          · simp only [hqp, if_false] at hq
            have hne : b ≠ p := fun heq => hp (heq ▸ t.closed q m hq b hb)
            simp [hne, t.closed q m hq b hb] }
  else none

theorem put_node {n : Node φ ℓ} (h : t.put p n = some u) :
    u.node q = if q = p then some n else t.node q := by
  unfold put at h
  split at h
  · cases h
    rfl
  · cases h

theorem put_frame {n : Node φ ℓ} (h : t.put p n = some u) (hq : q ≠ p) : u.node q = t.node q := by
  rw [put_node h, if_neg hq]

/-- `p` and everything below it gone. -/
def remove (t : FileTree π φ ℓ) (p : π) : FileTree π φ ℓ where
  node q := if q = p ∨ p ∈ above q then none else t.node q
  closed := by
    intro q n hq b hb
    by_cases hgone : q = p ∨ p ∈ above q
    · simp [hgone] at hq
    · simp only [hgone, if_false] at hq
      have hstay : ¬ (b = p ∨ p ∈ above b) := by
        rintro (rfl | hpb)
        · exact hgone (.inr hb)
        · exact hgone (.inr (above_trans hb hpb))
      simp [hstay, t.closed q n hq b hb]

/-- The node of `a` taken to `p`, in the place of what was there. -/
def move (t : FileTree π φ ℓ) (a p : π) : Option (FileTree π φ ℓ) :=
  match t.node a with
  | none => none
  | some .dir => none
  | some n => if a = p then some t else (t.put p n).map fun u => u.remove a

end FileTree

end Tetonic.Lib
