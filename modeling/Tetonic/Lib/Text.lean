import Mathlib.Data.List.Infix
set_option autoImplicit false

/-! Questions that programs ask about texts. -/

namespace Tetonic.Lib.Text

/-- Unicode `White_Space`. -/
def whiteSpace (c : Char) : Bool :=
  let n := c.toNat
  (0x09 ≤ n && n ≤ 0x0d) || n == 0x20 || n == 0x85 || n == 0xa0 || n == 0x1680
    || (0x2000 ≤ n && n ≤ 0x200a) || n == 0x2028 || n == 0x2029 || n == 0x202f || n == 0x205f
    || n == 0x3000

/-- Nothing is left when the white space at both ends is taken off. -/
def blank (s : String) : Bool := s.toList.all whiteSpace

def holds (text part : List Char) : Bool := decide (part <:+: text)

def hexValue (c : Char) : Option UInt8 :=
  let n := c.toNat
  if 0x30 ≤ n ∧ n ≤ 0x39 then some (UInt8.ofNat (n - 0x30))
  else if 0x61 ≤ n ∧ n ≤ 0x66 then some (UInt8.ofNat (n - 0x61 + 10))
  else if 0x41 ≤ n ∧ n ≤ 0x46 then some (UInt8.ofNat (n - 0x41 + 10))
  else none

def hexBytes : List Char → Option (List UInt8)
  | [] => some []
  | [_] => none
  | high :: low :: rest => do
    let h ← hexValue high
    let l ← hexValue low
    let bytes ← hexBytes rest
    return (16 * h + l) :: bytes

theorem append_mark_inj {α : Type} [DecidableEq α] {mark : α} {xs ys us vs : List α}
    (hxs : mark ∉ xs) (hys : mark ∉ ys) (h : xs ++ mark :: us = ys ++ mark :: vs) :
    xs = ys ∧ us = vs := by
  have hsplit := congrArg (List.splitOn mark) h
  rw [List.splitOn_append_cons_self_of_not_mem hxs,
    List.splitOn_append_cons_self_of_not_mem hys] at hsplit
  obtain rfl := (List.cons.inj hsplit).1
  exact ⟨rfl, (List.cons.inj (List.append_cancel_left h)).2⟩

section
variable {α : Type} {mark : α}

theorem notMem_of_mem_splitOn [DecidableEq α] {xs part : List α} (h : part ∈ xs.splitOn mark) :
    mark ∉ part := by
  induction xs generalizing part with
  | nil =>
    rw [List.splitOn_nil, List.mem_singleton] at h
    simp [h]
  | cons x xs ih =>
    rw [List.splitOn_cons_eq_if_modifyHead] at h
    split at h
    · obtain rfl | h := List.mem_cons.mp h
      · simp
      · exact ih h
    · rename_i hx
      cases hsplit : xs.splitOn mark with
      | nil => exact absurd hsplit (List.splitOn_ne_nil mark xs)
      | cons =>
        rw [hsplit, List.modifyHead_cons] at h
        rw [hsplit] at ih
        obtain rfl | h := List.mem_cons.mp h
        · have hfirst := ih List.mem_cons_self
          intro hmem
          obtain rfl | hmem := List.mem_cons.mp hmem
          · simp at hx
          · exact hfirst hmem
        · exact ih (List.mem_cons_of_mem _ h)

theorem splitOn_intercalate_append [DecidableEq α] {parts : List (List α)}
    (hfree : ∀ part ∈ parts, mark ∉ part) (hne : parts ≠ []) (tail : List α) :
    ([mark].intercalate parts ++ mark :: tail).splitOn mark = parts ++ tail.splitOn mark := by
  induction parts with
  | nil => exact absurd rfl hne
  | cons part rest ih =>
    have hpart := hfree part List.mem_cons_self
    cases rest with
    | nil => simpa using List.splitOn_append_cons_self_of_not_mem hpart tail
    | cons =>
      have hrest := ih (fun p hp => hfree p (List.mem_cons_of_mem _ hp)) (by simp)
      rw [List.intercalate_cons_cons, List.cons_append, ← hrest, List.append_assoc,
        List.append_assoc]
      exact List.splitOn_append_cons_self_of_not_mem hpart _

theorem intercalate_append {parts rest : List (List α)} (hne : parts ≠ []) (hrest : rest ≠ []) :
    [mark].intercalate (parts ++ rest) =
      [mark].intercalate parts ++ mark :: [mark].intercalate rest := by
  induction parts with
  | nil => exact absurd rfl hne
  | cons part parts ih =>
    cases parts with
    | nil => simp [List.intercalate_cons_of_ne_nil hrest]
    | cons =>
      have htail := ih (by simp)
      rw [List.cons_append] at htail
      rw [List.cons_append, List.cons_append, List.intercalate_cons_cons, htail,
        List.intercalate_cons_cons]
      simp

theorem intercalate_inside_iff [DecidableEq α] {rule path : List (List α)} (hne : rule ≠ [])
    (hfull : ∀ part ∈ rule, part ≠ []) (hrule : ∀ part ∈ rule, mark ∉ part)
    (hpath : ∀ part ∈ path, mark ∉ part) :
    ([mark].intercalate path = [mark].intercalate rule ∨
      ∃ tail, [mark].intercalate path = [mark].intercalate rule ++ mark :: tail) ↔
      rule <+: path := by
  cases path with
  | nil =>
    cases rule with
    | nil => exact absurd rfl hne
    | cons part rest =>
      have hpart := hfull part List.mem_cons_self
      cases rest <;> simp [List.intercalate, hpart]
  | cons =>
    have hsplit := List.splitOn_intercalate mark hpath (by simp)
    constructor
    · intro h
      obtain heq | ⟨tail, heq⟩ := h
      · rw [heq, List.splitOn_intercalate mark hrule hne] at hsplit
        rewrite [hsplit]
        exact List.prefix_refl _
      · rw [heq, splitOn_intercalate_append hrule hne] at hsplit
        exact ⟨_, hsplit⟩
    · intro h
      obtain ⟨rest, hrest⟩ := h
      rw [← hrest]
      cases rest with
      | nil =>
        left
        rw [List.append_nil]
      | cons =>
        right
        exact ⟨_, intercalate_append hne (by simp)⟩

end

end Tetonic.Lib.Text
