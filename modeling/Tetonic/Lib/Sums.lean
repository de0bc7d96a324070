import Tetonic.Lib.OrdMap
set_option autoImplicit false

/-! Arithmetic on 64-bit words, totals over lists, and sums over the entries of a finite map with
what one changed entry does to them. -/

namespace Tetonic.Lib

/-- `a.checked_add(b)`. -/
def checkedAdd (a b : UInt64) : Option UInt64 :=
  if a.toNat + b.toNat < UInt64.size then some (a + b) else none

/-- `a.checked_sub(b)`. -/
def checkedSub (a b : UInt64) : Option UInt64 :=
  if b ≤ a then some (a - b) else none

/-- `a.saturating_add(b)`. -/
def saturatingAdd (a b : UInt64) : UInt64 :=
  (checkedAdd a b).getD 0xffffffffffffffff

theorem lt_of_checkedAdd_one {a c : UInt64} (h : checkedAdd a 1 = some c) : a < c := by
  unfold checkedAdd at h
  split at h
  · rename_i hlt
    rw [Option.some.injEq] at h
    subst h
    rw [UInt64.lt_iff_toNat_lt, UInt64.toNat_add]
    have h1 : (1 : UInt64).toNat = 1 := rfl
    rw [h1] at hlt ⊢
    rw [Nat.mod_eq_of_lt hlt]
    exact Nat.lt_succ_self _
  · cases h

def total {α : Type} (f : α → Int) : List α → Int
  | [] => 0
  | a :: l => f a + total f l

namespace OrdMap

variable {α β : Type} [Ord α] [Std.TransOrd α] [Std.LawfulEqOrd α]

def sumOver (m : OrdMap α β) (f : α → β → Nat) : Nat :=
  m.toList.foldr (fun e n => f e.1 e.2 + n) 0

omit [Std.LawfulEqOrd α] in
theorem nodup_toList (m : OrdMap α β) : m.toList.Nodup := by
  have hkeys : (m.toList.map Prod.fst).Nodup := by
    rw [Std.ExtTreeMap.map_fst_toList_eq_keys]
    exact Std.ExtTreeMap.nodup_keys
  exact List.Pairwise.of_map Prod.fst (fun _ _ hne heq => hne (congrArg Prod.fst heq)) hkeys

theorem toList_insert_perm (m : OrdMap α β) (k : α) (v : β) :
    (m.insert k v).toList.Perm ((k, v) :: (m.erase k).toList) := by
  have hmem : ∀ {m : OrdMap α β} {e : α × β}, e ∈ m.toList ↔ m[e.1]? = some e.2 := fun {m e} =>
    Std.ExtTreeMap.mem_toList_iff_getElem?_eq_some (k := e.1) (v := e.2)
  have herased : (m.erase k)[k]? = none := by simp
  have hfresh : (k, v) ∉ (m.erase k).toList := by
    rw [hmem, herased]
    simp
  refine (List.perm_ext_iff_of_nodup (nodup_toList _)
    (List.nodup_cons.mpr ⟨hfresh, nodup_toList _⟩)).mpr fun e => ?_
  obtain ⟨a, b⟩ := e
  rw [List.mem_cons, hmem, hmem]
  constructor
  · intro h
    obtain ⟨rfl, rfl⟩ | ⟨hne, h⟩ := get_insert_cases h
    · exact .inl rfl
    · exact .inr ((get_erase_ne m hne).trans h)
  · rintro (h | h)
    · cases h
      exact get_insert_self _ _ _
    · obtain ⟨hne, h⟩ := get_of_erase h
      exact (get_insert_ne _ _ hne).trans h

theorem foldr_add_perm {γ : Type} {f : γ → Nat} {l l' : List γ} (h : l.Perm l') :
    l.foldr (fun e n => f e + n) 0 = l'.foldr (fun e n => f e + n) 0 := by
  induction h with
  | nil => rfl
  | cons x _ ih => simp [ih]
  | swap =>
    simp only [List.foldr_cons]
    omega
  | trans _ _ ih ih' => exact ih.trans ih'

theorem sumOver_insert (m : OrdMap α β) (k : α) (v : β) (f : α → β → Nat) :
    sumOver (m.insert k v) f = f k v + sumOver (m.erase k) f :=
  foldr_add_perm (toList_insert_perm m k v)

theorem sumOver_of_get {m : OrdMap α β} {k : α} {v : β} (h : m[k]? = some v)
    (f : α → β → Nat) : sumOver m f = f k v + sumOver (m.erase k) f := by
  have hself := sumOver_insert m k v f
  rwa [insert_eq_self m h] at hself

theorem erase_eq_self {m : OrdMap α β} {k : α} (h : m[k]? = none) : m.erase k = m := by
  refine Std.ExtTreeMap.ext_getElem? fun a => ?_
  by_cases hk : k = a
  · subst hk
    simp [h]
  · exact get_erase_ne m hk

omit [Std.LawfulEqOrd α] in
@[simp] theorem sumOver_empty (f : α → β → Nat) : sumOver (∅ : OrdMap α β) f = 0 := by
  have : (∅ : OrdMap α β).toList = [] := by simp
  simp only [sumOver, this, List.foldr_nil]

theorem sumOver_le {m : OrdMap α β} {f g : α → β → Nat}
    (h : ∀ (k : α) (v : β), m[k]? = some v → f k v ≤ g k v) : sumOver m f ≤ sumOver m g := by
  have hmem : ∀ e ∈ m.toList, f e.1 e.2 ≤ g e.1 e.2 := fun e he =>
    h e.1 e.2 (Std.ExtTreeMap.mem_toList_iff_getElem?_eq_some.mp he)
  unfold sumOver
  generalize m.toList = l at hmem
  induction l with
  | nil => exact Nat.le_refl 0
  | cons e rest ih =>
    simp only [List.foldr_cons]
    have hhead := hmem e List.mem_cons_self
    have hrest := ih fun x hx => hmem x (List.mem_cons_of_mem _ hx)
    omega

theorem sumOver_congr {m : OrdMap α β} {f g : α → β → Nat}
    (h : ∀ (k : α) (v : β), m[k]? = some v → f k v = g k v) : sumOver m f = sumOver m g :=
  Nat.le_antisymm (sumOver_le fun k v hk => Nat.le_of_eq (h k v hk))
    (sumOver_le fun k v hk => Nat.le_of_eq (h k v hk).symm)

end OrdMap

end Tetonic.Lib
