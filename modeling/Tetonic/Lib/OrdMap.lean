import Mathlib.Tactic.Common
set_option autoImplicit false

/-! Ordered finite maps. The standard library's extensional tree map is read here
only through `m[k]?`: two maps with the same lookups are equal, and every question a
program asks by iterating over the values is a question about lookups. -/

namespace Tetonic.Lib

abbrev OrdMap (α β : Type) [Ord α] := Std.ExtTreeMap α β compare

namespace OrdMap

variable {α β : Type} [Ord α] [Std.TransOrd α] [Std.LawfulEqOrd α]

variable (m : OrdMap α β)

theorem get_insert [DecidableEq α] (k a : α) (v : β) :
    (m.insert k v)[a]? = if k = a then some v else m[a]? := by
  simp [Std.ExtTreeMap.getElem?_insert]

theorem get_insert_self (k : α) (v : β) : (m.insert k v)[k]? = some v := by
  simp

theorem get_insert_ne {k a : α} (v : β) (h : k ≠ a) : (m.insert k v)[a]? = m[a]? := by
  simp [Std.ExtTreeMap.getElem?_insert, h]

theorem get_insert_cases {m : OrdMap α β} {k a : α} {v w : β} (h : (m.insert k v)[a]? = some w) :
    k = a ∧ v = w ∨ k ≠ a ∧ m[a]? = some w := by
  classical
  rw [get_insert] at h
  split at h
  · exact .inl ⟨‹_›, Option.some.inj h⟩
  · exact .inr ⟨‹_›, h⟩

theorem get_of_erase {m : OrdMap α β} {k a : α} {w : β} (h : (m.erase k)[a]? = some w) :
    k ≠ a ∧ m[a]? = some w := by
  rw [Std.ExtTreeMap.getElem?_erase] at h
  split at h
  · cases h
  · rename_i hne
    exact ⟨fun heq => hne (by simp [heq]), h⟩

theorem get_erase_ne {k a : α} (h : k ≠ a) : (m.erase k)[a]? = m[a]? := by
  simp [Std.ExtTreeMap.getElem?_erase, h]

theorem get_filter (p : α → β → Bool) {a : α} {v : β} (h : m[a]? = some v) :
    (m.filter p)[a]? = if p a v = true then some v else none := by
  simp [Std.ExtTreeMap.getElem?_filter, h, Option.filter]

theorem get_of_filter {m : OrdMap α β} {p : α → β → Bool} {a : α} {v : β}
    (h : (m.filter p)[a]? = some v) : m[a]? = some v := by
  cases hm : m[a]? with
  | none => simp [Std.ExtTreeMap.getElem?_filter, hm] at h
  | some =>
    rw [get_filter m p hm] at h
    split at h
    · exact h
    · cases h

theorem get_modify [DecidableEq α] (k a : α) (f : β → β) :
    (m.modify k f)[a]? = if k = a then m[a]?.map f else m[a]? := by
  by_cases h : k = a
  · subst h
    simp
  · simp [Std.ExtTreeMap.getElem?_modify, h]

theorem get_map {γ : Type} (f : α → β → γ) (a : α) : (m.map f)[a]? = m[a]?.map (f a) := by
  simp

theorem modify_eq_insert {k : α} {v : β} (f : β → β) (h : m[k]? = some v) :
    m.modify k f = m.insert k (f v) := by
  classical
  refine Std.ExtTreeMap.ext_getElem? fun a => ?_
  rw [get_modify, get_insert]
  split
  · subst_vars
    simp [h]
  · rfl

theorem modify_congr {k : α} {f g : β → β} (h : ∀ v, m[k]? = some v → f v = g v) :
    m.modify k f = m.modify k g := by
  classical
  refine Std.ExtTreeMap.ext_getElem? fun a => ?_
  rw [get_modify, get_modify]
  split
  · rename_i hka
    rw [← hka]
    cases hk : m[k]? with
    | none => rfl
    | some v => exact congrArg some (h v hk)
  · rfl

theorem modify_eq_self {k : α} {f : β → β} (h : ∀ v, m[k]? = some v → f v = v) :
    m.modify k f = m := by
  classical
  refine (m.modify_congr h).trans (Std.ExtTreeMap.ext_getElem? fun a => ?_)
  rw [get_modify]
  split
  · simp
  · rfl

theorem insert_eq_self {k : α} {v : β} (h : m[k]? = some v) : m.insert k v = m := by
  classical
  refine Std.ExtTreeMap.ext_getElem? fun a => ?_
  rw [get_insert]
  split
  · subst_vars
    exact h.symm
  · rfl

theorem insert_insert (k : α) (v w : β) : (m.insert k v).insert k w = m.insert k w := by
  classical
  refine Std.ExtTreeMap.ext_getElem? fun a => ?_
  simp only [get_insert]
  split <;> rfl

section entries

variable {m m' : OrdMap α β} {R : β → β → Prop} {k a : α} {v w x : β}

omit [Std.LawfulEqOrd α] in
theorem ne_of_get (hk : m[k]? = some v) (ha : m[a]? = none) : k ≠ a := by
  rintro rfl
  rw [hk] at ha
  cases ha

theorem insert_missing (hk : m[k]? = some v) (ha : m[a]? = none) : (m.insert k w)[a]? = none := by
  rw [get_insert_ne m w (ne_of_get hk ha), ha]

theorem insert_present (hrefl : ∀ x, R x x) (hk : m[k]? = some v) (hv : R v w)
    (ha : m[a]? = some x) : ∃ y, (m.insert k w)[a]? = some y ∧ R x y := by
  by_cases h : k = a
  · subst h
    rw [hk] at ha
    cases ha
    exact ⟨w, get_insert_self m k w, hv⟩
  · exact ⟨x, by rw [get_insert_ne m w h, ha], hrefl x⟩

omit [Std.LawfulEqOrd α] in
theorem get_before (missing : ∀ k : α, m[k]? = none → m'[k]? = none)
    (present : ∀ (k : α) (v : β), m[k]? = some v → ∃ w, m'[k]? = some w ∧ R v w)
    (ha : m'[a]? = some w) : ∃ v, m[a]? = some v ∧ R v w := by
  cases hm : m[a]? with
  | none =>
    rw [missing a hm] at ha
    cases ha
  | some v =>
    obtain ⟨w', hw, hv⟩ := present a v hm
    rw [ha] at hw
    cases hw
    exact ⟨v, rfl, hv⟩

end entries

theorem get_filter_value {m : OrdMap α β} {p : β → Bool} {a : α} {v : β} :
    (m.filter fun _ w => p w)[a]? = some v ↔ m[a]? = some v ∧ p v = true := by
  cases hm : m[a]? with
  | none => simp [Std.ExtTreeMap.getElem?_filter, hm]
  | some w =>
    rw [get_filter m _ hm]
    split
    · rename_i hp
      constructor
      · intro h
        cases h
        exact ⟨rfl, hp⟩
      · intro h
        exact h.1
    · rename_i hp
      constructor
      · intro h
        cases h
      · intro h
        cases h.1
        exact absurd h.2 hp

theorem filter_insert_of_pos {p : β → Bool} {k : α} {v : β} (h : p v = true) :
    ((m.insert k v).filter fun _ w => p w) = (m.filter fun _ w => p w).insert k v := by
  classical
  refine Std.ExtTreeMap.ext_getElem? fun a => Option.ext fun w => ?_
  rw [get_filter_value, get_insert, get_insert]
  split
  · constructor
    · intro hw
      exact hw.1
    · intro hw
      cases hw
      exact ⟨rfl, h⟩
  · exact get_filter_value.symm

theorem filter_insert_of_neg {p : β → Bool} {k : α} {v : β} (h : p v = false)
    (hold : ∀ w, m[k]? = some w → p w = false) :
    ((m.insert k v).filter fun _ w => p w) = m.filter fun _ w => p w := by
  classical
  refine Std.ExtTreeMap.ext_getElem? fun a => Option.ext fun w => ?_
  rw [get_filter_value, get_filter_value, get_insert]
  split
  · rename_i hka
    constructor
    · intro hw
      cases hw.1
      rw [h] at hw
      cases hw.2
    · intro hw
      rw [hold w (hka ▸ hw.1)] at hw
      cases hw.2
  · rfl

theorem filter_map_value {p : β → Bool} (f : α → β → β) (h : ∀ k v, p (f k v) = p v) :
    ((m.map f).filter fun _ w => p w) = (m.filter fun _ w => p w).map f := by
  refine Std.ExtTreeMap.ext_getElem? fun a => Option.ext fun w => ?_
  rw [get_filter_value, get_map, get_map, Option.map_eq_some_iff, Option.map_eq_some_iff]
  constructor
  · intro hw
    obtain ⟨⟨v, hv, rfl⟩, hp⟩ := hw
    exact ⟨v, get_filter_value.mpr ⟨hv, (h a v).symm.trans hp⟩, rfl⟩
  · intro hw
    obtain ⟨v, hv, rfl⟩ := hw
    obtain ⟨hv, hp⟩ := get_filter_value.mp hv
    exact ⟨⟨v, hv, rfl⟩, (h a v).trans hp⟩

omit [Std.LawfulEqOrd α] in
theorem size_insert_of_get {m : OrdMap α β} {k : α} {v : β} (h : m[k]? = some v) (w : β) :
    (m.insert k w).size = m.size := by
  rw [Std.ExtTreeMap.size_insert, Std.ExtTreeMap.contains_eq_isSome_getElem?, h]
  rfl

omit [Std.LawfulEqOrd α] in
theorem size_insert_of_none {m : OrdMap α β} {k : α} (h : m[k]? = none) (w : β) :
    (m.insert k w).size = m.size + 1 := by
  rw [Std.ExtTreeMap.size_insert, Std.ExtTreeMap.contains_eq_isSome_getElem?, h]
  rfl

omit [Std.LawfulEqOrd α] in
theorem get_eq_none_of_isEmpty (h : m.isEmpty = true) (a : α) : m[a]? = none := by
  simp [Std.ExtTreeMap.isEmpty_iff.mp h]

def anyValue (m : OrdMap α β) (p : β → Bool) : Bool := m.toList.any fun e => p e.2

def allValues (m : OrdMap α β) (p : β → Bool) : Bool := m.toList.all fun e => p e.2

def countValues (m : OrdMap α β) (p : β → Bool) : Nat := m.toList.countP fun e => p e.2

def keysWhere (m : OrdMap α β) (p : α → β → Bool) : List α :=
  (m.toList.filter fun e => p e.1 e.2).map Prod.fst

@[simp] theorem anyValue_iff (p : β → Bool) :
    m.anyValue p = true ↔ ∃ (k : α) (v : β), m[k]? = some v ∧ p v = true := by
  simp [anyValue, Std.ExtTreeMap.mem_toList_iff_getElem?_eq_some]

theorem anyValue_eq_false (p : β → Bool) :
    m.anyValue p = false ↔ ∀ (k : α) (v : β), m[k]? = some v → p v = false := by
  rw [Bool.eq_false_iff, Ne, anyValue_iff]
  simp

@[simp] theorem allValues_iff (p : β → Bool) :
    m.allValues p = true ↔ ∀ (k : α) (v : β), m[k]? = some v → p v = true := by
  simp [allValues, Std.ExtTreeMap.mem_toList_iff_getElem?_eq_some]

theorem countValues_eq_zero (p : β → Bool) :
    m.countValues p = 0 ↔ ∀ (k : α) (v : β), m[k]? = some v → p v = false := by
  simp [countValues, Std.ExtTreeMap.mem_toList_iff_getElem?_eq_some]

@[simp] theorem mem_keysWhere (p : α → β → Bool) (k : α) :
    k ∈ m.keysWhere p ↔ ∃ v, m[k]? = some v ∧ p k v = true := by
  simp [keysWhere, Std.ExtTreeMap.mem_toList_iff_getElem?_eq_some]

omit [Std.LawfulEqOrd α] in
theorem nodup_keysWhere (p : α → β → Bool) : (m.keysWhere p).Nodup := by
  have h : (m.toList.map Prod.fst).Nodup := by
    rw [Std.ExtTreeMap.map_fst_toList_eq_keys]
    exact Std.ExtTreeMap.nodup_keys
  exact h.sublist (List.filter_sublist.map Prod.fst)

theorem key_unique (h : m.size ≤ 1) {a b : α} {v w : β} (ha : m[a]? = some v) (hb : m[b]? = some w)
    : a = b := by
  have ha' := Std.ExtTreeMap.mem_toList_iff_getElem?_eq_some.mpr ha
  have hb' := Std.ExtTreeMap.mem_toList_iff_getElem?_eq_some.mpr hb
  rw [← Std.ExtTreeMap.length_toList] at h
  match hl : m.toList with
  | [] => simp [hl] at ha'
  | [e] =>
    simp only [hl, List.mem_singleton] at ha' hb'
    exact congrArg Prod.fst (ha'.trans hb'.symm)
  | _ :: _ :: _ => simp [hl] at h

/-- An entry for each element of a list; of two with one key the later stays. -/
def insertAll {γ : Type} (key : γ → α) (value : γ → β) (m : OrdMap α β) (l : List γ) : OrdMap α β :=
  l.foldl (fun m c => m.insert (key c) (value c)) m

section insertAll

variable {γ : Type} {key : γ → α} {value : γ → β}

section
variable {m : OrdMap α β} {l : List γ}

theorem get_insertAll_cases {a : α} {v : β} (h : (m.insertAll key value l)[a]? = some v) :
    (∃ c ∈ l, key c = a ∧ value c = v) ∨ m[a]? = some v := by
  induction l generalizing m with
  | nil => exact .inr h
  | cons c rest ih =>
    obtain ⟨d, hd, hkey, hvalue⟩ | hm := ih h
    · exact .inl ⟨d, List.mem_cons_of_mem _ hd, hkey, hvalue⟩
    · obtain ⟨hkey, hvalue⟩ | ⟨-, hm⟩ := get_insert_cases hm
      · exact .inl ⟨c, List.mem_cons_self, hkey, hvalue⟩
      · exact .inr hm

theorem get_insertAll_of_ne {a : α} (h : ∀ c ∈ l, key c ≠ a) :
    (m.insertAll key value l)[a]? = m[a]? := by
  induction l generalizing m with
  | nil => rfl
  | cons c rest ih =>
    have hrest := ih (m := m.insert (key c) (value c)) fun d hd => h d (List.mem_cons_of_mem _ hd)
    exact hrest.trans (get_insert_ne _ _ (h c List.mem_cons_self))

theorem get_insertAll_of_mem {c : γ} (hc : c ∈ l) :
    ∃ d ∈ l, key d = key c ∧ (m.insertAll key value l)[key c]? = some (value d) := by
  induction l generalizing m c with
  | nil => cases hc
  | cons b rest ih =>
    by_cases hlater : ∃ d ∈ rest, key d = key c
    · obtain ⟨d, hd, hkey⟩ := hlater
      obtain ⟨e, he, hkey', hget⟩ := ih (m := m.insert (key b) (value b)) hd
      rw [hkey] at hkey' hget
      exact ⟨e, List.mem_cons_of_mem _ he, hkey', hget⟩
    · have hne : ∀ d ∈ rest, key d ≠ key c := fun d hd hkey => hlater ⟨d, hd, hkey⟩
      obtain rfl | hc := List.mem_cons.mp hc
      · refine ⟨c, List.mem_cons_self, rfl, ?_⟩
        exact (get_insertAll_of_ne (m := m.insert (key c) (value c)) hne).trans
          (get_insert_self _ _ _)
      · exact absurd rfl (hne c hc)

end

end insertAll

end OrdMap

end Tetonic.Lib
