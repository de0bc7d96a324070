import Mathlib.Tactic.Common
set_option autoImplicit false

/-! Procedures over durable storage. A procedure reads the disk and its own memory as it likes;
what it writes goes through `write`, and the surroundings decide for each write whether it is
made, is reported as failed or is the last thing the process does, and how far a write that was
cut had come. `wp` is the weakest precondition of the three ways to end. -/

namespace Tetonic.Lib

/-- What becomes of one write; a write that is not made has gone through `k` of its stages. -/
inductive Fate (ε : Type) where
  | made
  | fails (e : ε) (k : Nat)
  | crash (k : Nat)

/-- How a procedure ends when it does not return. -/
inductive Halt (ε : Type) where
  | failed (e : ε)
  | crashed
  deriving DecidableEq, Repr

/-- A process: its disk, its memory, and what is to become of its next writes, by their kind.
Where nothing is said, writes are made. -/
structure Machine (δ σ κ ε : Type) where
  disk : δ
  mem : σ
  fates : List (κ → Fate ε)

namespace Machine

variable {δ σ κ ε : Type}

/-- The fate of the next write, which is of kind `k`. -/
def fate (w : Machine δ σ κ ε) (k : κ) : Fate ε :=
  match w.fates with
  | [] => .made
  | f :: _ => f k

/-- The machine after a write that left the disk as `d`. -/
def wrote (w : Machine δ σ κ ε) (d : δ) : Machine δ σ κ ε :=
  { w with disk := d, fates := w.fates.tail }

def Calm (w : Machine δ σ κ ε) : Prop := w.fates = []

@[simp] theorem wrote_disk (w : Machine δ σ κ ε) (d : δ) : (w.wrote d).disk = d := rfl

@[simp] theorem wrote_mem (w : Machine δ σ κ ε) (d : δ) : (w.wrote d).mem = w.mem := rfl

theorem Calm.wrote {w : Machine δ σ κ ε} (h : w.Calm) (d : δ) : (w.wrote d).Calm := by
  simp [Calm, Machine.wrote, show w.fates = [] from h]

theorem Calm.fate {w : Machine δ σ κ ε} (h : w.Calm) (k : κ) : w.fate k = .made := by
  simp [Machine.fate, show w.fates = [] from h]

end Machine

def Proc (δ σ κ ε α : Type) := Machine δ σ κ ε → Except (Halt ε) α × Machine δ σ κ ε

namespace Proc

variable {δ σ κ ε α β : Type}

def andThen (m : Proc δ σ κ ε α) (f : α → Proc δ σ κ ε β) : Proc δ σ κ ε β := fun w =>
  match m w with
  | (.ok a, w') => f a w'
  | (.error h, w') => (.error h, w')

instance : Monad (Proc δ σ κ ε) where
  pure a := fun w => (.ok a, w)
  bind := andThen

def fail (e : ε) : Proc δ σ κ ε α := fun w => (.error (.failed e), w)

def ofExcept : Except ε α → Proc δ σ κ ε α
  | .ok a => pure a
  | .error e => fail e

def disk : Proc δ σ κ ε δ := fun w => (.ok w.disk, w)

def mem : Proc δ σ κ ε σ := fun w => (.ok w.mem, w)

def setMem (f : σ → σ) : Proc δ σ κ ε Unit := fun w => (.ok (), { w with mem := f w.mem })

/-- A write: what it makes of the disk, and the disk after each stage of it. -/
def write (k : κ) (stage : Nat → δ → δ) (f : δ → Except ε δ) : Proc δ σ κ ε Unit := fun w =>
  match f w.disk with
  | .error e => (.error (.failed e), w)
  | .ok d =>
    match w.fate k with
    | .made => (.ok (), w.wrote d)
    | .fails e n => (.error (.failed e), w.wrote (stage n w.disk))
    | .crash n => (.error .crashed, w.wrote (stage n w.disk))

/-- The stages of a write that is made in one go: nothing of it, or all. -/
def whole (f : δ → Except ε δ) (n : Nat) (d : δ) : δ :=
  match n, f d with
  | _ + 1, .ok d' => d'
  | _, _ => d

def atomic (k : κ) (f : δ → Except ε δ) : Proc δ σ κ ε Unit := write k (whole f) f

def attempt (m : Proc δ σ κ ε α) : Proc δ σ κ ε (Except ε α) := fun w =>
  match m w with
  | (.ok a, w') => (.ok (.ok a), w')
  | (.error (.failed e), w') => (.ok (.error e), w')
  | (.error .crashed, w') => (.error .crashed, w')

def forEach (f : α → Proc δ σ κ ε Unit) : List α → Proc δ σ κ ε Unit
  | [] => pure ()
  | a :: rest => do
    f a
    forEach f rest

/-- From `w` the procedure returns into `Q`, fails into `E` or crashes into `C`. -/
def wp (m : Proc δ σ κ ε α) (Q : α → Machine δ σ κ ε → Prop) (E : ε → Machine δ σ κ ε → Prop)
    (C : Machine δ σ κ ε → Prop) (w : Machine δ σ κ ε) : Prop :=
  match m w with
  | (.ok a, w') => Q a w'
  | (.error (.failed e), w') => E e w'
  | (.error .crashed, w') => C w'

section Rules

variable {m : Proc δ σ κ ε α} {f : α → Proc δ σ κ ε β} {w w' : Machine δ σ κ ε}
  {Q : α → Machine δ σ κ ε → Prop} {R : β → Machine δ σ κ ε → Prop}
  {E : ε → Machine δ σ κ ε → Prop} {C : Machine δ σ κ ε → Prop}

@[simp] theorem wp_pure {a : α} : (pure a : Proc δ σ κ ε α).wp Q E C w ↔ Q a w := Iff.rfl

@[simp] theorem wp_disk {Q : δ → Machine δ σ κ ε → Prop} :
    (disk : Proc δ σ κ ε δ).wp Q E C w ↔ Q w.disk w := Iff.rfl

@[simp] theorem wp_mem {Q : σ → Machine δ σ κ ε → Prop} :
    (mem : Proc δ σ κ ε σ).wp Q E C w ↔ Q w.mem w := Iff.rfl

@[simp] theorem wp_setMem {g : σ → σ} {Q : Unit → Machine δ σ κ ε → Prop} :
    (setMem g : Proc δ σ κ ε Unit).wp Q E C w ↔ Q () { w with mem := g w.mem } := Iff.rfl

@[simp] theorem wp_bind : (m >>= f).wp R E C w ↔ m.wp (fun a => (f a).wp R E C) E C w := by
  change (m.andThen f).wp R E C w ↔ _
  unfold wp andThen
  match m w with
  | (.ok a, w') => exact Iff.rfl
  | (.error (.failed e), w') => exact Iff.rfl
  | (.error .crashed, w') => exact Iff.rfl

@[simp] theorem wp_attempt {Q : Except ε α → Machine δ σ κ ε → Prop} :
    m.attempt.wp Q E C w ↔ m.wp (fun a => Q (.ok a)) (fun e => Q (.error e)) C w := by
  unfold wp attempt
  match m w with
  | (.ok a, w') => exact Iff.rfl
  | (.error (.failed e), w') => exact Iff.rfl
  | (.error .crashed, w') => exact Iff.rfl

theorem wp_ofExcept {r : Except ε α} (hok : ∀ a, r = .ok a → Q a w)
    (herr : ∀ e, r = .error e → E e w) : (ofExcept r : Proc δ σ κ ε α).wp Q E C w := by
  cases r with
  | ok a => exact hok a rfl
  | error e => exact herr e rfl

theorem wp_mono {Q' : α → Machine δ σ κ ε → Prop} {E' : ε → Machine δ σ κ ε → Prop}
    {C' : Machine δ σ κ ε → Prop} (h : m.wp Q E C w) (hQ : ∀ a w, Q a w → Q' a w)
    (hE : ∀ e w, E e w → E' e w) (hC : ∀ w, C w → C' w) : m.wp Q' E' C' w := by
  unfold wp at h ⊢
  match hm : m w, h with
  | (.ok a, w'), h => exact hQ a w' h
  | (.error (.failed e), w'), h => exact hE e w' h
  | (.error .crashed, w'), h => exact hC w' h

theorem wp_imp {Q' : α → Machine δ σ κ ε → Prop} (h : m.wp Q E C w)
    (hQ : ∀ a w, Q a w → Q' a w) : m.wp Q' E C w :=
  wp_mono h hQ (fun _ _ h => h) fun _ h => h

theorem wp_seq (h : m.wp Q E C w) (hf : ∀ a w, Q a w → (f a).wp R E C w) : (m >>= f).wp R E C w :=
  wp_bind.mpr (wp_imp h hf)

theorem wp_conj {Q' : α → Machine δ σ κ ε → Prop} {E' : ε → Machine δ σ κ ε → Prop}
    {C' : Machine δ σ κ ε → Prop} (h : m.wp Q E C w) (h' : m.wp Q' E' C' w) :
    m.wp (fun a w => Q a w ∧ Q' a w) (fun e w => E e w ∧ E' e w) (fun w => C w ∧ C' w) w := by
  unfold wp at h h' ⊢
  match hm : m w, h, h' with
  | (.ok a, w'), h, h' => exact ⟨h, h'⟩
  | (.error (.failed e), w'), h, h' => exact ⟨h, h'⟩
  | (.error .crashed, w'), h, h' => exact ⟨h, h'⟩

theorem wp_write {k : κ} {stage : Nat → δ → δ} {g : δ → Except ε δ}
    {Q : Unit → Machine δ σ κ ε → Prop} (hno : ∀ e, g w.disk = .error e → E e w)
    (hmade : ∀ d, g w.disk = .ok d → w.fate k = .made → Q () (w.wrote d))
    (hfails : ∀ d e n, g w.disk = .ok d → w.fate k = .fails e n → E e (w.wrote (stage n w.disk)))
    (hcrash : ∀ d n, g w.disk = .ok d → w.fate k = .crash n → C (w.wrote (stage n w.disk))) :
    (write k stage g : Proc δ σ κ ε Unit).wp Q E C w := by
  unfold wp write
  cases hg : g w.disk with
  | error e => exact hno e hg
  | ok d =>
    cases hf : w.fate k with
    | made => exact hmade d hg hf
    | fails e n => exact hfails d e n hg hf
    | crash n => exact hcrash d n hg hf

theorem wp_atomic {k : κ} {g : δ → Except ε δ} {Q : Unit → Machine δ σ κ ε → Prop}
    (hno : ∀ e, g w.disk = .error e → E e w)
    (hmade : ∀ d, g w.disk = .ok d → w.fate k = .made → Q () (w.wrote d))
    (hfails : ∀ d e n, g w.disk = .ok d → w.fate k = .fails e n →
      E e (w.wrote w.disk) ∧ E e (w.wrote d))
    (hcrash : ∀ d n, g w.disk = .ok d → w.fate k = .crash n → C (w.wrote w.disk) ∧ C (w.wrote d)) :
    (atomic k g : Proc δ σ κ ε Unit).wp Q E C w := by
  have hwhole : ∀ d n, g w.disk = .ok d → whole g n w.disk = w.disk ∨ whole g n w.disk = d := by
    intro d n hd
    cases n with
    | zero => exact .inl rfl
    | succ => exact .inr (by simp [whole, hd])
  refine wp_write hno hmade (fun d e n hd hf => ?_) (fun d n hd hf => ?_)
  · obtain h | h := hwhole d n hd
    · rw [h]
      exact (hfails d e n hd hf).1
    · rw [h]
      exact (hfails d e n hd hf).2
  · obtain h | h := hwhole d n hd
    · rw [h]
      exact (hcrash d n hd hf).1
    · rw [h]
      exact (hcrash d n hd hf).2

theorem wp_ok {a : α} (h : m.wp Q E C w) (hm : m w = (.ok a, w')) : Q a w' := by
  unfold wp at h
  rw [hm] at h
  exact h

end Rules

/-- However the procedure ends, the machine it began with and the one it ends with are related. -/
def Within (R : Machine δ σ κ ε → Machine δ σ κ ε → Prop) (m : Proc δ σ κ ε α) : Prop :=
  ∀ w, R w (m w).2

section Within

variable {R : Machine δ σ κ ε → Machine δ σ κ ε → Prop} {m : Proc δ σ κ ε α}
  {f : α → Proc δ σ κ ε β}

theorem Within.wp (h : m.Within R) (w : Machine δ σ κ ε) :
    m.wp (fun _ => R w) (fun _ => R w) (R w) w := by
  have hw := h w
  unfold Proc.wp
  match hm : m w with
  | (.ok a, w') => rwa [hm] at hw
  | (.error (.failed e), w') => rwa [hm] at hw
  | (.error .crashed, w') => rwa [hm] at hw

theorem Within.bind (htrans : ∀ {u v w}, R u v → R v w → R u w) (hm : m.Within R)
    (hf : ∀ a, (f a).Within R) : (m >>= f).Within R := by
  intro w
  change R w ((m.andThen f) w).2
  have hw := hm w
  unfold andThen
  match hr : m w with
  | (.ok a, w') =>
    rw [hr] at hw
    exact htrans hw (hf a w')
  | (.error h, w') => rwa [hr] at hw

theorem Within.attempt (hm : m.Within R) : m.attempt.Within R := by
  intro w
  have hw := hm w
  unfold Proc.attempt
  match hr : m w with
  | (.ok a, w') => rwa [hr] at hw
  | (.error (.failed e), w') => rwa [hr] at hw
  | (.error .crashed, w') => rwa [hr] at hw

theorem Within.forEach {f : α → Proc δ σ κ ε Unit} (hrefl : ∀ w, R w w)
    (htrans : ∀ {u v w}, R u v → R v w → R u w) (hf : ∀ a, (f a).Within R) (l : List α) :
    (forEach f l).Within R := by
  induction l with
  | nil => exact hrefl
  | cons a rest ih => exact Within.bind htrans (hf a) fun _ => ih

theorem within_ofExcept (hrefl : ∀ w, R w w) (r : Except ε α) :
    (ofExcept r : Proc δ σ κ ε α).Within R := by
  cases r with
  | ok | error => exact hrefl

theorem within_write {k : κ} {stage : Nat → δ → δ} {g : δ → Except ε δ} (hrefl : ∀ w, R w w)
    (hmade : ∀ w d, g w.disk = .ok d → R w (w.wrote d))
    (hcut : ∀ w n d, g w.disk = .ok d → R w (w.wrote (stage n w.disk))) :
    (write k stage g : Proc δ σ κ ε Unit).Within R := by
  intro w
  unfold write
  split
  · exact hrefl w
  · split
    · exact hmade w _ ‹_›
    · exact hcut w _ _ ‹_›
    · exact hcut w _ _ ‹_›

theorem within_atomic {k : κ} {g : δ → Except ε δ} (hrefl : ∀ w, R w w)
    (hmade : ∀ w d, g w.disk = .ok d → R w (w.wrote d)) (hcut : ∀ w, R w (w.wrote w.disk)) :
    (atomic k g : Proc δ σ κ ε Unit).Within R := by
  refine within_write hrefl hmade fun w n d hd => ?_
  cases n with
  | zero => exact hcut w
  | succ n =>
    rw [show whole g (n + 1) w.disk = d by simp [whole, hd]]
    exact hmade w d hd

end Within

end Proc

end Tetonic.Lib
