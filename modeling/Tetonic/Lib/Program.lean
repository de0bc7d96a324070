import Mathlib.Tactic.Common
set_option autoImplicit false

/-! Programs that talk to their surroundings. A program ends with a value or with an error, or
it asks for an operation and goes on with the answer; who answers, and what happens between two
operations, is left open. A `Discipline` is an automaton over the operations, and `wp` the
weakest precondition for keeping to it whatever the answers are. -/

namespace Tetonic.Lib

/-- A program over the operations `Op`, where `Ans o` is the type of the answers to `o`. -/
inductive Prog (Op : Type) (Ans : Op → Type) (ε α : Type) where
  | done (a : α)
  | stop (e : ε)
  | ask (o : Op) (k : Ans o → Prog Op Ans ε α)

namespace Prog

variable {Op : Type} {Ans : Op → Type} {ε α β : Type}

def andThen : Prog Op Ans ε α → (α → Prog Op Ans ε β) → Prog Op Ans ε β
  | done a, f => f a
  | stop e, _ => stop e
  | ask o k, f => ask o fun r => (k r).andThen f

instance : Monad (Prog Op Ans ε) where
  pure := done
  bind := andThen

def query (o : Op) : Prog Op Ans ε (Ans o) := ask o done

/-- The value of a result, or its error as the end of the program. -/
def ofExcept : Except ε α → Prog Op Ans ε α
  | .ok a => done a
  | .error e => stop e

def attempt : Prog Op Ans ε α → Prog Op Ans ε (Except ε α)
  | done a => done (.ok a)
  | stop e => done (.error e)
  | ask o k => ask o fun r => (k r).attempt

/-- Every operation the program can come to ask for is one of `ok`. -/
def Only (ok : Op → Prop) : Prog Op Ans ε α → Prop
  | done _ => True
  | stop _ => True
  | ask o k => ok o ∧ ∀ r, (k r).Only ok

section Only

variable {ok : Op → Prop} {p : Prog Op Ans ε α}

@[simp] theorem only_query {o : Op} : (query o : Prog Op Ans ε (Ans o)).Only ok ↔ ok o := by
  simp [query, Only]

@[simp] theorem only_ofExcept (r : Except ε α) : (ofExcept r : Prog Op Ans ε α).Only ok := by
  cases r <;> trivial

theorem Only.bind {f : α → Prog Op Ans ε β} (hp : p.Only ok) (hf : ∀ a, (f a).Only ok) :
    (p >>= f).Only ok := by
  induction p with
  | done a => exact hf a
  | stop => trivial
  | ask o k ih => exact ⟨hp.1, fun r => ih r (hp.2 r)⟩

theorem Only.ask {o : Op} {f : Ans o → Prog Op Ans ε β} (ho : ok o) (hf : ∀ r, (f r).Only ok) :
    (query o >>= f).Only ok := ⟨ho, hf⟩

/-- A branch on an answer. -/
theorem Only.branch {o : Op} {c : Ans o → Prop} [∀ r, Decidable (c r)] {p q : Prog Op Ans ε β}
    (ho : ok o) (hp : p.Only ok) (hq : q.Only ok) :
    (query o >>= fun r => if c r then p else q).Only ok := by
  refine .ask ho fun r => ?_
  split
  · exact hp
  · exact hq

theorem Only.attempt (hp : p.Only ok) : p.attempt.Only ok := by
  induction p with
  | done | stop => trivial
  | ask o k ih => exact ⟨hp.1, fun r => ih r (hp.2 r)⟩

theorem Only.mono {ok' : Op → Prop} (hp : p.Only ok) (h : ∀ o, ok o → ok' o) : p.Only ok' := by
  induction p with
  | done | stop => trivial
  | ask o k ih => exact ⟨h o hp.1, fun r => ih r (hp.2 r)⟩

end Only

end Prog

/-- Which operations are allowed in a state, and where an answer leads. -/
structure Discipline (Op : Type) (Ans : Op → Type) (σ : Type) where
  allowed : σ → Op → Prop
  after : σ → (o : Op) → Ans o → σ

namespace Prog

variable {Op : Type} {Ans : Op → Type} {ε α β σ : Type}

/-- From `s`, every operation is allowed when it is asked for, and the program ends in `Q`. -/
def wp (D : Discipline Op Ans σ) :
    Prog Op Ans ε α → (σ → Except ε α → Prop) → σ → Prop
  | done a, Q, s => Q s (.ok a)
  | stop e, Q, s => Q s (.error e)
  | ask o k, Q, s => D.allowed s o ∧ ∀ r, (k r).wp D Q (D.after s o r)

def Obeys (D : Discipline Op Ans σ) (p : Prog Op Ans ε α) (s : σ) : Prop :=
  p.wp D (fun _ _ => True) s

variable {D : Discipline Op Ans σ} {p : Prog Op Ans ε α} {s : σ}

theorem wp_bind {f : α → Prog Op Ans ε β} {Q : σ → Except ε β → Prop}
    {R : σ → Except ε α → Prop} (hp : p.wp D R s) (hok : ∀ s a, R s (.ok a) → (f a).wp D Q s)
    (herr : ∀ s e, R s (.error e) → Q s (.error e)) : (p >>= f).wp D Q s := by
  induction p generalizing s with
  | done a => exact hok s a hp
  | stop e => exact herr s e hp
  | ask o k ih => exact ⟨hp.1, fun r => ih r (hp.2 r)⟩

theorem wp_query_bind {o : Op} {f : Ans o → Prog Op Ans ε β} {Q : σ → Except ε β → Prop}
    (ho : D.allowed s o) (hf : ∀ r, (f r).wp D Q (D.after s o r)) : (query o >>= f).wp D Q s :=
  ⟨ho, hf⟩

theorem wp_attempt {Q : σ → Except ε (Except ε α) → Prop} :
    p.attempt.wp D Q s ↔ p.wp D (fun s r => Q s (.ok r)) s := by
  induction p generalizing s with
  | done | stop => exact Iff.rfl
  | ask o k ih => exact and_congr_right fun _ => forall_congr' fun r => ih r

theorem Only.wp {ok : Op → Prop} {Q : σ → Except ε α → Prop} (hp : p.Only ok)
    (hok : ∀ o, ok o → D.allowed s o ∧ ∀ r, D.after s o r = s) (hQ : ∀ r, Q s r) :
    p.wp D Q s := by
  induction p with
  | done | stop => exact hQ _
  | ask o k ih =>
    obtain ⟨hallowed, hafter⟩ := hok o hp.1
    refine ⟨hallowed, fun r => ?_⟩
    rw [hafter r]
    exact ih r (hp.2 r)

theorem Only.obeys {ok : Op → Prop} (hp : p.Only ok)
    (hok : ∀ o, ok o → D.allowed s o ∧ ∀ r, D.after s o r = s) : p.Obeys D s :=
  hp.wp hok fun _ => trivial

theorem Only.obeys_of_allowed {ok : Op → Prop} (hp : p.Only ok)
    (hok : ∀ s o, ok o → D.allowed s o) : p.Obeys D s := by
  induction p generalizing s with
  | done | stop => trivial
  | ask o k ih => exact ⟨hok s o hp.1, fun r => ih r (hp.2 r)⟩

theorem Obeys.only {ok : Op → Prop} (hp : p.Obeys D s) (h : ∀ s o, D.allowed s o → ok o) :
    p.Only ok := by
  induction p generalizing s with
  | done | stop => trivial
  | ask o k ih => exact ⟨h s o hp.1, fun r => ih r (hp.2 r)⟩

theorem Obeys.mono {allowed : σ → Op → Prop} (hp : p.Obeys D s)
    (h : ∀ s o, D.allowed s o → allowed s o) : p.Obeys ⟨allowed, D.after⟩ s := by
  induction p generalizing s with
  | done | stop => trivial
  | ask o k ih => exact ⟨h s o hp.1, fun r => ih r (hp.2 r)⟩

end Prog

end Tetonic.Lib
