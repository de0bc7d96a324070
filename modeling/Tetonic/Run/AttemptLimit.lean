import Tetonic.Run.Finalization
import Tetonic.Run.Winner
set_option autoImplicit false

/-! What may follow a winner, and how many attempts a task gets. Winning does not change the state
of the task, and `CreateAttempt` looks at that state only: a task that was won while it was leased,
or while it was running with speculation allowed, can be tried again. -/

namespace Tetonic.Run
open Lib OrdMap AttemptState

variable {P : Platform}

/-- An attempt wins only while its task is running and speculation is not allowed; and a run that
does not allow speculation asks for one attempt at a time. -/
structure WonWhileRunning (s : RunSnapshot) (e : RunEvent) : Prop where
  complete : ∀ (c : CompleteAttempt) (a : AttemptRecord) (task : TaskRecord),
    e = .command (.completeAttempt c) → s.attempts[c.attemptId]? = some a →
    a.state ≠ .succeeded → s.tasks[a.taskId]? = some task →
    task.state = .running ∧ s.speculation.allowed = false
  createRun : ∀ (c : CreateRun) (config : SpeculationConfig), e = .command (.createRun c) →
    c.speculation = some config → config.allowed = false → config.maxSimultaneousAttempts ≤ 1

/-- Once the task is won, none of its attempts goes on; and a suspended attempt is the only one
that has not ended. -/
structure TaskView.Orderly (v : TaskView) : Prop where
  winner : v.task.winningAttempt ≠ none → v.speculation.allowed = false ∧
    (v.task.state = .running ∨ v.task.state = .succeeded ∨ v.task.state = .canceled) ∧
    ∀ (id : AttemptId) (a : AttemptRecord), v.attempts[id]? = some a →
      isTerminalAttempt a.state = true
  suspended : ∀ (id : AttemptId) (a : AttemptRecord), v.attempts[id]? = some a →
    a.state = .suspended → v.task.state = .parked ∧
      ∀ (j : AttemptId) (r : AttemptRecord), v.attempts[j]? = some r → j ≠ id →
        isTerminalAttempt r.state = true

variable {id : AttemptId} {a a' : AttemptRecord} {st : AttemptState}
  {m : OrdMap AttemptId AttemptRecord}

section
variable {s : RunSnapshot} {e : RunEvent} {k : TaskId} {v v' : TaskView}

theorem TaskView.Orderly.of_clear (hwinner : v.task.winningAttempt = none)
    (hsuspended : ∀ (id : AttemptId) (a : AttemptRecord), v.attempts[id]? = some a →
      a.state ≠ .suspended) : v.Orderly :=
  ⟨fun h => absurd hwinner h, fun id a ha h => absurd h (hsuspended id a ha)⟩

theorem TaskView.Orderly.no_winner (h : v.Orderly) (ha : v.attempts[id]? = some a)
    (hgoes : isTerminalAttempt a.state = false) :
    v.task.winningAttempt = none := by
  by_contra hwinner
  have hended := (h.winner hwinner).2.2 id a ha
  rw [hgoes] at hended
  cases hended

theorem AttemptState.terminal_of_closed (h : st.isOpen = false) (hsuspended : st ≠ .suspended) :
    isTerminalAttempt st = true := by
  revert h hsuspended
  cases st <;> decide

theorem TaskView.Orderly.none_suspended (h : v.Orderly) (ha : v.attempts[id]? = some a)
    (hopen : a.state.isOpen = true) (j : AttemptId) (r : AttemptRecord)
    (hr : v.attempts[j]? = some r) : r.state ≠ .suspended := by
  intro hsuspended
  have hne : id ≠ j := by
    intro heq
    subst heq
    rw [ha] at hr
    cases hr
    rw [hsuspended] at hopen
    cases hopen
  have hended := (h.suspended j r hr hsuspended).2 id a ha hne
  rw [isOpen_not_terminal hopen] at hended
  cases hended

theorem TaskView.Orderly.none_suspended_won (h : v.Orderly) (hwon : v.task.winningAttempt ≠ none)
    (j : AttemptId) (r : AttemptRecord) (hr : v.attempts[j]? = some r) : r.state ≠ .suspended := by
  intro hsuspended
  have hended := (h.winner hwon).2.2 j r hr
  rw [hsuspended] at hended
  cases hended

theorem TaskView.Orderly.fails (h : v.Orderly) (hsucceeded : v.WinnerAgrees)
    {failure : FailureClass}
    (hfails : e.Fails s id a failure) (ha : v.attempts[id]? = some a) :
    (e.failing v.task).winningAttempt = none ∧
      ∀ (j : AttemptId) (r : AttemptRecord), v.attempts[j]? = some r → r.state ≠ .suspended := by
  have hstate := hfails.state
  unfold RunEvent.failing
  split at hstate
  · rename_i hrejects
    rw [if_pos hrejects]
    refine ⟨rfl, h.none_suspended_won ?_⟩
    rw [(hsucceeded id).mpr ⟨a, ha, hstate⟩]
    simp
  · rename_i hrejects
    rw [if_neg hrejects]
    have hopen := inFlight_open hstate
    exact ⟨h.no_winner ha (isOpen_not_terminal hopen), h.none_suspended ha hopen⟩

theorem AttemptState.failedEnd_not_suspended (h : st.failedEnd = true) : st ≠ .suspended := by
  intro hs
  rw [hs] at h
  cases h

theorem cancelAttempt_not_suspended (a : AttemptRecord) : (cancelAttempt a).state ≠ .suspended := by
  unfold cancelAttempt
  split
  · simp
  · rename_i hkept
    intro hs
    rw [hs] at hkept
    exact hkept rfl

theorem cancelAttempt_of_terminal (h : isTerminalAttempt a.state = true) : cancelAttempt a = a := by
  unfold cancelAttempt
  rw [cancelable_eq_not_terminal, h]
  rfl

theorem not_suspended_insert (ha' : a'.state ≠ .suspended)
    (h : ∀ (j : AttemptId) (r : AttemptRecord), m[j]? = some r → j ≠ id → r.state ≠ .suspended)
    (j : AttemptId) (r : AttemptRecord) (hr : (m.insert id a')[j]? = some r) :
    r.state ≠ .suspended := by
  obtain ⟨-, rfl⟩ | ⟨hne, hr⟩ := get_insert_cases hr
  · exact ha'
  · exact h j r hr (Ne.symm hne)

section
variable (hI : v.Orderly) (hwinner : v'.task.winningAttempt = v.task.winningAttempt)
  (hspec : v'.speculation = v.speculation)
  (hstate : v'.task.state = v.task.state ∨ v'.task.state = .canceled)
include hI hwinner hspec hstate

theorem TaskView.Orderly.moved
    (hattempts : ∀ (j : AttemptId) (r : AttemptRecord), v'.attempts[j]? = some r →
      ∃ r₀, v.attempts[j]? = some r₀ ∧
        (isTerminalAttempt r₀.state = true → isTerminalAttempt r.state = true) ∧
        (r.state = .suspended → r₀.state = .suspended ∧ v'.task.state = v.task.state)) :
    v'.Orderly := by
  refine ⟨?_, ?_⟩
  · intro hwon
    rw [hwinner] at hwon
    obtain ⟨hallowed, hwas, hended⟩ := hI.winner hwon
    refine ⟨hspec ▸ hallowed, ?_, ?_⟩
    · obtain hstate | hstate := hstate
      · rw [hstate]
        exact hwas
      · exact .inr (.inr hstate)
    · intro j r hr
      obtain ⟨r₀, hr₀, hterminal, -⟩ := hattempts j r hr
      exact hterminal (hended j r₀ hr₀)
  · intro j r hr hsuspended
    obtain ⟨r₀, hr₀, -, hkept⟩ := hattempts j r hr
    obtain ⟨hwas, hsame⟩ := hkept hsuspended
    obtain ⟨hparked, hothers⟩ := hI.suspended j r₀ hr₀ hwas
    refine ⟨hsame.trans hparked, ?_⟩
    intro i x hx hne
    obtain ⟨x₀, hx₀, hterminal, -⟩ := hattempts i x hx
    exact hterminal (hothers i x₀ hx₀ hne)

theorem TaskView.Orderly.canceled
    (hattempts : v'.attempts = v.attempts.map fun _ a => cancelAttempt a) : v'.Orderly := by
  refine hI.moved hwinner hspec hstate ?_
  intro j r hr
  rw [hattempts, get_map, Option.map_eq_some_iff] at hr
  obtain ⟨r₀, hr₀, rfl⟩ := hr
  refine ⟨r₀, hr₀, ?_, fun hsuspended => absurd hsuspended (cancelAttempt_not_suspended r₀)⟩
  intro hended
  rw [cancelAttempt_of_terminal hended]
  exact hended

end

theorem cancelTaskRecord_state (task : TaskRecord) :
    (cancelTaskRecord task).state = task.state ∨ (cancelTaskRecord task).state = .canceled := by
  unfold cancelTaskRecord
  split
  · exact .inr rfl
  · exact .inl rfl

section
variable (hI : v.Orderly)
include hI

theorem TaskView.Orderly.waits {task : TaskRecord} (h : v.task.rescheduled task) :
    ({ v with task := task } : TaskView).Orderly := by
  obtain rfl | ⟨hexec, st, -, rfl⟩ := h
  · exact hI
  · refine ⟨?_, ?_⟩
    · intro hwon
      obtain ⟨-, hstate, -⟩ := hI.winner hwon
      obtain hstate | hstate | hstate := hstate
      all_goals
        rw [hstate] at hexec
        cases hexec
    · intro id a ha hsuspended
      rw [(hI.suspended id a ha hsuspended).1] at hexec
      cases hexec

/-- The states in which `CreateAttempt` accepts the task are not those of a task that was won. -/
theorem TaskView.Orderly.unwon
    (hstate : v.task.state = .ready ∨ v.task.state = .leased ∨
      v.speculation.allowed = true ∧ v.task.state = .running) : v.task.winningAttempt = none := by
  by_contra hwon
  obtain ⟨hallowed, hwas, -⟩ := hI.winner hwon
  obtain hstate | hstate | ⟨hspec, -⟩ := hstate
  · rw [hstate] at hwas
    simp at hwas
  · rw [hstate] at hwas
    simp at hwas
  · rw [hspec] at hallowed
    cases hallowed

theorem TaskView.Orderly.adjusted (ha : v.attempts[id]? = some a)
    (hstate : a'.state = a.state ∨ a.state.isOpen = true ∧ a'.state.isOpen = true) :
    ({ v with attempts := v.attempts.insert id a' } : TaskView).Orderly := by
  refine hI.moved rfl rfl (.inl rfl) ?_
  intro j r hr
  obtain ⟨rfl, rfl⟩ | ⟨-, hr⟩ := get_insert_cases hr
  · refine ⟨a, ha, ?_⟩
    obtain hsame | ⟨hopen, hopen'⟩ := hstate
    · rw [hsame]
      exact ⟨fun hended => hended, fun hsuspended => ⟨hsuspended, rfl⟩⟩
    · refine ⟨?_, ?_⟩
      · intro hended
        rw [isOpen_not_terminal hopen] at hended
        cases hended
      · intro hsuspended
        rw [hsuspended] at hopen'
        cases hopen'
  · exact ⟨r, hr, fun hended => hended, fun hsuspended => ⟨hsuspended, rfl⟩⟩

/-- After a winner is recorded, its own record has ended and so has every other one: those that
were open are superseded, and no one was suspended. -/
theorem TaskView.Orderly.superseded (hkeys : ∀ (j : AttemptId) (r : AttemptRecord),
      v.attempts[j]? = some r → r.taskId = k)
    (ha : v.attempts[id]? = some a) (hopen : a.state.isOpen = true)
    (hdone : a'.state = .succeeded) (j : AttemptId) (r : AttemptRecord)
    (hr : ((v.attempts.insert id a').map (supersede k id))[j]? = some r) :
    isTerminalAttempt r.state = true := by
  rw [get_map, Option.map_eq_some_iff] at hr
  obtain ⟨r₀, hr₀, rfl⟩ := hr
  unfold supersede
  split
  · rfl
  · rename_i hkept
    obtain ⟨-, rfl⟩ | ⟨hne, hr₀⟩ := get_insert_cases hr₀
    · rw [hdone]
      rfl
    · refine terminal_of_closed ?_ (hI.none_suspended ha hopen j r₀ hr₀)
      rw [← Bool.not_eq_true]
      exact fun hopen => hkept ⟨hkeys j r₀ hr₀, Ne.symm hne, hopen⟩

end

theorem suspended_only (hothers : ∀ (j : AttemptId) (r : AttemptRecord), m[j]? = some r → j ≠ id →
      isTerminalAttempt r.state = true) {j : AttemptId} {r : AttemptRecord}
    (hr : (m.insert id a')[j]? = some r) (hsuspended : r.state = .suspended) : id = j := by
  by_contra hne
  rw [get_insert_ne _ _ hne] at hr
  have hended := hothers j r hr (Ne.symm hne)
  rw [hsuspended] at hended
  cases hended

theorem not_suspended_of_ended (hothers : ∀ (j : AttemptId) (r : AttemptRecord), m[j]? = some r →
      j ≠ id → isTerminalAttempt r.state = true) (ha' : a'.state ≠ .suspended) (j : AttemptId)
    (r : AttemptRecord) (hr : (m.insert id a')[j]? = some r) : r.state ≠ .suspended := by
  intro hsuspended
  obtain rfl := suspended_only hothers hr hsuspended
  rw [get_insert_self] at hr
  cases hr
  exact ha' hsuspended

theorem TaskStep.orderly (hc : WonWhileRunning s e) (hv : s.view k = some v)
    (hsucceeded : v.WinnerAgrees) (hI : v.Orderly) (h : TaskStep s e k v v') : v'.Orderly := by
  cases h with
  | wait h => exact hI.waits h
  | note | claimFinalization => exact ⟨hI.winner, hI.suspended⟩
  | @create c a he hstate hcount hopen hid hnew =>
    refine .of_clear (hI.unwon hstate) (not_suspended_insert (by rw [hnew.state]; simp) ?_)
    intro j r hr _ hsuspended
    rw [(hI.suspended j r hr hsuspended).1] at hstate
    simp at hstate
  | adjust ha hstate => exact hI.adjusted ha hstate
  | @claimExecution c a a' he ha hstate hrunning =>
    have hopen : a.state.isOpen = true := by rw [hstate]; rfl
    refine .of_clear (hI.no_winner ha (isOpen_not_terminal hopen)) ?_
    exact not_suspended_insert (by rw [hrunning]; simp)
      (fun j r hr _ => hI.none_suspended ha hopen j r hr)
  | @suspend id a a' ha hstate hsuspended hrunning hothers =>
    have hnone := hI.no_winner ha (by rw [hstate]; rfl)
    refine ⟨fun hwon => absurd hnone hwon, ?_⟩
    intro j r hr hparked
    obtain rfl := suspended_only hothers hr hparked
    refine ⟨rfl, ?_⟩
    intro i x hx hne
    rw [get_insert_ne _ _ (Ne.symm hne)] at hx
    exact hothers i x hx hne
  | @resume id a a' deadline ha hstate hstarting hparked hothers =>
    refine .of_clear (hI.no_winner ha (by rw [hstate]; rfl)) ?_
    exact not_suspended_of_ended hothers (by rw [hstarting]; simp)
  | @complete c a a' version he ha hfly hdone =>
    have hopen := inFlight_open hfly
    obtain ⟨task, htask, rfl⟩ := view_eq.mp hv
    obtain ⟨hget, rfl⟩ := attemptsOf_get.mp ha
    have hunfinished : a.state ≠ .succeeded := by
      intro hsucc
      rw [hsucc] at hfly
      cases hfly
    obtain ⟨hrunning, hallowed⟩ := hc.complete c a task he hget hunfinished htask
    have hended := hI.superseded (fun _ _ hr => (attemptsOf_get.mp hr).2) ha hopen hdone
    refine ⟨fun _ => ⟨hallowed, .inl hrunning, hended⟩, ?_⟩
    intro j r hr hsuspended
    have hstopped := hended j r hr
    rw [hsuspended] at hstopped
    cases hstopped
  | @retry id a a' failure task reason retryAt hfails ha hend hretry h =>
    obtain ⟨hnone, hclear⟩ := hI.fails hsucceeded hfails ha
    refine .of_clear ?_ ?_
    · rw [h.idle.winningAttempt]
      exact hnone
    · exact not_suspended_insert (failedEnd_not_suspended hend) (fun j r hr _ => hclear j r hr)
  | @giveUp id a a' failure reason hfails ha hend =>
    obtain ⟨hnone, hclear⟩ := hI.fails hsucceeded hfails ha
    exact .of_clear hnone (not_suspended_insert (failedEnd_not_suspended hend)
      (fun j r hr _ => hclear j r hr))
  | cancelTask => exact hI.canceled rfl rfl (.inr rfl) rfl
  | cancelRun =>
    exact hI.canceled (cancelTaskRecord_idle v.task).2 rfl (cancelTaskRecord_state v.task) rfl
  | @accept c a he ha hstate =>
    have hwon : v.task.winningAttempt ≠ none := by
      rw [(hsucceeded _).mpr ⟨a, ha, hstate⟩]
      simp
    obtain ⟨hallowed, -, hended⟩ := hI.winner hwon
    exact ⟨fun _ => ⟨hallowed, .inr (.inl rfl), hended⟩,
      fun j r hr hsuspended => absurd hsuspended (hI.none_suspended_won hwon j r hr)⟩

def TaskView.Live (v : TaskView) : Prop :=
  ∃ (id : AttemptId) (a : AttemptRecord), v.attempts[id]? = some a ∧ a.state.dead = false

def TaskState.finished (st : TaskState) : Bool := !taskIsExecutable st && !taskIsLocked st

/-- Every attempt but a live one has been counted as a failure, unless the task is finished and
has no live attempt, and so will not be tried again. -/
structure TaskView.Bounded (v : TaskView) : Prop where
  total : v.attempts.size ≤ v.task.binding.retryPolicy.maxAttempts
  counted : v.attempts.size ≤ v.task.retry.attemptCount ∨
    v.Live ∧ v.attempts.size ≤ v.task.retry.attemptCount + 1 ∨
    ¬ v.Live ∧ v.task.state.finished = true

/-- Neither the number of attempts nor what it is compared with changes. -/
structure TaskView.SameNumbers (v v' : TaskView) : Prop where
  size : v'.attempts.size = v.attempts.size
  count : v'.task.retry.attemptCount = v.task.retry.attemptCount
  limit : v'.task.binding.retryPolicy.maxAttempts = v.task.binding.retryPolicy.maxAttempts

section
variable (h : v.Bounded)
include h

theorem TaskView.Bounded.of_live (hlive : v.Live) :
    v.attempts.size ≤ v.task.retry.attemptCount + 1 := by
  obtain hcounted | ⟨-, hcounted⟩ | ⟨hdead, -⟩ := h.counted
  · omega
  · exact hcounted
  · exact absurd hlive hdead

theorem TaskView.Bounded.work (hsame : v.SameNumbers v') (hlive : v.Live)
    (hlive' : v'.Live) : v'.Bounded := by
  have hcounted := h.of_live hlive
  refine ⟨?_, .inr (.inl ⟨hlive', ?_⟩)⟩
  · rw [hsame.size, hsame.limit]
    exact h.total
  · rw [hsame.size, hsame.count]
    exact hcounted

theorem TaskView.Bounded.keep (hsame : v.SameNumbers v')
    (hlive : v'.Live ↔ v.Live) (hstate : v.task.state.finished = true →
      v'.task.state.finished = true) : v'.Bounded := by
  refine ⟨?_, ?_⟩
  · rw [hsame.size, hsame.limit]
    exact h.total
  · rw [hsame.size, hsame.count, hlive]
    obtain hcounted | hcounted | ⟨hdead, hfinished⟩ := h.counted
    · exact .inl hcounted
    · exact .inr (.inl hcounted)
    · exact .inr (.inr ⟨hdead, hstate hfinished⟩)

theorem TaskView.Bounded.finish (hsame : v.SameNumbers v')
    (hlive : v'.Live → v.Live) (hfinished : v'.task.state.finished = true) : v'.Bounded := by
  by_cases hafter : v'.Live
  · exact h.work hsame (hlive hafter) hafter
  · refine ⟨?_, .inr (.inr ⟨hafter, hfinished⟩)⟩
    rw [hsame.size, hsame.limit]
    exact h.total

theorem TaskView.Bounded.failure (hlive : v.Live) (hsize : v'.attempts.size = v.attempts.size)
    (hcount : v'.task.retry.attemptCount = v.task.retry.attemptCount + 1)
    (hlimit : v'.task.binding.retryPolicy.maxAttempts =
      v.task.binding.retryPolicy.maxAttempts) : v'.Bounded := by
  refine ⟨?_, .inl ?_⟩
  · rw [hsize, hlimit]
    exact h.total
  · rw [hsize, hcount]
    exact h.of_live hlive

end

theorem live_insert (h : a'.state.dead = false) :
    ∃ (j : AttemptId) (r : AttemptRecord), (m.insert id a')[j]? = some r ∧ r.state.dead = false :=
  ⟨id, a', get_insert_self _ _ _, h⟩

theorem TaskView.Bounded.update (h : v.Bounded) (ha : v.attempts[id]? = some a)
    (hlive : a.state.dead = false) (hlive' : a'.state.dead = false) {task : TaskRecord}
    (hcount : task.retry.attemptCount = v.task.retry.attemptCount)
    (hlimit : task.binding.retryPolicy.maxAttempts = v.task.binding.retryPolicy.maxAttempts) :
    ({ v with task, attempts := v.attempts.insert id a' } : TaskView).Bounded :=
  h.work ⟨size_insert_of_get ha _, hcount, hlimit⟩ ⟨id, a, ha, hlive⟩ (live_insert hlive')

theorem live_update_iff (ha : v.attempts[id]? = some a) (hsame : a'.state.dead = a.state.dead) :
    TaskView.Live { v with attempts := v.attempts.insert id a' } ↔ v.Live := by
  refine ⟨?_, ?_⟩
  · intro h
    obtain ⟨j, r, hr, hlive⟩ := h
    obtain ⟨rfl, rfl⟩ | ⟨-, hr⟩ := get_insert_cases hr
    · exact ⟨id, a, ha, hsame.symm.trans hlive⟩
    · exact ⟨j, r, hr, hlive⟩
  · intro h
    obtain ⟨j, r, hr, hlive⟩ := h
    by_cases hj : id = j
    · subst hj
      rw [ha] at hr
      cases hr
      exact live_insert (hsame.trans hlive)
    · exact ⟨j, r, (get_insert_ne _ _ hj).trans hr, hlive⟩

theorem cancelTaskRecord_numbers (task : TaskRecord) :
    (cancelTaskRecord task).retry = task.retry ∧ (cancelTaskRecord task).binding = task.binding ∧
      (cancelTaskRecord task).state.finished = true := by
  unfold cancelTaskRecord
  split
  · exact ⟨rfl, rfl, rfl⟩
  · rename_i hkept
    refine ⟨rfl, rfl, ?_⟩
    simpa [TaskState.finished, not_or] using hkept

theorem live_of_canceled (h : ∃ (j : AttemptId) (r : AttemptRecord),
    (v.attempts.map fun _ a => cancelAttempt a)[j]? = some r ∧ r.state.dead = false) :
    v.Live := by
  obtain ⟨j, r, hr, hlive⟩ := h
  rw [get_map, Option.map_eq_some_iff] at hr
  obtain ⟨r₀, hr₀, rfl⟩ := hr
  refine ⟨j, r₀, hr₀, ?_⟩
  unfold cancelAttempt at hlive
  split at hlive
  · cases hlive
  · exact hlive

theorem RunEvent.Fails.live {failure : FailureClass} (h : e.Fails s id a failure) :
    a.state.dead = false := by
  have hstate := h.state
  split at hstate
  · rw [hstate]
    rfl
  · revert hstate
    cases a.state <;> decide

theorem AttemptState.open_not_dead (h : st.isOpen = true) : st.dead = false := by
  revert h
  cases st <;> decide

theorem AttemptState.dead_of_closed (hopen : st.isOpen = false) (hsuspended : st ≠ .suspended)
    (hsucceeded : st ≠ .succeeded) : st.dead = true := by
  revert hopen hsuspended hsucceeded
  cases st <;> decide

theorem TaskView.Orderly.not_live (hI : v.Orderly) (hsucceeded : v.WinnerAgrees)
    (hstate : v.task.state = .ready ∨ v.task.state = .leased)
    (hopen : ∀ (id : AttemptId) (a : AttemptRecord), v.attempts[id]? = some a →
      a.state.isOpen = false) : ¬ v.Live := by
  intro hlive
  obtain ⟨id, a, ha, hlive⟩ := hlive
  have hdead : a.state.dead = true := by
    refine dead_of_closed (hopen id a ha) ?_ ?_
    · intro hsuspended
      rw [(hI.suspended id a ha hsuspended).1] at hstate
      simp at hstate
    · intro hsucc
      have hwon : v.task.winningAttempt ≠ none := by
        rw [(hsucceeded id).mpr ⟨a, ha, hsucc⟩]
        simp
      obtain ⟨-, hwas, -⟩ := hI.winner hwon
      obtain hstate | hstate := hstate
      all_goals
        rw [hstate] at hwas
        simp at hwas
  rw [hdead] at hlive
  cases hlive

theorem TaskStep.bounded (hone : v.speculation.allowed = false ∧
      v.speculation.maxSimultaneousAttempts ≤ 1) (hsucceeded : v.WinnerAgrees)
    (hI : v.Orderly) (hB : v.Bounded) (h : TaskStep s e k v v') : v'.Bounded := by
  cases h with
  | @wait task h =>
    obtain rfl | ⟨hexec, st, -, rfl⟩ := h
    · exact hB
    · refine hB.keep ⟨rfl, rfl, rfl⟩ Iff.rfl ?_
      intro hfinished
      simp [TaskState.finished, hexec] at hfinished
  | note | claimFinalization => exact hB.keep ⟨rfl, rfl, rfl⟩ Iff.rfl (fun h => h)
  | @create c a he hstate hcount hopen hid hnew =>
    have hwaiting : v.task.state = .ready ∨ v.task.state = .leased := by
      obtain hstate | hstate | ⟨hallowed, -⟩ := hstate
      · exact .inl hstate
      · exact .inr hstate
      · rw [hone.1] at hallowed
        cases hallowed
    have hidle := hI.not_live hsucceeded hwaiting (hopen.resolve_left (by omega))
    have hcounted : v.attempts.size ≤ v.task.retry.attemptCount := by
      obtain hcounted | ⟨hlive, -⟩ | ⟨-, hfinished⟩ := hB.counted
      · exact hcounted
      · exact absurd hlive hidle
      · obtain hwaiting | hwaiting := hwaiting
        all_goals
          rw [hwaiting] at hfinished
          cases hfinished
    have hsize := size_insert_of_none hid a
    refine ⟨?_, .inr (.inl ⟨live_insert (by rw [hnew.state]; rfl), ?_⟩)⟩
    all_goals
      dsimp only
      omega
  | @adjust id a a' ha hstate =>
    refine hB.keep ⟨size_insert_of_get ha _, rfl, rfl⟩ (live_update_iff ha ?_) (fun h => h)
    obtain hsame | ⟨hopen, hopen'⟩ := hstate
    · rw [hsame]
    · rw [open_not_dead hopen, open_not_dead hopen']
  | @claimExecution c a a' he ha hstate hrunning =>
    exact hB.update ha (by rw [hstate]; rfl) (by rw [hrunning]; rfl) rfl rfl
  | @suspend id a a' ha hstate hsuspended =>
    exact hB.update ha (by rw [hstate]; rfl) (by rw [hsuspended]; rfl) rfl rfl
  | @resume id a a' deadline ha hstate hstarting =>
    exact hB.update ha (by rw [hstate]; rfl) (by rw [hstarting]; rfl) rfl rfl
  | @complete c a a' version he ha hfly hdone =>
    have hsize := (Std.ExtTreeMap.size_map (f := supersede k c.attemptId)).trans
      (size_insert_of_get ha a')
    refine hB.work ⟨hsize, rfl, rfl⟩
      ⟨_, a, ha, open_not_dead (inFlight_open hfly)⟩
      ⟨c.attemptId, a', ?_, by rw [hdone]; rfl⟩
    dsimp only
    rw [get_map, get_insert_self, Option.map_some]
    simp [supersede]
  | @retry id a a' failure task reason retryAt hfails ha hend hretry h =>
    obtain ⟨hbinding, hcount⟩ := e.failing_retry v.task
    have hlimit := congrArg (fun b => b.retryPolicy.maxAttempts) hbinding
    have hsize := size_insert_of_get ha a'
    have hlive : v.Live := ⟨id, a, ha, hfails.live⟩
    obtain rfl | ⟨-, st, -, rfl⟩ := h
    all_goals exact hB.failure hlive hsize (congrArg (· + 1) hcount) hlimit
  | @giveUp id a a' failure reason hfails ha =>
    obtain ⟨hbinding, hcount⟩ := e.failing_retry v.task
    have hlimit := congrArg (fun b => b.retryPolicy.maxAttempts) hbinding
    exact hB.failure ⟨id, a, ha, hfails.live⟩ (size_insert_of_get ha a')
      (congrArg (· + 1) hcount) hlimit
  | cancelTask =>
    exact hB.finish ⟨Std.ExtTreeMap.size_map, rfl, rfl⟩ live_of_canceled rfl
  | cancelRun =>
    obtain ⟨hcount, hbinding, hfinished⟩ := cancelTaskRecord_numbers v.task
    exact hB.finish ⟨Std.ExtTreeMap.size_map, congrArg (·.attemptCount) hcount,
      congrArg (fun b => b.retryPolicy.maxAttempts) hbinding⟩ live_of_canceled hfinished
  | @accept => exact hB.finish ⟨rfl, rfl, rfl⟩ (fun h => h) rfl

end

/-- A run that does not allow speculation asks for one attempt at a time. -/
def RunSnapshot.OneAtATime (s : RunSnapshot) : Prop :=
  s.speculation.allowed = false → s.speculation.maxSimultaneousAttempts ≤ 1

theorem Effect.oneAtATime {s t : RunSnapshot} {e : RunEvent} (h : Effect s e t)
    (hc : WonWhileRunning s e) (hI : s.OneAtATime) : t.OneAtATime := by
  have hpass : ∀ {u w : RunSnapshot}, u.speculation = s.speculation → Rescheduled u w →
      w.OneAtATime := by
    intro u w hu hw
    rw [hw.rest]
    unfold RunSnapshot.OneAtATime
    rw [hu]
    exact hI
  cases h with
  | @createRun c =>
    cases hspec : c.speculation with
    | none => simpa [RunSnapshot.OneAtATime, hspec] using hI
    | some config => simpa [RunSnapshot.OneAtATime, hspec] using hc.createRun c config rfl hspec
  | startRun | addTask | addDependency =>
    exact hpass (by rfl) (recomputeBlockedReady_rescheduled _)
  | failed _ hhandled =>
    obtain ⟨_, _, hr⟩ := hhandled.rescheduled
    exact hpass (by rfl) hr
  | _ => exact hI

theorem ReachableWhere.orderly {s : RunSnapshot} (h : ReachableWhere P WonWhileRunning s)
    {k : TaskId} {v : TaskView} (hv : s.view k = some v) :
    v.Orderly ∧ (v.speculation.allowed = false → v.Bounded) := by
  have hone : ∀ {s}, ReachableWhere P WonWhileRunning s → s.OneAtATime := fun hs =>
    hs.invariant (I := RunSnapshot.OneAtATime) (fun _ _ _ => Nat.le_refl 1) (fun _ _ _ hI => hI)
      (fun _ hc hI heffect => heffect.oneAtATime hc hI)
  refine h.task_invariant (I := fun v => v.Orderly ∧ (v.speculation.allowed = false → v.Bounded))
    ?_ ?_ hv
  · intro k v hnew
    obtain ⟨⟨binding, hresched⟩, hnone⟩ := hnew
    have hget : ∀ (id : AttemptId) (a : AttemptRecord), v.attempts[id]? ≠ some a := by
      simp [hnone]
    refine ⟨.of_clear hresched.idle.winningAttempt fun id a ha => absurd ha (hget id a), ?_⟩
    intro _
    constructor
    · simp [hnone]
    · exact .inl (by simp [hnone])
  · intro s e k v v' hs hc hv hI hstep
    have hsucceeded := hs.winnerAgrees hv
    have hspec : v'.speculation = v.speculation := by
      cases hstep with
      | _ => rfl
    obtain ⟨task, -, rfl⟩ := view_eq.mp hv
    refine ⟨hstep.orderly hc hv hsucceeded hI.1, ?_⟩
    intro hallowed
    rw [hspec] at hallowed
    exact hstep.bounded ⟨hallowed, hone hs hallowed⟩ hsucceeded hI.1 (hI.2 hallowed)

theorem winner_ends_work (P : Platform) {s : RunSnapshot} (h : ReachableWhere P WonWhileRunning s)
    {k : TaskId} {task : TaskRecord} (htask : s.tasks[k]? = some task) :
    (task.winningAttempt ≠ none →
      (∀ c : CreateAttempt, c.taskId = k → c.deliveryKey.bind (s.deliveryIndex[·]?) = none →
        ∃ error, applyCommand P s (.createAttempt c) = .error error) ∧
      ∀ (c : StartAttempt) (a : AttemptRecord), s.attempts[c.attemptId]? = some a →
        a.taskId = k → ∃ error, applyCommand P s (.claimExecution c) = .error error) ∧
    (s.speculation.allowed = false →
      (attemptsOf s.attempts k).size ≤ task.binding.retryPolicy.maxAttempts) := by
  obtain ⟨horderly, hbounded⟩ := h.orderly (view_eq.mpr ⟨task, htask, rfl⟩)
  refine ⟨?_, fun hallowed => (hbounded hallowed).total⟩
  intro hwon
  obtain ⟨hallowed, hstate, hended⟩ := horderly.winner hwon
  constructor
  · intro c hk hkey
    cases happly : applyCommand P s (.createAttempt c) with
    | error error => exact ⟨error, rfl⟩
    | ok =>
      exfalso
      simp only [applyCommand, applyCreateAttempt, bind_eq_ok, hkey, findTask_eq_ok, hk, htask,
        refuseIf_eq_ok] at happly
      obtain ⟨-, -, task', hsame, -, hready, -⟩ := happly
      cases hsame
      dsimp only at hallowed hstate
      rw [hallowed] at hready
      obtain hstate | hstate | hstate := hstate
      all_goals
        rw [hstate] at hready
        simp at hready
  · intro c a ha hk
    cases happly : applyCommand P s (.claimExecution c) with
    | error error => exact ⟨error, rfl⟩
    | ok =>
      exfalso
      simp only [applyCommand, applyClaimExecution, bind_eq_ok, findAttempt_eq_ok, ha,
        refuseIf_eq_ok] at happly
      obtain ⟨-, -, a', hsame, -, hstarting, -⟩ := happly
      cases hsame
      have hterminal := hended c.attemptId a (attemptsOf_get.mpr ⟨ha, hk⟩)
      rw [not_or, not_not] at hstarting
      rw [hstarting.1] at hterminal
      cases hterminal

namespace Demo

def onceOnly : RunCommand := .createRun {
  envelope := envelope "create" 1
  sessionId := none
  runId := "run"
  rootTaskId := "task"
  rootBinding := { binding with retryPolicy := { RetryPolicy.default with maxAttempts := 1 } }
  speculation := none
  jobSpec := none }

def winTest (s : RunSnapshot) : RunCommand → Bool
  | .completeAttempt c =>
    (s.attempts[c.attemptId]?.bind fun a => s.tasks[a.taskId]?).all fun task =>
      decide (task.state = .running ∧ s.speculation.allowed = false)
  | .createRun c => c.speculation.isNone
  | _ => true

theorem winTest_running (s : RunSnapshot) (c : RunCommand) (h : winTest s c = true) :
    WonWhileRunning s (.command c) := by
  constructor
  · intro c' a task he ha _ htask
    cases he
    simpa [winTest, ha, htask] using h
  · intro c' config he hsome _
    cases he
    simp [winTest, hsome] at h

end Demo
open Demo

theorem winner_ends_work_once :
    ∃ s task, ReachableWhere platform WonWhileRunning s ∧ s.tasks["task"]? = some task ∧
      task.winningAttempt = some "a" ∧
      (∃ error, applyCommand platform s (createAttempt "b") = .error error) ∧
      (∃ error, applyCommand platform s (claimExecution "a" 1) = .error error) ∧
      (attemptsOf s.attempts "task").size ≤ task.binding.retryPolicy.maxAttempts := by
  have hs := ran_reachableWhere winTest_running [onceOnly, startRun, createAttempt "a",
    leaseAttempt "a" 1 500, startAttempt "a" 1, claimExecution "a" 1, completeAttempt "a" 1]
    (by decide +kernel) rfl
  obtain ⟨hended, hlimit⟩ := winner_ends_work platform hs (k := "task") rfl
  obtain ⟨hcreate, hclaim⟩ := hended (by simp)
  exact ⟨_, _, hs, rfl, rfl, hcreate _ rfl rfl, hclaim _ _ rfl rfl, hlimit rfl⟩

/-- An attempt hands in its result before anyone claims to execute it. The task has its winner and
is still leased, so another attempt is created and claimed, which is one more than the task may
have. -/
theorem work_after_winner :
    ∃ s t u task,
      Reachable platform s ∧ s.speculation.allowed = false ∧ s.tasks["task"]? = some task ∧
      task.winningAttempt = some "a" ∧ task.binding.retryPolicy.maxAttempts = 1 ∧
      Accepted platform s [createAttempt "b"] t ∧ (attemptsOf t.attempts "task").size = 2 ∧
      Accepted platform t [leaseAttempt "b" 2 500, startAttempt "b" 2, claimExecution "b" 2] u ∧
      ∃ task', u.tasks["task"]? = some task' ∧ task'.winningAttempt = some "a" := by
  have hs := ran_reachable [onceOnly, startRun, createAttempt "a", leaseAttempt "a" 1 500,
    completeAttempt "a" 1] rfl
  exact ⟨_, _, _, _, hs, rfl, rfl, rfl, rfl, runCommands_accepted rfl, by decide +kernel,
    runCommands_accepted rfl, _, rfl, rfl⟩

end Tetonic.Run
