import Tetonic.Context.Expansion
import Mathlib.Data.List.Perm.Subperm
set_option autoImplicit false

/-! What an expansion handle is good for, over whole runs of the pipeline. Every use of a handle has
a number of its own, so that no more expansions can succeed than there are numbers; a result is
released only while its handle is on file, and the handles of a revoked session never are. -/

namespace Tetonic.Context
open Lib OrdMap

variable {p : Pipeline}
open Run (DataClass WorkspaceVersion)

def Task.flight : Task → Option Flight
  | .fetching f | .fetched f _ => some f
  | .compiling _ | .retrieving _ | .packed _ _ | .entering _ | .entered _ | .compiled | .expanded
  | .failed _ | .gone => none

def Flight.Apart (f f' : Flight) : Prop :=
  f.request.handleId = f'.request.handleId → f.earlier ≠ f'.earlier

variable {f : Flight}

theorem Flight.Apart.symm {f' : Flight} (h : f.Apart f') : f'.Apart f := by
  intro hid
  exact Ne.symm (h hid.symm)

variable {p' : Pipeline} {task : Task} {session : String} {t : Nat} {results : List ContextEvidence}
  {handles : List ExpansionHandle}

namespace Pipeline

def flightAt (p : Pipeline) (t : Nat) : Option Flight := p.tasks[t]?.bind Task.flight

/-- The use is by the owner of the handle, and it was counted. -/
structure Flies (p : Pipeline) (f : Flight) : Prop where
  issued : ∃ issue, p.issued[f.request.handleId]? = some issue ∧ issue.handle = f.handle
  owner : f.handle.sessionId = f.request.sessionId ∧ f.handle.runId = f.request.runId ∧
    f.handle.taskId = f.request.taskId
  bounded : f.earlier < f.handle.maxUses
  counted : ∀ state, p.handles[f.request.handleId]? = some state → f.earlier < state.uses

section
variable (F : CaseFolding) (digest : String → String)

def Shows (handle : ExpansionHandle) (results : List ContextEvidence) : Prop :=
  ∀ ev ∈ results, Within F handle.dataClassCeiling handle.allowedPaths handle.excludedPaths ev

def TaskSound (p : Pipeline) : Task → Prop
  | .packed request handles => ∀ handle ∈ handles, IssuedFor request handle
  | .fetching f => Flies p f
  | .fetched f results => Flies p f ∧ Shows F f.handle results
  | .compiling _ | .retrieving _ | .entering _ | .entered _ | .compiled | .expanded | .failed _
  | .gone => True

structure Sound (p : Pipeline) : Prop where
  limit : p.handles.size ≤ p.limits.maxLiveHandles
  unrevoked : ∀ (id : Nat) (state : HandleState), p.handles[id]? = some state →
    p.sessionRevoked state.handle.sessionId = false
  handles : ∀ (id : Nat) (state : HandleState), p.handles[id]? = some state →
    (∃ issue, p.issued[id]? = some issue ∧ issue.handle = state.handle) ∧
      state.uses ≤ state.handle.maxUses
  issued : ∀ (id : Nat) (issue : Issue), p.issued[id]? = some issue →
    id < p.nextHandle ∧ IssuedFor issue.request issue.handle
  tasks : ∀ (t : Nat) (task : Task), p.tasks[t]? = some task → TaskSound F p task
  yields : ∀ y ∈ p.yields, Flies p y.flight ∧ Shows F y.flight.handle y.results
  apart : ∀ t t' f f', p.flightAt t = some f → p.flightAt t' = some f' → t ≠ t' → f.Apart f'
  spent : ∀ t f, p.flightAt t = some f → ∀ y ∈ p.yields, f.Apart y.flight
  once : p.yields.Pairwise fun y y' => y.flight.Apart y'.flight

theorem Sound.new (limits : ExpansionLimits) (now : Int) : Sound F (Pipeline.new limits now) := by
  refine ⟨?_, ?_, ?_, ?_, ?_, ?_, ?_, ?_, ?_⟩ <;> simp [Pipeline.new, flightAt]

variable {F}

theorem Flies.shrink (h : Flies p f)
    (hhandles : ∀ (id : Nat) (state : HandleState), p'.handles[id]? = some state →
      p.handles[id]? = some state) (hissued : p'.issued = p.issued) : Flies p' f := by
  refine ⟨?_, h.owner, h.bounded, ?_⟩
  · rw [hissued]
    exact h.issued
  · intro state hstate
    exact h.counted state (hhandles _ state hstate)

theorem TaskSound.mono (h : TaskSound F p task) (hflies : ∀ f, Flies p f → Flies p' f) :
    TaskSound F p' task := by
  cases task with
  | packed => exact h
  | fetching => exact hflies _ h
  | fetched => exact ⟨hflies _ h.1, h.2⟩
  | _ => trivial

/-- A change that takes handles away, perhaps, and leaves what was issued and yielded. -/
structure Trims (p p' : Pipeline) : Prop where
  limits : p'.limits = p.limits
  size : p'.handles.size ≤ p.handles.size
  handles : ∀ (id : Nat) (state : HandleState), p'.handles[id]? = some state →
    p.handles[id]? = some state
  issued : p'.issued = p.issued
  nextHandle : p'.nextHandle = p.nextHandle
  yields : p'.yields = p.yields

theorem Sound.trim (h : Sound F p) (htrims : Trims p p')
    (hunrevoked : ∀ (id : Nat) (state : HandleState), p'.handles[id]? = some state →
      p'.sessionRevoked state.handle.sessionId = false)
    (htasks : ∀ (t : Nat) (task : Task), p'.tasks[t]? = some task → p.tasks[t]? = some task ∨
      (TaskSound F p' task ∧ ∀ f, task.flight = some f → p.flightAt t = some f)) : Sound F p' := by
  have hflights : ∀ t f, p'.flightAt t = some f → p.flightAt t = some f := by
    intro t f hf
    obtain ⟨task, htask, hflight⟩ := Option.bind_eq_some_iff.mp hf
    obtain hold | ⟨-, hkept⟩ := htasks t task htask
    · exact Option.bind_eq_some_iff.mpr ⟨task, hold, hflight⟩
    · exact hkept f hflight
  refine ⟨?_, hunrevoked, ?_, ?_, ?_, ?_, ?_, ?_, ?_⟩
  · rw [htrims.limits]
    exact Nat.le_trans htrims.size h.limit
  · intro id state hstate
    rw [htrims.issued]
    exact h.handles id state (htrims.handles id state hstate)
  · intro id issue hissue
    rw [htrims.issued] at hissue
    rw [htrims.nextHandle]
    exact h.issued id issue hissue
  · intro t task htask
    obtain hold | ⟨hsound, -⟩ := htasks t task htask
    · exact (h.tasks t task hold).mono fun _ hf => hf.shrink htrims.handles htrims.issued
    · exact hsound
  · intro y hy
    rw [htrims.yields] at hy
    obtain ⟨hflies, hshows⟩ := h.yields y hy
    exact ⟨hflies.shrink htrims.handles htrims.issued, hshows⟩
  · intro t t' f f' hf hf'
    exact h.apart t t' f f' (hflights t f hf) (hflights t' f' hf')
  · intro t f hf y hy
    rw [htrims.yields] at hy
    exact h.spent t f (hflights t f hf) y hy
  · rw [htrims.yields]
    exact h.once

variable (F) in
inductive Act (p : Pipeline) : Pipeline → Prop
  | trim {p' : Pipeline} (htrims : Trims p p') (hrevoked : p'.revoked = p.revoked)
      (htasks : ∀ (t : Nat) (task : Task), p'.tasks[t]? = some task → p.tasks[t]? = some task ∨
        (TaskSound F p' task ∧ ∀ f, task.flight = some f → p.flightAt t = some f)) : Act p p'
  | issue (request : ContextRequest) (handle : ExpansionHandle)
      (hissued : IssuedFor request handle)
      (hopen : p.sessionRevoked request.sessionId = false)
      (hroom : p.handles.size < p.limits.maxLiveHandles) :
      Act p (p.insertHandles request [handle])
  | use (t : Nat) (q : ContextExpansionRequest) (state : HandleState)
      (hstate : p.handles[q.handleId]? = some state)
      (haccepted : handleRefusal p.now q state = none) :
      Act p ({ p with
        handles := p.handles.insert q.handleId { state with uses := state.uses + 1 } }.goTo t
          (.fetching ⟨q, state.handle, state.uses⟩))
  | yield (t : Nat) (f : Flight) (results : List ContextEvidence) (state : HandleState)
      (htask : p.tasks[t]? = some (.fetched f results))
      (hstate : p.handles[f.request.handleId]? = some state) :
      Act p ({ p with yields := ⟨f, results⟩ :: p.yields }.leave t f.request .expanded)
  | invalidate (sessionId : String) : Act p (p.invalidateSession sessionId)

variable (F) in
abbrev Acts : Pipeline → Pipeline → Prop := Relation.ReflTransGen (Act F)

/-- No handle is left where no session can be noted any more; otherwise those of other sessions. -/
theorem invalidateSession_spec (p : Pipeline) (sessionId : String) :
    ∃ handles revoked, p.invalidateSession sessionId = { p with handles, revoked } ∧
      (handles = ∅ ∧ revoked = none ∨
        handles = (p.handles.filter fun _ state => decide (state.handle.sessionId ≠ sessionId)) ∧
        ∀ session, { p with handles, revoked }.sessionRevoked session =
          (p.sessionRevoked session || decide (session = sessionId))) := by
  unfold invalidateSession
  dsimp only
  split
  · rename_i hrevoked
    exact ⟨_, _, rfl, .inr ⟨rfl, by simp [sessionRevoked, hrevoked]⟩⟩
  · rename_i sessions hrevoked
    split
    · exact ⟨_, _, rfl, .inl ⟨rfl, rfl⟩⟩
    · split
      · rename_i hmem
        refine ⟨_, _, rfl, .inr ⟨rfl, ?_⟩⟩
        intro session
        by_cases hsession : session = sessionId
        · simpa [sessionRevoked, hrevoked, hsession] using hmem
        · simp [hsession, sessionRevoked]
      · exact ⟨_, _, rfl, .inr ⟨rfl, by simp [sessionRevoked, hrevoked, Bool.or_comm]⟩⟩

theorem invalidateSession_revoked {sessionId : String}
    (h : p.sessionRevoked session = true ∨ session = sessionId) :
    (p.invalidateSession sessionId).sessionRevoked session = true := by
  obtain ⟨handles, revoked, heq, ⟨-, rfl⟩ | ⟨-, hrevoked⟩⟩ := invalidateSession_spec p sessionId
  · rw [heq]
    rfl
  · rw [heq, hrevoked]
    simpa using h

theorem Act.limits (h : Act F p p') : p'.limits = p.limits := by
  cases h with
  | trim htrims => exact htrims.limits
  | issue | use | yield => rfl
  | invalidate sessionId =>
    obtain ⟨handles, revoked, heq, -⟩ := invalidateSession_spec p sessionId
    rw [heq]

theorem Act.sessionRevoked (h : Act F p p') (hrevoked : p.sessionRevoked session = true) :
    p'.sessionRevoked session = true := by
  cases h with
  | trim htrims hsame =>
    unfold Pipeline.sessionRevoked at hrevoked ⊢
    rw [hsame]
    exact hrevoked
  | issue | use | yield => exact hrevoked
  | invalidate sessionId => exact invalidateSession_revoked (.inl hrevoked)

theorem invalidateSession_trims (p : Pipeline) (sessionId : String) :
    Trims p (p.invalidateSession sessionId) := by
  obtain ⟨handles, revoked, heq, ⟨rfl, -⟩ | ⟨rfl, -⟩⟩ := invalidateSession_spec p sessionId
  · rw [heq]
    exact ⟨rfl, by simp, fun _ _ h => by simp at h, rfl, rfl, rfl⟩
  · rw [heq]
    exact ⟨rfl, Std.ExtTreeMap.size_filter_le_size, fun _ _ h => get_of_filter h, rfl, rfl, rfl⟩

theorem Sound.invalidate_unrevoked (h : Sound F p) (sessionId : String) (id : Nat)
    (state : HandleState) (hstate : (p.invalidateSession sessionId).handles[id]? = some state) :
    (p.invalidateSession sessionId).sessionRevoked state.handle.sessionId = false := by
  obtain ⟨handles, revoked, heq, ⟨rfl, -⟩ | ⟨rfl, hrevoked⟩⟩ := invalidateSession_spec p sessionId
  · rw [heq] at hstate
    simp at hstate
  · rw [heq] at hstate ⊢
    have hold := get_of_filter hstate
    rw [get_filter _ _ hold] at hstate
    split at hstate
    · rename_i hother
      rw [hrevoked, h.unrevoked id state hold]
      simpa using hother
    · cases hstate

theorem Sound.invalidate (h : Sound F p) (sessionId : String) :
    Sound F (p.invalidateSession sessionId) := by
  refine h.trim (invalidateSession_trims p sessionId) (h.invalidate_unrevoked sessionId) ?_
  intro t task htask
  obtain ⟨handles, revoked, heq, -⟩ := invalidateSession_spec p sessionId
  rw [heq] at htask
  exact .inl htask

section Issue
variable {request : ContextRequest} {handle : ExpansionHandle}

theorem Flies.issue (hsound : Sound F p) (h : Flies p f) :
    Flies (p.insertHandles request [handle]) f := by
  rw [insertHandles, insertHandles]
  obtain ⟨issue, hissue, hhandle⟩ := h.issued
  have hold : p.nextHandle ≠ f.request.handleId :=
    Ne.symm (Nat.ne_of_lt (hsound.issued _ issue hissue).1)
  refine ⟨⟨issue, ?_, hhandle⟩, h.owner, h.bounded, ?_⟩
  · rw [get_insert_ne _ _ hold]
    exact hissue
  · intro state hstate
    rw [get_insert_ne _ _ hold] at hstate
    exact h.counted state hstate

theorem Sound.issue (h : Sound F p) (hissued : IssuedFor request handle)
    (hopen : p.sessionRevoked request.sessionId = false)
    (hroom : p.handles.size < p.limits.maxLiveHandles) :
    Sound F (p.insertHandles request [handle]) := by
  refine ⟨?_, ?_, ?_, ?_, ?_, ?_, h.apart, h.spent, h.once⟩
  · exact Nat.le_trans Std.ExtTreeMap.size_insert_le hroom
  · intro id state hstate
    obtain ⟨-, rfl⟩ | ⟨-, hold⟩ := get_insert_cases hstate
    · dsimp only
      rw [hissued.sessionId]
      exact hopen
    · exact h.unrevoked id state hold
  · intro id state hstate
    obtain ⟨rfl, rfl⟩ | ⟨hne, hold⟩ := get_insert_cases hstate
    · exact ⟨⟨⟨request, handle⟩, get_insert_self _ _ _, rfl⟩, Nat.zero_le _⟩
    · rw [insertHandles, insertHandles, get_insert_ne _ _ hne]
      exact h.handles id state hold
  · intro id issue hissue
    obtain ⟨rfl, rfl⟩ | ⟨-, hold⟩ := get_insert_cases hissue
    · exact ⟨Nat.lt_succ_self _, hissued⟩
    · obtain ⟨hlt, hfor⟩ := h.issued id issue hold
      exact ⟨Nat.lt_succ_of_lt hlt, hfor⟩
  · intro t task htask
    exact (h.tasks t task htask).mono fun _ => .issue h
  · intro y hy
    obtain ⟨hflies, hshows⟩ := h.yields y hy
    exact ⟨hflies.issue h, hshows⟩

end Issue

theorem handleRefusal_eq_none {now : Int} {q : ContextExpansionRequest} {state : HandleState}
    (h : handleRefusal now q state = none) :
    (state.handle.sessionId = q.sessionId ∧ state.handle.runId = q.runId ∧
      state.handle.taskId = q.taskId) ∧ state.uses < state.handle.maxUses := by
  unfold handleRefusal at h
  split at h
  · cases h
  · rename_i howner
    split at h
    · cases h
    · split at h
      · cases h
      · rename_i huses
        refine ⟨?_, Nat.lt_of_not_le huses⟩
        simpa using howner

theorem flightAt_goTo_self (p : Pipeline) (t : Nat) (task : Task) :
    (p.goTo t task).flightAt t = task.flight := by
  simp [flightAt, goTo]

theorem flightAt_goTo_ne (p : Pipeline) {t' : Nat} (task : Task) (h : t ≠ t') :
    (p.goTo t task).flightAt t' = p.flightAt t' := by
  simp only [flightAt, goTo]
  rw [get_insert_ne _ _ h]

section Use
variable {q : ContextExpansionRequest} {state : HandleState}

theorem Flies.use (hstate : p.handles[q.handleId]? = some state) (h : Flies p f) (t : Nat)
    (task : Task) :
    Flies ({ p with
      handles := p.handles.insert q.handleId { state with uses := state.uses + 1 } }.goTo t task)
      f := by
  refine ⟨h.issued, h.owner, h.bounded, ?_⟩
  intro state' hstate'
  obtain ⟨hid, rfl⟩ | ⟨-, hold⟩ := get_insert_cases hstate'
  · rw [hid] at hstate
    exact Nat.lt_succ_of_lt (h.counted state hstate)
  · exact h.counted state' hold

theorem Flies.apart_use (hstate : p.handles[q.handleId]? = some state) (h : Flies p f) :
    f.Apart ⟨q, state.handle, state.uses⟩ := by
  intro hid
  refine Nat.ne_of_lt (h.counted state ?_)
  rw [hid]
  exact hstate

end Use

theorem Sound.flies (h : Sound F p) (hf : p.flightAt t = some f) : Flies p f := by
  obtain ⟨task, htask, hflight⟩ := Option.bind_eq_some_iff.mp hf
  have hsound := h.tasks t task htask
  cases task with
  | fetching =>
    cases hflight
    exact hsound
  | fetched =>
    cases hflight
    exact hsound.1
  | _ => cases hflight

theorem Sound.use (h : Sound F p) (t : Nat) {q : ContextExpansionRequest} {state : HandleState}
    (hstate : p.handles[q.handleId]? = some state)
    (haccepted : handleRefusal p.now q state = none) :
    Sound F ({ p with
      handles := p.handles.insert q.handleId { state with uses := state.uses + 1 } }.goTo t
        (.fetching ⟨q, state.handle, state.uses⟩)) := by
  obtain ⟨howner, huses⟩ := handleRefusal_eq_none haccepted
  refine ⟨?_, ?_, ?_, h.issued, ?_, ?_, ?_, ?_, h.once⟩
  · have hmem : p.handles.contains q.handleId = true := by
      simp [Std.ExtTreeMap.contains_eq_isSome_getElem?, hstate]
    simp only [goTo, Std.ExtTreeMap.size_insert, hmem, if_true]
    exact h.limit
  · intro id state' hstate'
    obtain ⟨-, rfl⟩ | ⟨-, hold⟩ := get_insert_cases hstate'
    · exact h.unrevoked q.handleId state hstate
    · exact h.unrevoked id state' hold
  · intro id state' hstate'
    obtain ⟨rfl, rfl⟩ | ⟨-, hold⟩ := get_insert_cases hstate'
    · exact ⟨(h.handles q.handleId state hstate).1, huses⟩
    · exact h.handles id state' hold
  · intro t' task htask
    obtain ⟨-, rfl⟩ | ⟨-, hold⟩ := get_insert_cases htask
    · refine ⟨(h.handles q.handleId state hstate).1, howner, huses, ?_⟩
      intro state' hstate'
      dsimp only [goTo] at hstate'
      rw [get_insert_self] at hstate'
      cases hstate'
      exact Nat.lt_succ_self _
    · exact (h.tasks t' task hold).mono fun _ hf => hf.use hstate t _
  · intro y hy
    obtain ⟨hflies, hshows⟩ := h.yields y hy
    exact ⟨hflies.use hstate t _, hshows⟩
  · -- the use that begins against the ones under way
    have hnew : ∀ t' f, t ≠ t' → p.flightAt t' = some f →
        f.Apart ⟨q, state.handle, state.uses⟩ := by
      intro t' f _ hf
      exact (h.flies hf).apart_use hstate
    intro t₁ t₂ f₁ f₂ hf₁ hf₂ hne
    by_cases h₁ : t = t₁
    · subst h₁
      rw [flightAt_goTo_self] at hf₁
      cases hf₁
      rw [flightAt_goTo_ne _ _ hne] at hf₂
      exact (hnew t₂ f₂ hne hf₂).symm
    · rw [flightAt_goTo_ne _ _ h₁] at hf₁
      by_cases h₂ : t = t₂
      · subst h₂
        rw [flightAt_goTo_self] at hf₂
        cases hf₂
        exact hnew t₁ f₁ h₁ hf₁
      · rw [flightAt_goTo_ne _ _ h₂] at hf₂
        exact h.apart t₁ t₂ f₁ f₂ hf₁ hf₂ hne
  · intro t' f hf y hy
    by_cases ht : t = t'
    · subst ht
      rw [flightAt_goTo_self] at hf
      cases hf
      exact ((h.yields y hy).1.apart_use hstate).symm
    · rw [flightAt_goTo_ne _ _ ht] at hf
      exact h.spent t' f hf y hy

theorem Sound.yield (h : Sound F p) (htask : p.tasks[t]? = some (.fetched f results)) :
    Sound F ({ p with yields := ⟨f, results⟩ :: p.yields }.leave t f.request .expanded) := by
  have hflight : p.flightAt t = some f := by simp [flightAt, htask, Task.flight]
  -- the call that ends has no use under way any more
  have hothers : ∀ t' f', ({ p with yields := ⟨f, results⟩ :: p.yields }.leave t f.request
      .expanded).flightAt t' = some f' → t ≠ t' ∧ p.flightAt t' = some f' := by
    intro t' f' hf'
    unfold leave at hf'
    by_cases ht : t = t'
    · subst ht
      rw [flightAt_goTo_self] at hf'
      cases hf'
    · rw [flightAt_goTo_ne _ _ ht] at hf'
      exact ⟨ht, hf'⟩
  refine ⟨h.limit, h.unrevoked, h.handles, h.issued, ?_, ?_, ?_, ?_, ?_⟩
  · intro t' task htask'
    obtain ⟨-, rfl⟩ | ⟨-, hold⟩ := get_insert_cases htask'
    · trivial
    · exact (h.tasks t' task hold).mono fun _ hf => hf.shrink (fun _ _ h => h) rfl
  · intro y hy
    obtain rfl | hy := List.mem_cons.mp hy
    · obtain ⟨hflies, hshows⟩ := h.tasks t _ htask
      exact ⟨hflies.shrink (fun _ _ h => h) rfl, hshows⟩
    · obtain ⟨hflies, hshows⟩ := h.yields y hy
      exact ⟨hflies.shrink (fun _ _ h => h) rfl, hshows⟩
  · intro t₁ t₂ f₁ f₂ hf₁ hf₂
    exact h.apart t₁ t₂ f₁ f₂ (hothers t₁ f₁ hf₁).2 (hothers t₂ f₂ hf₂).2
  · intro t' f' hf' y hy
    obtain ⟨hne, hf'⟩ := hothers t' f' hf'
    obtain rfl | hy := List.mem_cons.mp hy
    · exact h.apart t' t f' f hf' hflight (Ne.symm hne)
    · exact h.spent t' f' hf' y hy
  · exact List.pairwise_cons.mpr ⟨h.spent t f hflight, h.once⟩

theorem Act.sound (hact : Act F p p') (h : Sound F p) : Sound F p' := by
  cases hact with
  | trim htrims hrevoked htasks =>
    refine h.trim htrims ?_ htasks
    intro id state hstate
    unfold Pipeline.sessionRevoked
    rw [hrevoked]
    exact h.unrevoked id state (htrims.handles id state hstate)
  | issue request handle hissued hopen hroom => exact h.issue hissued hopen hroom
  | use t q state hstate haccepted => exact h.use t hstate haccepted
  | yield t f results state htask => exact h.yield htask
  | invalidate sessionId => exact h.invalidate sessionId

theorem Act.yields (hact : Act F p p') (h : Sound F p) :
    ∃ later, p'.yields = later ++ p.yields ∧
      ∀ y ∈ later, p.sessionRevoked y.flight.request.sessionId = false := by
  cases hact with
  | trim htrims => exact ⟨[], htrims.yields, by simp⟩
  | issue | use => exact ⟨[], rfl, by simp⟩
  | yield t f results state htask hstate =>
    refine ⟨[⟨f, results⟩], rfl, ?_⟩
    intro y hy
    obtain rfl := List.mem_singleton.mp hy
    obtain ⟨hflies, -⟩ := h.tasks t _ htask
    obtain ⟨issue, hissue, hhandle⟩ := hflies.issued
    obtain ⟨⟨issue', hissue', hhandle'⟩, -⟩ := h.handles _ state hstate
    rw [hissue] at hissue'
    cases hissue'
    have hopen := h.unrevoked _ state hstate
    rw [← hhandle', hhandle, hflies.owner.1] at hopen
    exact hopen
  | invalidate sessionId =>
    exact ⟨[], (invalidateSession_trims p sessionId).yields, by simp⟩

theorem Acts.sound (hacts : Acts F p p') (h : Sound F p) : Sound F p' := by
  induction hacts with
  | refl => exact h
  | tail _ hact ih => exact hact.sound ih

theorem Acts.limits (hacts : Acts F p p') : p'.limits = p.limits := by
  induction hacts with
  | refl => rfl
  | tail _ hact ih => exact hact.limits.trans ih

theorem Acts.yields (hacts : Acts F p p') (h : Sound F p)
    (hrevoked : p.sessionRevoked session = true) :
    ∃ later, p'.yields = later ++ p.yields ∧ ∀ y ∈ later, y.flight.request.sessionId ≠ session := by
  have hrun : p'.sessionRevoked session = true ∧ ∃ later, p'.yields = later ++ p.yields ∧
      ∀ y ∈ later, y.flight.request.sessionId ≠ session := by
    induction hacts with
    | refl => exact ⟨hrevoked, [], rfl, by simp⟩
    | @tail p₁ p₂ hbefore hact ih =>
      obtain ⟨hrevoked₁, later, hlater, hothers⟩ := ih
      obtain ⟨more, hmore, hopen⟩ := hact.yields (Acts.sound hbefore h)
      refine ⟨hact.sessionRevoked hrevoked₁, more ++ later, ?_, ?_⟩
      · rw [hmore, hlater, List.append_assoc]
      · intro y hy
        obtain hy | hy := List.mem_append.mp hy
        · intro heq
          have hyopen := hopen y hy
          rw [heq, hrevoked₁] at hyopen
          cases hyopen
        · exact hothers y hy
  exact hrun.2

theorem redactAll_within {scan : Scan} {handle : ExpansionHandle}
    {evidence redacted : List ContextEvidence} (h : redactAll digest scan evidence = .ok redacted)
    (hevidence : Shows F handle evidence) : Shows F handle redacted := by
  induction evidence generalizing redacted with
  | nil =>
    cases h
    exact hevidence
  | cons ev rest ih =>
    have hev : Within F handle.dataClassCeiling handle.allowedPaths handle.excludedPaths ev :=
      hevidence ev (by simp)
    have hrest : Shows F handle rest := fun ev' hmem => hevidence ev' (by simp [hmem])
    have hcons : ∀ ev' : ContextEvidence, ev'.dataClass = ev.dataClass →
        ev'.repositoryPath = ev.repositoryPath →
        (redactAll digest scan rest).map (ev' :: ·) = .ok redacted → Shows F handle redacted := by
      intro ev' hclass hpath hmap
      cases hrec : redactAll digest scan rest with
      | error =>
        rw [hrec] at hmap
        cases hmap
      | ok =>
        rw [hrec] at hmap
        cases hmap
        intro ev'' hmem
        obtain rfl | hmem := List.mem_cons.mp hmem
        · exact ⟨hclass ▸ hev.dataClass, hpath ▸ hev.path, hpath ▸ hev.pathless⟩
        · exact ih hrec hrest ev'' hmem
    unfold redactAll at h
    split at h
    · cases h
    · refine hcons _ ?_ ?_ h <;> rfl
    · split at h
      · exact ih h hrest
      · refine hcons _ ?_ ?_ h <;> rfl

theorem fetch_shows {limits : ExpansionLimits} {handle : ExpansionHandle} {input : Input}
    (h : fetch F digest limits handle input = .ok results) :
    Shows F handle results := by
  unfold fetch at h
  obtain ⟨found, -, h⟩ := bind_eq_ok.mp h
  obtain ⟨-, -, h⟩ := bind_eq_ok.mp h
  obtain ⟨filtered, hfiltered, h⟩ := bind_eq_ok.mp h
  obtain ⟨redacted, hredacted, h⟩ := bind_eq_ok.mp h
  obtain ⟨-, -, h⟩ := bind_eq_ok.mp h
  cases h
  exact redactAll_within digest hredacted (filter_within F hfiltered)

theorem Trims.same (hlimits : p'.limits = p.limits) (hhandles : p'.handles = p.handles)
    (hissued : p'.issued = p.issued) (hnext : p'.nextHandle = p.nextHandle)
    (hyields : p'.yields = p.yields) : Trims p p' := by
  refine ⟨hlimits, ?_, ?_, hissued, hnext, hyields⟩
  · exact Nat.le_of_eq (congrArg _ hhandles)
  · intro id state hstate
    rw [hhandles] at hstate
    exact hstate

theorem Trims.filter (p : Pipeline) (keep : Nat → HandleState → Bool) :
    Trims p { p with handles := p.handles.filter keep } :=
  ⟨rfl, Std.ExtTreeMap.size_filter_le_size, fun _ _ h => get_of_filter h, rfl, rfl, rfl⟩

theorem Trims.erase (p : Pipeline) (id : Nat) : Trims p { p with handles := p.handles.erase id } :=
  ⟨rfl, Std.ExtTreeMap.size_erase_le, fun _ _ h => (get_of_erase h).2, rfl, rfl, rfl⟩

theorem insertHandles_acts {request : ContextRequest}
    (hissued : ∀ handle ∈ handles, IssuedFor request handle)
    (hopen : p.sessionRevoked request.sessionId = false)
    (hroom : p.handles.size + handles.length ≤ p.limits.maxLiveHandles) :
    Acts F p (p.insertHandles request handles) := by
  induction handles generalizing p with
  | nil => exact .refl
  | cons handle rest ih =>
    rw [List.length_cons] at hroom
    refine .head (.issue request handle (hissued handle (by simp)) hopen (by omega)) ?_
    refine ih (fun handle' hmem => hissued handle' (by simp [hmem])) hopen ?_
    have hsize : (p.insertHandles request [handle]).handles.size ≤ p.handles.size + 1 :=
      Std.ExtTreeMap.size_insert_le
    change _ ≤ p.limits.maxLiveHandles
    omega

theorem Act.goesOn (htrims : Trims p p') (hrevoked : p'.revoked = p.revoked)
    (htasks : p'.tasks = p.tasks) (hsound : TaskSound F (p'.goTo t task) task)
    (hflight : ∀ f, task.flight = some f → p.flightAt t = some f) : Act F p (p'.goTo t task) := by
  refine .trim ⟨htrims.limits, htrims.size, htrims.handles, htrims.issued, htrims.nextHandle,
    htrims.yields⟩ hrevoked ?_
  intro t' task' htask'
  dsimp only [goTo] at htask'
  rw [htasks] at htask'
  obtain ⟨rfl, rfl⟩ | ⟨-, hold⟩ := get_insert_cases htask'
  · exact .inr ⟨hsound, hflight⟩
  · exact .inl hold

theorem Act.idles (t : Nat) (hsound : TaskSound F (p.goTo t task) task)
    (hflight : task.flight = none) : Act F p (p.goTo t task) := by
  refine .goesOn (.same rfl rfl rfl rfl rfl) rfl rfl hsound ?_
  intro f hf
  rw [hflight] at hf
  cases hf

theorem Act.leaves (t : Nat) (q : ContextExpansionRequest) (message : String) :
    Act F p (p.leave t q (.failed message)) := by
  unfold leave
  refine .goesOn ?_ ?_ ?_ trivial ?_
  · exact .same rfl rfl rfl rfl rfl
  · rfl
  · rfl
  · intro f hf
    cases hf

theorem Act.filters (keep : Nat → HandleState → Bool) :
    Act F p { p with handles := p.handles.filter keep } :=
  .trim (.filter p keep) rfl fun _ _ h => .inl h

theorem register_acts {request : ContextRequest}
    (hissued : ∀ handle ∈ handles, IssuedFor request handle) :
    Acts F p (p.register t request handles) := by
  unfold register
  split
  · exact .single (.idles t trivial rfl)
  · rename_i hopen
    dsimp only
    split
    · exact .head (.filters _) (.single (.idles t trivial rfl))
    · rename_i hroom
      refine .head (.filters _) (.tail (insertHandles_acts hissued ?_ ?_) (.idles t trivial rfl))
      · exact Bool.not_eq_true _ ▸ hopen
      · exact Nat.le_of_not_lt hroom

theorem useHandle_acts (t : Nat) (q : ContextExpansionRequest) : Acts F p (p.useHandle t q) := by
  unfold useHandle
  split
  · exact .head (.trim (.erase p q.handleId) rfl fun _ _ h => .inl h) (.single (.leaves t q _))
  · dsimp only
    split
    · exact .head (.filters _) (.single (.leaves t q _))
    · rename_i state hstate
      split
      · exact .head (.filters _) (.single (.leaves t q _))
      · rename_i haccepted
        exact .head (.filters _) (.single (.use t q state hstate haccepted))

theorem advance_acts (h : Sound F p) (htask : p.tasks[t]? = some task) (input : Input) :
    Acts F p (p.advance F digest t input task) := by
  have hsound := h.tasks t task htask
  have hflight : p.flightAt t = task.flight := by simp [flightAt, htask]
  cases task with
  | compiling =>
    dsimp only [advance]
    repeat' split
    all_goals exact .single (.idles t trivial rfl)
  | retrieving request =>
    dsimp only [advance]
    split
    · exact .single (.idles t trivial rfl)
    · split
      · exact .single (.idles t trivial rfl)
      · split
        · exact .single (.idles t trivial rfl)
        · rename_i handles hsealed
          exact .single (.idles t (sealHandles_issuedFor hsealed) rfl)
  | packed =>
    dsimp only [advance]
    split
    · exact .single (.idles t trivial rfl)
    · exact register_acts hsound
  | entering =>
    dsimp only [advance, enter]
    split
    · exact .single (.idles t trivial rfl)
    · refine .single (.goesOn ?_ ?_ ?_ trivial ?_)
      · exact .same rfl rfl rfl rfl rfl
      · rfl
      · rfl
      · intro f hf
        cases hf
  | entered q =>
    dsimp only [advance]
    split
    · exact .single (.leaves t q _)
    · split
      · exact .single (.leaves t q _)
      · exact useHandle_acts t q
  | fetching f =>
    dsimp only [advance]
    split
    · exact .single (.leaves t f.request _)
    · rename_i results hfetch
      refine .single (.goesOn (.same rfl rfl rfl rfl rfl) rfl rfl ⟨?_, ?_⟩ ?_)
      · exact Flies.shrink hsound (fun _ _ h => h) rfl
      · exact fetch_shows digest hfetch
      · intro f' hf'
        rw [hflight]
        exact hf'
  | fetched f results =>
    dsimp only [advance]
    split
    · exact .single (.leaves t f.request _)
    · dsimp only [release]
      split
      · exact .single (.leaves t f.request _)
      · rename_i hhandle
        obtain ⟨state, hstate⟩ := Option.ne_none_iff_exists'.mp
          (mt Option.isNone_iff_eq_none.mpr hhandle)
        exact .single (.yield t f results state htask hstate)
  | _ => exact .refl

theorem dropTask_acts (t : Nat) (task : Task) : Acts F p (p.dropTask t task) := by
  cases task with
  | entered q => exact .single (.leaves t q _)
  | fetching f | fetched f => exact .single (.leaves t f.request _)
  | compiling | retrieving | packed | entering => exact .single (.idles t trivial rfl)
  | _ => exact .refl

theorem spawn_acts (hsound : ∀ p' : Pipeline, TaskSound F p' task) (hflight : task.flight = none) :
    Acts F p (p.spawn task) := by
  refine .single (.trim (.same rfl rfl rfl rfl rfl) rfl ?_)
  intro t task' htask'
  obtain ⟨-, rfl⟩ | ⟨-, hold⟩ := get_insert_cases htask'
  · refine .inr ⟨hsound _, ?_⟩
    intro f hf
    rw [hflight] at hf
    cases hf
  · exact .inl hold

theorem move_acts (h : Sound F p) (x : Move) : Acts F p (p.move F digest x) := by
  cases x with
  | compile | expand => exact spawn_acts (fun _ => trivial) rfl
  | invalidateSession sessionId => exact .single (.invalidate sessionId)
  | proceed t input =>
    dsimp only [move]
    split
    · exact .refl
    · rename_i task htask
      exact advance_acts digest h htask input
  | drop t =>
    dsimp only [move]
    split
    · exact .refl
    · exact dropTask_acts t _
  | clock => exact .single (.trim (.same rfl rfl rfl rfl rfl) rfl fun _ _ h => .inl h)

theorem moves_acts (h : Sound F p) (xs : List Move) : Acts F p (p.moves F digest xs) := by
  induction xs generalizing p with
  | nil => exact .refl
  | cons x xs ih =>
    have hmove := move_acts digest h x
    exact hmove.trans (ih (Acts.sound hmove h))

theorem length_le_of_apart {α : Type} {l : List α} {f : α → Nat} {n : Nat}
    (hapart : l.Pairwise fun x y => f x ≠ f y) (hlt : ∀ x ∈ l, f x < n) : l.length ≤ n := by
  have hnodup : (l.map f).Nodup := List.pairwise_map.mpr hapart
  have hsubset : l.map f ⊆ List.range n := by
    intro m hm
    obtain ⟨x, hx, rfl⟩ := List.mem_map.mp hm
    exact List.mem_range.mpr (hlt x hx)
  have hlength := (hnodup.subperm hsubset).length_le
  rwa [List.length_map, List.length_range] at hlength

theorem Sound.yields_le (h : Sound F p) {id : Nat} {issue : Issue}
    (hissue : p.issued[id]? = some issue) :
    (p.yields.filter fun y => decide (y.flight.request.handleId = id)).length ≤
      issue.handle.maxUses := by
  have hmem : ∀ y ∈ p.yields.filter fun y => decide (y.flight.request.handleId = id),
      y ∈ p.yields ∧ y.flight.request.handleId = id := by
    intro y hy
    simpa using List.mem_filter.mp hy
  refine length_le_of_apart (f := fun y => y.flight.earlier) ?_ ?_
  · refine (h.once.filter _).imp_of_mem ?_
    intro y y' hy hy' hne
    exact hne ((hmem y hy).2.trans (hmem y' hy').2.symm)
  · intro y hy
    obtain ⟨hyield, hid⟩ := hmem y hy
    obtain ⟨hflies, -⟩ := h.yields y hyield
    obtain ⟨issue', hissue', hhandle⟩ := hflies.issued
    rw [hid, hissue] at hissue'
    cases hissue'
    rw [hhandle]
    exact hflies.bounded

variable (F) in
/-- What the expansions that succeeded so far have kept to. -/
structure Authority (limits : ExpansionLimits) (p : Pipeline) : Prop where
  /-- No handle yields more often than it may be used. -/
  uses : ∀ (id : Nat) (issue : Issue), p.issued[id]? = some issue →
    (p.yields.filter fun y => decide (y.flight.request.handleId = id)).length ≤ issue.handle.maxUses
  /-- Who expands a handle is whom it was issued to. -/
  owner : ∀ y ∈ p.yields, ∃ issue : Issue, p.issued[y.flight.request.handleId]? = some issue ∧
    y.flight.request.sessionId = issue.request.sessionId ∧
    y.flight.request.runId = issue.request.runId ∧
    y.flight.request.taskId = issue.request.taskId
  /-- Nothing is shown that the request for the handle did not allow. -/
  within : ∀ y ∈ p.yields, ∃ issue : Issue, p.issued[y.flight.request.handleId]? = some issue ∧
    ∀ ev ∈ y.results, Within F issue.request.dataClassCeiling issue.request.allowedPaths
      issue.request.excludedPaths ev
  limit : p.handles.size ≤ limits.maxLiveHandles

theorem Sound.authority (h : Sound F p) : Authority F p.limits p := by
  refine ⟨fun id issue hissue => h.yields_le hissue, ?_, ?_, h.limit⟩
  · intro y hy
    obtain ⟨hflies, -⟩ := h.yields y hy
    obtain ⟨issue, hissue, hhandle⟩ := hflies.issued
    have hfor := (h.issued _ issue hissue).2
    obtain ⟨hsession, hrun, htask⟩ := hflies.owner
    rw [← hhandle] at hsession hrun htask
    exact ⟨issue, hissue, hsession.symm.trans hfor.sessionId, hrun.symm.trans hfor.runId,
      htask.symm.trans hfor.taskId⟩
  · intro y hy
    obtain ⟨hflies, hshows⟩ := h.yields y hy
    obtain ⟨issue, hissue, hhandle⟩ := hflies.issued
    have hfor := (h.issued _ issue hissue).2
    refine ⟨issue, hissue, ?_⟩
    rw [← hfor.dataClassCeiling, ← hfor.allowedPaths, ← hfor.excludedPaths, hhandle]
    exact hshows

variable (F) in
theorem moves_append (p : Pipeline) (xs ys : List Move) :
    p.moves F digest (xs ++ ys) = (p.moves F digest xs).moves F digest ys := by
  unfold moves
  exact List.foldl_append

variable (F) in
/-- In every interleaving of compilations, expansions and invalidations the expansions keep to the
authority of their handles, and none of a session succeeds after the session was invalidated. -/
theorem expansion_authority (limits : ExpansionLimits) (now : Int) :
    (∀ xs, Authority F limits ((Pipeline.new limits now).moves F digest xs)) ∧
    ∀ before sessionId after, ∃ later, ((Pipeline.new limits now).moves F digest
        (before ++ .invalidateSession sessionId :: after)).yields =
          later ++ ((Pipeline.new limits now).moves F digest before).yields ∧
      ∀ y ∈ later, y.flight.request.sessionId ≠ sessionId := by
  have hnew := Sound.new F limits now
  refine ⟨?_, ?_⟩
  · intro xs
    have hacts := moves_acts digest hnew xs
    have hauthority := (Acts.sound hacts hnew).authority
    rwa [Acts.limits hacts] at hauthority
  · intro before sessionId after
    have hbefore := Acts.sound (moves_acts digest hnew before) hnew
    have hclosed := hbefore.invalidate sessionId
    obtain ⟨later, hlater, hothers⟩ := Acts.yields (moves_acts digest hclosed after) hclosed
      (invalidateSession_revoked (.inr rfl))
    refine ⟨later, ?_, hothers⟩
    rw [moves_append]
    refine hlater.trans ?_
    rw [(invalidateSession_trims _ sessionId).yields]

end

end Pipeline

end Tetonic.Context
