import Tetonic.Lib.OrdMap
import Mathlib.Data.List.Nodup
set_option autoImplicit false

/-! The coordinator's registry of active jobs (`attempt.rs`). Where a record was dispatched to, its
run and when it was made are not read here. -/

namespace Tetonic.Fabric
open Lib

inductive StaleResultError where
  | unknownJob
  | cancelled
  | superseded
  | duplicate
  deriving DecidableEq, Repr

structure JobRecord where
  activeAttempt : String
  cancelGeneration : Nat := 0
  settled : Bool := false
  sessionId : Option String := none
  deriving DecidableEq, Repr

def JobRecord.cancel (rec : JobRecord) : JobRecord :=
  { rec with cancelGeneration := rec.cancelGeneration + 1, activeAttempt := "", settled := false }

structure RegistryState where
  jobs : OrdMap String JobRecord := ∅
  order : List String := []

def maxRegistryJobs : Nat := 512

def pruneFrom (jobs : OrdMap String JobRecord) : List String → RegistryState
  | [] => ⟨jobs, []⟩
  | id :: order =>
    if jobs.size ≥ maxRegistryJobs then pruneFrom (jobs.erase id) order else ⟨jobs, id :: order⟩

namespace RegistryState

def pruneIfNeeded (g : RegistryState) : RegistryState := pruneFrom g.jobs g.order

def insertJob (g : RegistryState) (jobId : String) (rec : JobRecord) : RegistryState :=
  ⟨g.jobs.insert jobId rec, g.order ++ [jobId]⟩

/-- `fresh` is the attempt id that is drawn where none is bound. -/
def beginOrBindAttempt (g : RegistryState) (jobId : String)
    (sessionId boundAttemptId : Option String)
    (fresh : String) : RegistryState :=
  let attemptId := (boundAttemptId.filter (!·.isEmpty)).getD fresh
  g.pruneIfNeeded.insertJob jobId { activeAttempt := attemptId, sessionId }

def supersedeAttempt (g : RegistryState) (jobId fresh : String) : RegistryState :=
  match g.jobs[jobId]? with
  | some rec => { g with jobs := g.jobs.insert jobId { rec with
      cancelGeneration := rec.cancelGeneration + 1, activeAttempt := fresh, settled := false } }
  | none => g.insertJob jobId { activeAttempt := fresh }

def cancelSession (g : RegistryState) (sessionId : String) : RegistryState :=
  { g with jobs := g.jobs.filter fun _ rec => decide (rec.sessionId ≠ some sessionId) }

def validate (g : RegistryState) (jobId attemptId : String) :
    Except StaleResultError RegistryState :=
  match g.jobs[jobId]? with
  | none => .error .unknownJob
  | some rec =>
    if rec.activeAttempt.isEmpty then .error .cancelled
    else if rec.activeAttempt ≠ attemptId then .error .superseded
    else if rec.settled then .error .duplicate
    else .ok { g with jobs := g.jobs.insert jobId { rec with settled := true } }

end RegistryState

inductive JobOp where
  | begin (jobId : String) (sessionId boundAttemptId : Option String) (fresh : String)
  | supersede (jobId fresh : String)
  | cancelAllPending
  | markDispatched (jobId attemptId : String)
  | cancelJob (jobId : String)
  | cancelSession (sessionId : String)
  | validate (jobId attemptId : String)
  | finishJob (jobId : String)
  deriving DecidableEq

namespace RegistryState

def step (g : RegistryState) : JobOp → RegistryState
  | .begin jobId sessionId bound fresh => g.beginOrBindAttempt jobId sessionId bound fresh
  | .supersede jobId fresh => g.supersedeAttempt jobId fresh
  | .cancelAllPending => { g with jobs := g.jobs.map fun _ rec => rec.cancel }
  | .markDispatched _ _ => g
  | .cancelJob jobId => { g with jobs := g.jobs.modify jobId JobRecord.cancel }
  | .cancelSession sessionId => g.cancelSession sessionId
  | .validate jobId attemptId => (g.validate jobId attemptId).toOption.getD g
  | .finishJob jobId => { g with jobs := g.jobs.erase jobId }

def run (g : RegistryState) (ops : List JobOp) : RegistryState := ops.foldl step g

/-- How many results of the job are accepted. -/
def wins (jobId : String) : RegistryState → List JobOp → Nat
  | _, [] => 0
  | g, .validate job attemptId :: ops => wins jobId (g.step (.validate job attemptId)) ops +
      if job = jobId ∧ (g.validate job attemptId).isOk then 1 else 0
  | g, op :: ops => wins jobId (g.step op) ops

def renews (jobId : String) : JobOp → Bool
  | .begin job _ _ _ | .supersede job _ => decide (job = jobId)
  | _ => false

/-- Once the job is settled it is neither begun nor superseded. -/
def NotRenewed (jobId : String) (g : RegistryState) (ops : List JobOp) : Prop :=
  ∀ before after rec, ops = before ++ after → (g.run before).jobs[jobId]? = some rec →
    rec.settled → ∀ op ∈ after, renews jobId op = false

def Spent (jobId : String) (g : RegistryState) : Prop :=
  ∀ rec, g.jobs[jobId]? = some rec → rec.settled ∨ rec.activeAttempt = ""

variable {g : RegistryState} {jobId attemptId : String} {op : JobOp} {ops : List JobOp}

theorem get_of_pruneFrom {order : List String} {jobs : OrdMap String JobRecord} {rec : JobRecord}
    (h : (pruneFrom jobs order).jobs[jobId]? = some rec) : jobs[jobId]? = some rec := by
  induction order generalizing jobs with
  | nil => exact h
  | cons id order ih =>
    unfold pruneFrom at h
    split at h
    · exact (OrdMap.get_of_erase (ih h)).2
    · exact h

theorem validate_eq_ok {g' : RegistryState} (h : g.validate jobId attemptId = .ok g') :
    ∃ rec, g.jobs[jobId]? = some rec ∧ rec.activeAttempt ≠ "" ∧ rec.settled = false ∧
      g' = { g with jobs := g.jobs.insert jobId { rec with settled := true } } := by
  unfold validate at h
  split at h
  · cases h
  · grind [String.isEmpty_iff]

/-- What becomes of the record of a job that is not renewed. -/
theorem get_of_step {rec' : JobRecord} (hop : renews jobId op = false)
    (h : (g.step op).jobs[jobId]? = some rec') : ∃ rec, g.jobs[jobId]? = some rec ∧
      (rec' = rec ∨ rec' = rec.cancel ∨ rec' = { rec with settled := true }) := by
  cases op with
  | begin job =>
    obtain ⟨heq, -⟩ | ⟨-, h⟩ := OrdMap.get_insert_cases h
    · simp [renews, heq] at hop
    · exact ⟨rec', get_of_pruneFrom h, .inl rfl⟩
  | supersede job =>
    simp only [step, supersedeAttempt, renews, decide_eq_false_iff_not] at h hop
    split at h
    all_goals
      obtain ⟨heq, -⟩ | ⟨-, h⟩ := OrdMap.get_insert_cases h
      · exact absurd heq hop
      · exact ⟨rec', h, .inl rfl⟩
  | cancelAllPending =>
    simp only [step, OrdMap.get_map, Option.map_eq_some_iff] at h
    obtain ⟨rec, hrec, rfl⟩ := h
    exact ⟨rec, hrec, .inr (.inl rfl)⟩
  | markDispatched => exact ⟨rec', h, .inl rfl⟩
  | cancelJob job =>
    simp only [step, OrdMap.get_modify] at h
    split at h
    · obtain ⟨rec, hrec, rfl⟩ := Option.map_eq_some_iff.mp h
      exact ⟨rec, hrec, .inr (.inl rfl)⟩
    · exact ⟨rec', h, .inl rfl⟩
  | cancelSession => exact ⟨rec', OrdMap.get_of_filter h, .inl rfl⟩
  | validate job attemptId =>
    cases hv : g.validate job attemptId with
    | error =>
      rw [step, hv] at h
      exact ⟨rec', h, .inl rfl⟩
    | ok g' =>
      obtain ⟨rec, hrec, -, -, rfl⟩ := validate_eq_ok hv
      rw [step, hv] at h
      obtain ⟨rfl, rfl⟩ | ⟨-, h⟩ := OrdMap.get_insert_cases h
      · exact ⟨rec, hrec, .inr (.inr rfl)⟩
      · exact ⟨rec', h, .inl rfl⟩
  | finishJob => exact ⟨rec', (OrdMap.get_of_erase h).2, .inl rfl⟩

theorem Spent.step (h : Spent jobId g) (hop : renews jobId op = false) :
    Spent jobId (g.step op) := by
  intro rec' hrec'
  obtain ⟨rec, hrec, rfl | rfl | rfl⟩ := get_of_step hop hrec'
  · exact h rec' hrec
  · exact .inr rfl
  · exact .inl rfl

theorem Spent.wins (h : Spent jobId g) (hops : ∀ op ∈ ops, renews jobId op = false) :
    wins jobId g ops = 0 := by
  induction ops generalizing g with
  | nil => rfl
  | cons op ops ih =>
    have hrest := ih (h.step (hops op List.mem_cons_self)) fun o ho =>
      hops o (List.mem_cons_of_mem _ ho)
    cases op with
    | validate job attemptId =>
      rw [RegistryState.wins, hrest, if_neg]
      rintro ⟨rfl, hok⟩
      cases hv : g.validate job attemptId with
      | error => simp [hv, Except.isOk, Except.toBool] at hok
      | ok =>
        obtain ⟨rec, hrec, hactive, hsettled, -⟩ := validate_eq_ok hv
        rcases h rec hrec with hs | ha
        · simp [hsettled] at hs
        · exact hactive ha
    | _ => exact hrest

/-- A job that is not renewed once it is settled has one accepted result at most. -/
theorem one_winning_result (g : RegistryState) (jobId : String) (ops : List JobOp)
    (h : NotRenewed jobId g ops) : wins jobId g ops ≤ 1 := by
  induction ops generalizing g with
  | nil => exact Nat.zero_le 1
  | cons op ops ih =>
    have hrest := ih (g.step op) fun before after rec heq =>
      h (op :: before) after rec (by simp [heq])
    cases op with
    | validate job attemptId =>
      rw [wins]
      split
      · rename_i hwin
        obtain ⟨rfl, hok⟩ := hwin
        cases hv : g.validate job attemptId with
        | error => simp [hv, Except.isOk, Except.toBool] at hok
        | ok g' =>
          have hstep : g.step (.validate job attemptId) = g' := by rw [step, hv]; rfl
          obtain ⟨rec, -, -, -, hg'⟩ := validate_eq_ok hv
          have hrec : g'.jobs[job]? = some { rec with settled := true } := by
            rw [hg']
            exact OrdMap.get_insert_self _ _ _
          have hspent : Spent job g' := fun rec' hrec' =>
            .inl (by rw [hrec] at hrec'; cases hrec'; rfl)
          have hnone := hspent.wins (h [_] ops _ rfl (by rw [← hrec, ← hstep]; rfl) rfl)
          rw [hstep]
          omega
      · exact hrest
    | _ => exact hrest

/-- A result, and one of another attempt. -/
theorem one_winning_result_delivered : ∃ ops : List JobOp,
    wins "j" (beginOrBindAttempt {} "j" none (some "a") "") ops = 1 ∧
      wins "j" (beginOrBindAttempt {} "j" none (some "a") "") ops ≤ 1 := by
  refine ⟨[.validate "j" "a", .validate "j" "b"], by decide +kernel,
    one_winning_result _ _ _ fun before after rec heq _ _ op hop => ?_⟩
  have hmem := heq ▸ List.mem_append_right before hop
  simp only [List.mem_cons, List.not_mem_nil, or_false] at hmem
  rcases hmem with rfl | rfl <;> rfl

/-- The failover of a job that has its result clears the way for a second one. -/
theorem two_winning_results :
    wins "j" {} [.begin "j" none (some "a") "", .validate "j" "a", .supersede "j" "b",
      .validate "j" "b"] = 2 := by
  decide +kernel

/-- The job the operation puts into the registry. -/
def begunBy (g : RegistryState) : JobOp → List String
  | .begin jobId _ _ _ => [jobId]
  | .supersede jobId _ => if g.jobs[jobId]? = none then [jobId] else []
  | _ => []

/-- How many ids of no live job the operation leaves in the list: those of the live jobs it takes
out of the map, or the one of a live job that it lists again. -/
def leaksOf (g : RegistryState) : JobOp → Nat
  | .begin jobId _ _ _ | .finishJob jobId => if g.jobs[jobId]?.isSome then 1 else 0
  | .cancelSession sessionId =>
    g.jobs.toList.countP fun e => decide (e.2.sessionId = some sessionId)
  | _ => 0

def leaks : RegistryState → List JobOp → Nat
  | _, [] => 0
  | g, op :: ops => g.leaksOf op + leaks (g.step op) ops

def begun : RegistryState → List JobOp → List String
  | _, [] => []
  | g, op :: ops => g.begunBy op ++ begun (g.step op) ops

/-- No job is begun while its id is still in the list. -/
def FreshRun : RegistryState → List JobOp → Prop
  | _, [] => True
  | g, op :: ops => (∀ jobId ∈ g.begunBy op, jobId ∉ g.order) ∧ FreshRun (g.step op) ops

def BegunBefore (begun : List String) (j k : String) : Prop :=
  ∃ earlier later, begun = earlier ++ j :: later ∧ j ∉ later ∧ k ∈ later

/-- Whatever live job the loop of `prune_if_needed` takes was begun before the other live ones. -/
def OldestFirst (begun : List String) : OrdMap String JobRecord → List String → Prop
  | _, [] => True
  | jobs, id :: order => jobs.size ≥ maxRegistryJobs →
      (jobs[id]?.isSome → ∀ k, jobs[k]?.isSome → k ≠ id → BegunBefore begun id k) ∧
        OldestFirst begun (jobs.erase id) order

variable {log : List String} {jobs : OrdMap String JobRecord} {order : List String} {id : String}

/-! The list is longer than the map by no more than what has leaked. -/

theorem size_le_size_erase (jobs : OrdMap String JobRecord) (id : String) :
    jobs.size ≤ (jobs.erase id).size + if jobs[id]?.isSome then 1 else 0 := by
  rw [Std.ExtTreeMap.size_erase, Std.ExtTreeMap.contains_eq_isSome_getElem?]
  split <;> omega

theorem pruneFrom_length {n : Nat} (h : order.length ≤ jobs.size + n) :
    (pruneFrom jobs order).order.length ≤ (pruneFrom jobs order).jobs.size + n := by
  induction order generalizing jobs with
  | nil => exact h
  | cons id order ih =>
    unfold pruneFrom
    split
    · refine ih ?_
      have hsize := size_le_size_erase jobs id
      simp only [List.length_cons] at h
      split at hsize <;> omega
    · exact h

theorem insertJob_length {n : Nat} (h : g.order.length ≤ g.jobs.size + n) (jobId : String)
    (rec : JobRecord) :
    (g.insertJob jobId rec).order.length ≤ (g.insertJob jobId rec).jobs.size +
      (n + if g.jobs[jobId]?.isSome then 1 else 0) := by
  simp only [insertJob, Std.ExtTreeMap.size_insert, Std.ExtTreeMap.contains_eq_isSome_getElem?,
    List.length_append, List.length_singleton]
  split <;> omega

theorem cancelSession_size (g : RegistryState) (sessionId : String) :
    g.jobs.size = (g.cancelSession sessionId).jobs.size + g.leaksOf (.cancelSession sessionId) := by
  simp only [cancelSession, leaksOf]
  rw [← Std.ExtTreeMap.length_toList, ← Std.ExtTreeMap.length_toList, Std.ExtTreeMap.toList_filter,
    ← List.countP_eq_length_filter]
  refine (List.length_eq_countP_add_countP fun e =>
    decide (e.2.sessionId ≠ some sessionId)).trans ?_
  congr 2
  funext e
  simp

theorem step_length {n : Nat} (h : g.order.length ≤ g.jobs.size + n) (op : JobOp) :
    (g.step op).order.length ≤ (g.step op).jobs.size + (n + g.leaksOf op) := by
  cases op with
  | begin job =>
    have hlive : (pruneFrom g.jobs g.order).jobs[job]?.isSome → g.jobs[job]?.isSome := by
      intro hjob
      obtain ⟨rec, hrec⟩ := Option.isSome_iff_exists.mp hjob
      rw [get_of_pruneFrom hrec]
      rfl
    refine Nat.le_trans (insertJob_length (pruneFrom_length h) job _) ?_
    simp only [step, beginOrBindAttempt, pruneIfNeeded, leaksOf]
    split <;> simp_all
  | supersede job fresh =>
    simp only [step, supersedeAttempt, leaksOf]
    cases hjob : g.jobs[job]? with
    | none =>
      have hlength := insertJob_length h job { activeAttempt := fresh }
      rwa [hjob] at hlength
    | some rec =>
      rw [OrdMap.size_insert_of_get hjob]
      exact h
  | cancelAllPending => simpa [step, leaksOf] using h
  | markDispatched => exact h
  | cancelJob =>
    simp only [step, Std.ExtTreeMap.size_modify]
    exact h
  | cancelSession sessionId =>
    have hsize := cancelSession_size g sessionId
    show g.order.length ≤ (g.cancelSession sessionId).jobs.size + _
    omega
  | validate job attemptId =>
    simp only [step, leaksOf]
    cases hv : g.validate job attemptId with
    | error => exact h
    | ok =>
      obtain ⟨rec, hrec, -, -, rfl⟩ := validate_eq_ok hv
      simp only [Except.toOption, Option.getD, OrdMap.size_insert_of_get hrec]
      exact h
  | finishJob job =>
    have hsize := size_le_size_erase g.jobs job
    simp only [step, leaksOf]
    omega

theorem run_length {n : Nat} (h : g.order.length ≤ g.jobs.size + n) (ops : List JobOp) :
    (g.run ops).order.length ≤ (g.run ops).jobs.size + (n + leaks g ops) := by
  induction ops generalizing g n with
  | nil => exact h
  | cons op ops ih =>
    have hrest := ih (step_length h op)
    rwa [Nat.add_assoc] at hrest

/-- Every live job is in the list, which holds the jobs begun last, in that order. -/
structure Listed (begun : List String) (g : RegistryState) : Prop where
  live : ∀ j, g.jobs[j]?.isSome → j ∈ g.order
  nodup : g.order.Nodup
  log : ∃ gone, begun = gone ++ g.order

theorem Listed.pop (h : Listed log ⟨jobs, id :: order⟩) : Listed log ⟨jobs.erase id, order⟩ where
  live j hj := by
    have hlive := h.live j
    simp only [Std.ExtTreeMap.getElem?_erase] at hj
    grind
  nodup := h.nodup.of_cons
  log := by
    obtain ⟨gone, hlog⟩ := h.log
    exact ⟨gone ++ [id], by simp [hlog]⟩

theorem Listed.prune (h : Listed log ⟨jobs, order⟩) :
    Listed log (pruneFrom jobs order) ∧ OldestFirst log jobs order := by
  induction order generalizing jobs with
  | nil => exact ⟨h, trivial⟩
  | cons id order ih =>
    unfold pruneFrom OldestFirst
    split
    · refine ⟨(ih h.pop).1, fun _ => ⟨fun _ k hk hne => ?_, (ih h.pop).2⟩⟩
      obtain ⟨gone, hlog⟩ := h.log
      exact ⟨gone, order, hlog, (List.nodup_cons.mp h.nodup).1,
        (List.mem_cons.mp (h.live k hk)).resolve_left hne⟩
    · exact ⟨h, fun hfull => absurd hfull ‹_›⟩

theorem pruneFrom_order (jobs : OrdMap String JobRecord) (order : List String) :
    (pruneFrom jobs order).order.Sublist order := by
  induction order generalizing jobs with
  | nil => exact .refl _
  | cons id order ih =>
    unfold pruneFrom
    split
    · exact (ih _).cons id
    · exact .refl _

theorem Listed.insertJob (h : Listed log g) (hnew : jobId ∉ g.order) (rec : JobRecord) :
    Listed (log ++ [jobId]) (g.insertJob jobId rec) where
  live j hj := by
    have hlive := h.live j
    simp only [RegistryState.insertJob, OrdMap.get_insert] at hj ⊢
    grind
  nodup := by
    simp only [RegistryState.insertJob]
    grind [h.nodup]
  log := by
    obtain ⟨gone, hlog⟩ := h.log
    exact ⟨gone, by simp [hlog, RegistryState.insertJob]⟩

theorem Listed.keep {g' : RegistryState} (h : Listed log g) (horder : g'.order = g.order)
    (hjobs : ∀ j : String, g'.jobs[j]?.isSome → g.jobs[j]?.isSome) : Listed (log ++ []) g' where
  live j hj := horder ▸ h.live j (hjobs j hj)
  nodup := horder ▸ h.nodup
  log := by simpa [horder] using h.log

theorem live_of_step (h : (g.step op).jobs[jobId]?.isSome) :
    g.jobs[jobId]?.isSome ∨ jobId ∈ g.begunBy op := by
  by_cases hop : renews jobId op = true
  · cases op with
    | begin job =>
      rw [of_decide_eq_true hop]
      exact .inr (List.mem_singleton_self _)
    | supersede job =>
      rw [← of_decide_eq_true hop, begunBy]
      cases hjob : g.jobs[job]? <;> simp
    | _ => cases hop
  · obtain ⟨rec', hrec'⟩ := Option.isSome_iff_exists.mp h
    obtain ⟨rec, hrec, -⟩ := get_of_step (Bool.eq_false_iff.mpr hop) hrec'
    exact .inl (Option.isSome_of_eq_some hrec)

theorem Listed.step (h : Listed log g) (hfresh : ∀ jobId ∈ g.begunBy op, jobId ∉ g.order) :
    Listed (log ++ g.begunBy op) (g.step op) := by
  have hkeep : g.begunBy op = [] → (g.step op).order = g.order →
      Listed (log ++ g.begunBy op) (g.step op) := by
    intro hnone horder
    rw [hnone]
    refine h.keep horder fun j hj => (live_of_step hj).resolve_right ?_
    simp [hnone]
  cases op with
  | begin job =>
    refine Listed.insertJob h.prune.1 (fun hmem => ?_) _
    exact hfresh job (List.mem_singleton_self _) ((pruneFrom_order _ _).subset hmem)
  | supersede job =>
    cases hjob : g.jobs[job]? with
    | none =>
      simp only [begunBy, hjob, if_true, RegistryState.step, supersedeAttempt] at hfresh ⊢
      exact h.insertJob (hfresh job (List.mem_singleton_self _)) _
    | some =>
      exact hkeep (by simp [begunBy, hjob]) (by simp [RegistryState.step, supersedeAttempt, hjob])
  | validate job attemptId =>
    refine hkeep rfl ?_
    simp only [RegistryState.step]
    cases hv : g.validate job attemptId with
    | error => rfl
    | ok =>
      obtain ⟨rec, -, -, -, rfl⟩ := validate_eq_ok hv
      rfl
  | _ => exact hkeep rfl rfl

theorem Listed.run (h : Listed log g) (hfresh : FreshRun g ops) :
    Listed (log ++ begun g ops) (g.run ops) := by
  induction ops generalizing g log with
  | nil => simpa [begun, RegistryState.run] using h
  | cons op ops ih =>
    rw [begun, ← List.append_assoc]
    exact ih (h.step hfresh.1) hfresh.2

/-- The list holds no more ids beyond the live jobs than have leaked. As long as no job is begun
while its id is still listed, the live jobs are pruned oldest first. -/
theorem registry_bounded (ops : List JobOp) (k : Nat) :
    (leaks {} ops ≤ k → (run {} ops).order.length ≤ (run {} ops).jobs.size + k) ∧
      (FreshRun {} ops → OldestFirst (begun {} ops) (run {} ops).jobs (run {} ops).order) := by
  constructor
  · intro hleaks
    have hlength : (run {} ops).order.length ≤ (run {} ops).jobs.size + (0 + leaks {} ops) :=
      run_length (Nat.zero_le _) ops
    omega
  · intro hfresh
    have hempty : Listed [] {} := ⟨by simp, .nil, [], rfl⟩
    exact (hempty.run hfresh).prune.2

theorem pruneFrom_size (jobs : OrdMap String JobRecord) (order : List String) :
    (pruneFrom jobs order).order = [] ∨ (pruneFrom jobs order).jobs.size < maxRegistryJobs := by
  induction order generalizing jobs with
  | nil => exact .inl rfl
  | cons id order ih =>
    unfold pruneFrom
    split
    · exact ih _
    · exact .inr (Nat.not_le.mp ‹_›)

theorem Listed.prune_size (h : Listed log g) : g.pruneIfNeeded.jobs.size < maxRegistryJobs := by
  obtain hnil | hsize := pruneFrom_size g.jobs g.order
  · have hempty : g.pruneIfNeeded.jobs = ∅ := by
      refine Std.ExtTreeMap.ext_getElem? fun j => ?_
      have hlive := h.prune.1.live j
      rw [hnil] at hlive
      simpa [pruneIfNeeded] using hlive
    rw [hempty]
    decide
  · exact hsize

theorem insertJob_size (g : RegistryState) (jobId : String) (rec : JobRecord) :
    (g.insertJob jobId rec).jobs.size ≤ g.jobs.size + 1 := by
  simp only [insertJob, Std.ExtTreeMap.size_insert]
  split <;> omega

namespace Demo

def begin (id : String) : JobOp := .begin id none none "a"

/-- Jobs that are begun one after the other under new ids leak nothing and never crowd the map. -/
theorem begins_run (h : Listed log g) (hsize : g.jobs.size ≤ maxRegistryJobs) {ids : List String}
    (hnew : (g.order ++ ids).Nodup) :
    begun g (ids.map begin) = ids ∧ leaks g (ids.map begin) = 0 ∧ FreshRun g (ids.map begin) ∧
      (g.run (ids.map begin)).jobs.size ≤ maxRegistryJobs := by
  induction ids generalizing g log with
  | nil => exact ⟨rfl, rfl, trivial, hsize⟩
  | cons id ids ih =>
    have hid : id ∉ g.order := fun hmem =>
      (List.nodup_append.mp hnew).2.2 id hmem id List.mem_cons_self rfl
    have hfresh : ∀ jobId ∈ g.begunBy (begin id), jobId ∉ g.order := by
      simpa [begin, begunBy] using hid
    have hleaks : g.leaksOf (begin id) = 0 := if_neg fun hlive => hid (h.live id hlive)
    have hsize' : (g.step (begin id)).jobs.size ≤ maxRegistryJobs :=
      Nat.le_trans (insertJob_size _ id _) h.prune_size
    have hnew' : ((g.step (begin id)).order ++ ids).Nodup := by
      refine List.Nodup.sublist ?_ hnew
      rw [List.append_cons]
      exact ((pruneFrom_order g.jobs g.order).append_right [id]).append_right ids
    obtain ⟨hbegun, hrest, hrun, hend⟩ := ih (h.step hfresh) hsize' hnew'
    exact ⟨congrArg (id :: ·) hbegun, congrArg₂ (· + ·) hleaks hrest, ⟨hfresh, hrun⟩, hend⟩

/-- A job that ends at once, and others. -/
def crowd (ids : List String) : List JobOp :=
  begin "first" :: .finishJob "first" :: ids.map begin

theorem crowd_run {ids : List String} (hnew : ("first" :: ids).Nodup) :
    begun {} (crowd ids) = "first" :: ids ∧ leaks {} (crowd ids) = 1 ∧ FreshRun {} (crowd ids) ∧
      (run {} (crowd ids)).jobs.size ≤ maxRegistryJobs := by
  have hempty : Listed [] {} := ⟨by simp, .nil, [], rfl⟩
  have hfirst : Listed _ ((step {} (begin "first")).step (.finishJob "first")) :=
    (hempty.step (by simp)).step (by simp [begunBy])
  obtain ⟨hbegun, hleaks, hfresh, hsize⟩ := begins_run hfirst (Nat.zero_le _) hnew
  refine ⟨congrArg ("first" :: ·) hbegun, ?_, ⟨by simp, by simp [begunBy], hfresh⟩, hsize⟩
  exact congrArg (fun n => 0 + (1 + n)) hleaks

def others (n : Nat) : List String :=
  (List.range n).map fun i => String.ofList (List.replicate i 'j')

theorem others_length (n : Nat) : (others n).length = n := by simp [others]

theorem others_new (n : Nat) : ("first" :: others n).Nodup := by
  refine List.nodup_cons.mpr ⟨fun hmem => ?_, List.Nodup.map (fun i j hij => ?_) List.nodup_range⟩
  · obtain ⟨i, -, hi⟩ := List.mem_map.mp hmem
    have hchar : 'f' ∈ (String.ofList (List.replicate i 'j')).toList := by
      rw [hi]
      decide
    rw [String.toList_ofList] at hchar
    cases List.eq_of_mem_replicate hchar
  · simpa using congrArg List.length (String.ofList_injective hij)

end Demo

/-- More jobs than the registry keeps: some that have not ended are pruned. -/
theorem registry_bounded_crowd : ∃ ops : List JobOp,
    (run {} ops).jobs.size + 1 < (begun {} ops).length ∧
      (run {} ops).order.length ≤ (run {} ops).jobs.size + 1 ∧
      OldestFirst (begun {} ops) (run {} ops).jobs (run {} ops).order := by
  obtain ⟨hbegun, hleaks, hfresh, hsize⟩ := Demo.crowd_run (Demo.others_new 514)
  have hlength := Demo.others_length 514
  -- the jobs themselves are not to be computed
  generalize Demo.others 514 = others at *
  obtain ⟨hbound, holdest⟩ := registry_bounded (Demo.crowd others) 1
  refine ⟨_, ?_, hbound (Nat.le_of_eq hleaks), holdest hfresh⟩
  rw [hbegun, List.length_cons, hlength]
  unfold maxRegistryJobs at hsize
  omega

def churn (n : Nat) : List JobOp :=
  (List.replicate n [JobOp.begin "j" none none "a", JobOp.finishJob "j"]).flatten

theorem run_churn (n : Nat) (order : List String) :
    run ⟨∅, order⟩ (churn n) = ⟨∅, order ++ List.replicate n "j"⟩ := by
  induction n generalizing order with
  | zero => simp [churn, run]
  | succ n ih =>
    have hprune : pruneFrom ∅ order = ⟨∅, order⟩ := by cases order <;> rfl
    have hround : run ⟨∅, order⟩ [.begin "j" none none "a", .finishJob "j"] =
        ⟨∅, order ++ ["j"]⟩ := by
      simp only [run, List.foldl, step, beginOrBindAttempt, pruneIfNeeded, hprune]
      rfl
    rw [churn, List.replicate_succ, List.flatten_cons, run, List.foldl_append]
    refine (congrArg (fun g => run g (churn n)) hround).trans ?_
    rw [ih, List.replicate_succ, List.append_assoc, List.singleton_append]

/-- Each job that is begun and finished leaves its id behind. -/
theorem registry_leaks : ¬ ∃ k, ∀ ops, (run {} ops).order.length ≤ (run {} ops).jobs.size + k := by
  rintro ⟨k, h⟩
  have hk := h (churn (k + 1))
  rw [show run {} (churn (k + 1)) = _ from run_churn (k + 1) []] at hk
  simp only [List.nil_append, List.length_replicate, Std.ExtTreeMap.size_empty] at hk
  omega

end RegistryState
end Tetonic.Fabric
