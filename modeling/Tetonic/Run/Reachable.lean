import Tetonic.Run.Recovery
set_option autoImplicit false

/-! The snapshots a run can reach, by accepted commands and by recovery passes. A recovery pass is
taken apart into the leases it expires and the quarantine at its end, so that a condition on events
can speak of the snapshot each of them meets. -/

namespace Tetonic.Run
open Lib

variable {P : Platform}

/-- One event in the life of a run's snapshot: an accepted command, whose caller stamps the
sequence number and keeps its own event list, or the recovery pass of a restart. -/
inductive RunStep (P : Platform) (s : RunSnapshot) : RunSnapshot → Prop where
  | command {t : RunSnapshot} {c : RunCommand} {sequence : Nat} {events : List RunEventEnvelope}
      (h : applyCommand P s c = .ok t) : RunStep P s { t with sequence, events }
  | recovery {t : RunSnapshot} {now : UInt64} (h : startupPass P s now = .ok t) : RunStep P s t

/-- Reachable from `empty_snapshot` by accepted commands and recovery passes, in any order. -/
def Reachable (P : Platform) (s : RunSnapshot) : Prop :=
  ∃ runId session, Relation.ReflTransGen (RunStep P) (emptySnapshot runId session) s

variable {s t : RunSnapshot} {C : RunSnapshot → RunEvent → Prop} {e : RunEvent}

/-- The event takes the snapshot `s` to `t`. The caller of a command stamps the sequence number and
keeps its own event list. -/
inductive Occurs (P : Platform) (s : RunSnapshot) : RunEvent → RunSnapshot → Prop where
  | command {c : RunCommand} {t : RunSnapshot} {sequence : Nat} {events : List RunEventEnvelope}
      (h : applyCommand P s c = .ok t) : Occurs P s (.command c) { t with sequence, events }
  | expire {id : AttemptId} {a : AttemptRecord} {now : UInt64} {t : RunSnapshot}
      (ha : s.attempts[id]? = some a) (hexp : a.expiredAt now = true)
      (h : expireAttempt P s id a "lease expired on recovery" now = .ok t) :
      Occurs P s (.expire id now) t
  | quarantine {now : UInt64} (h : detectRecoveryRequired s now = true) :
      Occurs P s .quarantine { s with state := .recoveryRequired }

def StepWhere (P : Platform) (C : RunSnapshot → RunEvent → Prop) (s t : RunSnapshot) : Prop :=
  ∃ e, C s e ∧ Occurs P s e t

/-- Reachable from `empty_snapshot` by events that all meet the condition. -/
def ReachableWhere (P : Platform) (C : RunSnapshot → RunEvent → Prop) (s : RunSnapshot) : Prop :=
  ∃ runId session, Relation.ReflTransGen (StepWhere P C) (emptySnapshot runId session) s

theorem Occurs.moves (h : Occurs P s e t) :
    ∃ u sequence events, Moves s e u ∧ t = { u with sequence, events } := by
  cases h with
  | @command c u sequence events h => exact ⟨u, sequence, events, applyCommand_moves h, rfl⟩
  | @expire id a now t ha hexp h =>
    simp only [AttemptRecord.expiredAt, Bool.and_eq_true] at hexp
    exact ⟨t, t.sequence, t.events, expireAttempt_moves rfl rfl rfl ha hexp.1 h, rfl⟩
  | quarantine =>
    exact ⟨{ s with state := .recoveryRequired }, s.sequence, s.events,
      ⟨.refl _, .still (.inl rfl), .same rfl⟩, rfl⟩

theorem Occurs.board_step (h : Occurs P s e t) : BoardStep s.board t.board := by
  obtain ⟨u, sequence, events, hmoves, rfl⟩ := h.moves
  exact hmoves.board

theorem ReachableWhere.board_invariant {I : Board → Prop} (h0 : I ⟨∅, ∅, 0⟩)
    (hstep : ∀ b b', I b → BoardStep b b' → I b') (h : ReachableWhere P C s) : I s.board := by
  obtain ⟨runId, session, hr⟩ := h
  induction hr with
  | refl => exact h0
  | tail _ hs ih =>
    obtain ⟨e, -, ho⟩ := hs
    exact hstep _ _ ih ho.board_step

theorem ReachableWhere.sound (h : ReachableWhere P C s) : s.board.Sound :=
  h.board_invariant .empty fun _ _ hb hs => hs.sound hb

theorem ReachableWhere.step (h : ReachableWhere P C s) (hc : C s e) (ho : Occurs P s e t) :
    ReachableWhere P C t := by
  obtain ⟨runId, session, hr⟩ := h
  exact ⟨runId, session, hr.tail ⟨e, hc, ho⟩⟩

/-- The events in the order in which they take `s` to a snapshot, each of them meeting the
condition `C` in the snapshot before it. -/
inductive Trace (P : Platform) (C : RunSnapshot → RunEvent → Prop) (s : RunSnapshot) :
    List RunEvent → RunSnapshot → Prop where
  | nil : Trace P C s [] s
  | snoc {es : List RunEvent} {e : RunEvent} {t u : RunSnapshot} (h : Trace P C s es t)
      (hc : C t e) (ho : Occurs P t e u) : Trace P C s (es ++ [e]) u

section
variable {u : RunSnapshot} {es : List RunEvent}

theorem Trace.steps (h : Trace P C s es t) : Relation.ReflTransGen (StepWhere P C) s t := by
  induction h with
  | nil => exact .refl
  | snoc _ hc ho ih => exact ih.tail ⟨_, hc, ho⟩

theorem Trace.reachable {runId : RunId} {session : Option SessionId}
    (h : Trace P C (emptySnapshot runId session) es s) : ReachableWhere P C s :=
  ⟨runId, session, h.steps⟩

theorem ReachableWhere.trace (hs : ReachableWhere P C s) (h : Trace P C s es t) :
    ReachableWhere P C t := by
  obtain ⟨runId, session, hr⟩ := hs
  exact ⟨runId, session, hr.trans h.steps⟩

theorem Trace.cons (hc : C s e) (ho : Occurs P s e u) (h : Trace P C u es t) :
    Trace P C s (e :: es) t := by
  induction h with
  | nil => exact Trace.nil.snoc hc ho
  | snoc _ hc' ho' ih => exact ih.snoc hc' ho'

end

variable {now : UInt64} {a : AttemptRecord} {id : AttemptId}

theorem expireAttempt_others {k : AttemptId} {reason : String}
    (h : expireAttempt P s id a reason now = .ok t) (hne : id ≠ k) :
    t.attempts[k]? = s.attempts[k]? := by
  obtain ⟨task, retry, st, -, -, hresched⟩ := applyFailureWithRetry_spec h
  rw [hresched.rest]
  exact OrdMap.get_insert_ne _ _ hne

theorem recoverAttempts_trace {ids : List AttemptId} (hnd : ids.Nodup)
    (hexp : ∀ id ∈ ids, ∃ a, s.attempts[id]? = some a ∧ a.expiredAt now = true)
    (h : ids.foldlM (recoverAttempt P now) s = .ok t) :
    Trace P (fun _ _ => True) s (ids.map (RunEvent.expire · now)) t := by
  induction ids generalizing s with
  | nil =>
    cases h
    exact .nil
  | cons id rest ih =>
    simp only [List.foldlM_cons, bind_eq_ok] at h
    obtain ⟨s₁, hs₁, h⟩ := h
    obtain ⟨a, ha, hexpired⟩ := hexp id List.mem_cons_self
    simp only [recoverAttempt, bind_eq_ok, unwrap_eq_ok, ha, Option.some.injEq,
      exists_eq_left'] at hs₁
    refine .cons trivial (.expire ha hexpired hs₁) (ih hnd.of_cons ?_ h)
    intro k hk
    obtain ⟨r, hr, hrexp⟩ := hexp k (List.mem_cons_of_mem id hk)
    have hne : id ≠ k := by
      intro heq
      rw [heq] at hnd
      exact (List.nodup_cons.mp hnd).1 hk
    exact ⟨r, (expireAttempt_others hs₁ hne).trans hr, hrexp⟩

/-- The leases expired by a recovery pass are events at the time of the pass. -/
theorem recoverExpiredLeases_trace (h : recoverExpiredLeases P s now = .ok t) :
    ∃ ids : List AttemptId, Trace P (fun _ _ => True) s (ids.map (RunEvent.expire · now)) t := by
  refine ⟨_, recoverAttempts_trace (OrdMap.nodup_keysWhere _ _) ?_ h⟩
  intro id hid
  obtain ⟨a, ha, hexp⟩ := (OrdMap.mem_keysWhere _ _ _).mp hid
  exact ⟨a, ha, hexp⟩

theorem startupPass_trace (h : startupPass P s now = .ok t) :
    ∃ es, Trace P (fun _ _ => True) s es t ∧
      ∀ e ∈ es, e = .quarantine ∨ ∃ id, e = .expire id now := by
  simp only [startupPass, bind_eq_ok] at h
  obtain ⟨snap, hsnap, h⟩ := h
  obtain ⟨ids, hexpired⟩ := recoverExpiredLeases_trace hsnap
  split at h
  · rename_i hdetect
    cases h
    refine ⟨_, hexpired.snoc trivial (.quarantine hdetect.1), ?_⟩
    intro e he
    rcases List.mem_append.mp he with he | he
    · obtain ⟨id, -, rfl⟩ := List.mem_map.mp he
      exact .inr ⟨id, rfl⟩
    · exact .inl (List.mem_singleton.mp he)
  · cases h
    refine ⟨_, hexpired, ?_⟩
    intro e he
    obtain ⟨id, -, rfl⟩ := List.mem_map.mp he
    exact .inr ⟨id, rfl⟩

theorem runSteps_events (h : Relation.ReflTransGen (RunStep P) s t) :
    Relation.ReflTransGen (StepWhere P fun _ _ => True) s t := by
  induction h with
  | refl => exact .refl
  | tail _ hs ih =>
    cases hs with
    | command h => exact ih.tail ⟨_, trivial, .command h⟩
    | recovery h =>
      obtain ⟨es, htrace, -⟩ := startupPass_trace h
      exact ih.trans htrace.steps

theorem Reachable.events (h : Reachable P s) : ReachableWhere P (fun _ _ => True) s := by
  obtain ⟨runId, session, hr⟩ := h
  exact ⟨runId, session, runSteps_events hr⟩

theorem Reachable.sound (h : Reachable P s) : s.board.Sound := h.events.sound

/-- `t` is what the commands leave of `s` when each of them is accepted in turn. -/
inductive Accepted (P : Platform) : RunSnapshot → List RunCommand → RunSnapshot → Prop where
  | nil (s : RunSnapshot) : Accepted P s [] s
  | cons {s u t : RunSnapshot} {c : RunCommand} {cs : List RunCommand} {sequence : Nat}
      {events : List RunEventEnvelope} (h : applyCommand P s c = .ok u)
      (hcs : Accepted P { u with sequence, events } cs t) : Accepted P s (c :: cs) t

variable {cs : List RunCommand}

theorem Accepted.append_iff {ds : List RunCommand} :
    Accepted P s (cs ++ ds) t ↔ ∃ u, Accepted P s cs u ∧ Accepted P u ds t := by
  constructor
  · intro h
    induction cs generalizing s with
    | nil => exact ⟨s, .nil s, h⟩
    | cons c cs ih =>
      cases h with
      | cons hc hcs =>
        obtain ⟨u, hu, hds⟩ := ih hcs
        exact ⟨u, .cons hc hu, hds⟩
  · rintro ⟨u, hu, hds⟩
    induction hu with
    | nil => exact hds
    | cons hc _ ih => exact .cons hc (ih hds)

theorem Accepted.steps (h : Accepted P s cs t) : Relation.ReflTransGen (RunStep P) s t := by
  induction h with
  | nil => exact .refl
  | cons h _ ih => exact .head (.command h) ih

theorem Accepted.reachable {runId : RunId} {session : Option SessionId}
    (h : Accepted P (emptySnapshot runId session) cs s) : Reachable P s :=
  ⟨runId, session, h.steps⟩

theorem Reachable.accepted (hs : Reachable P s) (h : Accepted P s cs t) : Reachable P t := by
  obtain ⟨runId, session, hr⟩ := hs
  exact ⟨runId, session, hr.trans h.steps⟩

def runCommands (P : Platform) : RunSnapshot → List RunCommand → RunOutcome RunSnapshot
  | s, [] => .ok s
  | s, c :: cs =>
    match applyCommand P s c with
    | .ok t => runCommands P { t with sequence := s.sequence + 1 } cs
    | .error e => .error e

theorem runCommands_accepted (h : runCommands P s cs = .ok t) : Accepted P s cs t := by
  induction cs generalizing s with
  | nil =>
    cases h
    exact .nil _
  | cons c cs ih =>
    unfold runCommands at h
    split at h
    · exact .cons ‹_› (ih h)
    · cases h

/-! A concrete platform and the commands of one small run, on which general statements are
instantiated. -/

namespace Demo

def platform : Platform where
  hash _ := 7
  cappedDelayMs initialDelayMs _ _ _ := initialDelayMs
  softLimit quota := quota / 10 * 8
  payloadDigest _ := "sha256:0"
  payloadBytes _ := 1
  payloadChars _ := 1
  decodeError _ := "no command"

def envelope (id : CommandId) (now : UInt64) : CommandEnvelope where
  commandId := id
  expectedSequence := none
  timestamp := now
  idempotencyKey := none

/-- The run of these commands from its beginning. -/
def ran (cs : List RunCommand) : RunOutcome RunSnapshot :=
  runCommands platform (emptySnapshot "run" none) cs

theorem ran_accepted (cs : List RunCommand) (h : ran cs = .ok s) :
    Accepted platform (emptySnapshot "run" none) cs s := runCommands_accepted h

theorem ran_reachable (cs : List RunCommand) (h : ran cs = .ok s) : Reachable platform s :=
  (ran_accepted cs h).reachable

theorem ran_on (cs ds : List RunCommand) (h : ran cs = .ok s)
    (h' : runCommands platform s ds = .ok t) :
    Reachable platform s ∧ Accepted platform s ds t :=
  ⟨ran_reachable cs h, runCommands_accepted h'⟩

def binding : TaskInputBinding := { TaskInputBinding.default with
  activation := some ⟨"request", "digest", "audit"⟩
  executionScope := some ⟨"principal", "organization", "context"⟩
  deadline := some 1000 }

def createRun : RunCommand := .createRun {
  envelope := envelope "create" 1
  sessionId := none
  runId := "run"
  rootTaskId := "task"
  rootBinding := binding
  speculation := some ⟨true, 3⟩
  jobSpec := none }

def startRun : RunCommand := .startRun ⟨envelope "start" 2, "run"⟩

def createAttempt (id : AttemptId) : RunCommand :=
  .createAttempt ⟨envelope ("attempt:" ++ id) 3, "run", "task", id, none⟩

def leaseAttempt (id : AttemptId) (epoch expiresAt : UInt64) : RunCommand := .leaseAttempt {
  envelope := envelope ("lease:" ++ id) 4
  runId := "run"
  attemptId := id
  leaseId := "lease"
  leaseEpoch := epoch
  holder := .local
  issuedAt := 4
  expiresAt
  heartbeatIntervalSecs := 30 }

/-- An attempt of the started run under a lease that expires at 500. -/
def leasedUntil : List RunCommand := [createRun, startRun, createAttempt "a",
    leaseAttempt "a" 1 500]

def proof (epoch : UInt64) : LeaseProof := ⟨"lease", epoch, .local⟩

def startAttempt (id : AttemptId) (epoch : UInt64) : RunCommand :=
  .startAttempt ⟨envelope ("start:" ++ id) 5, "run", id, proof epoch⟩

def claimExecution (id : AttemptId) (epoch : UInt64) : RunCommand :=
  .claimExecution ⟨envelope ("claim:" ++ id) 6, "run", id, proof epoch⟩

def completeAttempt (id : AttemptId) (epoch : UInt64) : RunCommand := .completeAttempt {
  envelope := envelope ("complete:" ++ id) 7
  runId := "run"
  attemptId := id
  taskVersion := 1
  workspaceVersion := none
  inputDigest := "input:7"
  resultDigest := "result"
  leaseProof := proof epoch }

def suspendAttempt (id : AttemptId) (epoch : UInt64) : RunCommand := .suspendAttempt {
  envelope := envelope ("suspend:" ++ id) 7
  runId := "run"
  attemptId := id
  leaseProof := proof epoch
  checkpoint := ⟨"artifact", "digest"⟩
  reason := .humanInput }

def resumeAttempt (id : AttemptId) (epoch : UInt64) : RunCommand := .resumeAttempt {
  envelope := envelope ("resume:" ++ id) 8
  runId := "run"
  attemptId := id
  checkpoint := ⟨"artifact", "digest"⟩
  leaseProof := proof epoch
  holder := .local }

end Demo

end Tetonic.Run
