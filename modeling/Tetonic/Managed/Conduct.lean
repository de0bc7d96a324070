import Tetonic.Managed.Cluster
set_option autoImplicit false

/-! Callers that keep to a discipline. Each caller is in a state of the discipline's automaton;
a step of the cluster moves at most one of them, and a committed command moves its caller at
the moment of the commit, before the answer is delivered. -/

namespace Tetonic.Managed
open Lib Run OrdMap
open Function (update update_of_ne update_self)

variable {command : RunCommand} {stage : Stage} {id : CallerId} {host : InstanceId}
variable {ρ σ : Type} {P : Platform} {r : RunId} {c c' : Cluster ρ}

variable {a : Action ρ}

theorem Cluster.Stepped.shared_ok (hs : c.Stepped P r a c') (h : c.shared.Ok P r) :
    (∃ host, c.shared.Move host c'.shared) ∧ c'.shared.Ok P r := by
  have same : (∃ host, c.shared.Move host c.shared) ∧ c.shared.Ok P r :=
    ⟨⟨0, .still rfl rfl rfl⟩, h⟩
  cases hs with
  | spawn | answer | finish | dropRunning => exact same
  | call hat hrun hserve => exact ⟨⟨_, (h.serve hrun hserve).1⟩, (h.serve hrun hserve).2⟩
  | turn hturn => exact ⟨⟨_, (h.turn hturn).1⟩, (h.turn hturn).2⟩
  | dropWaiting => exact ⟨⟨_, (h.release _).1⟩, (h.release _).2⟩
  | restart host now => exact ⟨⟨host, (h.restart host now).1⟩, (h.restart host now).2⟩

theorem Cluster.Stepped.inStep (hs : c.Stepped P r a c') (h : c.shared.Ok P r)
    (hi : c.shared.InStep) (ht : a.Timely c c') : c'.shared.InStep := by
  cases hs with
  | spawn | answer | finish | dropRunning => exact hi
  | call hat hrun hserve => exact hi.serve hserve
  | turn hturn => exact (hi.turn h hturn ht).2
  | dropWaiting => exact hi.release _
  | restart host now => exact hi.restart P host now

/-- What a caller that waits still owes, by the stage of its call. -/
def Awaits (D : Discipline Op Op.Ans σ) (Q : σ → Except (Fault ManagedRunError) ρ → Prop) (s : σ)
    (command : RunCommand) (k : RunOutcome RunCommandResult → Call ρ) : Stage → Prop
  | .committed next => (k (.ok next.result)).wp D Q s
  | _ => D.allowed s (.handle command) ∧
      ∀ res, (k res).wp D Q (D.after s (.handle command) res)

variable {stage' : Stage} {s : σ}

section Awaits

variable {D : Discipline Op Op.Ans σ} {Q : σ → Except (Fault ManagedRunError) ρ → Prop}

section
variable {k : RunOutcome RunCommandResult → Call ρ} (h : Awaits D Q s command k stage)
  (hstage : stage.written = false)
include h hstage

theorem Awaits.early (hstage' : stage'.written = false) : Awaits D Q s command k stage' := by
  cases stage with
  | committed => cases hstage
  | _ =>
    cases stage' with
    | committed => cases hstage'
    | _ => exact h

theorem Awaits.owes :
    D.allowed s (.handle command) ∧ ∀ res, (k res).wp D Q (D.after s (.handle command) res) := by
  cases stage with
  | committed => cases hstage
  | _ => exact h

end

end Awaits

/-- Every call in progress keeps to the discipline from its caller's state on. -/
structure Conduct (D : Discipline Op Op.Ans σ) (Q : σ → Except (Fault ManagedRunError) ρ → Prop)
    (g : CallerId → σ) (c : Cluster ρ) : Prop where
  running : ∀ (id : CallerId) (host : InstanceId) (p : Call ρ),
    c.sessions[id]? = some ⟨host, .running p⟩ → p.wp D Q (g id)
  serving : ∀ (host : InstanceId) (id : CallerId) (command : RunCommand) (stage : Stage),
    c.shared.hosts[host]? = some (.serving id command stage) →
    ∃ k, c.sessions[id]? = some ⟨host, .waiting command k⟩ ∧ Awaits D Q (g id) command k stage
  fresh : ∀ id : CallerId, c.spawned ≤ id → c.sessions[id]? = none

/-- What the calls have left outside the shared state is as before. -/
structure SameTrace (c c' : Cluster ρ) : Prop where
  effects : c'.effects = c.effects
  uuids : c'.uuids = c.uuids
  results : c'.results = c.results

variable (P r) in
/-- What a step does to the callers' states and to what the cluster keeps. -/
inductive Moved (D : Discipline Op Op.Ans σ) (Q : σ → Except (Fault ManagedRunError) ρ → Prop)
    (start : σ) (g : CallerId → σ) (c c' : Cluster ρ) : Action ρ → (CallerId → σ) → Prop where
  | spawned {host : InstanceId} {prog : Call ρ} (hshared : c'.shared = c.shared)
      (hsame : SameTrace c c') :
      Moved D Q start g c c' (.spawn host prog) (update g c.spawned start)
  | answered {id : CallerId} {env : Surroundings} {o : Op} (hallowed : D.allowed (g id) o)
      (hanswer : c.answerable r env o = true) (hshared : c'.shared = c.shared)
      (heffects : c'.effects = c.effectsAfter o) (huuids : c'.uuids = c.uuidsAfter env o)
      (hresults : c'.results = c.results) :
      Moved D Q start g c c' (.answer id env)
        (update g id (D.after (g id) o (env.answer c.shared.projection o)))
  | finished {id : CallerId} {res : Except (Fault ManagedRunError) ρ} (hQ : Q (g id) res)
      (hshared : c'.shared = c.shared) (heffects : c'.effects = c.effects)
      (huuids : c'.uuids = c.uuids) (hresults : c'.results = c.results ++ [(id, res)]) :
      Moved D Q start g c c' (.finish id) g
  | replied {host : InstanceId} {env : TurnEnv} {id : CallerId} {command : RunCommand}
      {ans : Option (CallerId × RunOutcome RunCommandResult)}
      {res : RunOutcome RunCommandResult} (hallowed : D.allowed (g id) (.handle command))
      (hres : ∀ result, res = .ok result → result.idempotentReplay = true ∧
        (command.envelope.idempotencyKey = none →
          ∃ hit, c.shared.tables.commandDedup[command.envelope.commandId]? = some hit))
      (hturn : c.shared.turn P host env = some (c'.shared, ans))
      (hlog : c'.shared.log = c.shared.log) (hsame : SameTrace c c') :
      Moved D Q start g c c' (.turn host env)
        (update g id (D.after (g id) (.handle command) res))
  | committed {host : InstanceId} {env : TurnEnv} {id : CallerId} {command : RunCommand}
      {ans : Option (CallerId × RunOutcome RunCommandResult)} {base next : RunSnapshot}
      {event : RunEventEnvelope}
      (hat : c.shared.hosts[host]? = some (.serving id command (.decided base next event)))
      (hallowed : D.allowed (g id) (.handle command))
      (hturn : c.shared.turn P host env = some (c'.shared, ans))
      (hlog : c'.shared.log = c.shared.log ++ [command]) (hsame : SameTrace c c') :
      Moved D Q start g c c' (.turn host env)
        (update g id (D.after (g id) (.handle command) (.ok next.result)))
  | went {host : InstanceId} {env : TurnEnv}
      {ans : Option (CallerId × RunOutcome RunCommandResult)}
      (hturn : c.shared.turn P host env = some (c'.shared, ans))
      (hlog : c'.shared.log = c.shared.log) (hsame : SameTrace c c') :
      Moved D Q start g c c' (.turn host env) g
  | other {a : Action ρ} (hprojection : c'.shared.projection = c.shared.projection)
      (hdedup : c'.shared.tables.commandDedup = c.shared.tables.commandDedup)
      (hlog : c'.shared.log = c.shared.log) (hsame : SameTrace c c') :
      Moved D Q start g c c' a g

variable {host' : InstanceId} {p : Call ρ} {x : Session ρ} {shared : Shared CallerId}

namespace Conduct

variable {D : Discipline Op Op.Ans σ} {Q : σ → Except (Fault ManagedRunError) ρ → Prop} {start : σ}
  {g : CallerId → σ}

theorem empty (g : CallerId → σ) : Conduct D Q g ({} : Cluster ρ) where
  running id host p hp := by simp at hp
  serving host id command stage hat := by simp at hat
  fresh id _ := by simp

section
variable (h : Conduct D Q g c)
include h

theorem running_ne {id' : CallerId} (hat : c.sessions[id]? = some ⟨host, .running p⟩)
    (hserving : c.shared.hosts[host']? = some (.serving id' command stage)) : id' ≠ id := by
  obtain ⟨k, hk, -⟩ := h.serving host' id' command stage hserving
  intro heq
  rw [heq, hat] at hk
  cases hk

theorem host_unique {command' : RunCommand}
    (hat : c.shared.hosts[host]? = some (.serving id command stage))
    (hat' : c.shared.hosts[host']? = some (.serving id command' stage')) : host' = host := by
  obtain ⟨k, hk, -⟩ := h.serving host id command stage hat
  obtain ⟨k', hk', -⟩ := h.serving host' id command' stage' hat'
  rw [hk] at hk'
  cases hk'
  rfl

theorem lt_spawned (hat : c.sessions[id]? = some x) : id < c.spawned := by
  by_contra hge
  rw [h.fresh id (Nat.le_of_not_lt hge)] at hat
  cases hat

theorem resume {id : CallerId} {host : InstanceId} (hp : p.wp D Q s)
    (hsessions : c'.sessions = c.sessions.insert id ⟨host, .running p⟩)
    (hhosts : ∀ (host' : InstanceId) (id' : CallerId) (command : RunCommand) (stage : Stage),
      c'.shared.hosts[host']? = some (.serving id' command stage) →
      c.shared.hosts[host']? = some (.serving id' command stage) ∧ id' ≠ id)
    (hfresh : ∀ j : CallerId, c'.spawned ≤ j → c'.sessions[j]? = none) :
    Conduct D Q (update g id s) c' where
  running id' host' p' hat := by
    rw [hsessions] at hat
    rcases get_insert_cases hat with ⟨rfl, heq⟩ | ⟨hne, hat⟩
    · cases heq
      rw [update_self]
      exact hp
    · rw [update_of_ne (Ne.symm hne)]
      exact h.running id' host' p' hat
  serving host' id' command stage hat := by
    obtain ⟨hold, hne⟩ := hhosts host' id' command stage hat
    obtain ⟨k, hk, hawait⟩ := h.serving host' id' command stage hold
    rw [hsessions, get_insert_ne _ _ (Ne.symm hne), update_of_ne hne]
    exact ⟨k, hk, hawait⟩
  fresh := hfresh

theorem await {k : RunOutcome RunCommandResult → Call ρ} (hawait : Awaits D Q s command k stage)
    (hhosts : c'.shared.hosts = c.shared.hosts.insert host (.serving id command stage))
    (hsessions : c'.sessions = c.sessions.insert id ⟨host, .waiting command k⟩)
    (hunique : ∀ (host' : InstanceId) (command' : RunCommand) (stage' : Stage),
      c.shared.hosts[host']? = some (.serving id command' stage') → host' = host)
    (hfresh : ∀ j : CallerId, c'.spawned ≤ j → c'.sessions[j]? = none) :
    Conduct D Q (update g id s) c' where
  running id' host' p' hat := by
    rw [hsessions] at hat
    rcases get_insert_cases hat with ⟨-, heq⟩ | ⟨hne, hat⟩
    · cases heq
    · rw [update_of_ne (Ne.symm hne)]
      exact h.running id' host' p' hat
  serving host' id' command' stage' hat := by
    rw [hhosts] at hat
    rw [hsessions]
    rcases get_insert_cases hat with ⟨rfl, heq⟩ | ⟨hne, hold⟩
    · cases heq
      rw [get_insert_self, update_self]
      exact ⟨k, rfl, hawait⟩
    · have hid : id' ≠ id := by
        intro heq
        rw [heq] at hold
        exact hne (hunique host' command' stage' hold).symm
      rw [get_insert_ne _ _ (Ne.symm hid), update_of_ne hid]
      exact h.serving host' id' command' stage' hold
  fresh := hfresh

theorem shrink
    (hsub : ∀ (j : CallerId) (x : Session ρ), c'.sessions[j]? = some x → c.sessions[j]? = some x)
    (hhosts : ∀ (host : InstanceId) (id : CallerId) (command : RunCommand) (stage : Stage),
      c'.shared.hosts[host]? = some (.serving id command stage) →
      c.shared.hosts[host]? = some (.serving id command stage) ∧
        ∀ k, c.sessions[id]? = some ⟨host, .waiting command k⟩ →
          c'.sessions[id]? = some ⟨host, .waiting command k⟩)
    (hspawned : c'.spawned = c.spawned) : Conduct D Q g c' where
  running id host p hat := h.running id host p (hsub id _ hat)
  serving host id command stage hat := by
    obtain ⟨hold, hkeep⟩ := hhosts host id command stage hat
    obtain ⟨k, hk, hawait⟩ := h.serving host id command stage hold
    exact ⟨k, hkeep k hk, hawait⟩
  fresh id hid := by
    by_contra hne
    obtain ⟨x, hx⟩ := Option.ne_none_iff_exists'.mp hne
    have hlt := h.lt_spawned (hsub id x hx)
    rw [hspawned] at hid
    exact Nat.not_lt.mpr hid hlt

theorem leave (hat : c.sessions[id]? = some ⟨host, .running p⟩) (hshared : c'.shared = c.shared)
    (hsessions : c'.sessions = c.sessions.erase id) (hspawned : c'.spawned = c.spawned) :
    Conduct D Q g c' := by
  refine h.shrink (fun j x hx => ?_) (fun host' id' command stage hat' => ?_) hspawned
  · rw [hsessions] at hx
    exact (get_of_erase hx).2
  · rw [hshared] at hat'
    refine ⟨hat', fun k hk => ?_⟩
    rw [hsessions, get_erase_ne _ (h.running_ne hat hat').symm]
    exact hk

theorem fresh_insert (hid : c.sessions[id]? = some x) (y : Session ρ)
    (j : CallerId) (hj : c.spawned ≤ j) :
    (c.sessions.insert id y)[j]? = none := by
  have hlt := h.lt_spawned hid
  have hne : id ≠ j := by
    intro heq
    rw [heq] at hlt
    exact Nat.not_lt.mpr hj hlt
  rw [get_insert_ne _ _ hne]
  exact h.fresh j hj

end

section Turn

variable {k : RunOutcome RunCommandResult → Call ρ}

section
variable (h : Conduct D Q g c) (hat : c.shared.hosts[host]? = some (.serving id command stage))
  (hk : c.sessions[id]? = some ⟨host, .waiting command k⟩)
include h hat hk

theorem deliver {res : RunOutcome RunCommandResult}
    (hp : (k res).wp D Q s) (hhosts : shared.hosts = c.shared.hosts.erase host) :
    Conduct D Q (update g id s) { c with shared, sessions := c.deliver (some (id, res)) } := by
  have hdeliver : c.deliver (some (id, res)) = c.sessions.insert id ⟨host, .running (k res)⟩ := by
    simp only [Cluster.deliver, hk]
  refine h.resume hp hdeliver (fun host' id' command' stage' hat' => ?_) fun j hj => ?_
  · simp only [hhosts] at hat'
    obtain ⟨hne, hold⟩ := get_of_erase hat'
    refine ⟨hold, fun heq => ?_⟩
    rw [heq] at hold
    exact hne (h.host_unique hat hold).symm
  · rw [hdeliver]
    exact h.fresh_insert hk _ j hj

theorem advance (hawait : Awaits D Q s command k stage')
    (hhosts : shared.hosts = c.shared.hosts.insert host (.serving id command stage')) :
    Conduct D Q (update g id s) { c with shared, sessions := c.deliver none } := by
  have hsame : c.sessions = c.sessions.insert id ⟨host, .waiting command k⟩ :=
    (insert_eq_self _ hk).symm
  exact h.await hawait hhosts hsame
    (fun host' command' stage' hat' => h.host_unique hat hat') h.fresh

theorem progress (hawait : Awaits D Q (g id) command k stage')
    (hhosts : shared.hosts = c.shared.hosts.insert host (.serving id command stage')) :
    Conduct D Q g { c with shared, sessions := c.deliver none } := by
  have hnext := h.advance hat hk hawait hhosts
  rw [Function.update_eq_self] at hnext
  exact hnext

end

theorem turn (h : Conduct D Q g c) {env : TurnEnv}
    {ans : Option (CallerId × RunOutcome RunCommandResult)}
    (hturn : c.shared.turn P host env = some (shared, ans)) :
    ∃ g', Moved P r D Q start g c { c with shared, sessions := c.deliver ans } (.turn host env) g' ∧
      Conduct D Q g' { c with shared, sessions := c.deliver ans } := by
  rcases Shared.turn_cases hturn with ⟨id, command, stage, res, hat, ht, hsettle⟩ |
    ⟨before, snap, hat, rfl, hshared⟩
  · obtain ⟨k, hk, hawait⟩ := h.serving host id command stage hat
    cases ht with
    | refused hstage =>
      cases hsettle
      obtain ⟨hallowed, hnext⟩ := hawait.owes hstage
      exact ⟨_, .replied hallowed (fun _ heq => by cases heq) hturn rfl ⟨rfl, rfl, rfl⟩,
        h.deliver hat hk (hnext _) rfl⟩
    | replayed hstage hit hhit =>
      cases hsettle
      obtain ⟨hallowed, hnext⟩ := hawait.owes hstage
      refine ⟨_, .replied hallowed (fun result heq => ?_) hturn rfl ⟨rfl, rfl, rfl⟩,
        h.deliver hat hk (hnext _) rfl⟩
      cases heq
      exact ⟨rfl, fun hkey => ⟨hit, hhit hkey⟩⟩
    | checkedId | checkedKey | decided =>
      cases hsettle
      exact ⟨g, .went hturn rfl ⟨rfl, rfl, rfl⟩, h.progress hat hk (hawait.early rfl rfl) rfl⟩
    | @compacted =>
      cases hsettle
      refine ⟨g, .went hturn rfl ⟨rfl, rfl, rfl⟩, ?_⟩
      rw [← Function.update_eq_self id g]
      exact h.deliver hat hk hawait rfl
    | committed hcommit hprogress =>
      obtain ⟨hallowed, hnext⟩ := hawait.owes rfl
      rcases hprogress with rfl | rfl
      · cases hsettle
        refine ⟨_, .committed hat hallowed hturn rfl ⟨rfl, rfl, rfl⟩, h.advance hat hk ?_ rfl⟩
        exact hnext _
      · cases hsettle
        exact ⟨_, .committed hat hallowed hturn rfl ⟨rfl, rfl, rfl⟩, h.deliver hat hk (hnext _) rfl⟩
  · have hhosts : shared.hosts = c.shared.hosts.erase host ∧ shared.log = c.shared.log := by
      rcases hshared with rfl | rfl
      all_goals exact ⟨rfl, rfl⟩
    refine ⟨g, .went hturn hhosts.2 ⟨rfl, rfl, rfl⟩, h.shrink (fun _ _ hx => hx) ?_ rfl⟩
    intro host' id command stage hat'
    simp only [hhosts.1] at hat'
    exact ⟨(get_of_erase hat').2, fun k hk => hk⟩

end Turn

theorem step (h : Conduct D Q g c) (hs : c.Stepped P r a c')
    (hspawn : a.Spawns fun p => p.wp D Q start) :
    ∃ g', Moved P r D Q start g c c' a g' ∧ Conduct D Q g' c' := by
  cases hs with
  | spawn =>
    refine ⟨_, .spawned rfl ⟨rfl, rfl, rfl⟩, h.resume hspawn rfl ?_ ?_⟩
    · intro host' id' command stage hat
      refine ⟨hat, fun heq => ?_⟩
      obtain ⟨k, hk, -⟩ := h.serving host' id' command stage hat
      exact Nat.lt_irrefl _ (heq ▸ h.lt_spawned hk)
    · intro j hj
      have hne : c.spawned ≠ j := Nat.ne_of_lt hj
      rw [get_insert_ne _ _ hne]
      exact h.fresh j (Nat.le_of_lt hj)
  | @call id host command k shared hat hrun hserve =>
    have hawait : Awaits D Q (g id) command k .arrived := h.running id host _ hat
    unfold Shared.serve at hserve
    split at hserve
    · cases hserve
    · cases hserve
      refine ⟨g, .other rfl rfl rfl ⟨rfl, rfl, rfl⟩, ?_⟩
      rw [← Function.update_eq_self id g]
      refine h.await hawait rfl rfl (fun host' command' stage' hat' => ?_) (h.fresh_insert hat _)
      exact absurd rfl (h.running_ne hat hat')
  | @answer id env host o k hat hanswer =>
    obtain ⟨hallowed, hnext⟩ := h.running id host _ hat
    refine ⟨_, .answered hallowed hanswer rfl rfl rfl rfl, h.resume (hnext _) rfl ?_ ?_⟩
    · intro host' id' command stage hat'
      exact ⟨hat', h.running_ne hat hat'⟩
    · exact h.fresh_insert hat _
  | turn hturn => exact h.turn hturn
  | @finish id host res hat =>
    have hQ : Q (g id) res := by
      have hp := h.running id host _ hat
      cases res with
      | ok | error => exact hp
    exact ⟨g, .finished hQ rfl rfl rfl rfl, h.leave hat rfl rfl rfl⟩
  | dropRunning hat => exact ⟨g, .other rfl rfl rfl ⟨rfl, rfl, rfl⟩, h.leave hat rfl rfl rfl⟩
  | @dropWaiting id host command k hat =>
    refine ⟨g, .other rfl rfl rfl ⟨rfl, rfl, rfl⟩, h.shrink ?_ ?_ rfl⟩
    · intro j x hx
      exact (get_of_erase hx).2
    · intro host' id' command' stage hat'
      obtain ⟨hne, hold⟩ := get_of_erase hat'
      refine ⟨hold, fun k' hk' => ?_⟩
      have hid : id ≠ id' := by
        intro heq
        rw [← heq, hat] at hk'
        cases hk'
        exact hne rfl
      rw [get_erase_ne _ hid]
      exact hk'
  | restart host now =>
    have hstill : (c.shared.restart P host now).projection = c.shared.projection ∧
        (c.shared.restart P host now).tables.commandDedup = c.shared.tables.commandDedup ∧
        (c.shared.restart P host now).log = c.shared.log := by
      unfold Shared.restart
      split <;> exact ⟨rfl, rfl, rfl⟩
    refine ⟨g, .other hstill.1 hstill.2.1 hstill.2.2 ⟨rfl, rfl, rfl⟩, h.shrink ?_ ?_ rfl⟩
    · intro j x hx
      exact get_of_filter hx
    · intro host' id' command stage hat'
      obtain ⟨hne, hold⟩ := Shared.restart_serving hat'
      refine ⟨hold, fun k hk => ?_⟩
      rw [get_filter _ _ hk]
      simp [hne]

end Conduct

end Tetonic.Managed
