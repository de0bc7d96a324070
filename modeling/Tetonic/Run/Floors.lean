import Tetonic.Run.Compaction
set_option autoImplicit false

/-! Compactions at floors that the caller chooses. Replay agrees with the projection as long as no
floor lies behind one that has cut the journal, or beyond the next event. -/

namespace Tetonic.Run
open Lib

variable {P : Platform} {w w' : World} {runId : RunId} {floor : Nat}

variable (P) in
/-- What happens while a process runs, with `C` of every compaction of a run at a floor, also of one
that `handle` triggers. -/
inductive CompactingStep (C : World → RunId → Nat → Prop) : World → World → Prop where
  | handle (w : World) (env : CallEnv) (command : RunCommand)
      (own : ∀ floor, TriggersCompaction P w env command floor → C w command.runId floor) :
      CompactingStep C w (w.handle P env command)
  | compact (w : World) (fault : Option RunSupervisorError) (runId : RunId) (floor : Nat)
      (sessionFallback : Option SessionId) (hfloor : C w runId floor) :
      CompactingStep C w { w with sup := w.sup.compactAt P fault runId floor sessionFallback }

variable (P) in
def Compacting (C : World → RunId → Nat → Prop) (w : World) : Prop :=
  ∃ durable quota, Relation.ReflTransGen (CompactingStep P C) (World.start durable quota) w

/-- The floor is above the last one, if that one has cut the journal, and not beyond the next
event. Floor 0 changes nothing. -/
structure AdvancingFloor (w : World) (runId : RunId) (floor : Nat) : Prop where
  low : floor = 0 ∨ w.replayFloor runId ≤ 1 ∨ w.replayFloor runId < floor
  high : ∀ p, w.projection runId = some p → floor ≤ p.sequence + 1

theorem compactRun_zero {t t' : RunTables} {fallback : Option SessionId}
    {report : RunTables.CompactReport} (hok : compactRun P t runId 0 fallback = .ok (t', report)) :
    t' = t := by
  simp only [compactRun, bind_eq_ok, RunTables.compactRunEventsAtFloor, if_true, pure_eq_ok,
    Prod.mk.injEq] at hok
  obtain ⟨_, -, _, -, rfl, -⟩ := hok
  rfl

theorem compactRun_row {t t' : RunTables} {fallback : Option SessionId}
    {report : RunTables.CompactReport} (hpos : 0 < floor)
    (hok : compactRun P t runId floor fallback = .ok (t', report)) : t.row.isSome = true := by
  simp only [compactRun, bind_eq_ok, RunTables.compactRunEventsAtFloor,
    if_neg (Nat.ne_of_gt hpos), orFail_eq_ok] at hok
  obtain ⟨_, -, _, -, row, hrow, -⟩ := hok
  rw [hrow]
  rfl

theorem World.Keeps.compactAdvancing (h : w.RowsKept P) (hfloor : AdvancingFloor w runId floor)
    (fault : Option RunSupervisorError) (fallback : Option SessionId) :
    World.RowsKept P { w with sup := w.sup.compactAt P fault runId floor fallback } := by
  refine h.compactAt fault fallback fun store t report hstore hok => ?_
  have hrows := h.durable store hstore runId
  obtain rfl | hpos := Nat.eq_zero_or_pos floor
  · rw [compactRun_zero hok]
    exact hrows
  obtain ⟨row, hrow⟩ := Option.isSome_iff_exists.mp (compactRun_row hpos hok)
  have hproj : w.projection runId = some row.projection := by
    simp [World.projection, hstore, RunTables.loadRunSnapshot, hrow]
  have hstored : w.replayFloor runId = row.replayFloor := by
    simp [World.replayFloor, hstore, hrow]
  have hlow := hfloor.low.resolve_left (Nat.ne_of_gt hpos)
  have hhigh := hfloor.high _ hproj
  rw [hstored] at hlow
  rw [h.projection_sequence hproj] at hhigh
  exact (hrows.compact hrow hlow hpos hhigh hok).1

theorem World.Keeps.handleAdvancing {env : CallEnv} {command : RunCommand} (h : w.RowsKept P)
    (own : ∀ floor, TriggersCompaction P w env command floor →
      AdvancingFloor w command.runId floor) : (w.handle P env command).RowsKept P := by
  refine World.Keeps.handle h h ?_
  intro base applied stored compact store t t' hc hstore ht hout hown
  refine ((h.durable store hstore command.runId).after_commit rfl (hc.base_of_store hstore)
    hc.accepted ht hown fun hcompacts => ?_).1
  have hquota := hc.quota
  rw [hcompacts.advised] at hquota
  have hfloor := own (base.sequence + 1 - 100) ⟨by rw [hstore]; rfl, hcompacts.noFault, hquota,
    ⟨_, hout, rfl, rfl⟩, hcompacts.positive⟩
  have hlow := hfloor.low.resolve_left (Nat.ne_of_gt hcompacts.positive)
  simpa only [World.replayFloor, hstore] using hlow

theorem CompactingStep.rowsKept (hstep : CompactingStep P AdvancingFloor w w')
    (h : w.RowsKept P) : w'.RowsKept P := by
  cases hstep with
  | handle env command own => exact h.handleAdvancing own
  | compact fault runId floor fallback hfloor => exact h.compactAdvancing hfloor fault fallback

theorem Compacting.rowsKept (h : Compacting P AdvancingFloor w) : w.RowsKept P := by
  obtain ⟨durable, quota, hr⟩ := h
  induction hr with
  | refl => exact World.start_keeps (fun _ => ⟨rfl, rfl⟩) durable quota
  | tail _ hstep ih => exact hstep.rowsKept ih

/-- While a process runs and its compactions advance, replaying a run from its journal gives back
exactly its projection. -/
theorem replayRun_projection {w : World} (h : Compacting P AdvancingFloor w) {runId : RunId}
    {p : RunSnapshot} (hp : w.projection runId = some p) :
    ∃ s, w.sup.replayRun P runId = .ok s ∧ s.withEvents [] = p :=
  h.rowsKept.replayRun hp

section
variable {C : World → RunId → Nat → Prop}

theorem Compacting.handle (h : Compacting P C w) (env : CallEnv) (command : RunCommand)
    (own : ∀ floor, TriggersCompaction P w env command floor → C w command.runId floor) :
    Compacting P C (w.handle P env command) := by
  obtain ⟨durable, quota, hr⟩ := h
  exact ⟨durable, quota, hr.tail (.handle w env command own)⟩

theorem Compacting.compact (h : Compacting P C w) (runId : RunId) (floor : Nat)
    (hfloor : C w runId floor) :
    Compacting P C { w with sup := w.sup.compactAt P none runId floor none } := by
  obtain ⟨durable, quota, hr⟩ := h
  exact ⟨durable, quota, hr.tail (.compact w none runId floor none hfloor)⟩

/-- The compactions of a process that leaves the newest hundred events alone advance. -/
theorem Live.compacting (h : Live P w) (hC : ∀ w runId floor, AdvancingFloor w runId floor →
    C w runId floor) : Compacting P C w := by
  obtain ⟨durable, quota, hr⟩ := h
  refine ⟨durable, quota, ?_⟩
  induction hr with
  | refl => exact .refl
  | @tail w₁ w₂ hprefix hstep ih =>
    have hlive : Live P w₁ := ⟨durable, quota, hprefix⟩
    refine ih.tail ?_
    cases hstep with
    | handle env command =>
      refine .handle w₁ env command fun floor ht => hC _ _ _ ?_
      obtain ⟨_, _, row, _, -, -, -, hstored, hlow, -, -⟩ := ht.committed hlive.coherent
      obtain ⟨base, applied, stored, hc, hfloor, -, -⟩ := ht.facts
      refine ⟨.inr (.inr (hstored ▸ hlow)), fun p hp => ?_⟩
      obtain ⟨store, hstore⟩ := Option.isSome_iff_exists.mp ht.durable
      have hseq := ((hlive.coherent.durable store hstore command.runId).rows.base_facts rfl
        (hc.base_of_store hstore)).2.2
      have := hlive.coherent.rows.projection_sequence hp
      omega
    | compact fault runId floor fallback hp hlow hhigh =>
      refine .compact w₁ fault runId floor fallback (hC _ _ _ ⟨.inr (.inr hlow), fun q hq => ?_⟩)
      rw [hp] at hq
      cases hq
      omega

end

namespace Demo

/-- A run of five events. -/
def five : World := (World.start true 1000).handleAll platform 0
  [createRun, startRun, markReady 1, createAttempt "a", leaseAttempt "a" 0 100]

def cut (floor : Nat) (w : World) : World :=
  { w with sup := w.sup.compactAt platform none "run" floor none }

def more (w : World) : World := w.handle platform { eventId := "more" } (startAttempt "a" 1)

section
variable {C : World → RunId → Nat → Prop} {w : World}

theorem five_compacting (hC : ∀ w runId floor, AdvancingFloor w runId floor → C w runId floor) :
    Compacting platform C five :=
  ((Live.start true 1000).handleAll 0 _).compacting hC

theorem cut_compacting (h : Compacting platform C w) (floor : Nat) (hfloor : C w "run" floor) :
    Compacting platform C (cut floor w) :=
  h.compact "run" floor hfloor

/-- A short run has no floor at which `handle` compacts. -/
theorem more_compacting (h : Compacting platform C w)
    (hshort : (w.sup.handle platform { eventId := "more" } (startAttempt "a" 1)).2.toOption.all
      (decide <| ·.sequence ≤ 100) = true) : Compacting platform C (more w) := by
  refine h.handle _ _ fun floor ht => ?_
  obtain ⟨r, hr, -, hfloor⟩ := ht.commits
  have hpos := ht.positive
  simp only [hr, Except.toOption, Option.all_some, decide_eq_true_eq] at hshort
  omega

end

end Demo
open Demo

/-- Five events, a compaction at floor 3, and one more. -/
theorem replayRun_projection_cut :
    ∃ w p s, Compacting platform AdvancingFloor w ∧ w.replayFloor "run" = 3 ∧
      w.projection "run" = some p ∧ p.sequence = 6 ∧
      w.sup.replayRun platform "run" = .ok s ∧ s.withEvents [] = p := by
  have hfloor : AdvancingFloor five "run" 3 := by
    have hfive : (five.projection "run").all (decide <| 3 ≤ ·.sequence + 1) = true := by
      decide +kernel
    refine ⟨.inr (.inl (by decide +kernel)), fun p hp => ?_⟩
    simpa [hp] using hfive
  have hw : Compacting platform AdvancingFloor (more (cut 3 five)) :=
    more_compacting (cut_compacting (five_compacting fun _ _ _ h => h) 3 hfloor) (by decide +kernel)
  obtain ⟨s, hs, hback⟩ := replayRun_projection hw (show World.projection _ "run" = some _ from rfl)
  exact ⟨_, _, s, hw, by decide +kernel, rfl, by decide +kernel, hs, hback⟩

/-- A compaction at floor 2 after one at floor 3 starts over from an empty snapshot, without the
events below 3, and replay fails. After one beyond the next event replay misses that event. -/
theorem replayRun_misses_projection :
    (∃ w e, Compacting platform (fun _ _ _ => True) w ∧ (w.projection "run").isSome = true ∧
      w.sup.replayRun platform "run" = .error e) ∧
    ∃ w p s, Compacting platform (fun _ _ _ => True) w ∧ w.projection "run" = some p ∧
      w.sup.replayRun platform "run" = .ok s ∧ s.withEvents [] ≠ p := by
  have hfive : Compacting platform (fun _ _ _ => True) five :=
    five_compacting fun _ _ _ _ => trivial
  constructor
  · have hw := cut_compacting (cut_compacting hfive 3 trivial) 2 trivial
    exact ⟨_, _, hw, by decide +kernel, rfl⟩
  · have hw := more_compacting (cut_compacting hfive 7 trivial) (by decide +kernel)
    exact ⟨_, _, _, hw, rfl, rfl, by decide +kernel⟩

end Tetonic.Run
