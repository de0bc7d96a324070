import Tetonic.Txn.Publication
set_option autoImplicit false

/-! The journal of a commit: how it is built, and what applying one of its operations does. -/

namespace Tetonic.Txn
open Lib Proc StagedOperationKind

variable {P : Platform} {w w' : World}

/-- The content an operation publishes, out of the staged content. -/
def StagedOperation.source (op : StagedOperation) (content : WorkspacePath → Option Bytes) :
    Option FileData :=
  (op.newContentPath.bind content).map stagedFile

def effect (source : Option FileData) (op : StagedOperation) (fs : Workspace) : Option Workspace :=
  match op.kind with
  | .create | .replace | .edit => published op.path source false fs
  | .delete => removed op.path fs
  | .rename => op.destination.bind fun target => renamed op.path target fs
  | .modeChange => op.newMode.bind fun mode => moded op.path mode fs

def EffectPartly (source : Option FileData) (op : StagedOperation) (fs fs' : Workspace) : Prop :=
  match op.kind with
  | .create | .replace | .edit => PublishedPartly op.path source false fs fs'
  | .delete => OneGo (removed op.path) fs fs'
  | .rename => fs' = fs ∨ ∃ target, op.destination = some target ∧
      RenamedPartly op.path target fs fs'
  | .modeChange => fs' = fs ∨ ∃ mode, op.newMode = some mode ∧ OneGo (moded op.path mode) fs fs'

theorem EffectPartly.refl (source : Option FileData) (op : StagedOperation) (fs : Workspace) :
    EffectPartly source op fs fs := by
  unfold EffectPartly PublishedPartly OneGo
  split <;> exact .inl rfl

variable {fs : Workspace} {op : StagedOperation}

theorem effect_writes {source : Option FileData} (h : op.kind.writes = true) :
    effect source op fs = published op.path source false fs := by
  cases hk : op.kind <;> simp_all [effect, writes]

theorem effectPartly_writes {source : Option FileData} {fs' : Workspace}
    (h : op.kind.writes = true) :
    EffectPartly source op fs fs' ↔ PublishedPartly op.path source false fs fs' := by
  cases hk : op.kind <;> simp_all [EffectPartly, writes]

def mayApply (P : Platform) (fs : Workspace) (e : JournalOperation) : Bool :=
  (revalidatePrecondition P fs e).isOk && (resolveUnderRoot fs e.operation.path).isOk &&
    (e.operation.kind ≠ .rename || e.operation.destination.all fun target =>
      (resolveUnderRoot fs target).isOk)

def applied (P : Platform) (d : Disk) (e : JournalOperation) : Option Workspace :=
  if mayApply P d.files e then effect (d.source e.newContentPath) e.operation d.files else none

variable {α ε : Type} {r : Except ε α}

theorem isOk_false_of_eq_error {e : ε} (h : r = .error e) : r.isOk = false := by
  rw [h]
  rfl

theorem isOk_of_eq_ok {a : α} (h : r = .ok a) : r.isOk = true := by
  rw [h]
  rfl

theorem applyOne_step (e : JournalOperation) :
    FileStepAt w (applied P w.disk e)
      (EffectPartly (w.disk.source e.newContentPath) e.operation w.disk.files) (applyOne P e) := by
  have hrefl := EffectPartly.refl (w.disk.source e.newContentPath) e.operation w.disk.files
  change FileStepAt w _ _ (ofExcept (revalidatePrecondition P w.disk.files e) >>= _)
  refine .check hrefl (fun _ hvalid => ?_) fun _ herr => by
    simp [applied, mayApply, isOk_false_of_eq_error herr]
  refine .check hrefl (fun abs habs => ?_) fun _ herr => by
    simp [applied, mayApply, isOk_false_of_eq_error herr]
  have happlied : e.operation.kind ≠ .rename →
      applied P w.disk e = effect (w.disk.source e.newContentPath) e.operation w.disk.files := by
    intro hkind
    simp [applied, mayApply, isOk_of_eq_ok hvalid, isOk_of_eq_ok habs, hkind]
  have hwrites : e.operation.kind.writes = true →
      FileStepAt w (applied P w.disk e)
        (EffectPartly (w.disk.source e.newContentPath) e.operation w.disk.files)
        (publicationReplace e.operation.path (w.disk.source e.newContentPath)) := by
    intro hwrites
    have hpartly : EffectPartly (w.disk.source e.newContentPath) e.operation w.disk.files =
        PublishedPartly e.operation.path (w.disk.source e.newContentPath) false w.disk.files :=
      funext fun _ => propext (effectPartly_writes hwrites)
    rw [happlied (by intro h; simp [h, writes] at hwrites), effect_writes hwrites, hpartly]
    exact publish_step _ _ _ w
  rw [resolveUnderRoot_eq habs]
  cases hkind : e.operation.kind with
  | create | replace | edit => exact hwrites (by simp [hkind, writes])
  | delete =>
    have hpartly : EffectPartly (w.disk.source e.newContentPath) e.operation w.disk.files =
        OneGo (removed e.operation.path) w.disk.files := by
      funext fs
      simp only [EffectPartly, hkind]
    rw [happlied (by simp [hkind]), hpartly]
    simp only [effect, hkind]
    exact publicationRemove_step _ w
  | rename =>
    cases hdest : e.operation.destination with
    | none => exact .fail hrefl (by simp [applied, effect, hkind, hdest]) _
    | some target =>
      refine .check hrefl (fun dest hd => ?_) fun _ herr => by
        simp [applied, mayApply, isOk_false_of_eq_error herr, hkind, hdest]
      rw [resolveUnderRoot_eq hd]
      have hrename : applied P w.disk e = renamed e.operation.path target w.disk.files := by
        simp [applied, mayApply, isOk_of_eq_ok hvalid, isOk_of_eq_ok habs, isOk_of_eq_ok hd,
          effect, hkind, hdest]
      have hpartly : EffectPartly (w.disk.source e.newContentPath) e.operation w.disk.files =
          RenamedPartly e.operation.path target w.disk.files := by
        funext fs
        simp only [EffectPartly, hkind, hdest, Option.some.injEq, exists_eq_left']
        exact propext ⟨fun h => h.elim .inl id, .inr⟩
      rw [hrename, hpartly]
      exact publicationRename_step _ _ w
  | modeChange =>
    rw [happlied (by simp [hkind])]
    cases hmode : e.operation.newMode with
    | none => exact .fail hrefl (by simp [effect, hkind, hmode]) _
    | some mode =>
      have hpartly : EffectPartly (w.disk.source e.newContentPath) e.operation w.disk.files =
          OneGo (moded e.operation.path mode) w.disk.files := by
        funext fs
        simp only [EffectPartly, hkind, hmode, Option.some.injEq, exists_eq_left']
        exact propext ⟨fun h => h.elim .inl id, .inr⟩
      rw [hpartly]
      simp only [effect, hkind, hmode, Option.bind_some]
      exact changeMode_step _ _ w

variable {j : CommitJournal} {post pre : List JournalOperation} {e : JournalOperation}

theorem entry_of_split (h : j.operations = pre ++ e :: post) (hdistinct : j.indices.Nodup) :
    j.entry e.index = some e := by
  unfold CommitJournal.indices at hdistinct
  rw [h] at hdistinct
  simp only [List.map_append, List.map_cons, List.nodup_append, List.nodup_cons] at hdistinct
  have hpre : pre.find? (fun x => decide (x.index = e.index)) = none := by
    simp only [List.find?_eq_none, decide_eq_true_eq]
    intro x hx heq
    exact hdistinct.2.2 x.index (List.mem_map_of_mem hx) e.index (by simp) heq
  simp [CommitJournal.entry, h, hpre]

theorem modify_of_split (f : JournalOperation → JournalOperation)
    (h : j.operations = pre ++ e :: post) (hdistinct : j.indices.Nodup) :
    (j.modify e.index f).operations = pre ++ f e :: post := by
  unfold CommitJournal.indices at hdistinct
  rw [h] at hdistinct
  simp only [List.map_append, List.map_cons, List.nodup_append, List.nodup_cons] at hdistinct
  have hpre : pre.map (fun x => if x.index = e.index then f x else x) = pre := by
    refine (List.map_congr_left fun x hx => if_neg fun heq => ?_).trans (List.map_id _)
    exact hdistinct.2.2 x.index (List.mem_map_of_mem hx) e.index (by simp) heq
  have hpost : post.map (fun x => if x.index = e.index then f x else x) = post := by
    refine (List.map_congr_left fun x hx => if_neg fun heq => ?_).trans (List.map_id _)
    exact hdistinct.2.1.1 (heq ▸ List.mem_map_of_mem hx)
  simp [CommitJournal.modify, h, hpre, hpost]

def World.persisted (w : World) : World :=
  w.wrote { w.disk with journal := some w.mem.journal }

theorem persistJournal_wp {Q : Unit → World → Prop} {E : TransactionError → World → Prop}
    {C : World → Prop} (hok : Q () w.persisted)
    (herr : w.fates ≠ [] → ∀ e, E e (w.wrote w.disk) ∧ E e w.persisted)
    (hcrash : w.fates ≠ [] → C (w.wrote w.disk) ∧ C w.persisted) : persistJournal.wp Q E C w := by
  have hfaulty : ∀ {x : Fate TransactionError}, w.fate .journal = x → x ≠ .made → w.fates ≠ [] := by
    rintro x rfl hne hcalm
    exact hne (Machine.Calm.fate hcalm _)
  rw [persistJournal, wp_bind, wp_mem]
  refine wp_atomic (fun e he => by cases he) (fun d hd _ => ?_) (fun d e _ hd hf => ?_)
    (fun d _ hd hf => ?_) <;> cases hd
  · exact hok
  · exact herr (hfaulty hf (by simp)) e
  · exact hcrash (hfaulty hf (by simp))

def CommitJournal.applied (j : CommitJournal) (i : Nat) : CommitJournal :=
  (j.modify i markStarted).complete i

structure AppliesEntry (P : Platform) (e : JournalOperation) (w w' : World) : Prop where
  files : applied P w.disk e = some w'.disk.files
  disk : w'.disk = { w.disk with files := w'.disk.files, journal := some w'.mem.journal }
  mem : w'.mem = { w.mem with journal := w.mem.journal.applied e.index }

theorem applyEntry_returns (e : JournalOperation) :
    (applyEntry P e).wp (fun _ => AppliesEntry P e w) (fun _ _ => True) (fun _ => True) w := by
  rw [applyEntry, wp_bind, wp_disk, wp_bind]
  refine wp_ofExcept (fun _ _ => ?_) fun _ _ => trivial
  rw [setJournal, wp_bind, wp_setMem, wp_bind]
  refine persistJournal_wp ?_ (fun _ _ => ⟨trivial, trivial⟩) fun _ => ⟨trivial, trivial⟩
  rw [wp_bind]
  refine wp_mono (applyOne_step (markStarted e)) ?_ (fun _ _ _ => trivial) fun _ _ => trivial
  intro _ w₁ hpost
  obtain ⟨fs, hfs, h₁⟩ := hpost
  rw [setJournal, wp_bind, wp_setMem]
  refine persistJournal_wp ?_ (fun _ _ => ⟨trivial, trivial⟩) fun _ => ⟨trivial, trivial⟩
  refine ⟨?_, ?_, ?_⟩
  · change applied P w.disk e = some w₁.disk.files
    rw [h₁.files]
    exact hfs
  · simp [World.persisted, h₁.disk]
  · simp [World.persisted, h₁.mem, CommitJournal.applied]

end Tetonic.Txn
