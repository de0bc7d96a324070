import Tetonic.Txn.Frames
set_option autoImplicit false

/-! The changes of the workspace as functions on it, and the procedures that make them: what a
procedure leaves when it is not cut short, and what it may leave when it is. -/

namespace Tetonic.Txn
open Lib Proc

/-- Only the workspace has changed, to `fs`. -/
structure FilesTo (w w' : World) (fs : Workspace) : Prop where
  mem : w'.mem = w.mem
  disk : w'.disk = { w.disk with files := fs }
  calm : w.Calm → w'.Calm

theorem FilesTo.refl (w : World) : FilesTo w w w.disk.files := ⟨rfl, rfl, id⟩

theorem FilesTo.trans {w w' w'' : World} {fs fs' : Workspace} (h : FilesTo w w' fs)
    (h' : FilesTo w' w'' fs') : FilesTo w w'' fs' where
  mem := h'.mem.trans h.mem
  disk := by simp [h'.disk, h.disk]
  calm hc := h'.calm (h.calm hc)

theorem FilesTo.files {w w' : World} {fs : Workspace} (h : FilesTo w w' fs) :
    w'.disk.files = fs := by
  rw [h.disk]

/-- From `w` the procedure leaves the workspace as `g`; cut short, as something `partly` allows.
Without a fault it only fails where `g` has no value. -/
def FileStepAt (w : World) (g : Option Workspace) (partly : Workspace → Prop) (m : M Unit) : Prop :=
  m.wp (fun _ w' => ∃ fs, g = some fs ∧ FilesTo w w' fs)
    (fun _ w' => (w.Calm → g = none) ∧ ∃ fs, partly fs ∧ FilesTo w w' fs)
    (fun w' => ¬ w.Calm ∧ ∃ fs, partly fs ∧ FilesTo w w' fs) w

/-- The same from everywhere, with `g` and `partly` depending on the workspace alone. -/
def FileStep (g : Workspace → Option Workspace) (partly : Workspace → Workspace → Prop)
    (m : M Unit) : Prop :=
  ∀ w, FileStepAt w (g w.disk.files) (partly w.disk.files) m

def OneGo (g : Workspace → Option Workspace) (fs fs' : Workspace) : Prop :=
  fs' = fs ∨ g fs = some fs'

theorem changeFiles_step (f : Workspace → Option Workspace) (text : String) :
    FileStep f (OneGo f) (changeFiles f text) := by
  intro w
  have hwrote : ∀ fs, FilesTo w (w.wroteFiles fs) fs := fun fs =>
    ⟨rfl, rfl, fun hc => Machine.Calm.wrote hc _⟩
  have hsame : FilesTo w (w.wrote w.disk) w.disk.files :=
    ⟨rfl, rfl, fun hc => Machine.Calm.wrote hc _⟩
  refine changeFiles_wp (fun hnone _ => ?_) (fun fs hfs => ⟨fs, hfs, hwrote fs⟩)
    (fun fs hfs hfaulty _ => ⟨⟨?_, ?_⟩, ?_, ?_⟩) fun fs hfs hfaulty => ⟨⟨hfaulty, ?_⟩, hfaulty, ?_⟩
  · exact ⟨fun _ => hnone, w.disk.files, .inl rfl, .refl w⟩
  · exact fun hc => absurd hc hfaulty
  · exact ⟨w.disk.files, .inl rfl, hsame⟩
  · exact fun hc => absurd hc hfaulty
  · exact ⟨fs, .inr hfs, hwrote fs⟩
  · exact ⟨w.disk.files, .inl rfl, hsame⟩
  · exact ⟨fs, .inr hfs, hwrote fs⟩

theorem FileStep.andThen {g g' : Workspace → Option Workspace}
    {partly partly' : Workspace → Workspace → Prop} {m m' : M Unit} (hm : FileStep g partly m)
    (hm' : FileStep g' partly' m') :
    FileStep (fun fs => (g fs).bind g')
      (fun fs fs' => partly fs fs' ∨ ∃ fs₁, g fs = some fs₁ ∧ partly' fs₁ fs')
      (m >>= fun _ => m') := by
  intro w
  unfold FileStepAt
  rw [wp_bind]
  refine wp_mono (hm w) ?_ ?_ ?_
  · intro _ w₁ hpost
    obtain ⟨fs₁, hfs₁, h₁⟩ := hpost
    have hw₁ := h₁.files
    refine wp_mono (hm' w₁) ?_ ?_ ?_
    · intro _ w₂ hpost
      obtain ⟨fs₂, hfs₂, h₂⟩ := hpost
      exact ⟨fs₂, by simp [hfs₁, ← hw₁, hfs₂], h₁.trans h₂⟩
    · intro _ w₂ hpost
      obtain ⟨hcalm, fs₂, hfs₂, h₂⟩ := hpost
      refine ⟨fun hc => ?_, fs₂, .inr ⟨fs₁, hfs₁, hw₁ ▸ hfs₂⟩, h₁.trans h₂⟩
      simp [hfs₁, ← hw₁, hcalm (h₁.calm hc)]
    · intro w₂ hpost
      obtain ⟨hcalm, fs₂, hfs₂, h₂⟩ := hpost
      exact ⟨fun hc => hcalm (h₁.calm hc), fs₂, .inr ⟨fs₁, hfs₁, hw₁ ▸ hfs₂⟩, h₁.trans h₂⟩
  · intro _ w₁ hpost
    obtain ⟨hcalm, fs₁, hfs₁, h₁⟩ := hpost
    exact ⟨fun hc => by simp [hcalm hc], fs₁, .inl hfs₁, h₁⟩
  · intro w₁ hpost
    obtain ⟨hcalm, fs₁, hfs₁, h₁⟩ := hpost
    exact ⟨hcalm, fs₁, .inl hfs₁, h₁⟩

theorem FileStepAt.fail {w : World} {g : Option Workspace} {partly : Workspace → Prop}
    (hpartly : partly w.disk.files) (hg : g = none) (e : TransactionError) :
    FileStepAt w g partly (Proc.fail e) :=
  ⟨fun _ => hg, w.disk.files, hpartly, .refl w⟩

theorem FileStepAt.check {α : Type} {w : World} {g : Option Workspace} {partly : Workspace → Prop}
    {r : Except TransactionError α} {m : α → M Unit} (hpartly : partly w.disk.files)
    (hok : ∀ a, r = .ok a → FileStepAt w g partly (m a))
    (herr : ∀ e, r = .error e → g = none) : FileStepAt w g partly (Proc.ofExcept r >>= m) := by
  unfold FileStepAt
  rw [wp_bind]
  cases r with
  | ok a => exact hok a rfl
  | error e => exact ⟨fun _ => herr e rfl, w.disk.files, hpartly, .refl w⟩

def published (p : WorkspacePath) (source : Option FileData) (restoring : Bool) (fs : Workspace) :
    Option Workspace := do
  let fs ← fs.makeParents p
  let file ← source
  fs.put p (.file ⟨file.bytes, if restoring then file.perm else keptPerm fs p⟩)

def PublishedPartly (p : WorkspacePath) (source : Option FileData) (restoring : Bool)
    (fs fs' : Workspace) : Prop :=
  fs' = fs ∨ fs.makeParents p = some fs' ∨ published p source restoring fs = some fs'

theorem publish_step (p : WorkspacePath) (source : Option FileData) (restoring : Bool) :
    FileStep (published p source restoring) (PublishedPartly p source restoring)
      (publish p source restoring) := by
  intro w
  unfold FileStepAt
  rw [publish, wp_bind]
  refine wp_mono (changeFiles_step _ _ w) ?_ ?_ ?_
  · intro _ w₁ hpost
    obtain ⟨fs₁, hfs₁, h₁⟩ := hpost
    have hw₁ := h₁.files
    rw [wp_bind]
    cases hsource : source with
    | none =>
      refine ⟨fun _ => ?_, fs₁, .inr (.inl hfs₁), h₁⟩
      simp [published, hfs₁]
    | some file =>
      rw [orIo, Proc.ofExcept, wp_pure, wp_bind, wp_disk]
      have hpublished : published p (some file) restoring w.disk.files =
          fs₁.put p (.file ⟨file.bytes, if restoring then file.perm else keptPerm fs₁ p⟩) := by
        simp [published, hfs₁]
      refine wp_mono (changeFiles_step _ _ w₁) ?_ ?_ ?_ <;> rw [hw₁]
      · intro _ w₂ hpost
        obtain ⟨fs₂, hfs₂, h₂⟩ := hpost
        exact ⟨fs₂, hpublished.trans hfs₂, h₁.trans h₂⟩
      · intro _ w₂ hpost
        obtain ⟨hcalm, fs₂, hfs₂, h₂⟩ := hpost
        refine ⟨fun hc => hpublished.trans (hcalm (h₁.calm hc)), fs₂, ?_, h₁.trans h₂⟩
        obtain rfl | hfs₂ := hfs₂
        · exact .inr (.inl hfs₁)
        · exact .inr (.inr (hpublished.trans hfs₂))
      · intro w₂ hpost
        obtain ⟨hcalm, fs₂, hfs₂, h₂⟩ := hpost
        refine ⟨fun hc => hcalm (h₁.calm hc), fs₂, ?_, h₁.trans h₂⟩
        obtain rfl | hfs₂ := hfs₂
        · exact .inr (.inl hfs₁)
        · exact .inr (.inr (hpublished.trans hfs₂))
  · intro _ w₁ hpost
    obtain ⟨hcalm, fs₁, hfs₁, h₁⟩ := hpost
    refine ⟨fun hc => by simp [published, hcalm hc], fs₁, ?_, h₁⟩
    exact hfs₁.imp_right .inl
  · intro w₁ hpost
    obtain ⟨hcalm, fs₁, hfs₁, h₁⟩ := hpost
    exact ⟨hcalm, fs₁, hfs₁.imp_right .inl, h₁⟩

def removed (p : WorkspacePath) (fs : Workspace) : Option Workspace :=
  if (fs.node p).isSome then some (fs.remove p) else if fs.openTo p then some fs else none

theorem publicationRemove_step (p : WorkspacePath) :
    FileStep (removed p) (OneGo (removed p)) (publicationRemove p) := by
  intro w
  unfold FileStepAt
  rw [publicationRemove, wp_bind, wp_disk]
  cases hp : w.disk.files.node p with
  | none =>
    cases hopen : w.disk.files.openTo p with
    | true => exact ⟨w.disk.files, by simp [removed, hp, hopen], .refl w⟩
    | false => exact FileStepAt.fail (.inl rfl) (by simp [removed, hp, hopen]) _
  | some =>
    have hremoved : removed p w.disk.files = some (w.disk.files.remove p) := by
      simp [removed, hp]
    refine wp_mono (changeFiles_step _ _ w) ?_ ?_ ?_
    · intro _ w' hpost
      obtain ⟨fs, hfs, h⟩ := hpost
      exact ⟨fs, hremoved.trans hfs, h⟩
    · intro _ w' hpost
      obtain ⟨hcalm, fs, hfs, h⟩ := hpost
      exact ⟨fun hc => hremoved.trans (hcalm hc), fs, hfs.imp_right hremoved.trans, h⟩
    · intro w' hpost
      obtain ⟨hcalm, fs, hfs, h⟩ := hpost
      exact ⟨hcalm, fs, hfs.imp_right hremoved.trans, h⟩

def renamed (p target : WorkspacePath) (fs : Workspace) : Option Workspace :=
  (fs.makeParents target).bind (·.move p target)

def RenamedPartly (p target : WorkspacePath) (fs fs' : Workspace) : Prop :=
  fs' = fs ∨ fs.makeParents target = some fs' ∨ renamed p target fs = some fs'

theorem publicationRename_step (p target : WorkspacePath) :
    FileStep (renamed p target) (RenamedPartly p target) (publicationRename p target) := by
  intro w
  have hpartly : ∀ fs fs', (OneGo (·.makeParents target) fs fs' ∨ ∃ fs₁,
      fs.makeParents target = some fs₁ ∧ OneGo (·.move p target) fs₁ fs') →
      RenamedPartly p target fs fs' := by
    intro fs fs' h
    obtain (h | h) | ⟨fs₁, hfs₁, rfl | h⟩ := h
    · exact .inl h
    · exact .inr (.inl h)
    · exact .inr (.inl hfs₁)
    · exact .inr (.inr (by simp [renamed, hfs₁, h]))
  have hsteps := (changeFiles_step (·.makeParents target) "not a directory").andThen
    (changeFiles_step (·.move p target) "not renamed") w
  refine wp_mono hsteps (fun _ _ h => h) ?_ ?_
  · intro _ w' hpost
    obtain ⟨hcalm, fs, hfs, h⟩ := hpost
    exact ⟨hcalm, fs, hpartly _ _ hfs, h⟩
  · intro w' hpost
    obtain ⟨hcalm, fs, hfs, h⟩ := hpost
    exact ⟨hcalm, fs, hpartly _ _ hfs, h⟩

def moded (p : WorkspacePath) (mode : Nat) (fs : Workspace) : Option Workspace :=
  match follow fs linkLimit p with
  | some (.inside q (.file f)) => fs.put q (.file { f with perm := Perm.ofMode mode })
  | some _ => some fs
  | none => none

theorem changeMode_step (p : WorkspacePath) (mode : Nat) :
    FileStep (moded p mode) (OneGo (moded p mode)) (changeMode p mode) := by
  intro w
  unfold FileStepAt
  rw [changeMode, wp_bind, wp_disk]
  have hstep : ∀ {g : Workspace → Option Workspace} {text : String},
      moded p mode w.disk.files = g w.disk.files →
      FileStepAt w (moded p mode w.disk.files) (OneGo (moded p mode) w.disk.files)
        (changeFiles g text) := by
    intro g text hg
    have hgo : OneGo (moded p mode) w.disk.files = OneGo g w.disk.files := by
      funext fs
      simp [OneGo, hg]
    rw [hg, hgo]
    exact changeFiles_step g text w
  cases hf : follow w.disk.files linkLimit p with
  | none => exact FileStepAt.fail (.inl rfl) (by simp [moded, hf]) _
  | some found =>
    cases found with
    | outside => exact hstep (by simp [moded, hf])
    | inside q entry =>
      cases entry with
      | file | link | dir => exact hstep (by simp [moded, hf])

end Tetonic.Txn
