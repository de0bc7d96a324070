import Tetonic.Lib.Text
import Mathlib.Data.List.Forall2
set_option autoImplicit false

/-! Which paths of the repository a request may see. The code compares texts; a path is inside a
rule just if the rule's components come first among its own. -/

namespace Tetonic.Context
open Lib

/-- How the letters of a path are taken: as they are, or in lower case on Windows. -/
structure CaseFolding where
  fold : List Char → List Char
  joined : ∀ parts : List (List Char),
    fold (['/'].intercalate parts) = ['/'].intercalate (parts.map fold)
  free : ∀ part : List Char, '/' ∉ part → '/' ∉ fold part
  nonempty : ∀ part : List Char, part ≠ [] → fold part ≠ []

abbrev PathPolicy := List String

def endsWithDotOrSpace (part : List Char) : Bool :=
  part.getLast?.any fun c => c == '.' || c == ' '

def unsafePart (part : List Char) : Bool :=
  part == ['.', '.'] || (part != ['.'] && endsWithDotOrSpace part)

def namedPart (part : List Char) : Bool := part != [] && part != ['.']

def pathParts (path : String) : Option (List (List Char)) :=
  let path := path.toList.map fun c => if c = '\\' then '/' else c
  if path = [] ∨ path.head? = some '/' ∨ ':' ∈ path ∨ '\x00' ∈ path then none
  else if (path.splitOn '/').any unsafePart then none
  else some ((path.splitOn '/').filter namedPart)

variable {parts rules : List (List Char)} {path : String} {p : List Char} {policy : PathPolicy}

section
variable (F : CaseFolding)

def normalizePath (path : String) : Option (List Char) :=
  (pathParts path).map fun parts => F.fold (['/'].intercalate parts)

/-- The path is the rule, or lies under it; the empty rule is the root. -/
def matchesRule (path rule : List Char) : Bool :=
  rule == [] || path == rule ||
    (rule.isPrefixOf path && decide ((path.drop rule.length).head? = some '/'))

def normalizeRules : PathPolicy → Except String (List (List Char))
  | [] => .ok []
  | rule :: rules =>
    match normalizePath F rule with
    | none => .error "invalid repository-relative path policy"
    | some rule => (normalizeRules rules).map (rule :: ·)

def pathIsAllowed (path : String) (allowed excluded : PathPolicy) : Except String Bool :=
  match normalizeRules F allowed with
  | .error e => .error e
  | .ok allowed =>
    match normalizeRules F excluded with
    | .error e => .error e
    | .ok excluded =>
      match normalizePath F path with
      | none => .ok false
      | some path =>
        .ok (!excluded.any (matchesRule path) &&
          (allowed.isEmpty || allowed.any (matchesRule path)))

def comparedParts (path : String) : Option (List (List Char)) :=
  (pathParts path).map (·.map F.fold)

def Under (path rule : String) : Prop :=
  ∃ ps rs, comparedParts F path = some ps ∧ comparedParts F rule = some rs ∧ rs <+: ps

/-- The path has components, lies under no excluded rule, and under an allowed one if there are
any. -/
structure Permits (allowed excluded : PathPolicy) (path : String) : Prop where
  plain : (comparedParts F path).isSome
  notExcluded : ∀ rule ∈ excluded, ¬ Under F path rule
  allowed : allowed = [] ∨ ∃ rule ∈ allowed, Under F path rule

theorem pathParts_plain (h : pathParts path = some parts) :
    ∀ part ∈ parts, part ≠ [] ∧ '/' ∉ part := by
  unfold pathParts at h
  dsimp only at h
  split at h
  · cases h
  · split at h
    · cases h
    · cases h
      intro part hpart
      obtain ⟨hmem, hnamed⟩ := List.mem_filter.mp hpart
      refine ⟨?_, Text.notMem_of_mem_splitOn hmem⟩
      intro hempty
      simp [namedPart, hempty] at hnamed

theorem comparedParts_plain (h : comparedParts F path = some parts) :
    ∀ part ∈ parts, part ≠ [] ∧ '/' ∉ part := by
  obtain ⟨plain, hplain, rfl⟩ := Option.map_eq_some_iff.mp h
  intro part hpart
  obtain ⟨raw, hraw, rfl⟩ := List.mem_map.mp hpart
  obtain ⟨hne, hfree⟩ := pathParts_plain hplain raw hraw
  exact ⟨F.nonempty raw hne, F.free raw hfree⟩

theorem normalizePath_eq (path : String) :
    normalizePath F path = (comparedParts F path).map (['/'].intercalate ·) := by
  unfold normalizePath comparedParts
  rw [Option.map_map]
  congr 1
  funext parts
  exact F.joined parts

theorem matchesRule_iff {path rule : List Char} (hne : rule ≠ []) :
    matchesRule path rule = true ↔ path = rule ∨ ∃ tail, path = rule ++ '/' :: tail := by
  have htail : (rule.isPrefixOf path && decide ((path.drop rule.length).head? = some '/')) = true ↔
      ∃ tail, path = rule ++ '/' :: tail := by
    rw [Bool.and_eq_true, List.isPrefixOf_iff_prefix, decide_eq_true_eq]
    constructor
    · intro h
      obtain ⟨⟨rest, rfl⟩, hhead⟩ := h
      rw [List.drop_left] at hhead
      cases rest with
      | nil => cases hhead
      | cons c tail =>
        cases hhead
        exact ⟨tail, rfl⟩
    · intro h
      obtain ⟨tail, rfl⟩ := h
      exact ⟨List.prefix_append _ _, by simp⟩
  unfold matchesRule
  rw [Bool.or_eq_true, htail]
  simp [hne]

theorem intercalate_ne_nil (hne : parts ≠ []) (hfull : ∀ part ∈ parts, part ≠ []) :
    ['/'].intercalate parts ≠ [] := by
  cases parts with
  | nil => exact absurd rfl hne
  | cons part rest =>
    have hpart := hfull part List.mem_cons_self
    cases rest with
    | nil => simpa using hpart
    | cons => simp [List.intercalate_cons_cons]

theorem matchesRule_under {rule : String} {r : List Char} (hp : normalizePath F path = some p)
    (hr : normalizePath F rule = some r) : matchesRule p r = true ↔ Under F path rule := by
  rw [normalizePath_eq] at hp hr
  obtain ⟨ps, hps, rfl⟩ := Option.map_eq_some_iff.mp hp
  obtain ⟨rs, hrs, rfl⟩ := Option.map_eq_some_iff.mp hr
  have hunder : Under F path rule ↔ rs <+: ps := by
    constructor
    · intro h
      obtain ⟨ps', rs', hps', hrs', hpre⟩ := h
      rw [hps] at hps'
      rw [hrs] at hrs'
      cases hps'
      cases hrs'
      exact hpre
    · intro hpre
      exact ⟨ps, rs, hps, hrs, hpre⟩
  rw [hunder]
  cases rs with
  | nil => simp [matchesRule]
  | cons part rest =>
    have hplain := comparedParts_plain F hrs
    have hfull : ∀ p ∈ part :: rest, p ≠ [] := fun p hmem => (hplain p hmem).1
    rw [matchesRule_iff (intercalate_ne_nil (by simp) hfull)]
    exact Text.intercalate_inside_iff (by simp) hfull (fun p hmem => (hplain p hmem).2)
      fun p hmem => (comparedParts_plain F hps p hmem).2

theorem normalizeRules_ok (h : normalizeRules F policy = .ok rules) :
    List.Forall₂ (fun rule r => normalizePath F rule = some r) policy rules := by
  induction policy generalizing rules with
  | nil =>
    cases h
    exact .nil
  | cons rule policy ih =>
    unfold normalizeRules at h
    split at h
    · cases h
    · rename_i r hr
      cases hrest : normalizeRules F policy with
      | error =>
        rw [hrest] at h
        cases h
      | ok =>
        rw [hrest] at h
        cases h
        exact .cons hr (ih hrest)

theorem any_matchesRule (hp : normalizePath F path = some p)
    (h : List.Forall₂ (fun rule r => normalizePath F rule = some r) policy rules) :
    rules.any (matchesRule p) = true ↔ ∃ rule ∈ policy, Under F path rule := by
  induction h with
  | nil => simp
  | cons hr _ ih =>
    rw [List.any_cons, Bool.or_eq_true, ih, matchesRule_under F hp hr]
    simp

theorem permits_of_allowed {allowed excluded : PathPolicy}
    (h : pathIsAllowed F path allowed excluded = .ok true) : Permits F allowed excluded path := by
  unfold pathIsAllowed at h
  split at h
  · cases h
  · rename_i allowedRules hallowed
    split at h
    · cases h
    · rename_i excludedRules hexcluded
      split at h
      · cases h
      · rename_i p hp
        have hallowed := normalizeRules_ok F hallowed
        have hexcluded := normalizeRules_ok F hexcluded
        simp only [Except.ok.injEq, Bool.and_eq_true, Bool.not_eq_true', Bool.or_eq_true,
          List.isEmpty_iff] at h
        obtain ⟨hno, hyes⟩ := h
        refine ⟨?_, ?_, ?_⟩
        · rw [normalizePath_eq] at hp
          obtain ⟨parts, hparts, -⟩ := Option.map_eq_some_iff.mp hp
          simp [hparts]
        · intro rule hrule hunder
          rw [(any_matchesRule F hp hexcluded).mpr ⟨rule, hrule, hunder⟩] at hno
          cases hno
        · obtain hempty | hany := hyes
          · left
            subst hempty
            cases hallowed
            rfl
          · exact .inr ((any_matchesRule F hp hallowed).mp hany)

end

end Tetonic.Context
