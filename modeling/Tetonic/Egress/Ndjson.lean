import Mathlib.Data.List.Basic
set_option autoImplicit false

/-! Framing of newline-delimited JSON: `Decoder` of `ndjson.rs`. A slice out of range or an index
that would underflow is a panic, here `none`. -/

namespace Tetonic.Egress

structure Decoder where
  buffer : List UInt8 := []
  consumed : Nat := 0
  scanned : Nat := 0

def newline : UInt8 := 10

/-- The slice `buffer[start..stop]`. -/
def slice (buffer : List UInt8) (start stop : Nat) : Option (List UInt8) :=
  if start ≤ stop ∧ stop ≤ buffer.length then some ((buffer.take stop).drop start) else none

def Decoder.push (bytes : List UInt8) (d : Decoder) : Option Decoder :=
  if 0 < d.consumed then do
    let rest ← slice d.buffer d.consumed d.buffer.length
    if d.scanned < d.consumed then none
    else some { buffer := rest ++ bytes, consumed := 0, scanned := d.scanned - d.consumed }
  else some { d with buffer := d.buffer ++ bytes }

/-- Where `buffer[scanned..]` has its first newline. -/
def Decoder.position (d : Decoder) : Option (Option Nat) :=
  (slice d.buffer d.scanned d.buffer.length).map (List.findIdx? (· == newline))

section Parser

-- The JSON parser, with the text of its error.
variable {Value : Type} (parse : List UInt8 → Except String Value)

theorem Decoder.scanned_add_lt {d : Decoder} {offset : Nat}
    (h : d.position = some (some offset)) : d.scanned + offset < d.buffer.length := by
  obtain ⟨later, hslice, hoffset⟩ := Option.map_eq_some_iff.mp h
  obtain ⟨hlt, -⟩ := List.findIdx?_eq_some_iff_getElem.mp hoffset
  simp only [slice] at hslice
  grind

def Decoder.next (d : Decoder) : Option (Option (Except String Value) × Decoder) :=
  match h : d.position with
  | none => none
  | some none => some (none, { d with scanned := d.buffer.length })
  | some (some offset) =>
    have := Decoder.scanned_add_lt h
    let stop := d.scanned + offset
    let found := { d with consumed := stop + 1, scanned := stop + 1 }
    if d.consumed = stop then found.next
    else (slice d.buffer d.consumed stop).map fun record => (some (parse record), found)
  termination_by d.buffer.length - d.scanned
  decreasing_by
    show d.buffer.length - (d.scanned + offset + 1) < d.buffer.length - d.scanned
    omega

/-- A record that no newline ends. -/
def truncated (trailing : List UInt8) : Except String Value := (parse trailing).mapError fun e =>
  "truncated trailing NDJSON record (" ++ toString trailing.length ++ " bytes): " ++ e

def Decoder.finish (d : Decoder) : Option (Option (Except String Value)) :=
  (slice d.buffer d.consumed d.buffer.length).map fun trailing =>
    if trailing = [] then none else some (truncated parse trailing)

inductive Call where
  | push (bytes : List UInt8)
  | next

/-- Calls of `next` until it hands out nothing, at most `fuel` of them, and `finish`. -/
def Decoder.drain : Nat → Decoder → Option (List (Except String Value))
  | 0, _ => none
  | fuel + 1, d => do
    match ← d.next parse with
    | (none, d) => return (← d.finish parse).toList
    | (some result, d) => return result :: (← Decoder.drain fuel d)

/-- What a stream is decoded to: the calls in turn, and all that is left. -/
def Decoder.decode : List Call → Decoder → Option (List (Except String Value))
  | [], d => Decoder.drain parse (d.buffer.length + 1) d
  | .push bytes :: calls, d => do Decoder.decode calls (← d.push bytes)
  | .next :: calls, d => do
    let (result, d) ← d.next parse
    return result.toList ++ (← Decoder.decode calls d)

/-- The bytes that the calls push. -/
def stream : List Call → List UInt8
  | [] => []
  | .push bytes :: calls => bytes ++ stream calls
  | .next :: calls => stream calls

/-- The non-empty lines through the parser, the unterminated one last. -/
def records (bytes : List UInt8) : List (Except String Value) :=
  let lines := bytes.splitOn newline
  let trailing := lines.getLastD []
  (lines.dropLast.filter (· ≠ [])).map parse ++
    if trailing = [] then [] else [truncated parse trailing]

/-- What no record was made of yet. -/
def Decoder.rest (d : Decoder) : List UInt8 := d.buffer.drop d.consumed

/-- The buffer is what records were made of, the scanned part of a line, and what is not scanned. -/
def Decoder.Framed (d : Decoder) : Prop :=
  ∃ read line later, newline ∉ line ∧
    d = ⟨read ++ (line ++ later), read.length, read.length + line.length⟩

variable {d : Decoder}

theorem slice_middle (a b c : List UInt8) :
    slice (a ++ (b ++ c)) a.length (a.length + b.length) = some b := by
  simp [slice, List.take_length_add_append]

theorem Decoder.Framed.slice_rest (h : d.Framed) :
    slice d.buffer d.consumed d.buffer.length = some d.rest := by
  obtain ⟨read, line, later, -, rfl⟩ := h
  simpa [rest] using slice_middle read (line ++ later) []

theorem Decoder.Framed.push (h : d.Framed) (bytes : List UInt8) :
    ∃ d', d.push bytes = some d' ∧ d'.Framed ∧ d'.rest = d.rest ++ bytes := by
  have hslice := h.slice_rest
  obtain ⟨read, line, later, hline, rfl⟩ := h
  refine ⟨⟨line ++ later ++ bytes, 0, line.length⟩, ?_,
    ⟨[], line, later ++ bytes, hline, by simp⟩, by simp [rest]⟩
  by_cases hread : read = []
  · simp [Decoder.push, hread]
  · simp_all [Decoder.push, rest, List.length_pos_iff]

theorem records_line {line : List UInt8} (hline : newline ∉ line) (rest : List UInt8) :
    records parse (line ++ newline :: rest) =
      (if line = [] then [] else [parse line]) ++ records parse rest := by
  have hsplit := List.splitOn_append_cons_self_of_not_mem hline rest
  obtain ⟨lines, trailing, hrest⟩ :=
    (List.eq_nil_or_concat _).resolve_left (List.splitOn_ne_nil newline rest)
  rw [List.concat_eq_append] at hrest
  simp only [records, hsplit, hrest, ← List.cons_append, List.dropLast_concat, List.getLastD_concat]
  by_cases hempty : line = [] <;> simp [hempty]

theorem records_tail (tail : List UInt8) (htail : newline ∉ tail) :
    records parse tail = if tail = [] then [] else [truncated parse tail] := by
  simp [records, List.splitOn_eq_singleton htail]

theorem Decoder.position_eq (read line later : List UInt8) :
    Decoder.position ⟨read ++ (line ++ later), read.length, read.length + line.length⟩ =
      some (later.findIdx? (· == newline)) := by
  have hslice := slice_middle (read ++ line) later []
  simp_all [position, Nat.add_assoc]

/-- A turn of the loop of `next`: no newline is left, or one ends a line. -/
theorem Decoder.Framed.turn (h : d.Framed) :
    newline ∉ d.rest ∧ (∃ d', d.next parse = some (none, d') ∧ d'.Framed ∧ d'.rest = d.rest) ∨
    ∃ line d', newline ∉ line ∧ d.rest = line ++ newline :: d'.rest ∧ d'.Framed ∧
      d.next parse = if line = [] then d'.next parse else some (some (parse line), d') := by
  obtain ⟨read, line, later, hline, rfl⟩ := h
  have hposition := position_eq read line later
  rw [Decoder.next]
  by_cases hmem : newline ∈ later
  · obtain ⟨before, after, rfl, hbefore⟩ := List.eq_append_cons_of_mem hmem
    have hidx : (before ++ newline :: after).findIdx? (· == newline) = some before.length := by
      simp [List.findIdx?_append]
      grind
    have hframed : Framed ⟨read ++ (line ++ (before ++ newline :: after)),
        read.length + line.length + before.length + 1,
        read.length + line.length + before.length + 1⟩ :=
      ⟨read ++ line ++ before ++ [newline], [], after, by simp, by simp [Nat.add_assoc]⟩
    have hrecord := slice_middle read (line ++ before) (newline :: after)
    refine .inr ⟨line ++ before, _, by simp_all, ?_, hframed, ?_⟩
    · simp (disch := omega) [rest, List.drop_append, Nat.add_assoc, List.drop_eq_nil_of_le]
    · split <;> rename_i heq <;> rw [hposition, hidx] at heq <;> cases heq
      simp_all [Nat.add_assoc]
  · have hidx : later.findIdx? (· == newline) = none := by grind
    refine .inl ⟨by simp_all [rest], ⟨read ++ (line ++ later), read.length,
      (read ++ (line ++ later)).length⟩, ?_, ⟨read, line ++ later, [], by simp_all, by simp⟩, rfl⟩
    rw [hidx] at hposition
    split <;> simp_all

theorem Decoder.Framed.next (h : d.Framed) : ∃ result d',
    d.next parse = some (result, d') ∧ d'.Framed ∧ (∀ more, records parse (d.rest ++ more) =
      result.toList ++ records parse (d'.rest ++ more)) ∧
    (result = none ∧ newline ∉ d'.rest ∨ result ≠ none ∧ d'.rest.length < d.rest.length) := by
  -- Each turn takes one line more.
  induction hn : d.rest.length using Nat.strongRecOn generalizing d with
  | ind n ih =>
  obtain ⟨hrest, d', hnext, hd', hsame⟩ | ⟨line, d', hline, hrest, hd', hnext⟩ := h.turn parse
  · exact ⟨none, d', hnext, hd', by simp [hsame], .inl ⟨rfl, hsame ▸ hrest⟩⟩
  · have hlt : d'.rest.length < n := by simp [← hn, hrest]; omega
    have hrecord (more : List UInt8) := records_line parse hline (d'.rest ++ more)
    split at hnext
    · obtain ⟨result, d'', hnext', hd'', hrecords, hdone⟩ := ih _ hlt hd' rfl
      exact ⟨result, d'', hnext.trans hnext', hd'', by simp_all,
        hdone.imp_right fun h => ⟨h.1, by omega⟩⟩
    · exact ⟨_, d', hnext, hd', by simp_all, .inr ⟨by simp, hlt⟩⟩

theorem Decoder.Framed.drain (h : d.Framed) {fuel : Nat} (hfuel : d.rest.length < fuel) :
    Decoder.drain parse fuel d = some (records parse d.rest) := by
  induction fuel generalizing d with
  | zero => omega
  | succ fuel ih =>
    obtain ⟨result, d', hnext, hd', hrecords, hdone⟩ := h.next parse
    have hmade := hrecords []
    rw [List.append_nil, List.append_nil] at hmade
    cases result with
    | none =>
      have htail := records_tail parse d'.rest (by simpa using hdone)
      rw [Decoder.drain, hnext, hmade, htail]
      simp [Decoder.finish, hd'.slice_rest]
      split <;> rfl
    | some result =>
      have hlater := ih hd' (by simp at hdone; omega)
      simp [Decoder.drain, hnext, hlater, hmade]

theorem Decoder.Framed.decode (h : d.Framed) (calls : List Call) :
    Decoder.decode parse calls d = some (records parse (d.rest ++ stream calls)) := by
  induction calls generalizing d with
  | nil =>
    have hfuel : d.rest.length < d.buffer.length + 1 := by
      rw [rest, List.length_drop]
      omega
    simpa [Decoder.decode, stream] using h.drain parse hfuel
  | cons call calls ih =>
    cases call with
    | push bytes =>
      obtain ⟨d', hpush, hd', hrest⟩ := h.push bytes
      simp [Decoder.decode, hpush, ih hd', hrest, stream]
    | next =>
      obtain ⟨result, d', hnext, hd', hrecords, -⟩ := h.next parse
      simp [Decoder.decode, hnext, ih hd', hrecords, stream]

/-- However the stream is pushed and whenever `next` is called in between, no index is out of range,
and the parser is handed the non-empty lines of the stream in order, the unterminated one last. -/
theorem decode_lines (calls : List Call) :
    Decoder.decode parse calls {} = some (records parse (stream calls)) := by
  have hnew : Decoder.Framed {} := ⟨[], [], [], by simp, rfl⟩
  exact hnew.decode parse calls

end Parser

end Tetonic.Egress
