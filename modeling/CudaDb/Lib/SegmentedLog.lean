import Mathlib

/-!
# Logs in segments

A log is what was appended, in order. Its front is cut into numbered segments, its end still waits
in a queue. Appending adds to the queue, opening starts an empty segment, and moving takes the front
of the queue to the newest segment; only appending changes what the log spells. Within a segment the
entries lie one after another, so the places of two of them never overlap. This module names no
particular system.
-/

/-- A log whose front is cut into segments. -/
structure SegmentedLog (Entry : Type*) where
  /-- The segments, the oldest first. -/
  segments : List (List Entry)
  /-- What is in no segment yet, oldest first. -/
  queue : List Entry

namespace SegmentedLog

variable {Entry : Type*} {log : SegmentedLog Entry}

/-- Nothing has been appended. -/
def empty : SegmentedLog Entry where
  segments := []
  queue := []

/-- All that was appended, in order. -/
def entries (log : SegmentedLog Entry) : List Entry := log.segments.flatten ++ log.queue

/-- The segment with the number; the first one is number 1. -/
def segment (log : SegmentedLog Entry) : Nat → List Entry
  | 0 => []
  | number + 1 => log.segments.getD number []

/-- An entry is appended. -/
def append (log : SegmentedLog Entry) (entry : Entry) : SegmentedLog Entry :=
  { log with queue := log.queue ++ [entry] }

/-- An empty segment is started. -/
def start (log : SegmentedLog Entry) : SegmentedLog Entry :=
  { log with segments := log.segments ++ [[]] }

/-- The front entry of the queue, of which `rest` is left, goes to the newest segment. -/
def move (log : SegmentedLog Entry) (entry : Entry) (rest : List Entry) : SegmentedLog Entry where
  segments := log.segments.dropLast ++ [log.segment log.segments.length ++ [entry]]
  queue := rest

/-- An entry is appended to the log. -/
@[simp] theorem entries_append (entry : Entry) :
    (log.append entry).entries = log.entries ++ [entry] := (List.append_assoc _ _ _).symm

/-- Starting a segment leaves what the log spells. -/
@[simp] theorem entries_start : log.start.entries = log.entries := by
  simp [entries, start]

/-- The segments are the older ones and the newest one. -/
theorem segments_eq (some_segment : log.segments ≠ []) :
    log.segments = log.segments.dropLast ++ [log.segment log.segments.length] := by
  have positive : 0 < log.segments.length := List.length_pos_iff.mpr some_segment
  obtain ⟨older, length⟩ : ∃ older, log.segments.length = older + 1 :=
    ⟨log.segments.length - 1, by omega⟩
  have newest : log.segment log.segments.length = log.segments.getLast some_segment := by
    rw [length, segment, List.getD_eq_getElem _ _ (by omega), List.getLast_eq_getElem]
    congr 1
    omega
  rw [newest, List.dropLast_append_getLast]

/-- Moving an entry leaves what the log spells. -/
theorem entries_move {entry : Entry} {rest : List Entry} (some_segment : log.segments ≠ [])
    (front : log.queue = entry :: rest) : (log.move entry rest).entries = log.entries := by
  have split := segments_eq some_segment
  unfold entries move
  rw [front]
  conv_rhs => rw [split]
  simp

/-- Starting a segment adds one. -/
@[simp] theorem length_start : log.start.segments.length = log.segments.length + 1 := by
  simp [start]

/-- Moving an entry starts no segment. -/
theorem length_move {entry : Entry} {rest : List Entry} (some_segment : log.segments ≠ []) :
    (log.move entry rest).segments.length = log.segments.length := by
  have positive : 0 < log.segments.length := List.length_pos_iff.mpr some_segment
  simp only [move, List.length_append, List.length_dropLast, List.length_singleton]
  omega

/-- There is nothing behind the newest segment. -/
theorem segment_above {number : Nat} (above : log.segments.length < number) :
    log.segment number = [] := by
  cases number with
  | zero => rfl
  | succ number =>
    rw [segment, List.getD_eq_getElem?_getD, List.getElem?_eq_none (by omega), Option.getD_none]

/-- Starting a segment leaves all segments, the new one being empty. -/
theorem segment_start (number : Nat) : log.start.segment number = log.segment number := by
  cases number with
  | zero => rfl
  | succ number =>
    simp only [segment, start, List.getD_eq_getElem?_getD]
    rcases lt_trichotomy number log.segments.length with inside | rfl | outside
    · rw [List.getElem?_append_left inside]
    · rw [List.getElem?_concat_length, List.getElem?_eq_none le_rfl, Option.getD_none]
      rfl
    · rw [List.getElem?_eq_none (by simp; omega), List.getElem?_eq_none (by omega)]

/-- A moved entry is the last one of the newest segment. -/
theorem segment_move_newest {entry : Entry} {rest : List Entry} (some_segment : log.segments ≠ []) :
    (log.move entry rest).segment log.segments.length =
      log.segment log.segments.length ++ [entry] := by
  have positive : 0 < log.segments.length := List.length_pos_iff.mpr some_segment
  obtain ⟨older, length⟩ : ∃ older, log.segments.length = older + 1 :=
    ⟨log.segments.length - 1, by omega⟩
  have last : log.segments.dropLast.length = older := by
    rw [List.length_dropLast]
    omega
  have moved : (log.move entry rest).segment (older + 1) =
      (log.segments.dropLast ++ [log.segment log.segments.length ++ [entry]]).getD older [] := rfl
  rw [length, moved, ← last, List.getD_eq_getElem?_getD, List.getElem?_concat_length,
    Option.getD_some, last, length]

/-- The older segments stay as they are. -/
theorem segment_move_other {entry : Entry} {rest : List Entry} {number : Nat}
    (older : number ≠ log.segments.length) (some_segment : log.segments ≠ []) :
    (log.move entry rest).segment number = log.segment number := by
  cases number with
  | zero => rfl
  | succ number =>
    rcases Nat.lt_or_ge number log.segments.length with inside | outside
    · have before : number < log.segments.dropLast.length := by
        rw [List.length_dropLast]
        omega
      simp only [segment, move, List.getD_eq_getElem?_getD]
      rw [List.getElem?_append_left before, List.getElem?_dropLast, if_pos (by omega)]
    · have above : (log.move entry rest).segments.length < number + 1 := by
        rw [length_move some_segment]
        omega
      rw [segment_above above, segment_above (Nat.lt_succ_of_le outside)]

/-- The segments by their numbers spell what was cut off the queue. -/
theorem flatMap_segment (log : SegmentedLog Entry) :
    (List.range' 1 log.segments.length).flatMap log.segment = log.segments.flatten := by
  have numbered : (List.range' 1 log.segments.length).map log.segment = log.segments := by
    apply List.ext_getElem
    · simp
    · intro number _ inside
      rw [List.getElem_map, List.getElem_range', Nat.one_mul, Nat.add_comm, segment,
        List.getD_eq_getElem _ _ inside]
  rw [List.flatMap_def, numbered]

/-! ## Places in a segment -/

variable (size : Entry → Nat)

/-- The entry lies in the segment, with `offset` bytes before it. -/
def LiesAt (segment : List Entry) (offset : Nat) (entry : Entry) : Prop :=
  ∃ before after, segment = before ++ entry :: after ∧ offset = (before.map size).sum

variable {size}

/-- An entry ends where its segment ends, or earlier. -/
theorem LiesAt.within {segment : List Entry} {offset : Nat} {entry : Entry}
    (lies : LiesAt size segment offset entry) :
    offset + size entry ≤ (segment.map size).sum := by
  obtain ⟨before, after, rfl, rfl⟩ := lies
  rw [List.map_append, List.map_cons, List.sum_append, List.sum_cons]
  omega

/-- The places of two different entries of one segment do not overlap. -/
theorem LiesAt.apart {segment : List Entry} {here there : Nat} {first second : Entry}
    (lies : LiesAt size segment here first) (other : LiesAt size segment there second)
    (different : first ≠ second) : here + size first ≤ there ∨ there + size second ≤ here := by
  obtain ⟨before, after, split, rfl⟩ := lies
  obtain ⟨front, back, again, rfl⟩ := other
  rw [split] at again
  rcases List.append_eq_append_iff.mp again with ⟨gap, longer, rest⟩ | ⟨gap, shorter, rest⟩
  · cases gap with
    | nil => exact absurd (List.cons.inj rest).1 different
    | cons next gap =>
      obtain ⟨rfl, -⟩ := List.cons.inj rest
      left
      rw [longer, List.map_append, List.map_cons, List.sum_append, List.sum_cons]
      omega
  · cases gap with
    | nil => exact absurd (List.cons.inj rest).1.symm different
    | cons next gap =>
      obtain ⟨rfl, -⟩ := List.cons.inj rest
      right
      rw [shorter, List.map_append, List.map_cons, List.sum_append, List.sum_cons]
      omega

end SegmentedLog
