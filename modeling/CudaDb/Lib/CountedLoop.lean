import Mathlib

/-!
# Counted loops and the places of a grid

A counted loop runs its body once for each number below a bound, in order. Its rule is that of a
Hoare logic: what holds before the first turn and is carried on by every turn holds at the end. The
second part is about what such loops usually write: a grid of planes, rows and columns that is laid
out plane by plane has every place exactly once. This module names no particular system.
-/

namespace CountedLoop

variable {State : Type*} {count : Nat} {body : State → Nat → State} {state : State}

/-- The state after running the body for every number below `count`. -/
def run (count : Nat) (body : State → Nat → State) (state : State) : State :=
  (List.range count).foldl body state

/-- A loop of no turns. -/
@[simp] theorem run_zero (body : State → Nat → State) (state : State) : run 0 body state = state :=
  rfl

/-- The last turn of a loop comes after the others. -/
theorem run_succ (count : Nat) (body : State → Nat → State) (state : State) :
    run (count + 1) body state = body (run count body state) count := by
  rw [run, run, List.range_succ, List.foldl_append, List.foldl_cons, List.foldl_nil]

/-- What holds at the start and is carried from each turn of the loop to the next holds at the
end. -/
theorem rule (invariant : Nat → State → Prop) (start : invariant 0 state)
    (keep : ∀ index < count, ∀ state, invariant index state →
      invariant (index + 1) (body state index)) : invariant count (run count body state) := by
  induction count with
  | zero => exact start
  | succ count ih =>
    rw [run_succ]
    apply keep count (Nat.lt_succ_self count)
    exact ih fun index below => keep index (Nat.lt_succ_of_lt below)

end CountedLoop

namespace Grid

variable {planes height width plane row column : Nat}

/-- Where a point lies if the grid is laid out plane by plane and row by row. -/
def place (height width plane row column : Nat) : Nat := (plane * height + row) * width + column

/-- A point of the grid. -/
structure Inside (planes height width plane row column : Nat) : Prop where
  /-- Its plane. -/
  plane : plane < planes
  /-- Its row. -/
  row : row < height
  /-- Its column. -/
  column : column < width

/-- Every point of the grid lies within it. -/
theorem Inside.place_lt (inside : Inside planes height width plane row column) :
    place height width plane row column < planes * height * width := by
  have rows : plane * height + row + 1 ≤ planes * height := by
    calc plane * height + row + 1 ≤ plane * height + height := by
          have below := inside.row
          omega
      _ = (plane + 1) * height := (Nat.succ_mul plane height).symm
      _ ≤ planes * height := Nat.mul_le_mul_right height inside.plane
  calc place height width plane row column
      < (plane * height + row) * width + width := Nat.add_lt_add_left inside.column _
    _ = (plane * height + row + 1) * width := (Nat.succ_mul _ width).symm
    _ ≤ planes * height * width := Nat.mul_le_mul_right width rows

/-- A number is determined by its quotient and its remainder, and determines them. -/
theorem digits_inj {base quotient remainder otherQuotient otherRemainder : Nat}
    (small : remainder < base) (otherSmall : otherRemainder < base)
    (same : quotient * base + remainder = otherQuotient * base + otherRemainder) :
    quotient = otherQuotient ∧ remainder = otherRemainder := by
  have remainders : remainder = otherRemainder := by
    rw [← Nat.mul_add_mod_of_lt (a := quotient) small, same, Nat.mul_add_mod_of_lt otherSmall]
  rw [remainders] at same
  have products := Nat.add_right_cancel same
  exact ⟨Nat.eq_of_mul_eq_mul_right (Nat.zero_lt_of_lt small) products, remainders⟩

/-- Two points of the grid do not lie at one place. -/
theorem Inside.place_inj {otherPlane otherRow otherColumn : Nat}
    (inside : Inside planes height width plane row column)
    (other : Inside planes height width otherPlane otherRow otherColumn)
    (same : place height width plane row column =
      place height width otherPlane otherRow otherColumn) :
    plane = otherPlane ∧ row = otherRow ∧ column = otherColumn := by
  obtain ⟨rows, columns⟩ := digits_inj inside.column other.column same
  obtain ⟨plane_eq, row_eq⟩ := digits_inj inside.row other.row rows
  exact ⟨plane_eq, row_eq, columns⟩

/-- Every place of the grid is that of a point. -/
theorem exists_inside {position : Nat} (within : position < planes * height * width) :
    ∃ plane row column, Inside planes height width plane row column ∧
      place height width plane row column = position := by
  have columns : 0 < width := Nat.pos_of_mul_pos_left (Nat.zero_lt_of_lt within)
  have lines : position / width < planes * height := (Nat.div_lt_iff_lt_mul columns).mpr within
  have rows : 0 < height := Nat.pos_of_mul_pos_left (Nat.zero_lt_of_lt lines)
  refine ⟨position / width / height, position / width % height, position % width, ?_, ?_⟩
  · exact ⟨(Nat.div_lt_iff_lt_mul rows).mpr lines, Nat.mod_lt _ rows, Nat.mod_lt _ columns⟩
  · rw [place, Nat.div_add_mod', Nat.div_add_mod']

end Grid
