import Mathlib

/-!
# First in first out windows

A bounded first in first out store drops items from its front, the oldest first, until a new one
fits. The window of a list of arrivals is the longest end of it whose load does not exceed the
capacity. Whatever was dropped before never matters: the window of a window and one more arrival is
the window of all arrivals. So a store that makes room as late as possible always holds the window
of everything that ever arrived. This module names no particular system.
-/

namespace FifoWindow

variable {Item : Type*} {weight : Item → Nat} {capacity : Nat} {items : List Item}

/-- What the items weigh together. -/
def load (weight : Item → Nat) (items : List Item) : Nat := (items.map weight).sum

/-- Nothing weighs nothing. -/
@[simp] theorem load_nil : load weight [] = 0 := rfl

/-- A first item adds its weight. -/
@[simp] theorem load_cons (item : Item) : load weight (item :: items) =
    weight item + load weight items := by
  simp [load]

/-- Two parts weigh together what they weigh apart. -/
@[simp] theorem load_append (first second : List Item) :
    load weight (first ++ second) = load weight first + load weight second := by
  simp [load]

/-- Items of one weight weigh their number times that. -/
theorem load_of_weight {unit : Nat} (same : ∀ item ∈ items, weight item = unit) :
    load weight items = items.length * unit := by
  unfold load
  rw [List.sum_eq_card_nsmul _ unit, List.length_map, smul_eq_mul]
  intro number member
  obtain ⟨item, listed, rfl⟩ := List.mem_map.mp member
  exact same item listed

/-- The longest end of the list whose load does not exceed the capacity. -/
def window (weight : Item → Nat) (capacity : Nat) : List Item → List Item
  | [] => []
  | item :: items =>
    if load weight (item :: items) ≤ capacity then item :: items
    else window weight capacity items

/-- The window is an end of the list. -/
theorem window_suffix (weight : Item → Nat) (capacity : Nat) (items : List Item) :
    window weight capacity items <:+ items := by
  induction items with
  | nil => exact List.suffix_rfl
  | cons item items ih =>
    rw [window]
    split
    · exact List.suffix_rfl
    · exact ih.trans (List.suffix_cons item items)

/-- The window fits. -/
theorem load_window_le (weight : Item → Nat) (capacity : Nat) (items : List Item) :
    load weight (window weight capacity items) ≤ capacity := by
  induction items with
  | nil => exact Nat.zero_le capacity
  | cons item items ih =>
    rw [window]
    split
    · assumption
    · exact ih

/-- No end of the list that fits is longer than the window. -/
theorem suffix_window {part : List Item} (ends : part <:+ items)
    (fits : load weight part ≤ capacity) : part <:+ window weight capacity items := by
  induction items with
  | nil => exact ends
  | cons item items ih =>
    rw [window]
    split
    · exact ends
    · rename_i full
      rcases List.suffix_cons_iff.mp ends with whole | inner
      · exact absurd (whole ▸ fits) full
      · exact ih inner

/-- An end of the list that fits is the window if no longer one fits. -/
theorem window_eq {part : List Item} (ends : part <:+ items) (fits : load weight part ≤ capacity)
    (longest : ∀ longer, part <:+ longer → longer <:+ items → longer ≠ part →
      capacity < load weight longer) : window weight capacity items = part := by
  have inside := suffix_window ends fits
  by_contra different
  have over_full := longest _ inside (window_suffix weight capacity items) different
  exact absurd (load_window_le weight capacity items) (not_le.mpr over_full)

/-- The window of a window and further arrivals is the window of the whole list: dropping early does
not matter. -/
theorem window_append (later : List Item) :
    window weight capacity (window weight capacity items ++ later) =
      window weight capacity (items ++ later) := by
  obtain ⟨dropped, split⟩ := window_suffix weight capacity items
  have ends : window weight capacity items ++ later <:+ items ++ later := by
    refine ⟨dropped, ?_⟩
    rw [← List.append_assoc, split]
  symm
  apply window_eq ((window_suffix weight capacity _).trans ends) (load_window_le weight capacity _)
  intro longer holds part different
  by_contra fits
  -- The part of a longer end that lies among the earlier items fits too, so it is in their window.
  have inside : longer <:+ window weight capacity items ++ later := by
    obtain ⟨before, joined⟩ := part
    rcases List.append_eq_append_iff.mp joined with ⟨front, earlier, rfl⟩ | ⟨middle, -, short⟩
    · have light : load weight front ≤ capacity := by
        rw [load_append] at fits
        omega
      obtain ⟨more, whole⟩ := suffix_window ⟨before, earlier.symm⟩ light
      exact ⟨more, by rw [← List.append_assoc, whole]⟩
    · have late : longer <:+ later := ⟨middle, short.symm⟩
      exact late.trans (List.suffix_append _ _)
  have short := suffix_window inside (not_lt.mp fits)
  exact different (short.eq_of_length_le holds.length_le)

/-- Dropping from the front until the arrival fits, and no longer, leaves the window. -/
theorem window_of_drop {popped rest : List Item} {item : Item}
    (fits : load weight rest + weight item ≤ capacity)
    (needed : ∀ fewer, fewer <+: popped → fewer ≠ popped →
      capacity + load weight fewer < load weight (popped ++ rest) + weight item) :
    window weight capacity (popped ++ rest ++ [item]) = rest ++ [item] := by
  apply window_eq
  · exact ⟨popped, (List.append_assoc _ _ _).symm⟩
  · simpa using fits
  · rintro longer ⟨kept, rfl⟩ part different
    obtain ⟨fewer, joined⟩ := part
    have cut : fewer ++ kept = popped := by
      rw [← List.append_assoc, ← List.append_assoc] at joined
      exact List.append_cancel_right (List.append_cancel_right joined)
    have shorter : fewer ≠ popped := by
      intro whole
      have nothing : kept = [] := List.append_cancel_left (by rw [cut, whole, List.append_nil])
      exact different (by rw [nothing, List.nil_append])
    have lacking := needed fewer ⟨kept, cut⟩ shorter
    rw [← cut] at lacking
    simp only [load_append, load_cons, load_nil] at lacking ⊢
    omega

/-- Of items of one weight the window holds as many of the latest as fit. -/
theorem window_of_weight {unit : Nat} (positive : 0 < unit)
    (same : ∀ item ∈ items, weight item = unit) :
    window weight capacity items = items.drop (items.length - capacity / unit) := by
  have part_load {part : List Item} (ends : part <:+ items) :
      load weight part = part.length * unit :=
    load_of_weight fun item member => same item (ends.subset member)
  apply window_eq (List.drop_suffix _ _)
  · rw [part_load (List.drop_suffix _ _), List.length_drop]
    have few : items.length - (items.length - capacity / unit) ≤ capacity / unit := by
      generalize capacity / unit = most
      omega
    exact (Nat.mul_le_mul_right unit few).trans (Nat.div_mul_le_self capacity unit)
  · intro longer holds part different
    rw [part_load part]
    have shorter : (items.drop (items.length - capacity / unit)).length < longer.length := by
      rcases lt_or_eq_of_le holds.length_le with less | equal
      · exact less
      · exact absurd (holds.eq_of_length equal).symm different
    have bounded := part.length_le
    rw [List.length_drop] at shorter
    have more : capacity / unit < longer.length := by
      generalize capacity / unit = most at shorter ⊢
      omega
    exact (Nat.div_lt_iff_lt_mul positive).mp more

end FifoWindow
