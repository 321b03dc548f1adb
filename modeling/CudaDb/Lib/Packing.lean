import Mathlib

/-!
# Packing a queue into blocks

A queue of items with sizes is packed by taking from its front, again and again, the longest prefix
that fits into a capacity. This module says what such a packing is, also while part of the queue is
still to be packed, and how it grows by a block. It names no particular system.
-/

namespace Packing

variable {Item : Type*} (size : Item → Int) (capacity : Int)

/-- The size of a list of items. -/
def weight (items : List Item) : Int := (items.map size).sum

/-- The block is the longest prefix of the queue that fits. -/
structure LongestFit (block queue : List Item) : Prop where
  /-- It is a prefix of the queue. -/
  isPrefix : block <+: queue
  /-- It fits. -/
  fits : weight size block ≤ capacity
  /-- No longer prefix fits. -/
  longest : ∀ other, other <+: queue → weight size other ≤ capacity →
    other.length ≤ block.length

/-- The blocks were packed one after another from a queue of which `rest` is left. -/
def Packed : List (List Item) → List Item → Prop
  | [], _ => True
  | block :: blocks, rest =>
    block ≠ [] ∧ LongestFit size capacity block (block ++ (blocks.flatten ++ rest)) ∧
      Packed blocks rest

variable {size capacity}

/-- Nothing weighs nothing. -/
@[simp] theorem weight_nil : weight size [] = 0 := rfl

/-- Weights add up. -/
theorem weight_append (left right : List Item) :
    weight size (left ++ right) = weight size left + weight size right := by
  rw [weight, List.map_append, List.sum_append, weight, weight]

/-- The weight of one item. -/
theorem weight_singleton (item : Item) : weight size [item] = size item := by
  rw [weight, List.map_singleton, List.sum_singleton]

/-- No weight is negative if no size is. -/
theorem weight_nonneg (nonneg : ∀ item, 0 ≤ size item) (items : List Item) :
    0 ≤ weight size items := by
  apply List.sum_nonneg
  intro amount member
  obtain ⟨item, -, rfl⟩ := List.mem_map.mp member
  exact nonneg item

/-- A block that fits is the longest one if the queue ends there or the next item exceeds the
capacity. -/
theorem longestFit_of_next (nonneg : ∀ item, 0 ≤ size item) {block rest : List Item}
    (fits : weight size block ≤ capacity)
    (exceeds : ∀ next ∈ rest.head?, capacity < weight size block + size next) :
    LongestFit size capacity block (block ++ rest) where
  isPrefix := List.prefix_append block rest
  fits := fits
  longest := by
    intro other isPrefix small
    by_contra longer
    have extends_block : block <+: other :=
      List.prefix_of_prefix_length_le (List.prefix_append block rest) isPrefix (by omega)
    obtain ⟨more, rfl⟩ := extends_block
    cases more with
    | nil => simp at longer
    | cons next more =>
      have next_prefix : next :: more <+: rest := (List.prefix_append_right_inj block).mp isPrefix
      obtain ⟨tail, rfl⟩ := next_prefix
      have too_large := exceeds next rfl
      have split : weight size (block ++ next :: more) =
          weight size block + (size next + weight size more) := by
        rw [← List.singleton_append, weight_append, weight_append, weight_singleton]
      have others := weight_nonneg nonneg more
      omega

/-- The next block of the packing. -/
theorem Packed.snoc {blocks : List (List Item)} {block rest : List Item}
    (packed : Packed size capacity blocks (block ++ rest)) (nonempty : block ≠ [])
    (longest : LongestFit size capacity block (block ++ rest)) :
    Packed size capacity (blocks ++ [block]) rest := by
  induction blocks with
  | nil => exact ⟨nonempty, longest, trivial⟩
  | cons first blocks ih =>
    obtain ⟨here, fit, later⟩ := packed
    have flat : (blocks ++ [block]).flatten ++ rest = blocks.flatten ++ (block ++ rest) := by
      rw [List.flatten_append, List.flatten_singleton, List.append_assoc]
    refine ⟨here, ?_, ih later⟩
    change LongestFit size capacity first (first ++ ((blocks ++ [block]).flatten ++ rest))
    rw [flat]
    exact fit

end Packing
