import Mathlib

/-!
# Byte memory behind a pointer

A pointer is modelled by what it points to: the bytes from its address on. Copying and writing
are functions of that memory, so an access beyond an allocation reads whatever the memory
holds there instead of failing. The one predicate the rest uses is that a memory starts with a
list of bytes.
-/

/-- The bytes from an address on. -/
abbrev ByteMemory := Nat → UInt8

namespace ByteMemory

/-- The memory behind the pointer advanced by `offset`. -/
def shift (memory : ByteMemory) (offset : Nat) : ByteMemory := fun position =>
  memory (offset + position)

/-- Copy `count` bytes of the source to the target, `offset` positions on. -/
def copy (target : ByteMemory) (offset : Nat) (source : ByteMemory) (count : Nat) : ByteMemory :=
  fun position =>
    if offset ≤ position ∧ position < offset + count then source (position - offset)
    else target position

/-- Write a list of bytes at the front. -/
def write (target : ByteMemory) (bytes : List UInt8) : ByteMemory := fun position =>
  bytes.getD position (target position)

/-- The first `count` bytes. -/
def take (memory : ByteMemory) (count : Nat) : List UInt8 := (List.range count).map memory

/-- The memory starts with these bytes. -/
def StartsWith (memory : ByteMemory) (bytes : List UInt8) : Prop :=
  ∀ (position : Nat) (inside : position < bytes.length), memory position = bytes[position]

/-- Starting with some bytes is reading them off the front. -/
theorem startsWith_iff_take (memory : ByteMemory) (bytes : List UInt8) :
    memory.StartsWith bytes ↔ memory.take bytes.length = bytes := by
  constructor
  · intro starts
    apply List.ext_getElem
    · simp [take]
    · intro position _ inside
      simpa [take] using starts position inside
  · intro read position inside
    have entry := congrArg (·[position]?) read
    simpa [take, List.getElem?_range inside, List.getElem?_eq_getElem inside] using entry

/-- Every memory starts with no bytes. -/
theorem startsWith_nil (memory : ByteMemory) : memory.StartsWith [] := by
  intro position inside
  simp at inside

/-- What was written at the front is there. -/
theorem write_startsWith (memory : ByteMemory) (bytes : List UInt8) :
    (memory.write bytes).StartsWith bytes := by
  intro position inside
  rw [write, List.getD_eq_getElem _ _ inside]

/-- Behind what was written the memory is unchanged. -/
theorem write_outside {memory : ByteMemory} {bytes : List UInt8} {position : Nat}
    (outside : bytes.length ≤ position) : memory.write bytes position = memory position := by
  rw [write, List.getD_eq_default _ _ outside]

/-- Inside the copied range the target reads as the source. -/
theorem copy_inside {target source : ByteMemory} {offset count position : Nat}
    (low : offset ≤ position) (high : position < offset + count) :
    target.copy offset source count position = source (position - offset) := if_pos ⟨low, high⟩

/-- Outside the copied range the target is unchanged. -/
theorem copy_outside {target source : ByteMemory} {offset count position : Nat}
    (outside : position < offset ∨ offset + count ≤ position) :
    target.copy offset source count position = target position := by
  apply if_neg
  omega

end ByteMemory
