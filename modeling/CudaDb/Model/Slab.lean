import Mathlib

/-!
# Slab sizes and slab types

`WriteBuffer`, `CpuCache` and `GpuCache` round every value up to a power of two of 1 KiB slabs
and name that power its type. The source computes the type in floating point; on the lengths
it is used for, the logarithm is exact at the powers of two and never near an integer elsewhere,
so the type is the least one whose size reaches the length. `slabType_eq_ceil_logb` states the
source's formula over the reals.
-/

namespace CudaDb

/-- `slab_size`, in bytes, of the slab types 0 to 10. -/
def slabSizes : List Nat :=
  [1*1024, 2*1024, 4*1024, 8*1024, 16*1024, 32*1024, 64*1024, 128*1024, 256*1024, 512*1024,
    1024*1024]

/-- `slab_size[type]`. -/
def slabSize (type : Nat) : Nat := slabSizes.getD type 0

/-- `std::ceil(std::log2(length/1024.0))`, with every negative result replaced by 0. An empty
value has logarithm minus infinity and falls under the replacement as well. -/
def slabType (length : Nat) : Nat := Nat.clog 2 ((length + 1023) / 1024)

/-- The table lists the powers of two of 1 KiB. -/
theorem slabSize_eq {type : Nat} (small : type ≤ 10) : slabSize type = 2 ^ type * 1024 := by
  interval_cases type <;> rfl

/-- No listed slab is larger than the last one. -/
theorem slabSize_le {type : Nat} (small : type ≤ 10) : slabSize type ≤ 1024 * 1024 := by
  interval_cases type <;> decide

/-- The type of a length is at most `type` exactly when its size reaches the length. -/
theorem slabType_le_iff {length type : Nat} :
    slabType length ≤ type ↔ length ≤ 2 ^ type * 1024 := by
  rw [slabType, Nat.clog_le_iff_le_pow (by decide)]
  omega

/-- A value fits in the slabs of its type. -/
theorem length_le_slab (length : Nat) : length ≤ 2 ^ slabType length * 1024 :=
  slabType_le_iff.mp le_rfl

/-- The listed types are those of the lengths up to 1 MiB. -/
theorem slabType_le_ten {length : Nat} : slabType length ≤ 10 ↔ length ≤ 1024 * 1024 :=
  slabType_le_iff

/-- A length that fills the slab of a type has that type. -/
theorem slabType_full (type : Nat) : slabType (2 ^ type * 1024) = type := by
  apply le_antisymm (slabType_le_iff.mpr le_rfl)
  have reach := length_le_slab (2 ^ type * 1024)
  exact (Nat.pow_le_pow_iff_right (by decide)).mp (Nat.le_of_mul_le_mul_right reach (by decide))

/-- On the lengths of nonempty values the type is the source's formula, clamped at 0. -/
theorem slabType_eq_ceil_logb {length : Nat} (positive : 0 < length) :
    (slabType length : ℤ) = max 0 ⌈Real.logb 2 (length / 1024)⌉ := by
  have quotient : (0 : ℝ) < length / 1024 := by positivity
  have same (type : Nat) :
      max 0 ⌈Real.logb 2 (length / 1024)⌉ ≤ (type : ℤ) ↔ slabType length ≤ type := by
    rw [max_le_iff, Int.ceil_le, Int.cast_natCast, Real.logb_le_iff_le_rpow (by norm_num) quotient,
      Real.rpow_natCast, div_le_iff₀ (by norm_num), slabType_le_iff]
    have cast : ((length : ℝ) ≤ 2 ^ type * 1024) ↔ length ≤ 2 ^ type * 1024 := by
      exact_mod_cast Iff.rfl
    rw [cast]
    exact ⟨And.right, fun reach => ⟨Int.natCast_nonneg type, reach⟩⟩
  apply le_antisymm
  · have nonneg : (0 : ℤ) ≤ max 0 ⌈Real.logb 2 (length / 1024)⌉ := le_max_left _ _
    obtain ⟨type, value⟩ := Int.eq_ofNat_of_zero_le nonneg
    rw [value]
    exact_mod_cast (same type).mp value.le
  · exact (same (slabType length)).mpr le_rfl

end CudaDb
