import CudaDb.Lib.ByteMemory

/-!
# Pools of equal slabs

A pool holds memory in slabs of one size, a queue of the slabs that are free and a separate
count of them. A value is stored by taking slabs from the front of the queue, one for each
slab-sized piece, and read back by copying the slabs out in order. The laws are what a store
takes and writes, that a pool with enough free slabs never runs dry, and that what was stored
is read back as long as its slabs keep their contents.
-/

/-- Slabs, the queue of free ones and the count kept beside the queue. -/
structure SlabPool where
  /-- Ids of the free slabs, the next one to take first. -/
  free : List Nat
  /-- The count of free slabs, kept apart from the queue. -/
  freeNum : Int
  /-- The memory of each slab. -/
  slabs : Nat → ByteMemory

namespace SlabPool

variable (size : Nat)

/-- Take `count` slabs from the front of the queue and copy into each its piece of the value,
from piece `index` on. `none` is the front of an empty queue. -/
def fill (value : ByteMemory) : Nat → Nat → SlabPool → Option (List Nat × SlabPool)
  | 0, _, pool => some ([], pool)
  | count + 1, index, pool =>
    match pool.free with
    | [] => none
    | slab :: rest =>
      let stored := (pool.slabs slab).copy 0 (value.shift (index * size)) size
      let next : SlabPool :=
        { free := rest
          freeNum := pool.freeNum - 1
          slabs := Function.update pool.slabs slab stored }
      (fill value count (index + 1) next).map fun (taken, last) => (slab :: taken, last)

/-- Copy the slabs to the target one after the other, from `offset` on. -/
def gather (slabs : Nat → ByteMemory) : List Nat → Nat → ByteMemory → ByteMemory
  | [], _, target => target
  | slab :: rest, offset, target =>
    gather slabs rest (offset + size) (target.copy offset (slabs slab) size)

/-- The listed slabs hold these bytes, slab after slab. -/
def Stores (slabs : Nat → ByteMemory) (ids : List Nat) (bytes : List UInt8) : Prop :=
  ∀ (position : Nat) (inside : position < bytes.length),
    ∃ slab, ids[position / size]? = some slab ∧ slabs slab (position % size) = bytes[position]

variable {size}

/-- A queue that is long enough is never found empty. -/
theorem fill_isSome (value : ByteMemory) {count : Nat} (index : Nat) {pool : SlabPool}
    (enough : count ≤ pool.free.length) : (fill size value count index pool).isSome := by
  induction count generalizing index pool with
  | zero => rfl
  | succ count ih =>
    cases queue : pool.free with
    | nil => simp [queue] at enough
    | cons slab rest =>
      simp only [fill, queue, Option.isSome_map]
      apply ih
      simpa [queue] using enough

/-- A store takes the slabs at the front of the queue and lowers the count by their number. -/
theorem fill_takes {value : ByteMemory} {count index : Nat} {pool last : SlabPool}
    {taken : List Nat} (filled : fill size value count index pool = some (taken, last)) :
    pool.free = taken ++ last.free ∧ taken.length = count ∧
      last.freeNum = pool.freeNum - count := by
  induction count generalizing index pool taken with
  | zero =>
    simp only [fill, Option.some.injEq, Prod.mk.injEq] at filled
    obtain ⟨rfl, rfl⟩ := filled
    simp
  | succ count ih =>
    cases queue : pool.free with
    | nil => simp [fill, queue] at filled
    | cons slab rest =>
      simp only [fill, queue, Option.map_eq_some_iff, Prod.exists, Prod.mk.injEq] at filled
      obtain ⟨others, after, later, rfl, rfl⟩ := filled
      obtain ⟨split, length, counted⟩ := ih later
      refine ⟨by simpa using split, by simp [length], ?_⟩
      rw [counted]
      push_cast
      ring

/-- A store leaves every slab it does not take as it was. -/
theorem fill_frame {value : ByteMemory} {count index : Nat} {pool last : SlabPool}
    {taken : List Nat} (filled : fill size value count index pool = some (taken, last))
    {slab : Nat} (untouched : slab ∉ taken) : last.slabs slab = pool.slabs slab := by
  induction count generalizing index pool taken with
  | zero =>
    simp only [fill, Option.some.injEq, Prod.mk.injEq] at filled
    rw [filled.2]
  | succ count ih =>
    cases queue : pool.free with
    | nil => simp [fill, queue] at filled
    | cons first rest =>
      simp only [fill, queue, Option.map_eq_some_iff, Prod.exists, Prod.mk.injEq] at filled
      obtain ⟨others, after, later, rfl, rfl⟩ := filled
      rw [List.mem_cons, not_or] at untouched
      rw [ih later untouched.2]
      exact Function.update_of_ne untouched.1 _ _

/-- Each slab taken, none of them twice, holds its piece of the value. -/
theorem fill_slab {value : ByteMemory} {count index : Nat} {pool last : SlabPool}
    {taken : List Nat} (filled : fill size value count index pool = some (taken, last))
    (distinct : taken.Nodup) {piece slab : Nat} (here : taken[piece]? = some slab)
    {position : Nat} (inside : position < size) :
    last.slabs slab position = value ((index + piece) * size + position) := by
  induction count generalizing index pool taken piece with
  | zero =>
    simp only [fill, Option.some.injEq, Prod.mk.injEq] at filled
    simp [← filled.1] at here
  | succ count ih =>
    cases queue : pool.free with
    | nil => simp [fill, queue] at filled
    | cons first rest =>
      simp only [fill, queue, Option.map_eq_some_iff, Prod.exists, Prod.mk.injEq] at filled
      obtain ⟨others, after, later, rfl, rfl⟩ := filled
      obtain ⟨fresh, distinct⟩ := List.nodup_cons.mp distinct
      cases piece with
      | zero =>
        -- The later pieces go to other slabs, so the first slab keeps what it got.
        simp only [List.getElem?_cons_zero, Option.some.injEq] at here
        subst here
        rw [fill_frame later fresh]
        simp only [Function.update_self]
        rw [ByteMemory.copy_inside (Nat.zero_le _) (by omega)]
        simp [ByteMemory.shift]
      | succ piece =>
        rw [List.getElem?_cons_succ] at here
        rw [ih later distinct here, Nat.add_right_comm, Nat.add_assoc]

/-- The slab taken last holds the last piece of the value, whatever slabs were taken before it. -/
theorem fill_last {value : ByteMemory} {count index : Nat} {pool last : SlabPool}
    {taken : List Nat} (filled : fill size value (count + 1) index pool = some (taken, last)) :
    ∃ slab, taken.getLast? = some slab ∧ ∀ position < size,
      last.slabs slab position = value ((index + count) * size + position) := by
  induction count generalizing index pool taken with
  | zero =>
    cases queue : pool.free with
    | nil => simp [fill, queue] at filled
    | cons first rest =>
      simp only [fill, queue, Option.map_some, Option.some.injEq, Prod.mk.injEq] at filled
      obtain ⟨rfl, rfl⟩ := filled
      refine ⟨first, rfl, fun position inside => ?_⟩
      simp only [Function.update_self]
      rw [ByteMemory.copy_inside (Nat.zero_le _) (by omega)]
      simp [ByteMemory.shift]
  | succ count ih =>
    cases queue : pool.free with
    | nil => simp [fill, queue] at filled
    | cons first rest =>
      rw [fill, queue] at filled
      obtain ⟨⟨others, after⟩, later, same⟩ := Option.map_eq_some_iff.mp filled
      obtain ⟨rfl, rfl⟩ := Prod.mk.inj same
      obtain ⟨slab, ends, holds⟩ := ih later
      refine ⟨slab, ?_, fun position inside => ?_⟩
      · rw [List.getLast?_cons, ends, Option.getD_some]
      · rw [holds position inside, Nat.add_right_comm, Nat.add_assoc]

/-- A store reads nothing of the value but its pieces. -/
theorem fill_congr {first second : ByteMemory} {count index : Nat}
    (agree : ∀ position < (index + count) * size, first position = second position)
    (pool : SlabPool) : fill size first count index pool = fill size second count index pool := by
  induction count generalizing index pool with
  | zero => rfl
  | succ count ih =>
    cases queue : pool.free with
    | nil => simp [fill, queue]
    | cons slab rest =>
      have piece : (pool.slabs slab).copy 0 (first.shift (index * size)) size =
          (pool.slabs slab).copy 0 (second.shift (index * size)) size := by
        funext position
        by_cases inside : position < size
        · have reach : index * size + position < (index + (count + 1)) * size := by
            have pieces : (index + (count + 1)) * size = index * size + size + count * size := by
              ring
            omega
          rw [ByteMemory.copy_inside (Nat.zero_le _) (by omega),
            ByteMemory.copy_inside (Nat.zero_le _) (by omega)]
          exact agree _ reach
        · rw [ByteMemory.copy_outside (Or.inr (by omega)),
            ByteMemory.copy_outside (Or.inr (by omega))]
      rw [fill, fill, queue]
      dsimp only
      rw [piece, ih fun position inside => agree position (by rwa [Nat.add_right_comm] at inside)]

/-- A value is stored in the slabs taken for it when they have room for it. -/
theorem fill_stores {value : ByteMemory} {count : Nat} {pool last : SlabPool}
    {taken : List Nat} (filled : fill size value count 0 pool = some (taken, last))
    (distinct : taken.Nodup) {bytes : List UInt8} (starts : value.StartsWith bytes)
    (room : bytes.length ≤ count * size) : Stores size last.slabs taken bytes := by
  intro position inside
  have positive : 0 < size := by
    apply Nat.pos_of_ne_zero
    rintro rfl
    omega
  have piece : position / size < taken.length := by
    rw [(fill_takes filled).2.1]
    apply (Nat.div_lt_iff_lt_mul positive).mpr
    omega
  refine ⟨taken[position / size], List.getElem?_eq_getElem piece, ?_⟩
  rw [fill_slab filled distinct (List.getElem?_eq_getElem piece) (Nat.mod_lt _ positive),
    Nat.zero_add, Nat.div_add_mod']
  exact starts position inside

/-- More slabs behind the ones that hold a value do not change what they hold. -/
theorem Stores.append {slabs : Nat → ByteMemory} {ids : List Nat} {bytes : List UInt8}
    (stores : Stores size slabs ids bytes) (more : List Nat) :
    Stores size slabs (ids ++ more) bytes := by
  intro position inside
  obtain ⟨slab, here, holds⟩ := stores position inside
  exact ⟨slab, List.getElem?_append_left (List.getElem?_eq_some_iff.mp here).1 ▸ here, holds⟩

/-- A value stays stored while the slabs that hold it keep their contents. -/
theorem Stores.frame {before after : Nat → ByteMemory} {ids : List Nat} {bytes : List UInt8}
    (stores : Stores size before ids bytes)
    (same : ∀ slab ∈ ids, after slab = before slab) : Stores size after ids bytes := by
  intro position inside
  obtain ⟨slab, here, holds⟩ := stores position inside
  exact ⟨slab, here, by rw [same slab (List.mem_of_getElem? here), holds]⟩

/-- Copying out does not touch the target before its offset. -/
theorem gather_before (slabs : Nat → ByteMemory) (ids : List Nat) (offset : Nat)
    (target : ByteMemory) {position : Nat} (before : position < offset) :
    gather size slabs ids offset target position = target position := by
  induction ids generalizing offset target with
  | nil => rfl
  | cons slab rest ih =>
    rw [gather, ih _ _ (by omega)]
    exact ByteMemory.copy_outside (Or.inl before)

/-- Copying out does not touch the target behind the last slab. -/
theorem gather_after (slabs : Nat → ByteMemory) (ids : List Nat) (offset : Nat)
    (target : ByteMemory) {position : Nat} (behind : offset + ids.length * size ≤ position) :
    gather size slabs ids offset target position = target position := by
  induction ids generalizing offset target with
  | nil => rfl
  | cons slab rest ih =>
    have room : (slab :: rest).length * size = rest.length * size + size := by
      rw [List.length_cons, Nat.succ_mul]
    rw [gather, ih _ _ (by omega)]
    exact ByteMemory.copy_outside (Or.inr (by omega))

/-- Copying out places slab after slab. -/
theorem gather_slab (slabs : Nat → ByteMemory) {ids : List Nat} (offset : Nat)
    (target : ByteMemory) {piece slab : Nat} (here : ids[piece]? = some slab) {position : Nat}
    (inside : position < size) :
    gather size slabs ids offset target (offset + piece * size + position) =
      slabs slab position := by
  induction ids generalizing offset target piece with
  | nil => simp at here
  | cons first rest ih =>
    cases piece with
    | zero =>
      simp only [List.getElem?_cons_zero, Option.some.injEq] at here
      subst here
      rw [gather, gather_before _ _ _ _ (by omega),
        ByteMemory.copy_inside (by omega) (by omega)]
      congr 1
      omega
    | succ piece =>
      rw [List.getElem?_cons_succ] at here
      have next := ih (offset + size) (target.copy offset (slabs first) size) here
      rw [gather, ← next]
      congr 1
      ring

/-- Copying out the slabs that hold a value delivers it at the front. -/
theorem gather_startsWith {slabs : Nat → ByteMemory} {ids : List Nat} {bytes : List UInt8}
    (stores : Stores size slabs ids bytes) (positive : 0 < size) (target : ByteMemory) :
    (gather size slabs ids 0 target).StartsWith bytes := by
  intro position inside
  obtain ⟨slab, here, holds⟩ := stores position inside
  rw [← holds, ← gather_slab slabs 0 target here (Nat.mod_lt position positive), Nat.zero_add,
    Nat.div_add_mod']

end SlabPool
