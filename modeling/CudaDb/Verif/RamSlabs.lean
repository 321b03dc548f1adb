import CudaDb.Model.CpuCache

/-!
# The slabs of the RAM cache

The ids of the slabs are partitioned between the free queue and the cached entries, so a value
stays where it was stored while other values are cached. An insert of a key that is not cached
yet keeps the partition and caches exactly the bytes at the front of the caller's buffer, or
leaves the cache alone.
-/

namespace CudaDb.CpuCache

variable {cache next : CpuCache} {key : String} {info : IndexInfo}

/-- The ids in the lists of all entries, with multiplicity. -/
def ownedSlabs (cachedItem : Table String CPUCachedItem) : Multiset Nat :=
  cachedItem.total fun _ item => (item.slabs : Multiset Nat)

/-- Every slab is free once or owned by one entry once, and the count of free slabs is the length
of their queue. -/
structure Partition (cache : CpuCache) : Prop where
  /-- All ids below the number of slabs, each exactly once. -/
  ids : ownedSlabs cache.cachedItem + (cache.pool.free : Multiset Nat) =
    Multiset.range cache.slabNum
  /-- The counter agrees with the queue. -/
  counted : cache.pool.freeNum = cache.pool.free.length

/-- The entries hold values that have the property for their keys. -/
def Holds (cache : CpuCache) (property : String → List UInt8 → Prop) : Prop :=
  ∀ key item, cache.cachedItem.lookup key = some item → ∃ value, property key value ∧
    value.length = item.length ∧ SlabPool.Stores 1024 cache.pool.slabs item.slabs value

/-- A cache with no entry and no free slab is partitioned once its memory is allocated. -/
theorem allocateMemory_partition (no_item : cache.cachedItem = ∅) (no_slab : cache.pool.free = [])
    (pageSize pageNum : Nat) : (cache.initial pageSize pageNum).allocateMemory.Partition where
  ids := by
    simp only [allocateMemory, initial, no_item, no_slab, List.nil_append, ownedSlabs,
      Table.total_empty, zero_add, ← List.range_eq_range']
    rfl
  counted := by simp [allocateMemory, initial, no_slab]

/-- The slabs of an entry are not free. -/
theorem Partition.apart (partition : cache.Partition) {item : CPUCachedItem} {slab : Nat}
    (found : cache.cachedItem.lookup key = some item) (owned : slab ∈ item.slabs) :
    slab ∉ cache.pool.free := by
  have nodup : (ownedSlabs cache.cachedItem + (cache.pool.free : Multiset Nat)).Nodup := by
    rw [partition.ids]
    exact Multiset.nodup_range _
  have member : slab ∈ ownedSlabs cache.cachedItem :=
    Table.mem_total.mpr ⟨key, item, found, owned⟩
  exact Multiset.disjoint_left.mp (Multiset.nodup_add.mp nodup).2.2 member

/-- The free slabs are distinct. -/
theorem Partition.free_nodup (partition : cache.Partition) : cache.pool.free.Nodup := by
  have nodup : (ownedSlabs cache.cachedItem + (cache.pool.free : Multiset Nat)).Nodup := by
    rw [partition.ids]
    exact Multiset.nodup_range _
  exact Multiset.coe_nodup.mp (Multiset.nodup_add.mp nodup).2.1

/-- What an insert that caches its value does. -/
structure Cached (key : String) (info : IndexInfo) (value : ByteMemory) (before after : CpuCache) :
    Prop where
  /-- The slabs taken from the front of the free queue. -/
  taken : ∃ taken, SlabPool.fill 1024 value (2 ^ info.lengthType) 0 before.pool =
      some (taken, after.pool) ∧
    after.cachedItem = before.cachedItem.insert key
      { length := info.length
        lengthType := info.lengthType
        slabs := (before.cachedItem.slot key).slabs ++ taken }
  /-- The number of slabs stays. -/
  slabNum : after.slabNum = before.slabNum

/-- An insert leaves the cache alone or caches its value. -/
theorem insert_cases {value : ByteMemory} (inserted : cache.insert key info value = some next) :
    next = cache ∨ Cached key info value cache next := by
  unfold insert at inserted
  split at inserted
  · exact Or.inl (Option.some.inj inserted).symm
  · obtain ⟨⟨taken, pool⟩, filled, rfl⟩ := Option.map_eq_some_iff.mp inserted
    exact Or.inr ⟨⟨taken, filled, rfl⟩, rfl⟩

/-- An insert never takes the front of an empty queue. -/
theorem insert_isSome (partition : cache.Partition) (key : String) (info : IndexInfo)
    (value : ByteMemory) : (cache.insert key info value).isSome := by
  unfold insert
  split
  · rfl
  · next enough =>
    rw [partition.counted, not_lt] at enough
    rw [Option.isSome_map]
    exact SlabPool.fill_isSome value 0 (by exact_mod_cast enough)

/-- An insert keeps the partition. -/
theorem insert_partition {value : ByteMemory} (partition : cache.Partition)
    (inserted : cache.insert key info value = some next) : next.Partition := by
  rcases insert_cases inserted with rfl | cached
  · exact partition
  obtain ⟨taken, filled, entries⟩ := cached.taken
  obtain ⟨split, -, counted⟩ := SlabPool.fill_takes filled
  constructor
  · have before := partition.ids
    have owned : ownedSlabs (cache.cachedItem.erase key) +
        ((cache.cachedItem.slot key).slabs : Multiset Nat) = ownedSlabs cache.cachedItem := by
      cases found : cache.cachedItem.lookup key with
      | some item =>
        rw [Table.slot_of_lookup found, add_comm]
        exact Table.total_erase (fun _ item => (item.slabs : Multiset Nat)) found
      | none =>
        rw [Table.erase_of_notMem (Finmap.lookup_eq_none.mp found), Table.slot, found]
        exact add_zero _
    rw [entries, cached.slabNum, ← before, split, ownedSlabs, Table.total_insert, ← owned,
      ownedSlabs, ← Multiset.coe_add, ← Multiset.coe_add]
    abel
  · rw [counted, partition.counted, split, List.length_append, (SlabPool.fill_takes filled).2.1]
    push_cast
    ring

/-- A value stays stored when another value is cached. -/
theorem Cached.frame {memory : ByteMemory} (cached : Cached key info memory cache next)
    (partition : cache.Partition) {asked : String} {item : CPUCachedItem} {value : List UInt8}
    (found : cache.cachedItem.lookup asked = some item)
    (stores : SlabPool.Stores 1024 cache.pool.slabs item.slabs value) :
    SlabPool.Stores 1024 next.pool.slabs item.slabs value := by
  obtain ⟨taken, filled, -⟩ := cached.taken
  obtain ⟨split, -, -⟩ := SlabPool.fill_takes filled
  refine stores.frame fun slab owned => ?_
  have untouched : slab ∉ taken := fun gone =>
    partition.apart found owned (split ▸ List.mem_append_left _ gone)
  exact SlabPool.fill_frame filled untouched

/-- An insert of the bytes at the front of the buffer, for a key that is not cached, keeps what
the cache holds and adds at most those bytes. -/
theorem insert_holds {memory : ByteMemory} {value : List UInt8}
    {property : String → List UInt8 → Prop} (partition : cache.Partition)
    (holds : cache.Holds property) (absent : key ∉ cache.cachedItem)
    (starts : memory.StartsWith value)
    (length : value.length = info.length) (fits : value.length ≤ 2 ^ info.lengthType * 1024)
    (own : property key value) (inserted : cache.insert key info memory = some next) :
    next.Holds property := by
  rcases insert_cases inserted with rfl | cached
  · exact holds
  obtain ⟨taken, filled, entries⟩ := cached.taken
  obtain ⟨split, -, -⟩ := SlabPool.fill_takes filled
  intro asked item found
  rw [entries, Table.lookup_insert_if] at found
  by_cases same : asked = key
  · rw [if_pos same] at found
    obtain rfl := Option.some.inj found
    have distinct : taken.Nodup :=
      (List.nodup_append.mp (split ▸ partition.free_nodup)).1
    refine ⟨value, same ▸ own, length, ?_⟩
    rw [Table.slot, Finmap.lookup_eq_none.mpr absent]
    exact SlabPool.fill_stores filled distinct starts fits
  · rw [if_neg same] at found
    obtain ⟨held, good, sized, stores⟩ := holds asked item found
    exact ⟨held, good, sized, cached.frame partition found stores⟩

/-- An insert of a value of the same length for a cached key puts it behind the cached one, which
stays. -/
theorem insert_again {memory : ByteMemory} {property : String → List UInt8 → Prop}
    (partition : cache.Partition) (holds : cache.Holds property) {item : CPUCachedItem}
    (cached : cache.cachedItem.lookup key = some item) (same : item.length = info.length)
    (inserted : cache.insert key info memory = some next) : next.Holds property := by
  rcases insert_cases inserted with rfl | appended
  · exact holds
  obtain ⟨taken, -, entries⟩ := appended.taken
  intro asked other found
  rw [entries, Table.lookup_insert_if] at found
  by_cases here : asked = key
  · rw [if_pos here] at found
    obtain rfl := Option.some.inj found
    obtain ⟨value, good, sized, stores⟩ := holds key item cached
    refine ⟨value, here ▸ good, sized.trans same, ?_⟩
    rw [Table.slot_of_lookup cached]
    exact (appended.frame partition cached stores).append taken
  · rw [if_neg here] at found
    obtain ⟨value, good, sized, stores⟩ := holds asked other found
    exact ⟨value, good, sized, appended.frame partition found stores⟩

/-- Copying out an entry delivers its length and the value it holds. -/
theorem copyOut_holds {property : String → List UInt8 → Prop} (holds : cache.Holds property)
    {item : CPUCachedItem} (found : cache.cachedItem.lookup key = some item) (memory : ByteMemory) :
    ∃ value, property key value ∧ (cache.copyOut item memory).1 = value.length ∧
      (cache.copyOut item memory).2.StartsWith value := by
  obtain ⟨value, good, sized, stores⟩ := holds key item found
  exact ⟨value, good, sized.symm, SlabPool.gather_startsWith stores (by decide) memory⟩

end CudaDb.CpuCache
