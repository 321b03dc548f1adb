import CudaDb.Model.GpuCache

/-!
# Who owns the slabs of the GPU cache

The slab ids of a `GpuCache` are held twice over: by the queue of free slabs and by the lists
in the entries. Eviction and storing only move ids between the two. The one step that changes
the collection of all ids is the release of a key that is inserted again, which frees the slabs
of its entry and leaves them in the entry's list. Hence the ids partition the slabs of the
device exactly as long as no cached key has been inserted again.
-/

namespace CudaDb.GpuCache

/-- The ids in the lists of all entries, with multiplicity. -/
def ownedSlabs (cache : GpuCache) : Multiset Nat :=
  Table.total (fun _ item => (item.slabs : Multiset Nat)) cache.cachedItem

/-- The ids in the lists of all entries and in the free queue, with multiplicity. -/
def slabIds (cache : GpuCache) : Multiset Nat := cache.ownedSlabs + (cache.pool.free : Multiset Nat)

/-- Every slab is free once or owned by one entry once, the count of free slabs is the length
of their queue and every entry owns the number of slabs of its type. -/
structure Partition (cache : GpuCache) : Prop where
  /-- All ids below the number of slabs, each exactly once. -/
  ids : cache.slabIds = Multiset.range cache.slabNum
  /-- The counter agrees with the queue. -/
  counted : cache.pool.freeNum = cache.pool.free.length
  /-- An entry has the slabs of its type. -/
  sized : ∀ key item, cache.cachedItem.lookup key = some item →
    item.slabs.length = 2 ^ item.lengthType

/-- The eviction queue lists every cached key once. While an insert of `key` is on its way the
queue may have been popped past `key`, which the push flag then records. -/
def Queued (cachedItem : Table String GPUCachedItem) (queue : List String) (key : String)
    (pushFlag : Bool) : Prop :=
  (queue : Multiset String) + (if pushFlag = true ∧ key ∈ cachedItem then {key} else 0) =
    cachedItem.keys.val

/-! ## What the parts of an insert do -/

/-- The ids of an entry and the ids of the others are all owned ids. -/
theorem slot_add_owned (cachedItem : Table String GPUCachedItem) (key : String) :
    ((cachedItem.slot key).slabs : Multiset Nat) +
        Table.total (fun _ item => (item.slabs : Multiset Nat)) (cachedItem.erase key) =
      Table.total (fun _ item => (item.slabs : Multiset Nat)) cachedItem := by
  cases found : cachedItem.lookup key with
  | some item => rw [Table.slot_of_lookup found, ← Table.total_erase _ found]
  | none =>
    have absent : cachedItem.erase key = cachedItem := by
      apply Finmap.ext_lookup
      intro asked
      rw [Table.lookup_erase_if]
      split
      · rename_i same
        rw [same, found]
      · rfl
    rw [absent, Table.slot, found]
    change ((default : GPUCachedItem).slabs : Multiset Nat) + _ = _
    exact zero_add _

/-- What an eviction leaves alone: the slabs' contents, the collection of ids and the entries
it keeps, the one of `key` among them. -/
structure EvictFrame (key : String) (before after : GpuCache) : Prop where
  /-- The device keeps its size. -/
  slabNum : after.slabNum = before.slabNum
  /-- No slab is written. -/
  slabs : after.pool.slabs = before.pool.slabs
  /-- Ids move from the evicted entries to the free queue. -/
  ids : after.slabIds = before.slabIds
  /-- An entry that is still there was there before. -/
  kept : ∀ other item, after.cachedItem.lookup other = some item →
    before.cachedItem.lookup other = some item
  /-- The entry of `key` is never evicted. -/
  self : after.cachedItem.lookup key = before.cachedItem.lookup key

/-- Freeing and erasing one entry other than that of `key`. -/
theorem evictOne_frame {key deletedItem : String} (other : deletedItem ≠ key) (cache : GpuCache)
    (queue : List String) :
    EvictFrame key cache { cache with
      cachedItemQueue := queue
      pool := freeItem cache.pool (cache.cachedItem.slot deletedItem)
      cachedItem := cache.cachedItem.erase deletedItem } where
  slabNum := rfl
  slabs := rfl
  ids := by
    have moved := slot_add_owned cache.cachedItem deletedItem
    simp only [slabIds, ownedSlabs, freeItem, ← Multiset.coe_add] at moved ⊢
    rw [← moved]
    abel
  kept := by
    intro asked item found
    rw [Table.lookup_erase_if] at found
    split at found
    · contradiction
    · exact found
  self := Finmap.lookup_erase_ne other.symm

/-- Frames compose. -/
theorem EvictFrame.trans {key : String} {first second third : GpuCache}
    (left : EvictFrame key first second) (right : EvictFrame key second third) :
    EvictFrame key first third where
  slabNum := right.slabNum.trans left.slabNum
  slabs := right.slabs.trans left.slabs
  ids := right.ids.trans left.ids
  kept other item found := left.kept other item (right.kept other item found)
  self := right.self.trans left.self

/-- The eviction loop keeps the frame, whatever it evicts. -/
theorem evict_frame {key : String} {needed : Int} {queue : List String} {before after : GpuCache}
    {pushFlag pushed : Bool}
    (evicted : evict key needed queue before pushFlag = some (after, pushed)) :
    EvictFrame key before after := by
  induction queue generalizing before pushFlag with
  | nil => simp [evict] at evicted
  | cons deletedItem queue ih =>
    rw [evict] at evicted
    split at evicted
    · have rest := ih evicted
      exact ⟨rest.slabNum, rest.slabs, rest.ids, rest.kept, rest.self⟩
    · rename_i other
      have one := evictOne_frame other before queue
      dsimp only at evicted
      split at evicted
      · obtain ⟨rfl, rfl⟩ := Prod.mk.inj (Option.some.inj evicted)
        exact one
      · exact one.trans (ih evicted)

/-- A popped key is cached, and the rest of the queue lists the cached keys without it. -/
theorem Queued.pop {cachedItem : Table String GPUCachedItem} {queue : List String}
    {key deletedItem : String} {pushFlag : Bool}
    (queued : Queued cachedItem (deletedItem :: queue) key pushFlag)
    (other : deletedItem ≠ key) :
    deletedItem ∈ cachedItem ∧ Queued (cachedItem.erase deletedItem) queue key pushFlag := by
  unfold Queued at queued ⊢
  constructor
  · rw [← Finmap.mem_keys, ← Finset.mem_val, ← queued]
    exact Multiset.mem_add.mpr (Or.inl (Multiset.mem_coe.mpr List.mem_cons_self))
  · have still : key ∈ cachedItem.erase deletedItem ↔ key ∈ cachedItem := by
      rw [Finmap.mem_erase]
      exact and_iff_right other.symm
    simp only [still, Finmap.keys_erase, Finset.erase_val, ← queued, ← Multiset.cons_coe,
      Multiset.cons_add, Multiset.erase_cons_head]

/-- Popping the inserted key itself makes its push flag right. -/
theorem Queued.skip {cachedItem : Table String GPUCachedItem} {queue : List String} {key : String}
    {pushFlag : Bool} (queued : Queued cachedItem (key :: queue) key pushFlag) :
    Queued cachedItem queue key true := by
  unfold Queued at queued ⊢
  have cached : key ∈ cachedItem := by
    rw [← Finmap.mem_keys, ← Finset.mem_val, ← queued]
    exact Multiset.mem_add.mpr (Or.inl (Multiset.mem_coe.mpr List.mem_cons_self))
  have distinct := cachedItem.keys.nodup
  cases pushFlag with
  | true =>
    -- The key would be listed twice among the keys of a table.
    rw [← queued, if_pos ⟨rfl, cached⟩] at distinct
    have twice := (Multiset.nodup_add.mp distinct).2.2
    simp at twice
  | false =>
    rw [← queued, if_pos ⟨rfl, cached⟩, if_neg (by simp), add_zero, add_comm]
    rfl

/-- The eviction loop keeps the queue in step with the entries. -/
theorem evict_queued {key : String} {needed : Int} {queue : List String} {before after : GpuCache}
    {pushFlag pushed : Bool} (queued : Queued before.cachedItem queue key pushFlag)
    (evicted : evict key needed queue before pushFlag = some (after, pushed)) :
    Queued after.cachedItem after.cachedItemQueue key pushed := by
  induction queue generalizing before pushFlag with
  | nil => simp [evict] at evicted
  | cons deletedItem queue ih =>
    rw [evict] at evicted
    split at evicted
    · rename_i same
      subst same
      refine ih ?_ evicted
      exact queued.skip
    · rename_i other
      have popped := (queued.pop other).2
      dsimp only at evicted
      split at evicted
      · obtain ⟨rfl, rfl⟩ := Prod.mk.inj (Option.some.inj evicted)
        exact popped
      · exact ih popped evicted

/-- A push flag that is set stays set. -/
theorem evict_pushFlag {key : String} {needed : Int} {queue : List String}
    {before after : GpuCache} {pushFlag pushed : Bool} (set : pushFlag = true)
    (evicted : evict key needed queue before pushFlag = some (after, pushed)) : pushed = true := by
  induction queue generalizing before pushFlag with
  | nil => simp [evict] at evicted
  | cons deletedItem queue ih =>
    rw [evict] at evicted
    split at evicted
    · exact ih rfl evicted
    · dsimp only at evicted
      split at evicted
      · exact (Prod.mk.inj (Option.some.inj evicted)).2 ▸ set
      · exact ih set evicted

/-- While every entry has the slabs of its type, eviction keeps the counter in step with the
free queue. -/
theorem evict_counted {key : String} {needed : Int} {queue : List String}
    {before after : GpuCache} {pushFlag pushed : Bool}
    (queued : Queued before.cachedItem queue key pushFlag)
    (counted : before.pool.freeNum = before.pool.free.length)
    (sized : ∀ other item, before.cachedItem.lookup other = some item →
      item.slabs.length = 2 ^ item.lengthType)
    (evicted : evict key needed queue before pushFlag = some (after, pushed)) :
    after.pool.freeNum = after.pool.free.length := by
  induction queue generalizing before pushFlag with
  | nil => simp [evict] at evicted
  | cons deletedItem queue ih =>
    rw [evict] at evicted
    split at evicted
    · rename_i same
      subst same
      refine ih ?_ ?_ ?_ evicted
      · exact queued.skip
      · exact counted
      · exact sized
    · rename_i other
      obtain ⟨cached, popped⟩ := queued.pop other
      obtain ⟨item, found⟩ := Finmap.mem_iff.mp cached
      have credited : (freeItem before.pool (before.cachedItem.slot deletedItem)).freeNum =
          (freeItem before.pool (before.cachedItem.slot deletedItem)).free.length := by
        rw [Table.slot_of_lookup found]
        simp only [freeItem, List.length_append, counted, sized deletedItem item found]
        push_cast
        ring
      dsimp only at evicted
      split at evicted
      · obtain ⟨rfl, rfl⟩ := Prod.mk.inj (Option.some.inj evicted)
        exact credited
      · refine ih popped credited ?_ evicted
        intro asked entry kept
        exact sized asked entry ((evictOne_frame other before queue).kept asked entry kept)

/-- Storing takes slabs from the front of the free queue and appends them to the entry. -/
theorem store_spec {key : String} {length lengthType : Nat} {value : ByteMemory}
    {cache next : GpuCache} {pushFlag : Bool}
    (stored : store key length lengthType value cache pushFlag = some next) :
    ∃ taken, SlabPool.fill 1024 value (2 ^ lengthType) 0 cache.pool = some (taken, next.pool) ∧
      next.slabNum = cache.slabNum ∧
      next.cachedItem = cache.cachedItem.insert key
        { length, lengthType, slabs := (cache.cachedItem.slot key).slabs ++ taken } ∧
      next.cachedItemQueue =
        if pushFlag then cache.cachedItemQueue ++ [key] else cache.cachedItemQueue := by
  obtain ⟨⟨taken, pool⟩, filled, rfl⟩ := Option.map_eq_some_iff.mp stored
  exact ⟨taken, filled, rfl, rfl, rfl⟩

/-- Storing moves ids from the free queue to the entry. -/
theorem store_slabIds {key : String} {length lengthType : Nat} {value : ByteMemory}
    {cache next : GpuCache} {pushFlag : Bool}
    (stored : store key length lengthType value cache pushFlag = some next) :
    next.slabIds = cache.slabIds := by
  obtain ⟨taken, filled, -, entry, -⟩ := store_spec stored
  have owned := slot_add_owned cache.cachedItem key
  rw [slabIds, slabIds, ownedSlabs, ownedSlabs, entry, Table.total_insert, ← owned,
    (SlabPool.fill_takes filled).1, ← Multiset.coe_add, ← Multiset.coe_add]
  abel

/-- After storing, the queue lists every cached key once. -/
theorem store_queued {key : String} {length lengthType : Nat} {value : ByteMemory}
    {cache next : GpuCache} {pushFlag : Bool}
    (queued : Queued cache.cachedItem cache.cachedItemQueue key pushFlag)
    (flagged : key ∉ cache.cachedItem → pushFlag = true)
    (stored : store key length lengthType value cache pushFlag = some next) :
    (next.cachedItemQueue : Multiset String) = next.cachedItem.keys.val := by
  obtain ⟨taken, -, -, entry, queue⟩ := store_spec stored
  have keys : next.cachedItem.keys = Insert.insert key cache.cachedItem.keys := by
    ext asked
    rw [entry, Finset.mem_insert, Finmap.mem_keys, Finmap.mem_insert, Finmap.mem_keys]
  have appended : ((cache.cachedItemQueue ++ [key] : List String) : Multiset String) =
      cache.cachedItemQueue + {key} := (Multiset.coe_add _ [key]).symm
  unfold Queued at queued
  rw [queue, keys]
  by_cases cached : key ∈ cache.cachedItem
  · rw [Finset.insert_eq_of_mem (Finmap.mem_keys.mpr cached), ← queued]
    cases pushFlag <;> simp [cached, appended]
  · rw [Finset.insert_val_of_notMem (mt Finmap.mem_keys.mp cached), ← queued, flagged cached,
      if_pos rfl, if_neg (fun both => cached both.2), add_zero, appended, add_comm,
      Multiset.singleton_add]

/-- An insert is refused by its length or runs its three parts. -/
theorem insert_cases {cache next : GpuCache} {key : String} {length : Nat} {value : ByteMemory}
    {status : Int} (inserted : cache.insert key length value = some (next, status)) :
    (10 < slabType length ∧ next = cache ∧ status = -1) ∨
    (slabType length ≤ 10 ∧ status = 0 ∧ ∃ roomy pushFlag,
      makeRoom key (2 ^ slabType length) (cache.releaseOld key).1 (cache.releaseOld key).2 =
        some (roomy, pushFlag) ∧
      store key length (slabType length) value roomy pushFlag = some next) := by
  rw [insert] at inserted
  dsimp only at inserted
  split at inserted
  · rename_i long
    obtain ⟨rfl, rfl⟩ := Prod.mk.inj (Option.some.inj inserted)
    exact Or.inl ⟨long, rfl, rfl⟩
  · rename_i short
    obtain ⟨⟨roomy, pushFlag⟩, room, rest⟩ := Option.bind_eq_some_iff.mp inserted
    obtain ⟨stored, storing, pair⟩ := Option.map_eq_some_iff.mp rest
    obtain ⟨rfl, rfl⟩ := Prod.mk.inj pair
    exact Or.inr ⟨by omega, rfl, roomy, pushFlag, room, storing⟩

/-- Making room evicts or does nothing. -/
theorem makeRoom_frame {key : String} {needed : Int} {before after : GpuCache}
    {pushFlag pushed : Bool} (roomy : makeRoom key needed before pushFlag = some (after, pushed)) :
    EvictFrame key before after := by
  rw [makeRoom] at roomy
  split at roomy
  · exact evict_frame roomy
  · obtain ⟨rfl, rfl⟩ := Prod.mk.inj (Option.some.inj roomy)
    exact ⟨rfl, rfl, rfl, fun _ _ found => found, rfl⟩

/-- Making room keeps the queue in step with the entries. -/
theorem makeRoom_queued {key : String} {needed : Int} {before after : GpuCache}
    {pushFlag pushed : Bool} (queued : Queued before.cachedItem before.cachedItemQueue key pushFlag)
    (roomy : makeRoom key needed before pushFlag = some (after, pushed)) :
    Queued after.cachedItem after.cachedItemQueue key pushed := by
  rw [makeRoom] at roomy
  split at roomy
  · exact evict_queued queued roomy
  · obtain ⟨rfl, rfl⟩ := Prod.mk.inj (Option.some.inj roomy)
    exact queued

end CudaDb.GpuCache
