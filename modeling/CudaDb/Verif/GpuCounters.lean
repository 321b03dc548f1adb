import CudaDb.Verif.GpuPartition

/-!
# The counters of the GPU cache

Inserting a cached key again breaks the partition of the slabs, but not the counters: the queue
lists every cached key once, the count of free slabs is what the types of the entries leave, and
the free queue is never shorter than the count says. While an insert is on its way, the entry of
its key counts as given back. So the eviction has credited every slab of the device when it has
popped all other keys, and the slabs that an insert takes are there.
-/

namespace CudaDb.GpuCache

/-- The slabs that the types of the entries ask for. -/
def typedSlabs (cachedItem : Table String GPUCachedItem) : Int :=
  cachedItem.total fun _ item => 2 ^ item.lengthType

/-- The counters and the queues between two inserts. -/
structure Counted (cache : GpuCache) : Prop where
  /-- The queue lists every cached key once and no other key. -/
  queued : (cache.cachedItemQueue : Multiset String) = cache.cachedItem.keys.val
  /-- The count of free slabs is what the types of the entries leave. -/
  counted : cache.pool.freeNum = cache.slabNum - typedSlabs cache.cachedItem
  /-- The count is not negative. -/
  nonneg : 0 ≤ cache.pool.freeNum
  /-- There are at least as many free slabs. -/
  enough : cache.pool.freeNum ≤ cache.pool.free.length

/-- Every entry has at least the slabs of its type. -/
def Stocked (cache : GpuCache) : Prop :=
  ∀ key item, cache.cachedItem.lookup key = some item → 2 ^ item.lengthType ≤ item.slabs.length

/-- The counters while the key is being inserted, whose entry counts as given back. -/
structure Credited (key : String) (cache : GpuCache) : Prop where
  /-- The count of free slabs is what the types of the other entries leave. -/
  counted : cache.pool.freeNum + typedSlabs (cache.cachedItem.erase key) = cache.slabNum
  /-- There are at least as many free slabs. -/
  enough : cache.pool.freeNum ≤ cache.pool.free.length
  /-- Every entry has at least the slabs of its type. -/
  stocked : cache.Stocked

variable {cache next : GpuCache} {key : String}

/-- An entry and the others make what the types ask for. -/
theorem typedSlabs_erase {cachedItem : Table String GPUCachedItem} {item : GPUCachedItem}
    (found : cachedItem.lookup key = some item) :
    2 ^ item.lengthType + typedSlabs (cachedItem.erase key) = typedSlabs cachedItem :=
  Table.total_erase (fun _ (item : GPUCachedItem) => (2 : Int) ^ item.lengthType) found

/-- The slabs of an entry given back are credited, and are at least as many as credited. -/
theorem freeItem_enough {pool : SlabPool} {item : GPUCachedItem}
    (enough : pool.freeNum ≤ pool.free.length)
    (stocked : 2 ^ item.lengthType ≤ item.slabs.length) :
    (freeItem pool item).freeNum ≤ (freeItem pool item).free.length := by
  have credit : ((2 ^ item.lengthType : Nat) : Int) ≤ item.slabs.length := by exact_mod_cast stocked
  push_cast at credit
  change pool.freeNum + 2 ^ item.lengthType ≤ ((pool.free ++ item.slabs).length : Int)
  rw [List.length_append]
  push_cast
  omega

/-- The release of the old entry credits the key. -/
theorem releaseOld_credited (counted : cache.Counted) (stocked : cache.Stocked) :
    Credited key (cache.releaseOld key).1 := by
  have before := counted.counted
  unfold releaseOld
  by_cases cached : key ∈ cache.cachedItem
  · rw [if_pos cached]
    obtain ⟨item, found⟩ := Finmap.mem_iff.mp cached
    have share := typedSlabs_erase found
    rw [Table.slot_of_lookup found]
    refine ⟨?_, freeItem_enough counted.enough (stocked key item found), stocked⟩
    change cache.pool.freeNum + 2 ^ item.lengthType + typedSlabs (cache.cachedItem.erase key) =
      cache.slabNum
    omega
  · rw [if_neg cached]
    refine ⟨?_, counted.enough, stocked⟩
    change cache.pool.freeNum + typedSlabs (cache.cachedItem.erase key) = cache.slabNum
    rw [Table.erase_of_notMem cached]
    omega

/-- Evicting a cached key other than the inserted one keeps the credit. -/
theorem evictOne_credited (credited : Credited key cache) {deletedItem : String}
    (other : deletedItem ≠ key) (cached : deletedItem ∈ cache.cachedItem) (queue : List String) :
    Credited key { cache with
      cachedItemQueue := queue
      pool := freeItem cache.pool (cache.cachedItem.slot deletedItem)
      cachedItem := cache.cachedItem.erase deletedItem } := by
  obtain ⟨item, found⟩ := Finmap.mem_iff.mp cached
  have still : (cache.cachedItem.erase key).lookup deletedItem = some item := by
    rw [Finmap.lookup_erase_ne other]
    exact found
  have share := typedSlabs_erase still
  have before := credited.counted
  rw [Table.slot_of_lookup found]
  refine ⟨?_, freeItem_enough credited.enough (credited.stocked deletedItem item found), ?_⟩
  · change cache.pool.freeNum + 2 ^ item.lengthType +
      typedSlabs ((cache.cachedItem.erase deletedItem).erase key) = cache.slabNum
    rw [Finmap.erase_erase]
    omega
  · intro asked entry kept
    exact credited.stocked asked entry ((evictOne_frame other cache queue).kept asked entry kept)

/-- With no other key left in the queue, every slab of the device is credited. -/
theorem Credited.all_of_empty {pushFlag : Bool} (credited : Credited key cache)
    (queued : Queued cache.cachedItem [] key pushFlag) : cache.pool.freeNum = cache.slabNum := by
  have none_left : cache.cachedItem.erase key = ∅ := by
    apply Finmap.ext_lookup
    intro asked
    rw [Finmap.lookup_empty, Table.lookup_erase_if]
    by_cases same : asked = key
    · rw [if_pos same]
    · rw [if_neg same, Finmap.lookup_eq_none]
      intro cached
      rw [← Finmap.mem_keys, ← Finset.mem_val, ← queued] at cached
      rcases Multiset.mem_add.mp cached with listed | held
      · exact absurd listed (Multiset.notMem_zero asked)
      · split at held
        · exact same (Multiset.mem_singleton.mp held)
        · exact absurd held (Multiset.notMem_zero asked)
  have account := credited.counted
  rw [none_left] at account
  have nothing : typedSlabs ∅ = 0 := rfl
  omega

/-- The eviction loop stops before it takes the front of an empty queue, if the device has as many
slabs as are needed. -/
theorem evict_stops {needed : Int} {queue : List String} {pushFlag : Bool}
    (queued : Queued cache.cachedItem queue key pushFlag) (credited : Credited key cache)
    (lacking : cache.pool.freeNum < needed) (fits : needed ≤ cache.slabNum) :
    ∃ after pushed, evict key needed queue cache pushFlag = some (after, pushed) ∧
      Credited key after ∧ needed ≤ after.pool.freeNum := by
  induction queue generalizing cache pushFlag with
  | nil =>
    have all := credited.all_of_empty queued
    omega
  | cons deletedItem queue ih =>
    by_cases same : deletedItem = key
    · subst same
      have skipped : Credited deletedItem { cache with cachedItemQueue := queue } :=
        ⟨credited.counted, credited.enough, credited.stocked⟩
      obtain ⟨after, pushed, evicted, kept⟩ := @ih { cache with cachedItemQueue := queue } true
        queued.skip skipped lacking fits
      refine ⟨after, pushed, ?_, kept⟩
      rw [evict, if_pos rfl]
      exact evicted
    · obtain ⟨cached, popped⟩ := queued.pop same
      have one := evictOne_credited credited same cached queue
      by_cases room : (freeItem cache.pool (cache.cachedItem.slot deletedItem)).freeNum ≥ needed
      · refine ⟨_, pushFlag, ?_, one, room⟩
        rw [evict, if_neg same]
        exact if_pos room
      · obtain ⟨after, pushed, evicted, kept⟩ := ih popped one (not_le.mp room) fits
        refine ⟨after, pushed, ?_, kept⟩
        rw [evict, if_neg same]
        exact (if_neg room).trans evicted

/-- Making room never takes the front of an empty queue. -/
theorem makeRoom_succeeds {needed : Int} {pushFlag : Bool}
    (queued : Queued cache.cachedItem cache.cachedItemQueue key pushFlag)
    (credited : Credited key cache) (fits : needed ≤ cache.slabNum) :
    ∃ after pushed, makeRoom key needed cache pushFlag = some (after, pushed) ∧
      Credited key after ∧ needed ≤ after.pool.freeNum := by
  unfold makeRoom
  by_cases lacking : cache.pool.freeNum < needed
  · rw [if_pos lacking]
    exact evict_stops queued credited lacking fits
  · rw [if_neg lacking]
    exact ⟨cache, pushFlag, rfl, credited, not_lt.mp lacking⟩

/-- Storing takes as many slabs as are counted, and settles the credit of the key. -/
theorem store_counted (length : Nat) {lengthType : Nat} (value : ByteMemory) {pushFlag : Bool}
    (queued : Queued cache.cachedItem cache.cachedItemQueue key pushFlag)
    (flagged : key ∉ cache.cachedItem → pushFlag = true) (credited : Credited key cache)
    (room : (2 ^ lengthType : Int) ≤ cache.pool.freeNum) :
    ∃ next, store key length lengthType value cache pushFlag = some next ∧ next.Counted ∧
      next.Stocked ∧ next.slabNum = cache.slabNum := by
  have enough : 2 ^ lengthType ≤ cache.pool.free.length := by
    have counted := room.trans credited.enough
    exact_mod_cast counted
  obtain ⟨⟨taken, pool⟩, filled⟩ :=
    Option.isSome_iff_exists.mp (@SlabPool.fill_isSome 1024 value _ 0 _ enough)
  obtain ⟨split, taking, counting⟩ := SlabPool.fill_takes filled
  have stored : store key length lengthType value cache pushFlag = some { cache with
      pool
      cachedItem := cache.cachedItem.insert key
        { length, lengthType, slabs := (cache.cachedItem.slot key).slabs ++ taken }
      cachedItemQueue :=
        if pushFlag then cache.cachedItemQueue ++ [key] else cache.cachedItemQueue } := by
    rw [store, filled]
    rfl
  refine ⟨_, stored, ⟨store_queued queued flagged stored, ?_, ?_, ?_⟩, ?_, rfl⟩
  · have asked : typedSlabs (cache.cachedItem.insert key
        { length, lengthType, slabs := (cache.cachedItem.slot key).slabs ++ taken }) =
        2 ^ lengthType + typedSlabs (cache.cachedItem.erase key) := Table.total_insert _ _ _ _
    have account := credited.counted
    dsimp only
    rw [asked, counting]
    push_cast
    omega
  · dsimp only
    rw [counting]
    push_cast
    omega
  · have before := credited.enough
    rw [split, List.length_append, taking] at before
    dsimp only
    rw [counting]
    push_cast at before ⊢
    omega
  · intro asked item found
    dsimp only at found
    rw [Table.lookup_insert_if] at found
    by_cases same : asked = key
    · rw [if_pos same] at found
      obtain rfl := Option.some.inj found
      dsimp only
      rw [List.length_append, taking]
      omega
    · rw [if_neg same] at found
      exact credited.stocked asked item found

/-- Between two inserts the counters are right, every entry has its slabs, and the device has the
slabs of the largest type. -/
structure Provided (cache : GpuCache) : Prop where
  /-- The counters and the queues. -/
  counted : cache.Counted
  /-- Every entry has at least the slabs of its type. -/
  stocked : cache.Stocked
  /-- The device is large enough for any value that is accepted. -/
  large : 2 ^ 10 ≤ cache.slabNum

/-- What the release of an old entry leaves as it is, and which flag it sets. -/
theorem releaseOld_kept (cache : GpuCache) (key : String) :
    (cache.releaseOld key).1.cachedItem = cache.cachedItem ∧
      (cache.releaseOld key).1.cachedItemQueue = cache.cachedItemQueue ∧
      (cache.releaseOld key).1.slabNum = cache.slabNum ∧
      ((cache.releaseOld key).2 = true ↔ key ∉ cache.cachedItem) := by
  unfold releaseOld
  by_cases cached : key ∈ cache.cachedItem
  · rw [if_pos cached]
    exact ⟨rfl, rfl, rfl, by simp [cached]⟩
  · rw [if_neg cached]
    exact ⟨rfl, rfl, rfl, by simp [cached]⟩

/-- A queue that lists the cached keys still does so with the flag of the release. -/
theorem releaseOld_queued
    (listed : (cache.cachedItemQueue : Multiset String) = cache.cachedItem.keys.val)
    (key : String) :
    Queued (cache.releaseOld key).1.cachedItem (cache.releaseOld key).1.cachedItemQueue key
      (cache.releaseOld key).2 := by
  obtain ⟨entries, queue, -, flag⟩ := releaseOld_kept cache key
  have not_both : ¬ ((cache.releaseOld key).2 = true ∧
      key ∈ (cache.releaseOld key).1.cachedItem) := by
    rw [entries]
    exact fun both => flag.mp both.1 both.2
  unfold Queued
  rw [if_neg not_both, add_zero, entries, queue, listed]

/-- An insert never takes the front of an empty queue and keeps the counters. -/
theorem insert_provided (provided : cache.Provided) (key : String) (length : Nat)
    (value : ByteMemory) :
    ∃ next status, cache.insert key length value = some (next, status) ∧ next.Provided := by
  by_cases long : slabType length > 10
  · refine ⟨cache, -1, ?_, provided⟩
    unfold insert
    exact if_pos long
  · obtain ⟨entries, -, slabNum, flag⟩ := releaseOld_kept cache key
    have queued := releaseOld_queued provided.counted.queued key
    have fits : (2 ^ slabType length : Int) ≤ (cache.releaseOld key).1.slabNum := by
      have power : 2 ^ slabType length ≤ 2 ^ 10 := Nat.pow_le_pow_right (by decide) (by omega)
      rw [slabNum]
      exact_mod_cast power.trans provided.large
    obtain ⟨roomy, pushed, room, credited, free⟩ := makeRoom_succeeds queued
      (releaseOld_credited provided.counted provided.stocked) fits
    have frame := makeRoom_frame room
    have flagged : key ∉ roomy.cachedItem → pushed = true := by
      intro absent
      have before : key ∉ cache.cachedItem := by
        rw [← Finmap.lookup_eq_none, ← entries, ← frame.self, Finmap.lookup_eq_none]
        exact absent
      have set := flag.mpr before
      unfold makeRoom at room
      split at room
      · exact evict_pushFlag set room
      · exact (Prod.mk.inj (Option.some.inj room)).2.symm.trans set
    obtain ⟨next, stored, counted, stocked, size⟩ :=
      store_counted length value (makeRoom_queued queued room) flagged credited free
    refine ⟨next, 0, ?_, counted, stocked, ?_⟩
    · unfold insert
      dsimp only
      rw [if_neg long, room, Option.bind_some, stored, Option.map_some]
    · rw [size, frame.slabNum, slabNum]
      exact provided.large

/-- A device of at least one page has the slabs of the largest type. -/
theorem start_provided {pageNum : Nat} (pages : 1 ≤ pageNum) (device : Nat → ByteMemory) :
    (start pageNum device).Provided := by
  have empty (key : String) : (start pageNum device).cachedItem.lookup key = none :=
    allocateMemory_lookup _ pageNum device key
  have large (size : Nat) : size ≤ pageNum * (1024 * size) / 1024 := by
    rw [Nat.mul_left_comm, Nat.mul_div_cancel_left _ (by decide)]
    exact Nat.le_mul_of_pos_left size pages
  have owned := start_owned pageNum device
  refine ⟨⟨owned.queued, ?_, ?_, ?_⟩, ?_, large (2 ^ 10)⟩
  · exact (sub_zero _).symm
  · exact Int.natCast_nonneg _
  · exact owned.partition.counted.le
  · intro key item found
    rw [empty] at found
    cases found

/-- After any inserts into a cache of at least one page, the counters and the queues are right, and
no further insert takes the front of an empty queue. -/
theorem insert_never_dry {pageNum : Nat} (pages : 1 ≤ pageNum) (device : Nat → ByteMemory)
    (calls : List InsertCall) :
    ∃ cache, machine.run (start pageNum device) calls = some cache ∧ cache.Counted ∧
      ∀ key length value, (cache.insert key length value).isSome := by
  have runs {cache : GpuCache} (provided : cache.Provided) :
      ∃ last, machine.run cache calls = some last ∧ last.Provided := by
    induction calls generalizing cache with
    | nil => exact ⟨cache, rfl, provided⟩
    | cons call calls ih =>
      obtain ⟨next, status, inserted, kept⟩ :=
        insert_provided provided call.key call.length call.value
      obtain ⟨last, ran, still⟩ := ih kept
      exact ⟨last, Machine.run_cons.mpr ⟨next, machine_step.mpr ⟨status, inserted⟩, ran⟩, still⟩
  obtain ⟨cache, ran, provided⟩ := runs (start_provided pages device)
  refine ⟨cache, ran, provided.counted, fun key length value => ?_⟩
  obtain ⟨next, status, inserted, -⟩ := insert_provided provided key length value
  rw [inserted]
  rfl

/-- A key that is inserted twice into a cache of one page leaves the counters right. -/
theorem insert_never_dry_after_reinsert :
    ∃ cache, machine.run (start 1 fun _ _ => 0)
        [⟨"k", 1, fun _ => 97⟩, ⟨"k", 1, fun _ => 98⟩] = some cache ∧ cache.Counted ∧
      ∀ key length value, (cache.insert key length value).isSome :=
  insert_never_dry le_rfl _ _

end CudaDb.GpuCache
