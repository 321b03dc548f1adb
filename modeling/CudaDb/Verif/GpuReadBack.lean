import CudaDb.Verif.GpuPartition

/-!
# Reading back from the GPU cache

As long as the slabs stay partitioned, a cached entry keeps the bytes it was inserted with: new
values only go to slabs that no entry owns. A history variable remembers the inserts and the last
value that every device accepted under every key, and what a device has cached is coupled to it.
-/

namespace CudaDb

namespace GpuCache

/-- Every entry holds the value that was last inserted under its key. -/
def Holds (cache : GpuCache) (last : String → Option (List UInt8)) : Prop :=
  ∀ key item, cache.cachedItem.lookup key = some item →
    ∃ value, last key = some value ∧ item.length = value.length ∧
      SlabPool.Stores 1024 cache.pool.slabs item.slabs value

/-- When no id occurs twice, the free slabs are distinct and no entry owns one of them. -/
theorem free_of_nodup {cache : GpuCache} (distinct : cache.slabIds.Nodup) :
    cache.pool.free.Nodup ∧ ∀ key item slab, cache.cachedItem.lookup key = some item →
      slab ∈ item.slabs → slab ∉ cache.pool.free := by
  rw [slabIds, Multiset.nodup_add] at distinct
  obtain ⟨-, free, apart⟩ := distinct
  refine ⟨Multiset.coe_nodup.mp free, ?_⟩
  intro key item slab found here also
  have owned : slab ∈ cache.ownedSlabs := Table.mem_total.mpr ⟨key, item, found, here⟩
  exact Multiset.disjoint_left.mp apart owned (Multiset.mem_coe.mpr also)

/-- An accepted insert of a key that is not cached leaves its value under the key and every
other entry with its own. -/
theorem insert_holds {cache next : GpuCache} {key : String} {value : List UInt8}
    {memory : ByteMemory} {status : Int} {last : String → Option (List UInt8)}
    (owned : cache.Owned) (holds : cache.Holds last) (absent : key ∉ cache.cachedItem)
    (short : value.length ≤ 1024 * 1024) (starts : memory.StartsWith value)
    (inserted : cache.insert key value.length memory = some (next, status)) :
    next.Holds (Function.update last key (some value)) ∧ key ∈ next.cachedItem := by
  obtain ⟨long, -⟩ | ⟨-, -, roomy, pushFlag, room, stored⟩ := insert_cases inserted
  · exact absurd (slabType_le_ten.mpr short) (by omega)
  · rw [releaseOld, if_neg absent] at room
    have frame := makeRoom_frame room
    obtain ⟨taken, filled, -, entry, -⟩ := store_spec stored
    have distinct : roomy.slabIds.Nodup := by
      rw [frame.ids, owned.partition.ids]
      exact Multiset.nodup_range _
    obtain ⟨free, apart⟩ := free_of_nodup distinct
    have split := (SlabPool.fill_takes filled).1
    have empty : (roomy.cachedItem.slot key).slabs = [] := by
      rw [Table.slot, frame.self, Finmap.lookup_eq_none.mpr absent]
      rfl
    refine ⟨?_, by rw [entry]; exact Finmap.mem_insert.mpr (Or.inl rfl)⟩
    intro asked item found
    rw [entry, Table.lookup_insert_if] at found
    split at found
    · rename_i same
      obtain rfl := Option.some.inj found
      subst same
      refine ⟨value, Function.update_self _ _ _, rfl, ?_⟩
      rw [empty, List.nil_append]
      rw [split] at free
      exact SlabPool.fill_stores filled (List.nodup_append.mp free).1 starts (length_le_slab _)
    · rename_i other
      have before := frame.kept asked item found
      obtain ⟨kept, recorded, length, stores⟩ := holds asked item before
      refine ⟨kept, ?_, length, ?_⟩
      · rw [Function.update_of_ne other]
        exact recorded
      · apply stores.frame
        intro slab here
        -- The slabs taken were free, and this one is owned.
        have untouched : slab ∉ taken := fun also => apart asked item slab found here
          (split ▸ List.mem_append_left _ also)
        rw [SlabPool.fill_frame filled untouched, frame.slabs]

end GpuCache

namespace MogGpu

/-- What the caller of `mog_gpu` knows: the inserts, the last value inserted under every key of each
device, and the latest call. -/
structure History where
  /-- All inserts, in order. -/
  past : List InsertCall
  /-- The last value for which `insert` returned 0. -/
  last : Int → String → Option (List UInt8)
  /-- The latest call. -/
  latest : Option InsertCall

/-- Before any call. -/
def History.empty : History where
  past := []
  last _ _ := none
  latest := none

/-- Every insert that returns has returned 0, so each is recorded. -/
def History.record (history : History) (_ : MogGpu) (call : InsertCall) : History where
  past := history.past ++ [call]
  last := Function.update history.last call.deviceId
    (Function.update (history.last call.deviceId) call.key (some call.value))
  latest := some call

/-- The devices under a sequence of inserts, with their history. -/
def recorded : Machine (MogGpu × History) InsertCall := machine.observed History.record

/-- The insert is of a key that the device does not have cached, and of at most 1 MiB. -/
def FreshShort (mog : MogGpu) (call : InsertCall) : Prop :=
  call.value.length ≤ 1024 * 1024 ∧
    ∀ cache, mog.gpuCaches.lookup call.deviceId = some cache → call.key ∉ cache.cachedItem

/-- A concrete insert can be checked. -/
instance decidableFreshShort (mog : MogGpu) (call : InsertCall) : Decidable (mog.FreshShort call) :=
  inferInstanceAs (Decidable (call.value.length ≤ 1024 * 1024 ∧
    ∀ cache ∈ mog.gpuCaches.lookup call.deviceId, call.key ∉ cache.cachedItem))

/-- Every device that was set up starts as a freshly allocated cache. -/
theorem setup_lookup {pageNum : Nat} {memory : Int → Nat → ByteMemory} {devices : List Int}
    {deviceId : Int} {cache : GpuCache}
    (found : (setup pageNum memory devices).gpuCaches.lookup deviceId = some cache) :
    cache = GpuCache.start pageNum (memory deviceId) := by
  have general : ∀ (devices : List Int) (caches : Table Int GpuCache),
      (∀ cache, caches.lookup deviceId = some cache →
        cache = GpuCache.start pageNum (memory deviceId)) →
      ∀ cache, (devices.foldl (fun caches device => caches.insert device
          (GpuCache.start pageNum (memory device))) caches).lookup deviceId = some cache →
        cache = GpuCache.start pageNum (memory deviceId) := by
    intro devices
    induction devices with
    | nil => exact fun _ start => start
    | cons device devices ih =>
      intro caches start
      apply ih
      intro cache found
      rw [Table.lookup_insert_if] at found
      split at found
      · rename_i same
        rw [← Option.some.inj found, same]
      · exact start cache found
  exact general devices ∅ (by simp) cache found

/-- A string starts at its `c_str`. -/
theorem cStr_startsWith (value : List UInt8) (beyond : ByteMemory) :
    (cStr value beyond).StartsWith value := by
  intro position inside
  have longer : position < (value ++ [0]).length := by simp; omega
  have written := ByteMemory.write_startsWith beyond (value ++ [0]) position longer
  rw [cStr, written, List.getElem_append_left inside]

end MogGpu

end CudaDb
