import CudaDb.Lib.FifoWindow
import CudaDb.Verif.GpuEviction
import CudaDb.Verif.GpuReadBack

/-!
# The GPU cache is a first in first out window

What a `GpuCache` is for is said by one line: of the values inserted, it has the latest that fit
together, each taking the slabs of its type. Eviction pops the shortest front of the queue that
makes room, so nothing goes earlier than it must, and what went earlier makes no difference later.
Hence after any inserts of keys that are not cached, on every device, a read gives the value of a
key of the window and nothing for every other key. The driver's `main` is a case of that.
-/

namespace CudaDb

open FifoWindow

namespace MogGpu

/-- The slabs that the value of an insert takes. -/
def InsertCall.slabs (call : InsertCall) : Nat := 2 ^ slabType call.value.length

/-- The inserts on one device. -/
def onDevice (deviceId : Int) (calls : List InsertCall) : List InsertCall :=
  calls.filter (·.deviceId = deviceId)

end MogGpu

namespace GpuCache

open MogGpu (cStr cStr_startsWith)

variable {cache next : GpuCache} {arrivals : List MogGpu.InsertCall} {call : MogGpu.InsertCall}

/-- The cache has the latest of the inserts that fit together, with their values. -/
structure Windowed (cache : GpuCache) (arrivals : List MogGpu.InsertCall) : Prop where
  /-- The slabs are partitioned. -/
  owned : cache.Owned
  /-- The counters are right and the device is large enough. -/
  provided : cache.Provided
  /-- Every entry has the type of its length. -/
  typed : ∀ key item, cache.cachedItem.lookup key = some item →
    item.lengthType = slabType item.length
  /-- The queue lists the keys of the window, in order. -/
  queue : cache.cachedItemQueue =
    (window MogGpu.InsertCall.slabs cache.slabNum arrivals).map MogGpu.InsertCall.key
  /-- The entries hold the values of the window. -/
  values : ∃ last, cache.Holds last ∧
    ∀ call ∈ window MogGpu.InsertCall.slabs cache.slabNum arrivals, last call.key = some call.value

/-- A key is cached exactly if it is the key of an insert in the window. -/
theorem Windowed.mem_iff (windowed : cache.Windowed arrivals) (key : String) :
    key ∈ cache.cachedItem ↔
      ∃ call ∈ window MogGpu.InsertCall.slabs cache.slabNum arrivals, call.key = key := by
  rw [← Finmap.mem_keys, ← Finset.mem_val, ← windowed.owned.queued, Multiset.mem_coe,
    windowed.queue, List.mem_map]

/-- The entry of an insert in the window has its value. -/
theorem Windowed.entry (windowed : cache.Windowed arrivals)
    (inside : call ∈ window MogGpu.InsertCall.slabs cache.slabNum arrivals) :
    ∃ item, cache.cachedItem.lookup call.key = some item ∧ item.length = call.value.length ∧
      item.lengthType = slabType call.value.length ∧
      SlabPool.Stores 1024 cache.pool.slabs item.slabs call.value := by
  obtain ⟨item, found⟩ := Finmap.mem_iff.mp ((windowed.mem_iff call.key).mpr ⟨call, inside, rfl⟩)
  obtain ⟨last, holds, recent⟩ := windowed.values
  obtain ⟨value, recorded, length, stores⟩ := holds call.key item found
  have same : call.value = value := Option.some.inj ((recent call inside).symm.trans recorded)
  subst same
  refine ⟨item, found, length, ?_, stores⟩
  rw [windowed.typed call.key item found, length]

/-- Inserts of the window other than the inserted key release the slabs that they take. -/
theorem Windowed.released_eq (windowed : cache.Windowed arrivals) {key : String}
    (absent : key ∉ cache.cachedItem) {calls : List MogGpu.InsertCall}
    (inside : ∀ call ∈ calls, call ∈ window MogGpu.InsertCall.slabs cache.slabNum arrivals) :
    released key cache.cachedItem (calls.map MogGpu.InsertCall.key) =
      (load MogGpu.InsertCall.slabs calls : Nat) := by
  induction calls with
  | nil => rfl
  | cons first calls ih =>
    obtain ⟨item, found, -, type, -⟩ := windowed.entry (inside first List.mem_cons_self)
    have other : first.key ≠ key := by
      intro same
      exact absent (same ▸ Finmap.mem_of_lookup_eq_some found)
    rw [List.map_cons, released_pop other, load_cons, Table.slot_of_lookup found, type,
      ih fun call later => inside call (List.mem_cons_of_mem _ later)]
    push_cast [MogGpu.InsertCall.slabs]
    rfl

/-- The free slabs are those that the window does not take. -/
theorem Windowed.free (windowed : cache.Windowed arrivals) :
    cache.pool.freeNum +
      (load MogGpu.InsertCall.slabs (window MogGpu.InsertCall.slabs cache.slabNum arrivals) : Nat) =
        cache.slabNum := by
  have counted := windowed.provided.counted.counted
  have typed : typedSlabs cache.cachedItem =
      (load MogGpu.InsertCall.slabs
        (window MogGpu.InsertCall.slabs cache.slabNum arrivals) : Nat) := by
    rw [typedSlabs, Table.total_eq_sum_keys, ← windowed.owned.queued, windowed.queue,
      Multiset.map_coe, Multiset.sum_coe, List.map_map, load]
    push_cast
    rw [List.map_map]
    congr 1
    apply List.map_congr_left
    intro call inside
    obtain ⟨item, found, -, type, -⟩ := windowed.entry inside
    simp only [Function.comp_apply, Table.slot_of_lookup found, type, MogGpu.InsertCall.slabs]
    push_cast
    rfl
  omega

/-- An entry that is stored has the type of its length. -/
theorem insert_typed {key : String} {length : Nat} {value : ByteMemory} {status : Int}
    (typed : ∀ key item, cache.cachedItem.lookup key = some item →
      item.lengthType = slabType item.length)
    (inserted : cache.insert key length value = some (next, status)) (asked : String)
    (item : GPUCachedItem) (found : next.cachedItem.lookup asked = some item) :
    item.lengthType = slabType item.length := by
  obtain ⟨-, rfl, -⟩ | ⟨-, -, roomy, pushFlag, room, stored⟩ := insert_cases inserted
  · exact typed asked item found
  · obtain ⟨taken, -, -, entry, -⟩ := store_spec stored
    obtain ⟨entries, -, -, -⟩ := releaseOld_kept cache key
    rw [entry, Table.lookup_insert_if] at found
    by_cases same : asked = key
    · rw [if_pos same] at found
      rw [← Option.some.inj found]
    · rw [if_neg same] at found
      apply typed asked item
      rw [← entries]
      exact (makeRoom_frame room).kept asked item found

/-- No insert changes the number of slabs. -/
theorem insert_slabNum {key : String} {length : Nat} {value : ByteMemory} {status : Int}
    (inserted : cache.insert key length value = some (next, status)) :
    next.slabNum = cache.slabNum := by
  obtain ⟨-, rfl, -⟩ | ⟨-, -, roomy, pushFlag, room, stored⟩ := insert_cases inserted
  · rfl
  · obtain ⟨taken, -, same, -, -⟩ := store_spec stored
    obtain ⟨-, -, slabNum, -⟩ := releaseOld_kept cache key
    rw [same, (makeRoom_frame room).slabNum, slabNum]

/-- An insert of a key that is not cached moves the window on by one insert. -/
theorem insert_window (windowed : cache.Windowed arrivals) (absent : call.key ∉ cache.cachedItem)
    {popped rest : List String}
    (front : EvictsFront cache next call.key (2 ^ slabType call.value.length) popped rest) :
    ∃ kept, kept <:+ window MogGpu.InsertCall.slabs cache.slabNum arrivals ∧
      rest = kept.map MogGpu.InsertCall.key ∧
      window MogGpu.InsertCall.slabs cache.slabNum (arrivals ++ [call]) = kept ++ [call] := by
  have split := front.front
  rw [windowed.queue] at split
  obtain ⟨dropped, kept, whole, rfl, rfl⟩ := List.map_eq_append_iff.mp split
  refine ⟨kept, ⟨dropped, whole.symm⟩, rfl, ?_⟩
  have free := windowed.free
  have inside (calls : List MogGpu.InsertCall) (part : calls <+: dropped) : ∀ call ∈ calls,
      call ∈ window MogGpu.InsertCall.slabs cache.slabNum arrivals := fun call member =>
    whole ▸ List.mem_append_left _ (part.subset member)
  have count : cache.releasedNum call.key = cache.pool.freeNum := by
    rw [releasedNum, if_neg absent, add_zero]
  have needed : ((call.slabs : Nat) : Int) = 2 ^ slabType call.value.length := by
    push_cast [MogGpu.InsertCall.slabs]
    rfl
  rw [← window_append, whole]
  rw [whole, load_append] at free
  push_cast at free
  apply window_of_drop
  · have enough := front.enough
    rw [windowed.released_eq absent (inside dropped List.prefix_rfl), count, ← needed] at enough
    omega
  · intro fewer part shorter
    have lacking := front.shortest (fewer.map MogGpu.InsertCall.key) (part.map _) (by
      intro same
      have lengths := congrArg List.length same
      rw [List.length_map, List.length_map] at lengths
      exact shorter (part.eq_of_length lengths))
    rw [windowed.released_eq absent (inside fewer part), count, ← needed] at lacking
    rw [load_append]
    omega

/-- An insert of at most 1 MiB under a key that is not cached keeps the cache the window of all the
inserts. -/
theorem insert_windowed (windowed : cache.Windowed arrivals)
    (absent : call.key ∉ cache.cachedItem) (short : call.value.length ≤ 1024 * 1024) :
    ∃ next, cache.insert call.key call.value.length (cStr call.value call.beyond) = some (next, 0) ∧
      next.Windowed (arrivals ++ [call]) := by
  have fits := slabType_le_ten.mpr short
  obtain ⟨next, popped, rest, inserted, front⟩ :=
    insert_evictsFront windowed.provided call.key fits (cStr call.value call.beyond)
  obtain ⟨other, status, also, provided⟩ := insert_provided windowed.provided call.key
    call.value.length (cStr call.value call.beyond)
  obtain ⟨rfl, rfl⟩ := Prod.mk.inj (Option.some.inj (inserted.symm.trans also))
  have noReinsert : NoReinsert cache
      ⟨call.key, call.value.length, cStr call.value call.beyond⟩ := Or.inl absent
  have size := insert_slabNum inserted
  obtain ⟨kept, ends, remaining, moved⟩ := insert_window windowed absent front
  have others : ∀ earlier ∈ kept, earlier.key ≠ call.key := by
    intro earlier member same
    exact absent ((windowed.mem_iff call.key).mpr ⟨earlier, ends.subset member, same⟩)
  refine ⟨next, inserted, insert_owned windowed.owned noReinsert inserted, provided,
    insert_typed windowed.typed inserted, ?_, ?_⟩
  · have unlisted : call.key ∉ rest := by
      rw [remaining]
      intro listed
      obtain ⟨earlier, member, same⟩ := List.mem_map.mp listed
      exact others earlier member same
    rw [front.queue, if_neg unlisted, size, moved, List.map_append, remaining]
    rfl
  · obtain ⟨last, holds, recent⟩ := windowed.values
    refine ⟨Function.update last call.key (some call.value), (insert_holds windowed.owned holds
      absent short (cStr_startsWith call.value call.beyond) inserted).1, ?_⟩
    intro earlier member
    rw [size, moved, List.mem_append, List.mem_singleton] at member
    rcases member with before | rfl
    · rw [Function.update_of_ne (others earlier before)]
      exact recent earlier (ends.subset before)
    · exact Function.update_self _ _ _

/-- A cache of at least one page starts as the window of no inserts. -/
theorem start_windowed {pageNum : Nat} (pages : 1 ≤ pageNum) (device : Nat → ByteMemory) :
    (start pageNum device).Windowed [] where
  owned := start_owned pageNum device
  provided := start_provided pages device
  typed key item found := by
    rw [start, allocateMemory_lookup] at found
    cases found
  queue := rfl
  values := by
    refine ⟨fun _ => none, ?_, fun call impossible => absurd impossible List.not_mem_nil⟩
    intro key item found
    rw [start, allocateMemory_lookup] at found
    cases found

/-- A read of a key of the window gives its value. -/
theorem Windowed.read_inside (windowed : cache.Windowed arrivals)
    (inside : call ∈ window MogGpu.InsertCall.slabs cache.slabNum arrivals) (buffer : ByteMemory) :
    ∃ filled, cache.read call.key buffer = (call.value.length, filled) ∧
      filled.StartsWith call.value := by
  obtain ⟨item, found, length, -, stores⟩ := windowed.entry inside
  refine ⟨_, ?_, SlabPool.gather_startsWith stores (by decide) buffer⟩
  rw [read, found, ← length]

/-- A read of a key outside the window gives nothing and leaves the buffer. -/
theorem Windowed.read_outside (windowed : cache.Windowed arrivals) {key : String}
    (outside : ∀ call ∈ window MogGpu.InsertCall.slabs cache.slabNum arrivals, call.key ≠ key)
    (buffer : ByteMemory) : cache.read key buffer = (0, buffer) := by
  have absent : key ∉ cache.cachedItem := by
    intro cached
    obtain ⟨call, inside, same⟩ := (windowed.mem_iff key).mp cached
    exact outside call inside same
  rw [read, Finmap.lookup_eq_none.mpr absent]

end GpuCache

namespace MogGpu

variable {mog next : MogGpu} {pageNum : Nat}

/-- Every device in use has the window of the inserts on it. -/
def Windowed (pageNum : Nat) (mog : MogGpu) (past : List InsertCall) : Prop :=
  ∀ deviceId cache, mog.gpuCaches.lookup deviceId = some cache →
    cache.slabNum = pageNum * 1024 ∧ cache.Windowed (onDevice deviceId past)

/-- Reads on the device give the values of these inserts, and nothing for other keys. -/
structure ReadsWindow (mog : MogGpu) (deviceId : Int) (kept : List InsertCall) : Prop where
  /-- The value of a key of the window is found. -/
  inside : ∀ call ∈ kept, ∀ buffer, ∃ filled,
    mog.read deviceId call.key buffer = some (call.value.length, filled) ∧
      filled.StartsWith call.value
  /-- No other key is found, and the buffer stays. -/
  outside : ∀ key, (∀ call ∈ kept, call.key ≠ key) → ∀ buffer,
    mog.read deviceId key buffer = some (0, buffer)

/-- Every device that is in use is set up. -/
theorem setup_mem (pageNum : Nat) (memory : Int → Nat → ByteMemory) {devices : List Int}
    {deviceId : Int} (inUse : deviceId ∈ devices) :
    deviceId ∈ (setup pageNum memory devices).gpuCaches := by
  have general : ∀ (devices : List Int) (caches : Table Int GpuCache),
      deviceId ∈ devices ∨ deviceId ∈ caches →
      deviceId ∈ devices.foldl (fun caches device => caches.insert device
        (GpuCache.start pageNum (memory device))) caches := by
    intro devices
    induction devices with
    | nil => exact fun caches either => either.resolve_left List.not_mem_nil
    | cons device devices ih =>
      intro caches either
      apply ih
      rw [Finmap.mem_insert]
      rcases either with listed | present
      · rcases List.mem_cons.mp listed with same | later
        · exact Or.inr (Or.inl same)
        · exact Or.inl later
      · exact Or.inr (Or.inr present)
  exact general devices ∅ (Or.inl inUse)

/-- The devices start with the window of no inserts. -/
theorem setup_windowed (pages : 1 ≤ pageNum) (memory : Int → Nat → ByteMemory)
    (devices : List Int) : (setup pageNum memory devices).Windowed pageNum [] := by
  intro deviceId cache found
  rw [setup_lookup found]
  refine ⟨?_, GpuCache.start_windowed pages _⟩
  change pageNum * (1024 * 1024) / 1024 = pageNum * 1024
  rw [← Nat.mul_assoc, Nat.mul_div_cancel _ (by decide)]

/-- A fresh and short insert moves the window of its device on and leaves the other devices. -/
theorem insert_windowed {past : List InsertCall} {call : InsertCall}
    (windowed : mog.Windowed pageNum past) (fresh : mog.FreshShort call)
    (inUse : call.deviceId ∈ mog.gpuCaches) :
    ∃ next, machine.step mog call = some next ∧ next.Windowed pageNum (past ++ [call]) ∧
      ∀ deviceId, deviceId ∈ mog.gpuCaches → deviceId ∈ next.gpuCaches := by
  obtain ⟨cache, device⟩ := Finmap.mem_iff.mp inUse
  obtain ⟨size, held⟩ := windowed call.deviceId cache device
  obtain ⟨stored, inserted, moved⟩ :=
    GpuCache.insert_windowed held (fresh.2 cache device) fresh.1
  refine ⟨{ mog with gpuCaches := mog.gpuCaches.insert call.deviceId stored }, ?_, ?_, ?_⟩
  · simp only [machine, insert, device, Option.bind_some, inserted, Option.map_some]
  · intro deviceId found here
    dsimp only at here
    rw [Table.lookup_insert_if] at here
    by_cases same : deviceId = call.deviceId
    · rw [if_pos same] at here
      obtain rfl := Option.some.inj here
      refine ⟨(GpuCache.insert_slabNum inserted).trans size, ?_⟩
      have one : onDevice deviceId (past ++ [call]) = onDevice call.deviceId past ++ [call] := by
        simp [onDevice, same]
      rw [one]
      exact moved
    · rw [if_neg same] at here
      have none_more : onDevice deviceId (past ++ [call]) = onDevice deviceId past := by
        have apart : call.deviceId ≠ deviceId := fun equal => same equal.symm
        simp [onDevice, apart]
      rw [none_more]
      exact windowed deviceId found here
  · intro deviceId present
    exact Finmap.mem_insert.mpr (Or.inr present)

/-- Fresh and short inserts are all taken and keep every device the window of its inserts. -/
theorem run_windowed {past calls : List InsertCall} (windowed : mog.Windowed pageNum past)
    (inUse : ∀ call ∈ calls, call.deviceId ∈ mog.gpuCaches)
    (along : machine.Along FreshShort mog calls) :
    ∃ last, machine.run mog calls = some last ∧ last.Windowed pageNum (past ++ calls) ∧
      ∀ deviceId, deviceId ∈ mog.gpuCaches → deviceId ∈ last.gpuCaches := by
  induction calls generalizing mog past with
  | nil =>
    rw [List.append_nil]
    exact ⟨mog, rfl, windowed, fun _ present => present⟩
  | cons call calls ih =>
    obtain ⟨next, stepped, moved, still⟩ :=
      insert_windowed windowed along.1 (inUse call List.mem_cons_self)
    have later : ∀ other ∈ calls, other.deviceId ∈ next.gpuCaches := fun other member =>
      still _ (inUse other (List.mem_cons_of_mem _ member))
    obtain ⟨last, ran, holds, present⟩ := ih moved later (along.2 next stepped)
    refine ⟨last, Machine.run_cons.mpr ⟨next, stepped, ran⟩, ?_, fun deviceId before =>
      present deviceId (still deviceId before)⟩
    rw [List.append_assoc, List.singleton_append] at holds
    exact holds

/-- A device that has the window of its inserts reads it. -/
theorem Windowed.reads {past : List InsertCall} (windowed : mog.Windowed pageNum past)
    {deviceId : Int} (inUse : deviceId ∈ mog.gpuCaches) :
    mog.ReadsWindow deviceId
      (window InsertCall.slabs (pageNum * 1024) (onDevice deviceId past)) := by
  obtain ⟨cache, device⟩ := Finmap.mem_iff.mp inUse
  obtain ⟨size, held⟩ := windowed deviceId cache device
  rw [← size]
  constructor
  · intro call inside buffer
    obtain ⟨filled, result, starts⟩ := held.read_inside inside buffer
    refine ⟨filled, ?_, starts⟩
    rw [read, device, Option.map_some, result]
  · intro key outside buffer
    rw [read, device, Option.map_some, held.read_outside outside buffer]

/-- Inserts on devices in use, each of at most 1 MiB and under a key that its device does not have
cached at that time, are all taken. Afterwards a read on a device finds the latest of the inserts on
it whose slabs fit together, each with its value, and nothing under any other key. -/
theorem reads_latest_that_fit (pages : 1 ≤ pageNum) (memory : Int → Nat → ByteMemory)
    (devices : List Int) (calls : List InsertCall)
    (inUse : ∀ call ∈ calls, call.deviceId ∈ devices)
    (along : machine.Along FreshShort (setup pageNum memory devices) calls) :
    ∃ mog, machine.run (setup pageNum memory devices) calls = some mog ∧
      ∀ deviceId ∈ devices, mog.ReadsWindow deviceId
        (window InsertCall.slabs (pageNum * 1024) (onDevice deviceId calls)) := by
  obtain ⟨mog, ran, windowed, present⟩ := run_windowed (setup_windowed pages memory devices)
    (fun call member => setup_mem pageNum memory (inUse call member)) along
  rw [List.nil_append] at windowed
  exact ⟨mog, ran, fun deviceId listed =>
    windowed.reads (present deviceId (setup_mem pageNum memory listed))⟩

/-- Two devices of one page each find one key with their own values. -/
theorem reads_latest_that_fit_two :
    ∃ mog, machine.run (setup 1 (fun _ _ _ => 0) [0, 1])
        [⟨0, "a", [97], fun _ => 0⟩, ⟨1, "a", [98, 99], fun _ => 0⟩] = some mog ∧
      ∀ deviceId ∈ [0, 1], mog.ReadsWindow deviceId (window InsertCall.slabs (1 * 1024)
        (onDevice deviceId [⟨0, "a", [97], fun _ => 0⟩, ⟨1, "a", [98, 99], fun _ => 0⟩])) :=
  reads_latest_that_fit le_rfl _ _ _ (by simp) (by decide)

/-! ## Read after insert -/

/-- Only a key that was inserted on a device is cached there. -/
theorem Windowed.seen {past : List InsertCall} (windowed : mog.Windowed pageNum past)
    {deviceId : Int} {cache : GpuCache} (device : mog.gpuCaches.lookup deviceId = some cache)
    {key : String} (cached : key ∈ cache.cachedItem) :
    ∃ call ∈ past, call.deviceId = deviceId ∧ call.key = key := by
  obtain ⟨call, inside, same⟩ := ((windowed deviceId cache device).2.mem_iff key).mp cached
  have arrived := (window_suffix _ _ _).subset inside
  obtain ⟨listed, there⟩ := List.mem_filter.mp arrived
  exact ⟨call, listed, by simpa using there, same⟩

/-- Inserts of at most 1 MiB whose keys are distinct on every device are fresh along any run. -/
theorem fresh_of_distinct {past calls : List InsertCall} (windowed : mog.Windowed pageNum past)
    (inUse : ∀ call ∈ calls, call.deviceId ∈ mog.gpuCaches)
    (short : ∀ call ∈ calls, call.value.length ≤ 1024 * 1024)
    (distinct : ((past ++ calls).map fun call => (call.deviceId, call.key)).Nodup) :
    machine.Along FreshShort mog calls := by
  induction calls generalizing mog past with
  | nil => trivial
  | cons call calls ih =>
    have fresh : mog.FreshShort call := by
      refine ⟨short call List.mem_cons_self, fun cache device cached => ?_⟩
      obtain ⟨earlier, listed, there, same⟩ := windowed.seen device cached
      rw [List.map_append, List.nodup_append] at distinct
      exact distinct.2.2 _ (List.mem_map_of_mem listed) _
        (List.mem_map_of_mem List.mem_cons_self) (by rw [there, same])
    refine ⟨fresh, fun next stepped => ?_⟩
    obtain ⟨other, also, moved, still⟩ :=
      insert_windowed windowed fresh (inUse call List.mem_cons_self)
    obtain rfl := Option.some.inj (stepped.symm.trans also)
    apply ih moved
    · exact fun later member => still _ (inUse later (List.mem_cons_of_mem _ member))
    · exact fun later member => short later (List.mem_cons_of_mem _ member)
    · rw [List.append_assoc, List.singleton_append]
      exact distinct

/-! ## The driver -/

/-- The lengths that reads of several keys into one buffer return, in order. -/
def readLengths (mog : MogGpu) (deviceId : Int) : List String → ByteMemory → Option (List Nat)
  | [], _ => some []
  | key :: keys, value => (mog.read deviceId key value).bind fun (length, filled) =>
    (mog.readLengths deviceId keys filled).map (length :: ·)

/-- The value that `main` inserts. -/
def testValue : List UInt8 :=
  "sunpeng_test_mog_gpu_size".toList.map fun letter => UInt8.ofNat letter.toNat

/-- It has 25 bytes. -/
theorem testValue_length : testValue.length = 25 := by decide

/-- The inserts of `main`: the numbers below `count` as keys, all on device 0. -/
def mainInserts (count : Nat) (beyond : ByteMemory) : List InsertCall :=
  (List.range count).map fun i => ⟨0, toString i, testValue, beyond⟩

/-- `main` of `mog_gpu` — what it prints: two devices of 100 pages, a million inserts on the first,
and reads of the last hundred keys and ten more. -/
def main (memory : Int → Nat → ByteMemory) (beyond testGet : ByteMemory) : Option (List Nat) :=
  (machine.run (setup 100 memory [0, 1]) (mainInserts 1000000 beyond)).bind fun mog =>
    mog.readLengths 0 ((List.range' 999900 110).map toString) testGet

/-- Reads whose lengths do not depend on the buffer. -/
theorem readLengths_eq {deviceId : Int} {numbers : List Nat} {lengthOf : Nat → Nat}
    (reads : ∀ number buffer, ∃ filled,
      mog.read deviceId (toString number) buffer = some (lengthOf number, filled))
    (value : ByteMemory) :
    mog.readLengths deviceId (numbers.map toString) value = some (numbers.map lengthOf) := by
  induction numbers generalizing value with
  | nil => rfl
  | cons number numbers ih =>
    obtain ⟨filled, result⟩ := reads number value
    rw [List.map_cons, readLengths, result, Option.bind_some]
    dsimp only
    rw [ih filled]
    rfl

/-- The inserts of `main` are all on device 0. -/
theorem mainInserts_onDevice (count : Nat) (beyond : ByteMemory) :
    onDevice 0 (mainInserts count beyond) = mainInserts count beyond := by
  apply List.filter_eq_self.mpr
  intro call member
  obtain ⟨number, -, rfl⟩ := List.mem_map.mp member
  rfl

/-- Every insert of `main` takes one slab, so as many of the latest stay as there are slabs. -/
theorem mainInserts_window (count slabs : Nat) (beyond : ByteMemory) :
    window InsertCall.slabs slabs (mainInserts count beyond) =
      (mainInserts count beyond).drop (count - slabs) := by
  have single : ∀ call ∈ mainInserts count beyond, call.slabs = 1 := by
    intro call member
    obtain ⟨number, -, rfl⟩ := List.mem_map.mp member
    change 2 ^ slabType testValue.length = 1
    rw [testValue_length]
    decide
  have number : (mainInserts count beyond).length = count := by
    rw [mainInserts, List.length_map, List.length_range]
  rw [window_of_weight Nat.one_pos single, Nat.div_one, number]

/-- After the inserts of `main` a number is found exactly if it is one of the latest. -/
theorem mainInserts_reads (pages : 1 ≤ pageNum) (memory : Int → Nat → ByteMemory)
    {devices : List Int} (inUse : 0 ∈ devices) (count : Nat) (beyond : ByteMemory) :
    ∃ mog, machine.run (setup pageNum memory devices) (mainInserts count beyond) = some mog ∧
      ∀ number buffer, ∃ filled, mog.read 0 (toString number) buffer =
        some (if count - pageNum * 1024 ≤ number ∧ number < count then 25 else 0, filled) := by
  have start := setup_windowed pages memory devices
  have zero : ∀ call ∈ mainInserts count beyond,
      call.deviceId ∈ (setup pageNum memory devices).gpuCaches := by
    intro call member
    obtain ⟨number, -, rfl⟩ := List.mem_map.mp member
    exact setup_mem pageNum memory inUse
  have short : ∀ call ∈ mainInserts count beyond, call.value.length ≤ 1024 * 1024 := by
    intro call member
    obtain ⟨number, -, rfl⟩ := List.mem_map.mp member
    change testValue.length ≤ 1024 * 1024
    rw [testValue_length]
    decide
  have distinct : (([] ++ mainInserts count beyond).map fun call : InsertCall =>
      (call.deviceId, call.key)).Nodup := by
    rw [List.nil_append, mainInserts, List.map_map]
    apply List.Nodup.map _ List.nodup_range
    intro first second same
    exact Nat.repr_injective (Prod.mk.inj same).2
  obtain ⟨mog, ran, windowed, present⟩ :=
    run_windowed start zero (fresh_of_distinct start zero short distinct)
  rw [List.nil_append] at windowed
  have reads := windowed.reads (present 0 (setup_mem pageNum memory inUse))
  rw [mainInserts_onDevice, mainInserts_window] at reads
  refine ⟨mog, ran, fun number buffer => ?_⟩
  by_cases latest : count - pageNum * 1024 ≤ number ∧ number < count
  · rw [if_pos latest]
    have listed : (⟨0, toString number, testValue, beyond⟩ : InsertCall) ∈
        (mainInserts count beyond).drop (count - pageNum * 1024) := by
      rw [mainInserts, ← List.map_drop]
      apply List.mem_map_of_mem
      rw [List.range_eq_range', List.drop_range', List.mem_range'_1]
      omega
    obtain ⟨filled, result, -⟩ := reads.inside _ listed buffer
    exact ⟨filled, result⟩
  · rw [if_neg latest]
    refine ⟨buffer, reads.outside _ ?_ buffer⟩
    intro call member same
    rw [mainInserts, ← List.map_drop] at member
    obtain ⟨other, listed, rfl⟩ := List.mem_map.mp member
    obtain rfl : other = number := Nat.repr_injective same
    rw [List.range_eq_range', List.drop_range', List.mem_range'_1] at listed
    omega

/-- `main` finds all the hundred keys, and nothing under the ten that it never inserted. -/
theorem main_prints (memory : Int → Nat → ByteMemory) (beyond testGet : ByteMemory) :
    main memory beyond testGet = some (List.replicate 100 25 ++ List.replicate 10 0) := by
  have pages : 1 ≤ 100 := by decide
  have inUse : (0 : Int) ∈ [0, 1] := List.mem_cons_self
  obtain ⟨mog, ran, reads⟩ := mainInserts_reads pages memory inUse 1000000 beyond
  rw [main, ran, Option.bind_some, readLengths_eq reads]
  congr 1

end MogGpu

end CudaDb
