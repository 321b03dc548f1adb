import CudaDb.Verif.GpuSlabs

/-!
# When the GPU slabs stay partitioned

From `allocate_memory` on, an insert of a key that is not cached keeps the slab ids partitioned,
and an insert of a cached key adds the ids of its entry a second time, for good. So the state
after a run is partitioned exactly when no accepted insert of the run was of a cached key.
-/

namespace CudaDb.GpuCache

/-- The cache after `initial` with 1 MiB pages and `allocate_memory`. -/
def start (pageNum : Nat) (device : Nat → ByteMemory) : GpuCache :=
  (initial (1024 * 1024) pageNum device).allocateMemory

/-- The insert is of a key that is not cached, or of a value too long to be accepted. -/
def NoReinsert (cache : GpuCache) (call : InsertCall) : Prop :=
  call.key ∉ cache.cachedItem ∨ 10 < slabType call.length

/-- A step of the machine is an insert with some status. -/
theorem machine_step {cache next : GpuCache} {call : InsertCall} :
    machine.step cache call = some next ↔
      ∃ status, cache.insert call.key call.length call.value = some (next, status) := by
  simp [machine]

/-- The partition together with the eviction queue that maintains it. -/
structure Owned (cache : GpuCache) : Prop where
  /-- The slabs are partitioned. -/
  partition : cache.Partition
  /-- The queue lists every cached key once. -/
  queued : (cache.cachedItemQueue : Multiset String) = cache.cachedItem.keys.val

/-- After the allocation every slab is free, whatever the page size. -/
theorem allocateMemory_owned (pageSize pageNum : Nat) (device : Nat → ByteMemory) :
    (initial pageSize pageNum device).allocateMemory.Owned where
  partition :=
    { ids := by
        simp only [slabIds, ownedSlabs, allocateMemory, initial, Table.total_empty, zero_add,
          List.nil_append, ← List.range_eq_range']
        rfl
      counted := by simp [allocateMemory, initial]
      sized := by
        intro key item found
        simp [allocateMemory, initial] at found }
  queued := by simp [allocateMemory, initial]

/-- A freshly allocated cache has no entry. -/
theorem allocateMemory_lookup (pageSize pageNum : Nat) (device : Nat → ByteMemory) (key : String) :
    (initial pageSize pageNum device).allocateMemory.cachedItem.lookup key = none :=
  Finmap.lookup_empty key

/-- The cache set up with 1 MiB pages starts partitioned. -/
theorem start_owned (pageNum : Nat) (device : Nat → ByteMemory) : (start pageNum device).Owned :=
  allocateMemory_owned _ _ _

/-- An insert of a key that is not cached keeps the partition. -/
theorem insert_owned {cache next : GpuCache} {call : InsertCall} {status : Int}
    (owned : cache.Owned) (fresh : NoReinsert cache call)
    (inserted : cache.insert call.key call.length call.value = some (next, status)) :
    next.Owned := by
  obtain ⟨-, rfl, -⟩ | ⟨short, -, roomy, pushFlag, room, stored⟩ := insert_cases inserted
  · exact owned
  · have absent : call.key ∉ cache.cachedItem := fresh.resolve_right (by omega)
    rw [releaseOld, if_neg absent] at room
    dsimp only at room
    have queued : Queued cache.cachedItem cache.cachedItemQueue call.key true := by
      rw [Queued, if_neg (fun both => absent both.2), add_zero, owned.queued]
    have frame := makeRoom_frame room
    have still : call.key ∉ roomy.cachedItem := by
      rw [← Finmap.lookup_eq_none, frame.self, Finmap.lookup_eq_none]
      exact absent
    obtain ⟨taken, filled, slabNum, entry, -⟩ := store_spec stored
    obtain ⟨split, taking, counting⟩ := SlabPool.fill_takes filled
    have counted : roomy.pool.freeNum = roomy.pool.free.length := by
      rw [makeRoom] at room
      split at room
      · exact evict_counted queued owned.partition.counted owned.partition.sized room
      · obtain ⟨rfl, rfl⟩ := Prod.mk.inj (Option.some.inj room)
        exact owned.partition.counted
    have pushed : pushFlag = true := by
      have after := makeRoom_queued queued room
      rw [makeRoom] at room
      split at room
      · exact evict_pushFlag rfl room
      · exact (Prod.mk.inj (Option.some.inj room)).2.symm
    refine ⟨⟨?_, ?_, ?_⟩, store_queued (makeRoom_queued queued room) (fun _ => pushed) stored⟩
    · rw [store_slabIds stored, frame.ids, owned.partition.ids, slabNum, frame.slabNum]
    · rw [counting, counted, split, List.length_append, taking]
      push_cast
      ring
    · intro key item found
      rw [entry, Table.lookup_insert_if] at found
      split at found
      · obtain rfl := Option.some.inj found
        have empty : (roomy.cachedItem.slot call.key).slabs = [] := by
          rw [Table.slot, Finmap.lookup_eq_none.mpr still]
          rfl
        simp only [empty, List.nil_append, taking]
      · exact owned.partition.sized key item (frame.kept key item found)

/-! ## What an insert of a cached key does -/

/-- Every entry owns some slab. -/
def Nonempty (cache : GpuCache) : Prop :=
  ∀ key item, cache.cachedItem.lookup key = some item → item.slabs ≠ []

/-- An insert keeps the number of slabs of the device and every entry nonempty. -/
theorem insert_nonempty {cache next : GpuCache} {key : String} {length : Nat}
    {value : ByteMemory} {status : Int} (nonempty : cache.Nonempty)
    (inserted : cache.insert key length value = some (next, status)) :
    next.Nonempty ∧ next.slabNum = cache.slabNum := by
  obtain ⟨-, rfl, -⟩ | ⟨-, -, roomy, pushFlag, room, stored⟩ := insert_cases inserted
  · exact ⟨nonempty, rfl⟩
  · have frame := makeRoom_frame room
    obtain ⟨taken, filled, slabNum, entry, -⟩ := store_spec stored
    have released : (cache.releaseOld key).1.cachedItem = cache.cachedItem ∧
        (cache.releaseOld key).1.slabNum = cache.slabNum := by
      rw [releaseOld]
      split <;> exact ⟨rfl, rfl⟩
    refine ⟨?_, by rw [slabNum, frame.slabNum, released.2]⟩
    intro asked item found
    rw [entry, Table.lookup_insert_if] at found
    split at found
    · obtain rfl := Option.some.inj found
      have some_taken : 0 < taken.length := by
        rw [(SlabPool.fill_takes filled).2.1]
        positivity
      exact List.append_ne_nil_of_right_ne_nil _ (List.ne_nil_of_length_pos some_taken)
    · exact nonempty asked item (released.1 ▸ frame.kept asked item found)

/-- The ids after an insert are those before it and, if the key was cached and the value is
accepted, the ids of its entry once more. -/
theorem insert_slabIds {cache next : GpuCache} {call : InsertCall} {status : Int}
    (inserted : cache.insert call.key call.length call.value = some (next, status)) :
    (NoReinsert cache call → next.slabIds = cache.slabIds) ∧
    (¬ NoReinsert cache call →
      next.slabIds = cache.slabIds + ((cache.cachedItem.slot call.key).slabs : Multiset Nat)) := by
  obtain ⟨long, rfl, -⟩ | ⟨short, -, roomy, pushFlag, room, stored⟩ := insert_cases inserted
  · exact ⟨fun _ => rfl, fun again => absurd (Or.inr long) again⟩
  · rw [store_slabIds stored, (makeRoom_frame room).ids]
    constructor
    · intro fresh
      rw [releaseOld, if_neg (fresh.resolve_right (by omega))]
    · intro again
      rw [NoReinsert, not_or, not_not] at again
      rw [releaseOld, if_pos again.1]
      simp only [slabIds, ownedSlabs, freeItem, ← Multiset.coe_add, add_assoc]

/-- The number of ids never falls, and grows with every accepted insert of a cached key. -/
theorem run_card {cache final : GpuCache} {calls : List InsertCall} (nonempty : cache.Nonempty)
    (ran : machine.run cache calls = some final) :
    final.slabNum = cache.slabNum ∧ cache.slabIds.card ≤ final.slabIds.card ∧
      (¬ machine.Along NoReinsert cache calls → cache.slabIds.card < final.slabIds.card) := by
  induction calls generalizing cache with
  | nil =>
    obtain rfl := Option.some.inj ran
    exact ⟨rfl, le_rfl, fun refuted => absurd trivial refuted⟩
  | cons call calls ih =>
    obtain ⟨next, stepped, rest⟩ := Machine.run_cons.mp ran
    obtain ⟨status, inserted⟩ := machine_step.mp stepped
    obtain ⟨later, slabNum⟩ := insert_nonempty nonempty inserted
    obtain ⟨sameNum, grows, strictly⟩ := ih later rest
    have ids := insert_slabIds inserted
    by_cases fresh : NoReinsert cache call
    · have same := ids.1 fresh
      refine ⟨sameNum.trans slabNum, same ▸ grows, fun broken => same ▸ strictly fun along => ?_⟩
      apply broken
      refine ⟨fresh, fun other also => ?_⟩
      rw [stepped] at also
      exact Option.some.inj also ▸ along
    · have more := ids.2 fresh
      rw [NoReinsert, not_or, not_not] at fresh
      obtain ⟨item, found⟩ := Finmap.mem_iff.mp fresh.1
      have positive := List.length_pos_of_ne_nil (nonempty call.key item found)
      rw [Table.slot_of_lookup found] at more
      have counted := congrArg Multiset.card more
      rw [Multiset.card_add, Multiset.coe_card] at counted
      exact ⟨sameNum.trans slabNum, by omega, fun _ => by omega⟩

/-- After any sequence of inserts into a freshly allocated cache, the free
queue and the entries partition the slabs, the counter agrees with the queue and every entry
has the slabs of its type, exactly when every insert of the run was of a key that was not cached
at that time or of a value too long to be accepted. -/
theorem partition_iff_no_reinsert (pageNum : Nat) (device : Nat → ByteMemory)
    (calls : List InsertCall) (cache : GpuCache)
    (ran : machine.run (start pageNum device) calls = some cache) :
    cache.Partition ↔ machine.Along NoReinsert (start pageNum device) calls := by
  constructor
  · intro partition
    by_contra broken
    have nonempty : (start pageNum device).Nonempty := by
      intro key item found
      rw [start, allocateMemory_lookup] at found
      contradiction
    obtain ⟨slabNum, -, strictly⟩ := run_card nonempty ran
    have more := strictly broken
    rw [partition.ids, (start_owned pageNum device).partition.ids, slabNum] at more
    exact lt_irrefl _ more
  · intro along
    refine (Machine.run_invariant_along _ ?_ (start_owned pageNum device) along ran).partition
    intro state call next owned fresh stepped
    obtain ⟨status, inserted⟩ := machine_step.mp stepped
    exact insert_owned owned fresh inserted

/-- One insert into a cache of one page leaves its slabs partitioned. -/
theorem partition_after_one_insert :
    ∃ cache, machine.run (start 1 fun _ _ => 0) [⟨"k", 1, fun _ => 97⟩] = some cache ∧
      cache.Partition := by
  have accepted : (machine.run (start 1 fun _ _ => 0) [⟨"k", 1, fun _ => 97⟩]).isSome := by decide
  obtain ⟨cache, ran⟩ := Option.isSome_iff_exists.mp accepted
  refine ⟨cache, ran, (partition_iff_no_reinsert 1 _ _ cache ran).mpr ⟨Or.inl ?_, ?_⟩⟩
  · decide
  · exact fun _ _ => trivial

/-- Inserting the same key twice leaves its entry with the slabs of both inserts. -/
theorem partition_fails_on_reinsert :
    ¬ ∀ (pageNum : Nat) (device : Nat → ByteMemory) (calls : List InsertCall) (cache : GpuCache),
      1 ≤ pageNum → machine.run (start pageNum device) calls = some cache → cache.Partition := by
  intro always
  let calls : List InsertCall := [⟨"k", 1, fun _ => 97⟩, ⟨"k", 1, fun _ => 98⟩]
  have entry : (machine.run (start 1 fun _ _ => 0) calls).bind
      (fun cache => cache.cachedItem.lookup "k") = some ⟨1, 0, [0, 1]⟩ := by decide
  obtain ⟨cache, ran, found⟩ := Option.bind_eq_some_iff.mp entry
  have sized := (always 1 _ calls cache le_rfl ran).sized "k" _ found
  simp at sized

end CudaDb.GpuCache
