import CudaDb.Model.Readers
import CudaDb.Lib.Threads
import CudaDb.Verif.RamSlabs

/-!
# Concurrent misses of the RAM cache

Between the lookup of a call and its insert other calls may cache the same key, so an insert may
find its key cached and append to the entry. The slabs are partitioned all the same, and an insert
never runs dry. But the entry then owns more slabs than its value needs and its key is queued
twice: every entry is stored once exactly as long as no insert that goes through finds its key
cached.
-/

namespace CudaDb

namespace CpuCache

variable {cache next : CpuCache} {key : String} {info : IndexInfo} {value : ByteMemory}

/-- With too few free slabs an insert leaves the cache alone. -/
theorem insert_refused (full : cache.pool.freeNum < 2 ^ info.lengthType)
    (inserted : cache.insert key info value = some next) : next = cache := by
  unfold insert at inserted
  rw [if_pos full] at inserted
  exact (Option.some.inj inserted).symm

/-- With enough free slabs an insert appends as many as the type of the value says to the entry of
the key, and queues the key. -/
theorem insert_appends (room : ¬ cache.pool.freeNum < 2 ^ info.lengthType)
    (inserted : cache.insert key info value = some next) :
    ∃ taken : List Nat, taken.length = 2 ^ info.lengthType ∧
      next.cachedItem = cache.cachedItem.insert key
        { length := info.length
          lengthType := info.lengthType
          slabs := (cache.cachedItem.slot key).slabs ++ taken } ∧
      next.cachedItemQueue = cache.cachedItemQueue ++ [key] := by
  unfold insert at inserted
  rw [if_neg room] at inserted
  obtain ⟨⟨taken, pool⟩, filled, rfl⟩ := Option.map_eq_some_iff.mp inserted
  exact ⟨taken, (SlabPool.fill_takes filled).2.1, rfl, rfl⟩

/-! ## Ownership -/

/-- Every entry owns a slab. -/
def Filled (cache : CpuCache) : Prop :=
  ∀ key item, cache.cachedItem.lookup key = some item → 1 ≤ item.slabs.length

/-- An insert leaves no entry without a slab. -/
theorem insert_filled (filled : cache.Filled)
    (inserted : cache.insert key info value = some next) : next.Filled := by
  by_cases full : cache.pool.freeNum < 2 ^ info.lengthType
  · rw [insert_refused full inserted]
    exact filled
  obtain ⟨taken, length, entries, -⟩ := insert_appends full inserted
  intro asked item found
  rw [entries, Table.lookup_insert_if] at found
  by_cases same : asked = key
  · rw [if_pos same] at found
    obtain rfl := Option.some.inj found
    have positive := Nat.two_pow_pos info.lengthType
    rw [List.length_append]
    omega
  · rw [if_neg same] at found
    exact filled asked item found

/-- There are at most as many entries as slabs. -/
theorem Partition.card_le (partition : cache.Partition) (filled : cache.Filled) :
    cache.cachedItem.keys.card ≤ cache.slabNum := by
  have keys : cache.cachedItem.keys.card ≤
      cache.cachedItem.total fun _ item => item.slabs.length :=
    Table.card_keys_le_total filled
  have owned : Multiset.card (ownedSlabs cache.cachedItem) =
      cache.cachedItem.total fun _ item => item.slabs.length :=
    Table.map_total Multiset.cardHom
      (fun (_ : String) (item : CPUCachedItem) => (item.slabs : Multiset Nat)) cache.cachedItem
  have ids := congrArg Multiset.card partition.ids
  rw [Multiset.card_add, Multiset.card_range, owned] at ids
  omega

/-! ## Copies -/

/-- A hit on the item writes the first `count` bytes of the buffer, whatever they were, and no
other. -/
structure CopiesExactly (cache : CpuCache) (item : CPUCachedItem) (count : Nat) : Prop where
  /-- What is written does not depend on what the buffer held. -/
  inside : ∀ (first second : ByteMemory) (position : Nat), position < count →
    (cache.copyOut item first).2 position = (cache.copyOut item second).2 position
  /-- Behind it the buffer keeps its bytes. -/
  behind : ∀ (value : ByteMemory) (position : Nat), count ≤ position →
    (cache.copyOut item value).2 position = value position

/-- A hit copies as many slabs as the entry owns. -/
theorem copiesExactly (cache : CpuCache) (item : CPUCachedItem) :
    cache.CopiesExactly item (1024 * item.slabs.length) where
  inside := by
    intro first second position within
    have piece : position / 1024 < item.slabs.length := by omega
    have offset : position % 1024 < 1024 := Nat.mod_lt _ (by decide)
    have split : 0 + position / 1024 * 1024 + position % 1024 = position := by omega
    have here := List.getElem?_eq_getElem piece
    have left := SlabPool.gather_slab cache.pool.slabs 0 first here offset
    have right := SlabPool.gather_slab cache.pool.slabs 0 second here offset
    rw [split] at left right
    exact left.trans right.symm
  behind := by
    intro value position beyond
    exact SlabPool.gather_after cache.pool.slabs item.slabs 0 value (by omega)

/-! ## Stored once -/

/-- Every entry owns the slabs that its type says and is queued once, so a hit on it copies just
these slabs. -/
structure StoredOnce (cache : CpuCache) : Prop where
  /-- An entry owns as many slabs as its type says. -/
  slabs : ∀ key item, cache.cachedItem.lookup key = some item →
    item.slabs.length = 2 ^ item.lengthType
  /-- The key of an entry is queued once. -/
  queued : ∀ key ∈ cache.cachedItem, cache.cachedItemQueue.count key = 1
  /-- A hit copies the slabs that the type says. -/
  copies : ∀ key item, cache.cachedItem.lookup key = some item →
    cache.CopiesExactly item (1024 * 2 ^ item.lengthType)

/-- The queue names no key but those of entries. -/
def Queued (cache : CpuCache) : Prop := ∀ key ∈ cache.cachedItemQueue, key ∈ cache.cachedItem

/-- An insert queues only what it caches. -/
theorem insert_queued (queued : cache.Queued)
    (inserted : cache.insert key info value = some next) : next.Queued := by
  by_cases full : cache.pool.freeNum < 2 ^ info.lengthType
  · rw [insert_refused full inserted]
    exact queued
  obtain ⟨taken, -, entries, queue⟩ := insert_appends full inserted
  intro asked inside
  rw [queue, List.mem_append, List.mem_singleton] at inside
  rw [entries, Finmap.mem_insert]
  exact inside.symm.imp id (queued asked)

/-- An insert with enough free slabs keeps every entry stored once exactly if its key was not
cached. -/
theorem insert_storedOnce_iff (queued : cache.Queued) (once : cache.StoredOnce)
    (room : ¬ cache.pool.freeNum < 2 ^ info.lengthType)
    (inserted : cache.insert key info value = some next) :
    key ∉ cache.cachedItem ↔ next.StoredOnce := by
  obtain ⟨taken, length, entries, queue⟩ := insert_appends room inserted
  have counted : next.cachedItemQueue.count key = cache.cachedItemQueue.count key + 1 := by
    rw [queue, List.count_append, List.count_singleton_self]
  constructor
  · intro absent
    have fresh : (cache.cachedItem.slot key).slabs = [] := by
      rw [Table.slot, Finmap.lookup_eq_none.mpr absent]
      rfl
    have slabs : ∀ asked item, next.cachedItem.lookup asked = some item →
        item.slabs.length = 2 ^ item.lengthType := by
      intro asked item found
      rw [entries, Table.lookup_insert_if] at found
      by_cases same : asked = key
      · rw [if_pos same] at found
        obtain rfl := Option.some.inj found
        dsimp only
        rw [fresh, List.nil_append, length]
      · rw [if_neg same] at found
        exact once.slabs asked item found
    refine ⟨slabs, fun asked inside => ?_, fun asked item found => ?_⟩
    · by_cases same : asked = key
      · have unqueued : cache.cachedItemQueue.count key = 0 :=
          List.count_eq_zero.mpr fun inside => absent (queued key inside)
        rw [same, counted, unqueued]
      · have other : asked ∈ cache.cachedItem := by
          rw [entries, Finmap.mem_insert] at inside
          exact inside.resolve_left same
        rw [queue, List.count_append, once.queued asked other, List.count_singleton,
          if_neg (by simpa using Ne.symm same)]
    · rw [← slabs asked item found]
      exact next.copiesExactly item
  · intro after present
    have inside : key ∈ next.cachedItem := by
      rw [entries, Finmap.mem_insert]
      exact Or.inl rfl
    have before := once.queued key present
    have again := after.queued key inside
    omega

end CpuCache

/-- The key for which a call has found no entry and has not inserted yet. -/
def ReadPc.missed : ReadPc → Option String
  | .get key | .readSsd key _ | .insert key _ => some key
  | _ => none

/-- The index entry that a call has read and not inserted yet. -/
def ReadPc.carried : ReadPc → Option IndexInfo
  | .readSsd _ info | .insert _ info => some info
  | _ => none

/-- What one access of a call does. -/
structure ReadStep (outside : Outside) (cache next : CpuCache) (call after : ReadCall) : Prop where
  /-- A miss goes on, or the key is not cached. -/
  missed : ∀ key, after.pc.missed = some key →
    call.pc.missed = some key ∨ key ∉ cache.cachedItem
  /-- An index entry is carried on, or was answered. -/
  carried : ∀ info, after.pc.carried = some info →
    call.pc.carried = some info ∨ outside.info = some info
  /-- The cache stays, or the call inserts and returns. -/
  cache : (call.pc.inserts = none ∧ next = cache) ∨
    ∃ key info, call.pc = .insert key info ∧ after.pc = .returned info.length ∧
      cache.insert key info call.value = some next

/-- A call that returns misses nothing and carries nothing. -/
theorem ReadStep.of_returned {outside : Outside} {cache : CpuCache} {call : ReadCall}
    {length : Nat} {value : ByteMemory} (inserts : call.pc.inserts = none) :
    ReadStep outside cache cache call { pc := .returned length, value } where
  missed := fun _ missed => by cases missed
  carried := fun _ carried => by cases carried
  cache := Or.inl ⟨inserts, rfl⟩

/-- Every access of a call is such a step. -/
theorem CpuCache.readStep_spec {outside : Outside} {cache next : CpuCache} {call after : ReadCall}
    (taken : cache.readStep outside call = some (next, after)) :
    ReadStep outside cache next call after := by
  obtain ⟨pc, value⟩ := call
  unfold readStep at taken
  dsimp only at taken
  cases pc with
  | idle | returned length => cases taken
  | find key =>
    obtain ⟨rfl, rfl⟩ := Prod.mk.inj (Option.some.inj taken)
    by_cases cached : key ∈ cache.cachedItem
    · rw [if_pos cached]
      exact ⟨fun _ missed => (by cases missed), fun _ carried => (by cases carried),
        Or.inl ⟨rfl, rfl⟩⟩
    · rw [if_neg cached]
      refine ⟨fun asked missed => Or.inr ?_, fun _ carried => (by cases carried),
        Or.inl ⟨rfl, rfl⟩⟩
      rwa [← Option.some.inj missed]
  | copy key =>
    obtain ⟨item, -, same⟩ := Option.map_eq_some_iff.mp taken
    obtain ⟨rfl, rfl⟩ := Prod.mk.inj same
    exact ReadStep.of_returned rfl
  | get key =>
    dsimp only at taken
    split at taken
    · obtain ⟨rfl, rfl⟩ := Prod.mk.inj (Option.some.inj taken)
      exact ReadStep.of_returned rfl
    · next info answered =>
      obtain ⟨rfl, rfl⟩ := Prod.mk.inj (Option.some.inj taken)
      refine ⟨fun asked missed => Or.inl missed, fun other carried => Or.inr ?_,
        Or.inl ⟨rfl, rfl⟩⟩
      rw [answered]
      exact carried
  | readSsd key info =>
    obtain ⟨rfl, rfl⟩ := Prod.mk.inj (Option.some.inj taken)
    exact ⟨fun asked missed => Or.inl missed, fun other carried => Or.inl carried,
      Or.inl ⟨rfl, rfl⟩⟩
  | insert key info =>
    obtain ⟨stored, inserted, same⟩ := Option.map_eq_some_iff.mp taken
    obtain ⟨rfl, rfl⟩ := Prod.mk.inj same
    exact ⟨fun _ missed => (by cases missed), fun _ carried => (by cases carried),
      Or.inr ⟨key, info, rfl, rfl, inserted⟩⟩

namespace Readers

variable {Worker : Type*} [DecidableEq Worker] {readers next : Readers Worker}
  {event : Event Worker}

/-- An event inserts what its worker stands before, or leaves the cache. -/
theorem step_cache (stepped : machine.step readers event = some next) :
    (readers.inserts event = none ∧ next.cache = readers.cache) ∨
      ∃ key info value, readers.inserts event = some (key, info) ∧
        readers.cache.insert key info value = some next.cache := by
  cases event with
  | read worker key value =>
    simp only [machine] at stepped
    split at stepped
    · obtain rfl := Option.some.inj stepped
      exact Or.inl ⟨rfl, rfl⟩
    · cases stepped
  | step worker outside =>
    obtain ⟨⟨cache, call⟩, taken, rfl⟩ := Option.map_eq_some_iff.mp stepped
    rcases (CpuCache.readStep_spec taken).cache with kept | ⟨key, info, standing, -, inserted⟩
    · exact Or.inl kept
    · have inserts : readers.inserts (.step worker outside) = some (key, info) :=
        congrArg ReadPc.inserts standing
      exact Or.inr ⟨key, info, _, inserts, inserted⟩

/-- What every insert of the cache keeps, every event keeps. -/
theorem step_keeps (property : CpuCache → Prop)
    (keep : ∀ cache after key info value, property cache →
      cache.insert key info value = some after → property after)
    (holds : property readers.cache) (stepped : machine.step readers event = some next) :
    property next.cache := by
  rcases step_cache stepped with ⟨-, same⟩ | ⟨key, info, value, -, inserted⟩
  · rw [same]
    exact holds
  · exact keep _ _ key info value holds inserted

/-! ## Ownership -/

/-- What holds of the slabs in every run. -/
structure Owned (cache : CpuCache) : Prop where
  /-- The slabs are partitioned. -/
  partition : cache.Partition
  /-- Every entry owns one. -/
  filled : cache.Filled

/-- An insert keeps the slabs owned. -/
theorem insert_owned (cache after : CpuCache) (key : String) (info : IndexInfo)
    (value : ByteMemory) (owned : Owned cache)
    (inserted : cache.insert key info value = some after) : Owned after where
  partition := CpuCache.insert_partition owned.partition inserted
  filled := CpuCache.insert_filled owned.filled inserted

omit [DecidableEq Worker] in
/-- The slabs are owned at the start. -/
theorem start_owned (pageSize pageNum : Nat) (cache : CpuCache) (value : Worker → ByteMemory) :
    Owned (start pageSize pageNum cache value).cache where
  partition := CpuCache.allocateMemory_partition rfl rfl pageSize pageNum
  filled := by
    intro key item found
    have nothing : (start pageSize pageNum cache value).cache.cachedItem.lookup key = none :=
      Finmap.lookup_empty key
    rw [nothing] at found
    cases found

/-- The slabs are owned in every run. -/
theorem run_owned {pageSize pageNum : Nat} {cache : CpuCache} {value : Worker → ByteMemory}
    {events : List (Event Worker)}
    (ran : machine.run (start pageSize pageNum cache value) events = some readers) :
    Owned readers.cache :=
  Machine.run_invariant (fun state : Readers Worker => Owned state.cache)
    (fun _ _ _ owned stepped => step_keeps Owned insert_owned owned stepped)
    (start_owned pageSize pageNum cache value) ran

/-- The number of slabs stays. -/
theorem step_slabNum (stepped : machine.step readers event = some next) :
    next.cache.slabNum = readers.cache.slabNum := by
  apply step_keeps (fun cache => cache.slabNum = readers.cache.slabNum) _ rfl stepped
  intro cache after key info value same inserted
  rcases CpuCache.insert_cases inserted with rfl | cached
  · exact same
  · exact cached.slabNum.trans same

/-- In every run of the workers the free slabs and those of the entries are all slabs, each once;
the counter is the number of the free ones, there are at most as many entries as slabs, and no
insert takes the front of an empty queue. -/
theorem run_partition {pageSize pageNum : Nat} {cache : CpuCache} {value : Worker → ByteMemory}
    {events : List (Event Worker)}
    (ran : machine.run (start pageSize pageNum cache value) events = some readers) :
    (CpuCache.ownedSlabs readers.cache.cachedItem + (readers.cache.pool.free : Multiset Nat) =
        Multiset.range readers.cache.slabNum ∧
      readers.cache.slabNum = pageNum * pageSize / 1024) ∧
    readers.cache.pool.freeNum = readers.cache.pool.free.length ∧
    readers.cache.cachedItem.keys.card ≤ readers.cache.slabNum ∧
    ∀ key info value, (readers.cache.insert key info value).isSome := by
  have owned := run_owned ran
  have slabNum : readers.cache.slabNum = pageNum * pageSize / 1024 :=
    Machine.run_invariant
      (fun state : Readers Worker => state.cache.slabNum = pageNum * pageSize / 1024)
      (fun _ _ _ same stepped => (step_slabNum stepped).trans same) rfl ran
  exact ⟨⟨owned.partition.ids, slabNum⟩, owned.partition.counted,
    owned.partition.card_le owned.filled, CpuCache.insert_isSome owned.partition⟩

/-- A file of 8 bytes that the index knows. -/
def eightBytes : Outside where
  info := some { blockId := 1, offset := 0, length := 8, lengthType := 0 }
  value := fun _ => 7

/-- Two workers miss one key, ask the index and read the SSD cache, and then both insert. -/
def bothMiss : List (Event (Fin 2)) :=
  [.read 0 "a" fun _ => 0, .step 0 eightBytes, .read 1 "a" fun _ => 0, .step 1 eightBytes,
    .step 0 eightBytes, .step 1 eightBytes, .step 0 eightBytes, .step 1 eightBytes,
    .step 0 eightBytes, .step 1 eightBytes]

/-- Two workers that miss one key leave two slabs partitioned, with none free. -/
theorem run_partition_bothMiss :
    ∃ readers, machine.run (start 1024 2 CpuCache.new fun _ _ => 0) bothMiss = some readers ∧
      readers.cache.pool.free = [] ∧
      CpuCache.ownedSlabs readers.cache.cachedItem = Multiset.range 2 ∧
      readers.cache.cachedItem.keys.card ≤ 2 ∧
      (readers.cache.insert "b" { blockId := 1, offset := 8, length := 8, lengthType := 0 }
        fun _ => 9).isSome := by
  have executed : ∃ readers,
      machine.run (start 1024 2 CpuCache.new fun _ _ => 0) bothMiss = some readers ∧
        readers.cache.pool.free = [] ∧ readers.cache.slabNum = 2 := ⟨_, rfl, rfl, rfl⟩
  obtain ⟨readers, ran, free, slabNum⟩ := executed
  obtain ⟨⟨ids, -⟩, -, few, goes⟩ := run_partition ran
  rw [free, Multiset.coe_nil, add_zero, slabNum] at ids
  rw [slabNum] at few
  exact ⟨readers, ran, free, ids, few, goes _ _ _⟩

/-! ## Stored once -/

/-- No insert that goes through finds its key cached. -/
def NoReinsert (readers : Readers Worker) (event : Event Worker) : Prop :=
  ∀ insertion ∈ readers.inserts event,
    readers.cache.pool.freeNum < 2 ^ insertion.2.lengthType ∨
      insertion.1 ∉ readers.cache.cachedItem

/-- Whether an insert finds its key cached can be computed. -/
instance decidableNoReinsert (readers : Readers Worker) (event : Event Worker) :
    Decidable (NoReinsert readers event) :=
  inferInstanceAs (Decidable (∀ insertion ∈ readers.inserts event,
    readers.cache.pool.freeNum < 2 ^ insertion.2.lengthType ∨
      insertion.1 ∉ readers.cache.cachedItem))

/-- A worker before an insert takes it: nothing but a dry free queue could refuse it. -/
theorem inserts_of_refused (partition : readers.cache.Partition)
    (refused : machine.step readers event = none) : readers.inserts event = none := by
  cases event with
  | read worker key value => rfl
  | step worker outside =>
    have none_taken := Option.map_eq_none_iff.mp refused
    unfold inserts
    dsimp only
    generalize readers.calls worker = call at none_taken ⊢
    obtain ⟨pc, value⟩ := call
    cases pc with
    | insert key info =>
      have goes := CpuCache.insert_isSome partition key info value
      have stuck : readers.cache.insert key info value = none :=
        Option.map_eq_none_iff.mp none_taken
      rw [stuck] at goes
      cases goes
    | _ => rfl

/-- A step keeps every entry stored once exactly if it inserts no key that is cached. -/
theorem step_storedOnce_iff (queued : readers.cache.Queued) (once : readers.cache.StoredOnce)
    (stepped : machine.step readers event = some next) :
    NoReinsert readers event ↔ next.cache.StoredOnce := by
  rcases step_cache stepped with ⟨nothing, same⟩ | ⟨key, info, value, here, inserted⟩
  · rw [same]
    refine iff_of_true ?_ once
    intro insertion inside
    rw [nothing] at inside
    cases inside
  · have unfolded : NoReinsert readers event ↔
        readers.cache.pool.freeNum < 2 ^ info.lengthType ∨ key ∉ readers.cache.cachedItem := by
      unfold NoReinsert
      rw [here]
      simp only [Option.mem_some_iff, forall_eq']
    rw [unfolded]
    by_cases full : readers.cache.pool.freeNum < 2 ^ info.lengthType
    · rw [CpuCache.insert_refused full inserted]
      exact iff_of_true (Or.inl full) once
    · rw [or_iff_right full]
      exact CpuCache.insert_storedOnce_iff queued once full inserted

/-- In any run of any number of workers every entry owns the slabs of its type and is queued once,
in every state, exactly if no insert that goes through finds its key cached. -/
theorem storedOnce_iff_noReinsert (pageSize pageNum : Nat) (cache : CpuCache)
    (value : Worker → ByteMemory) (events : List (Event Worker)) :
    machine.Along NoReinsert (start pageSize pageNum cache value) events ↔
      machine.Always (fun readers => readers.cache.StoredOnce)
        (start pageSize pageNum cache value) events := by
  refine Machine.along_iff_always (fun state : Readers Worker =>
    state.cache.Partition ∧ state.cache.Queued) ?_ ?_ ?_ events ?_ ?_
  · intro state event after holds stepped
    refine step_keeps (fun cache => cache.Partition ∧ cache.Queued) ?_ holds stepped
    intro cache later key info value both inserted
    exact ⟨CpuCache.insert_partition both.1 inserted, CpuCache.insert_queued both.2 inserted⟩
  · intro state event after holds once stepped
    exact step_storedOnce_iff holds.2 once stepped
  · intro state event holds refused insertion inside
    rw [inserts_of_refused holds.1 refused] at inside
    cases inside
  · exact ⟨(start_owned pageSize pageNum cache value).partition, fun key inside => by cases inside⟩
  · have nothing (key : String) :
        (start pageSize pageNum cache value).cache.cachedItem.lookup key = none :=
      Finmap.lookup_empty key
    refine ⟨fun key item found => ?_, fun key inside => ?_, fun key item found => ?_⟩
    · rw [nothing] at found
      cases found
    · exact absurd inside Finmap.notMem_empty
    · rw [nothing] at found
      cases found

/-- Two workers that miss one key leave it stored twice, in a cache of 1 GiB. -/
theorem not_storedOnce_of_bothMiss :
    ¬ ∀ (events : List (Event (Fin 2))) (readers : Readers (Fin 2)),
      machine.run (start (1024 * 1024) 1024 CpuCache.new fun _ _ => 0) events = some readers →
        readers.cache.StoredOnce := by
  intro always
  have executed : ∃ readers,
      machine.run (start (1024 * 1024) 1024 CpuCache.new fun _ _ => 0) bothMiss = some readers ∧
        readers.cache.cachedItem.lookup "a" =
          some { length := 8, lengthType := 0, slabs := [0, 1] } := ⟨_, rfl, rfl⟩
  obtain ⟨readers, ran, found⟩ := executed
  have owned := (always bothMiss readers ran).slabs "a" _ found
  contradiction

end Readers

end CudaDb
