import CudaDb.Verif.GpuCounters

/-!
# What an insert evicts

The eviction loop of `GpuCache::insert` pops keys from the front of the queue and stops at the
first one whose count brings the free slabs to what is needed. The inserted key is popped like the
others, without its count, and then queued again. So the keys that go are the shortest part of the
queue from its front on that makes room, and the order of the others stays.
-/

namespace CudaDb.GpuCache

variable {cache next : GpuCache} {key : String}

/-! ## What the popped keys give back -/

/-- The counts that popping the keys releases; the inserted key releases none. -/
def released (key : String) (cachedItem : Table String GPUCachedItem) (popped : List String) :
    Int :=
  ((popped.filter (· ≠ key)).map fun other => (2 : Int) ^ (cachedItem.slot other).lengthType).sum

/-- Popping nothing releases nothing. -/
@[simp] theorem released_nil (key : String) (cachedItem : Table String GPUCachedItem) :
    released key cachedItem [] = 0 := rfl

/-- The inserted key releases nothing. -/
theorem released_skip (cachedItem : Table String GPUCachedItem) (popped : List String) :
    released key cachedItem (key :: popped) = released key cachedItem popped := by
  simp [released]

/-- Another key releases the count of its entry. -/
theorem released_pop {deletedItem : String} (other : deletedItem ≠ key)
    (cachedItem : Table String GPUCachedItem) (popped : List String) :
    released key cachedItem (deletedItem :: popped) =
      2 ^ (cachedItem.slot deletedItem).lengthType + released key cachedItem popped := by
  simp [released, other]

/-- What keys release does not depend on the entries of other keys. -/
theorem released_erase {deletedItem : String} {cachedItem : Table String GPUCachedItem}
    {popped : List String} (apart : deletedItem ∉ popped) :
    released key (cachedItem.erase deletedItem) popped = released key cachedItem popped := by
  unfold released
  congr 1
  apply List.map_congr_left
  intro other member
  have listed := (List.mem_filter.mp member).1
  have different : other ≠ deletedItem := fun same => apart (same ▸ listed)
  rw [Table.slot, Table.slot, Finmap.lookup_erase_ne different]

/-! ## The eviction loop -/

/-- The keys that were popped to make room, the queue after them, and what they leave. -/
structure Pops (key : String) (needed : Int) (before after : GpuCache) (pushFlag pushed : Bool)
    (queue popped : List String) : Prop where
  /-- They are the front of the queue. -/
  front : queue = popped ++ after.cachedItemQueue
  /-- Their counts make room. -/
  enough : needed ≤ before.pool.freeNum + released key before.cachedItem popped
  /-- Fewer keys do not. -/
  shortest : ∀ fewer, fewer <+: popped → fewer ≠ popped →
    before.pool.freeNum + released key before.cachedItem fewer < needed
  /-- Their entries go, but for the one of the inserted key; the others stay. -/
  entries : ∀ other, after.cachedItem.lookup other =
    if other ∈ popped ∧ other ≠ key then none else before.cachedItem.lookup other
  /-- The inserted key is to be queued if it was to be before or was popped. -/
  flag : pushed = true ↔ pushFlag = true ∨ key ∈ popped

/-- No key of the queue is listed twice. -/
theorem Queued.nodup {cachedItem : Table String GPUCachedItem} {queue : List String}
    {pushFlag : Bool} (queued : Queued cachedItem queue key pushFlag) : queue.Nodup := by
  have distinct := cachedItem.keys.nodup
  unfold Queued at queued
  rw [← queued] at distinct
  exact (Multiset.nodup_add.mp distinct).1

/-- A shorter part of a list is empty or starts with its head. -/
theorem shorter_cons {first : String} {popped fewer : List String}
    (part : fewer <+: first :: popped)
    (shorter : fewer ≠ first :: popped) :
    fewer = [] ∨ ∃ rest, fewer = first :: rest ∧ rest <+: popped ∧ rest ≠ popped := by
  rcases List.prefix_cons_iff.mp part with nothing | ⟨rest, split, inner⟩
  · exact Or.inl nothing
  · exact Or.inr ⟨rest, split, inner, fun same => shorter (by rw [split, same])⟩

/-- The eviction loop pops the shortest front of the queue that makes room. -/
theorem evict_pops {needed : Int} {queue : List String} {before after : GpuCache}
    {pushFlag pushed : Bool} (queued : Queued before.cachedItem queue key pushFlag)
    (lacking : before.pool.freeNum < needed)
    (evicted : evict key needed queue before pushFlag = some (after, pushed)) :
    ∃ popped, Pops key needed before after pushFlag pushed queue popped := by
  induction queue generalizing before pushFlag with
  | nil => simp [evict] at evicted
  | cons deletedItem queue ih =>
    by_cases same : deletedItem = key
    · subst same
      rw [evict, if_pos rfl] at evicted
      obtain ⟨popped, pops⟩ :=
        @ih { before with cachedItemQueue := queue } true queued.skip lacking evicted
      refine ⟨deletedItem :: popped, ?_, ?_, ?_, ?_, ?_⟩
      · exact congrArg (deletedItem :: ·) pops.front
      · rw [released_skip]
        exact pops.enough
      · intro fewer part shorter
        rcases shorter_cons part shorter with rfl | ⟨rest, rfl, inner, less⟩
        · rw [released_nil, add_zero]
          exact lacking
        · rw [released_skip]
          exact pops.shortest rest inner less
      · intro other
        rw [pops.entries other]
        by_cases apart : other = deletedItem
        · simp [apart]
        · simp [apart]
      · have set := pops.flag.mpr (Or.inl rfl)
        exact iff_of_true set (Or.inr List.mem_cons_self)
    · have distinct := queued.nodup
      obtain ⟨cached, popped_queue⟩ := queued.pop same
      have fresh : deletedItem ∉ queue := (List.nodup_cons.mp distinct).1
      rw [evict, if_neg same] at evicted
      dsimp only at evicted
      by_cases room :
          (freeItem before.pool (before.cachedItem.slot deletedItem)).freeNum ≥ needed
      · rw [if_pos room] at evicted
        obtain ⟨rfl, rfl⟩ := Prod.mk.inj (Option.some.inj evicted)
        refine ⟨[deletedItem], rfl, ?_, ?_, ?_, ?_⟩
        · rw [released_pop same, released_nil, add_zero]
          exact room
        · intro fewer part shorter
          rcases shorter_cons part shorter with rfl | ⟨rest, -, inner, less⟩
          · rw [released_nil, add_zero]
            exact lacking
          · exact absurd (List.prefix_nil.mp inner) less
        · intro other
          dsimp only
          simp only [Table.lookup_erase_if, List.mem_singleton]
          by_cases gone : other = deletedItem
          · rw [if_pos gone, if_pos ⟨gone, gone ▸ same⟩]
          · rw [if_neg gone, if_neg fun both => gone both.1]
        · have apart : key ∉ [deletedItem] := fun member =>
            same (List.mem_singleton.mp member).symm
          exact ⟨Or.inl, fun set => set.resolve_right apart⟩
      · rw [if_neg room] at evicted
        obtain ⟨popped, pops⟩ := ih popped_queue (not_le.mp room) evicted
        have unpopped : deletedItem ∉ popped := fun member =>
          fresh (pops.front ▸ List.mem_append_left _ member)
        have credit (keys : List String) (apart : deletedItem ∉ keys) :
            before.pool.freeNum + released key before.cachedItem (deletedItem :: keys) =
              (freeItem before.pool (before.cachedItem.slot deletedItem)).freeNum +
                released key (before.cachedItem.erase deletedItem) keys := by
          rw [released_pop same, released_erase apart]
          exact (add_assoc _ _ _).symm
        refine ⟨deletedItem :: popped, ?_, ?_, ?_, ?_, ?_⟩
        · exact congrArg (deletedItem :: ·) pops.front
        · rw [credit popped unpopped]
          exact pops.enough
        · intro fewer part shorter
          rcases shorter_cons part shorter with rfl | ⟨rest, rfl, inner, less⟩
          · rw [released_nil, add_zero]
            exact lacking
          · have apart : deletedItem ∉ rest := fun member => unpopped (inner.subset member)
            rw [credit rest apart]
            exact pops.shortest rest inner less
        · intro other
          simp only [pops.entries other, Table.lookup_erase_if, List.mem_cons]
          by_cases gone : other = deletedItem
          · rw [if_pos gone, ite_self, if_pos ⟨Or.inl gone, gone ▸ same⟩]
          · rw [if_neg gone]
            simp only [gone, false_or]
        · rw [pops.flag, List.mem_cons]
          have apart : key ≠ deletedItem := fun equal => same equal.symm
          simp [apart]

/-- Making room pops the shortest front of the queue that makes it, none if there is room. -/
theorem makeRoom_pops {needed : Int} {before after : GpuCache} {pushFlag pushed : Bool}
    (queued : Queued before.cachedItem before.cachedItemQueue key pushFlag)
    (roomy : makeRoom key needed before pushFlag = some (after, pushed)) :
    ∃ popped, Pops key needed before after pushFlag pushed before.cachedItemQueue popped := by
  unfold makeRoom at roomy
  by_cases lacking : before.pool.freeNum < needed
  · rw [if_pos lacking] at roomy
    exact evict_pops queued lacking roomy
  · rw [if_neg lacking] at roomy
    obtain ⟨rfl, rfl⟩ := Prod.mk.inj (Option.some.inj roomy)
    refine ⟨[], rfl, ?_, ?_, fun other => by simp, by simp⟩
    · rw [released_nil, add_zero]
      exact not_lt.mp lacking
    · intro fewer part shorter
      exact absurd (List.prefix_nil.mp part) shorter

/-! ## A whole insert -/

/-- The count of free slabs once the entry that the key has is given back. -/
def releasedNum (cache : GpuCache) (key : String) : Int :=
  cache.pool.freeNum + if key ∈ cache.cachedItem then 2 ^ (cache.cachedItem.slot key).lengthType
    else 0

/-- What an insert with a need of slabs does to the keys, when it pops these keys and leaves the
rest of the queue. -/
structure EvictsFront (cache next : GpuCache) (key : String) (needed : Int)
    (popped rest : List String) : Prop where
  /-- The popped keys are the front of the queue. -/
  front : cache.cachedItemQueue = popped ++ rest
  /-- The counts that they release make room. -/
  enough : needed ≤ cache.releasedNum key + released key cache.cachedItem popped
  /-- Those of fewer keys do not; so none is popped if there is room. -/
  shortest : ∀ fewer, fewer <+: popped → fewer ≠ popped →
    cache.releasedNum key + released key cache.cachedItem fewer < needed
  /-- The popped keys had entries. -/
  cached : ∀ other ∈ popped, other ∈ cache.cachedItem
  /-- Of the other keys exactly the popped ones lose theirs; the rest keep their records. -/
  entries : ∀ other, other ≠ key → next.cachedItem.lookup other =
    if other ∈ popped then none else cache.cachedItem.lookup other
  /-- The rest of the queue keeps its order, and the key its place there if it has one. -/
  queue : next.cachedItemQueue = if key ∈ rest then rest else rest ++ [key]
  /-- The key is queued once. -/
  once : next.cachedItemQueue.count key = 1

/-- What the release of an old entry makes of the count. -/
theorem releaseOld_freeNum (cache : GpuCache) (key : String) :
    (cache.releaseOld key).1.pool.freeNum = cache.releasedNum key := by
  unfold releaseOld releasedNum
  by_cases cached : key ∈ cache.cachedItem
  · rw [if_pos cached, if_pos cached]
    rfl
  · rw [if_neg cached, if_neg cached, add_zero]

/-- An insert that is accepted evicts the shortest front of the queue that makes room, when the
queue lists the cached keys before and after it. -/
theorem evictsFront_of_insert
    (listed : (cache.cachedItemQueue : Multiset String) = cache.cachedItem.keys.val)
    (relisted : (next.cachedItemQueue : Multiset String) = next.cachedItem.keys.val)
    {length : Nat} (fits : slabType length ≤ 10) {value : ByteMemory} {status : Int}
    (inserted : cache.insert key length value = some (next, status)) :
    status = 0 ∧ ∃ popped rest,
      EvictsFront cache next key (2 ^ slabType length) popped rest := by
  rcases insert_cases inserted with ⟨long, -, -⟩ | ⟨-, accepted, roomy, pushed, room, stored⟩
  · omega
  obtain ⟨entries, queue, -, fresh⟩ := releaseOld_kept cache key
  have count := releaseOld_freeNum cache key
  have mem_queue (other : String) : other ∈ cache.cachedItemQueue ↔ other ∈ cache.cachedItem := by
    rw [← Multiset.mem_coe, listed, Finset.mem_val, Finmap.mem_keys]
  have queued := releaseOld_queued listed key
  have distinct : cache.cachedItemQueue.Nodup := queue ▸ queued.nodup
  obtain ⟨popped, pops⟩ := makeRoom_pops queued room
  obtain ⟨taken, -, -, entry, requeued⟩ := store_spec stored
  have front : cache.cachedItemQueue = popped ++ roomy.cachedItemQueue := queue ▸ pops.front
  refine ⟨accepted, popped, roomy.cachedItemQueue, front, ?_, ?_, ?_, ?_, ?_, ?_⟩
  · rw [← count, ← entries]
    exact pops.enough
  · rw [← count, ← entries]
    exact pops.shortest
  · intro other member
    exact (mem_queue other).mp (front ▸ List.mem_append_left _ member)
  · intro other apart
    rw [entry, Finmap.lookup_insert_of_ne _ apart, pops.entries other, entries]
    simp only [apart, ne_eq, not_false_eq_true, and_true]
  · have place : pushed = true ↔ key ∉ roomy.cachedItemQueue := by
      have cases_of : key ∈ cache.cachedItem ↔ key ∈ popped ∨ key ∈ roomy.cachedItemQueue := by
        rw [← mem_queue key, front, List.mem_append]
      have apart : key ∈ popped → key ∉ roomy.cachedItemQueue := by
        intro first second
        rw [front] at distinct
        exact (List.disjoint_of_nodup_append distinct) first second
      rw [pops.flag, fresh, cases_of]
      tauto
    rw [requeued]
    by_cases kept_place : key ∈ roomy.cachedItemQueue
    · rw [if_pos kept_place, if_neg fun set => place.mp set kept_place]
    · rw [if_neg kept_place, if_pos (place.mpr kept_place)]
  · have present : key ∈ next.cachedItem := by
      rw [entry]
      exact Finmap.mem_insert.mpr (Or.inl rfl)
    rw [← Multiset.coe_count, relisted]
    exact Multiset.count_eq_one_of_mem next.cachedItem.keys.nodup (Finmap.mem_keys.mpr present)

/-- A provided cache accepts every insert that is not too long, and evicts as above. -/
theorem insert_evictsFront (provided : cache.Provided) (key : String) {length : Nat}
    (fits : slabType length ≤ 10) (value : ByteMemory) :
    ∃ next popped rest, cache.insert key length value = some (next, 0) ∧
      EvictsFront cache next key (2 ^ slabType length) popped rest := by
  obtain ⟨next, status, inserted, kept⟩ := insert_provided provided key length value
  obtain ⟨rfl, popped, rest, front⟩ :=
    evictsFront_of_insert provided.counted.queued kept.counted.queued fits inserted
  exact ⟨next, popped, rest, inserted, front⟩

/-! ## Which keys go -/

/-- Two parts of a queue release the sum of what they release. -/
theorem released_append (cachedItem : Table String GPUCachedItem) (first second : List String) :
    released key cachedItem (first ++ second) =
      released key cachedItem first + released key cachedItem second := by
  simp [released]

/-- Nothing releases less than nothing. -/
theorem released_nonneg (cachedItem : Table String GPUCachedItem) (popped : List String) :
    0 ≤ released key cachedItem popped := by
  apply List.sum_nonneg
  intro count member
  obtain ⟨other, -, rfl⟩ := List.mem_map.mp member
  positivity

/-- A queue is what stands before one of its keys, the key, and the rest. -/
theorem split_at {queue : List String} (member : key ∈ queue) :
    ∃ rest, queue = queue.takeWhile (· ≠ key) ++ key :: rest := by
  induction queue with
  | nil => exact absurd member List.not_mem_nil
  | cons first queue ih =>
    by_cases same : first = key
    · exact ⟨queue, by simp [same]⟩
    · have later : key ∈ queue :=
        (List.mem_cons.mp member).resolve_left fun equal => same equal.symm
      obtain ⟨rest, split⟩ := ih later
      refine ⟨rest, ?_⟩
      rw [List.takeWhile_cons_of_pos (by simp [same]), List.cons_append, ← split]

/-- A queued key goes exactly if the free slabs and what the keys before it release are fewer than
needed. -/
theorem EvictsFront.mem_popped {needed : Int} {popped rest : List String}
    (front : EvictsFront cache next key needed popped rest) {other : String}
    (queued : other ∈ cache.cachedItemQueue) :
    other ∈ popped ↔ cache.releasedNum key +
      released key cache.cachedItem (cache.cachedItemQueue.takeWhile (· ≠ other)) < needed := by
  obtain ⟨after, split⟩ := split_at queued
  have unlisted : other ∉ cache.cachedItemQueue.takeWhile (· ≠ other) := fun member => by
    simpa using List.mem_takeWhile_imp member
  generalize cache.cachedItemQueue.takeWhile (· ≠ other) = before at split unlisted ⊢
  have listed : before ++ [other] <+: cache.cachedItemQueue :=
    ⟨after, by rw [List.append_assoc, List.singleton_append, ← split]⟩
  have popping : popped <+: cache.cachedItemQueue := ⟨rest, front.front.symm⟩
  constructor
  · intro member
    have part : before ++ [other] <+: popped := by
      rcases List.prefix_or_prefix_of_prefix listed popping with part | part
      · exact part
      · rcases List.prefix_concat_iff.mp part with whole | inner
        · exact whole ▸ List.prefix_rfl
        · exact absurd (inner.subset member) unlisted
    have shorter : before ≠ popped := fun same => unlisted (same ▸ member)
    exact front.shortest before ((List.prefix_append before [other]).trans part) shorter
  · intro lacking
    by_contra spared
    have part : popped <+: before := by
      rcases List.prefix_or_prefix_of_prefix listed popping with part | part
      · exact absurd (part.subset (List.mem_append_right _ List.mem_cons_self)) spared
      · rcases List.prefix_concat_iff.mp part with whole | inner
        · exact absurd (whole ▸ List.mem_append_right _ List.mem_cons_self) spared
        · exact inner
    obtain ⟨more, rfl⟩ := part
    have enough := front.enough
    have nonneg := @released_nonneg key cache.cachedItem more
    rw [released_append] at lacking
    omega

/-- A cache of at least one page is provided for after any inserts. -/
theorem run_provided {pageNum : Nat} (pages : 1 ≤ pageNum) {device : Nat → ByteMemory}
    {calls : List InsertCall} (ran : machine.run (start pageNum device) calls = some cache) :
    cache.Provided := by
  refine Machine.run_invariant Provided ?_ (start_provided pages device) ran
  intro before call after provided stepped
  obtain ⟨status, inserted⟩ := machine_step.mp stepped
  obtain ⟨next, other, same, kept⟩ := insert_provided provided call.key call.length call.value
  rw [inserted] at same
  obtain ⟨rfl, -⟩ := Prod.mk.inj (Option.some.inj same)
  exact kept

/-- After any inserts into a cache of at least one page, an insert that is not too long pops the
shortest front of the queue that makes room for it, and nothing else goes. -/
theorem evicts_shortest_front {pageNum : Nat} (pages : 1 ≤ pageNum) {device : Nat → ByteMemory}
    {calls : List InsertCall} (ran : machine.run (start pageNum device) calls = some cache)
    (key : String) {length : Nat} (fits : slabType length ≤ 10) (value : ByteMemory) :
    ∃ next popped rest, cache.insert key length value = some (next, 0) ∧
      EvictsFront cache next key (2 ^ slabType length) popped rest :=
  insert_evictsFront (run_provided pages ran) key fits value

/-- A value of 1 MiB fills a device of one page, and the next insert makes room for itself. -/
theorem evicts_shortest_front_full : ∃ cache next popped rest,
    machine.run (start 1 fun _ _ => 0) [⟨"a", 1024 * 1024, fun _ => 97⟩] = some cache ∧
    cache.insert "b" 1 (fun _ => 98) = some (next, 0) ∧
    EvictsFront cache next "b" (2 ^ slabType 1) popped rest := by
  have pages : 1 ≤ 1 := le_rfl
  obtain ⟨cache, status, first, -⟩ :=
    insert_provided (start_provided pages fun _ _ => 0) "a" (1024 * 1024) fun _ => 97
  have ran : machine.run (start 1 fun _ _ => 0) [⟨"a", 1024 * 1024, fun _ => 97⟩] = some cache :=
    Machine.run_cons.mpr ⟨cache, machine_step.mpr ⟨status, first⟩, rfl⟩
  have fits : slabType 1 ≤ 10 := by decide
  obtain ⟨next, popped, rest, inserted, front⟩ :=
    evicts_shortest_front pages ran "b" fits fun _ => 98
  exact ⟨cache, next, popped, rest, ran, inserted, front⟩

end CudaDb.GpuCache
