import CudaDb.Verif.GpuEviction
import CudaDb.Verif.GpuReadBack
import CudaDb.Model.GpuReaders

/-!
# When a GPU read is atomic

Between the lookup of a read and its copy nothing keeps the entry in the cache. An insert of
another key evicts it when the free slabs and the counts of the keys queued before it are too few,
and the copy then goes through a node that is gone. These are the only harmful inserts: as long as
none of them comes between the two steps of a read, every copy finds its entry with its slabs and
returns the whole value of its own key.
-/

namespace CudaDb.GpuReaders

open GpuCache

variable {Worker : Type*} {readers next : GpuReaders Worker}

/-! ## What a read needs -/

/-- The node is still the one of the key. -/
def Alive (readers : GpuReaders Worker) (key : String) (node : Nat) : Prop :=
  key ∈ readers.cache.cachedItem ∧ readers.node key = node

/-- A return of 0 or of a whole value that was inserted under the key. -/
def Whole (readers : GpuReaders Worker) (key : String) (length : Nat) (value : ByteMemory) : Prop :=
  length = 0 ∨ ∃ call ∈ readers.inserted, call.key = key ∧ length = call.length ∧
    value.StartsWith call.bytes

/-- What an atomic read is like: the entry that it located is there when it comes to its copy, and
it has returned 0 or a whole value of its own key. -/
def Sound (readers : GpuReaders Worker) : GpuReadPc → Prop
  | .idle => True
  | .copy key node _ => readers.Alive key node
  | .returned key length value => readers.Whole key length value
  | .lost _ => False

/-- What a state of atomic reads is like. -/
structure Atomic (readers : GpuReaders Worker) : Prop where
  /-- The entries own their slabs, no two of them the same. -/
  slabs : readers.cache.Partition
  /-- The reads are atomic. -/
  reads : ∀ worker, readers.Sound (readers.calls worker)

/-- An insert evicts no entry that a read has located: the free slabs and the counts of the keys
queued before it make room already. -/
def Spares (readers : GpuReaders Worker) : Event Worker → Prop
  | .insert call => call.key ∉ readers.cache.cachedItem → slabType call.length ≤ 10 →
      ∀ worker key node value, readers.calls worker = .copy key node value →
        readers.Alive key node →
        2 ^ slabType call.length ≤ readers.cache.pool.freeNum +
          released call.key readers.cache.cachedItem
            (readers.cache.cachedItemQueue.takeWhile (· ≠ key))
  | _ => True

/-! ## The invariant -/

/-- What holds of the cache in every interleaving. -/
structure Kept (readers : GpuReaders Worker) : Prop where
  /-- The slabs are partitioned and the queue lists the keys. -/
  owned : readers.cache.Owned
  /-- The cache has no slab, or as many as any value needs. -/
  pages : readers.cache.slabNum = 0 ∨ readers.cache.Provided
  /-- Every entry holds a value that was inserted under its key. -/
  holds : ∃ last, readers.cache.Holds last ∧ ∀ key value, last key = some value →
    ∃ call ∈ readers.inserted, call.key = key ∧ call.bytes = value

/-- A cache without slabs is empty. -/
theorem empty_of_no_slabs {cache : GpuCache} (partition : cache.Partition)
    (none : cache.slabNum = 0) (key : String) : key ∉ cache.cachedItem := by
  intro cached
  obtain ⟨item, found⟩ := Finmap.mem_iff.mp cached
  have nonempty : 0 < item.slabs.length := by
    rw [partition.sized key item found]
    positivity
  have slab := List.getElem_mem nonempty
  have owned : item.slabs[0] ∈ cache.slabIds :=
    Multiset.mem_add.mpr (Or.inl (Table.mem_total.mpr ⟨key, item, found, slab⟩))
  rw [partition.ids, none] at owned
  exact absurd owned (Multiset.notMem_zero _)

/-- The allocated cache has the invariant. -/
theorem start_kept (pageNum : Nat) (device : Nat → ByteMemory) :
    (start pageNum device : GpuReaders Worker).Kept where
  owned := start_owned pageNum device
  pages := by
    rcases Nat.eq_zero_or_pos pageNum with rfl | pages
    · left
      change 0 * (1024 * 1024) / 1024 = 0
      simp
    · exact Or.inr (start_provided pages device)
  holds := by
    refine ⟨fun _ => none, ?_, fun _ _ found => (by cases found)⟩
    intro key item found
    rw [start, allocateMemory_lookup] at found
    cases found

/-- The memory behind an insert starts with its bytes, as many as it says. -/
theorem bytes_spec (call : InsertCall) :
    call.bytes.length = call.length ∧ call.value.StartsWith call.bytes := by
  refine ⟨by simp [InsertCall.bytes, ByteMemory.take], fun position inside => ?_⟩
  simp [InsertCall.bytes, ByteMemory.take]

/-- What the insert of a key that is not cached keeps. -/
theorem insert_kept (call : InsertCall) {cache : GpuCache} {status : Int} (kept : readers.Kept)
    (absent : call.key ∉ readers.cache.cachedItem)
    (inserted : readers.cache.insert call.key call.length call.value = some (cache, status)) :
    cache.Owned ∧ (cache.slabNum = 0 ∨ cache.Provided) := by
  have owned := kept.owned
  refine ⟨insert_owned owned (Or.inl absent) inserted, ?_⟩
  rcases kept.pages with none | provided
  · left
    have nonempty : readers.cache.Nonempty := by
      intro key item found
      exact absurd (Finmap.mem_iff.mpr ⟨item, found⟩)
        (empty_of_no_slabs owned.partition none key)
    rw [(insert_nonempty nonempty inserted).2, none]
  · right
    obtain ⟨after, other, same, still⟩ :=
      insert_provided provided call.key call.length call.value
    rw [inserted] at same
    obtain ⟨rfl, -⟩ := Prod.mk.inj (Option.some.inj same)
    exact still

/-! ## What the steps do to the reads -/

/-- The copy of an entry that is still there returns a whole value of its key. -/
theorem copy_whole (kept : readers.Kept) {key : String} {node : Nat}
    (alive : readers.Alive key node) (value : ByteMemory) :
    ∃ length filled, readers.copy key node value = .returned key length filled ∧
      readers.Whole key length filled := by
  obtain ⟨item, found⟩ := Finmap.mem_iff.mp alive.1
  obtain ⟨last, holds, known⟩ := kept.holds
  obtain ⟨bytes, recorded, length, stores⟩ := holds key item found
  obtain ⟨call, member, own, rfl⟩ := known key bytes recorded
  refine ⟨item.length,
    SlabPool.gather 1024 readers.cache.pool.slabs item.slabs 0 value, ?_, Or.inr ⟨call, member,
      own, length.trans (bytes_spec call).1,
      SlabPool.gather_startsWith stores (by decide) value⟩⟩
  rw [copy, found]
  exact if_pos alive.2

/-- A cached key survives the insert of another exactly if it is spared. -/
theorem survives_iff (call : InsertCall) {cache : GpuCache} {status : Int} (kept : readers.Kept)
    (absent : call.key ∉ readers.cache.cachedItem) (short : slabType call.length ≤ 10)
    (inserted : readers.cache.insert call.key call.length call.value = some (cache, status))
    {key : String} (cached : key ∈ readers.cache.cachedItem) :
    key ∈ cache.cachedItem ↔ 2 ^ slabType call.length ≤ readers.cache.pool.freeNum +
      released call.key readers.cache.cachedItem
        (readers.cache.cachedItemQueue.takeWhile (· ≠ key)) := by
  have listed := kept.owned.queued
  have relisted := (insert_kept call kept absent inserted).1.queued
  obtain ⟨-, popped, rest, front⟩ := evictsFront_of_insert listed relisted short inserted
  have queued : key ∈ readers.cache.cachedItemQueue := by
    rw [← Multiset.mem_coe, listed, Finset.mem_val, Finmap.mem_keys]
    exact cached
  have apart : key ≠ call.key := fun same => absent (same ▸ cached)
  have goes := front.mem_popped queued
  rw [releasedNum, if_neg absent, add_zero] at goes
  have entry := front.entries key apart
  rw [← not_iff_not, not_le, ← goes, ← Finmap.lookup_eq_none, entry]
  by_cases popping : key ∈ popped
  · exact iff_of_true (if_pos popping) popping
  · rw [if_neg popping, Finmap.lookup_eq_none]
    exact iff_of_false (fun gone => gone cached) popping

variable [DecidableEq Worker]

/-- Every step keeps the invariant. -/
theorem step_kept {event : Event Worker} (kept : readers.Kept)
    (stepped : machine.step readers event = some next) : next.Kept := by
  cases event with
  | find worker key value =>
    simp only [machine] at stepped
    split at stepped
    · obtain rfl := Option.some.inj stepped
      exact ⟨kept.owned, kept.pages, kept.holds⟩
    · cases stepped
  | copy worker =>
    simp only [machine] at stepped
    split at stepped
    · obtain rfl := Option.some.inj stepped
      exact ⟨kept.owned, kept.pages, kept.holds⟩
    · cases stepped
  | insert call =>
    simp only [machine] at stepped
    split at stepped
    · cases stepped
    next absent =>
    obtain ⟨⟨cache, status⟩, inserted, rfl⟩ := Option.map_eq_some_iff.mp stepped
    obtain ⟨owned, pages⟩ := insert_kept call kept absent inserted
    obtain ⟨last, holds, known⟩ := kept.holds
    rcases insert_cases inserted with ⟨-, same, rfl⟩ | ⟨short, rfl, -⟩
    · dsimp only
      rw [if_neg (by decide)]
      exact ⟨owned, pages, last, same ▸ holds, known⟩
    · dsimp only
      rw [if_pos rfl]
      obtain ⟨size, starts⟩ := bytes_spec call
      rw [← size] at inserted short
      obtain ⟨held, -⟩ :=
        insert_holds kept.owned holds absent (slabType_le_ten.mp short) starts inserted
      refine ⟨owned, pages, _, held, fun key value recorded => ?_⟩
      by_cases same : key = call.key
      · subst same
        rw [Function.update_self] at recorded
        exact ⟨call, List.mem_append_right _ List.mem_cons_self, rfl, Option.some.inj recorded⟩
      · rw [Function.update_of_ne same] at recorded
        obtain ⟨earlier, member, rest⟩ := known key value recorded
        exact ⟨earlier, List.mem_append_left _ member, rest⟩

/-- A thread whose call goes on soundly leaves the others as they are. -/
theorem Atomic.update (atomic : readers.Atomic) (worker : Worker) {pc : GpuReadPc}
    (sound : readers.Sound pc) :
    Atomic { readers with calls := Function.update readers.calls worker pc } where
  slabs := atomic.slabs
  reads := by
    intro other
    dsimp only
    by_cases same : other = worker
    · rw [same, Function.update_self]
      cases pc with
      | idle => trivial
      | copy key node value => exact sound
      | returned key length value => exact sound
      | lost key => exact sound
    · rw [Function.update_of_ne same]
      have before := atomic.reads other
      cases stands : readers.calls other with
      | idle => trivial
      | copy key node value | returned key length value | lost key =>
        rw [stands] at before
        exact before

/-- An insert leads from atomic reads to atomic reads exactly if it spares what they located. -/
theorem insert_atomic_iff {call : InsertCall} (kept : readers.Kept) (atomic : readers.Atomic)
    (stepped : machine.step readers (.insert call) = some next) :
    readers.Spares (.insert call) ↔ next.Atomic := by
  have later := (step_kept kept stepped).owned.partition
  simp only [machine] at stepped
  split at stepped
  · cases stepped
  next absent =>
  obtain ⟨⟨cache, status⟩, inserted, rfl⟩ := Option.map_eq_some_iff.mp stepped
  rcases insert_cases inserted with ⟨long, same, rfl⟩ | ⟨short, rfl, -⟩
  · -- A value that is too long changes nothing.
    refine iff_of_true (fun _ short => absurd long (by omega)) ?_
    dsimp only
    rw [if_neg (by decide), same]
    exact atomic
  dsimp only at later ⊢
  rw [if_pos rfl] at later ⊢
  constructor
  · intro spares
    refine ⟨later, fun worker => ?_⟩
    have before := atomic.reads worker
    dsimp only
    cases located : readers.calls worker with
    | idle => trivial
    | copy key node value =>
      rw [located] at before
      have room := spares absent short worker key node value located before
      have apart : key ≠ call.key := fun same => absent (same ▸ before.1)
      refine ⟨(survives_iff call kept absent short inserted before.1).mpr room, ?_⟩
      exact (Function.update_of_ne apart _ _).trans before.2
    | returned key length value =>
      rw [located] at before
      rcases before with nothing | ⟨earlier, member, rest⟩
      · exact Or.inl nothing
      · exact Or.inr ⟨earlier, List.mem_append_left _ member, rest⟩
    | lost key =>
      rw [located] at before
      exact before
  · intro after _ _ worker key node value located alive
    have survives := after.reads worker
    dsimp only at survives
    rw [located] at survives
    exact (survives_iff call kept absent short inserted alive.1).mp survives.1

/-- A step leads from atomic reads to atomic reads exactly if it spares what they located. -/
theorem step_atomic_iff {event : Event Worker} (kept : readers.Kept) (atomic : readers.Atomic)
    (stepped : machine.step readers event = some next) :
    readers.Spares event ↔ next.Atomic := by
  cases event with
  | insert call => exact insert_atomic_iff kept atomic stepped
  | find worker key value =>
    simp only [machine] at stepped
    split at stepped
    swap
    · cases stepped
    obtain rfl := Option.some.inj stepped
    refine iff_of_true trivial (atomic.update worker ?_)
    unfold find
    by_cases cached : key ∈ readers.cache.cachedItem
    · rw [if_pos cached]
      exact ⟨cached, rfl⟩
    · rw [if_neg cached]
      exact Or.inl rfl
  | copy worker =>
    simp only [machine] at stepped
    split at stepped
    swap
    · cases stepped
    next key node value located =>
    obtain rfl := Option.some.inj stepped
    refine iff_of_true trivial (atomic.update worker ?_)
    have alive := atomic.reads worker
    rw [located] at alive
    obtain ⟨length, filled, returned, whole⟩ := copy_whole kept alive value
    rw [returned]
    exact whole

/-- An insert that cannot be made evicts nothing that a read has located. -/
theorem refused_spares {event : Event Worker} (kept : readers.Kept)
    (refused : machine.step readers event = none) : readers.Spares event := by
  cases event with
  | find worker key value | copy worker => trivial
  | insert call =>
    intro absent _ worker key node value _ alive
    rcases kept.pages with none | provided
    · exact absurd alive.1 (empty_of_no_slabs kept.owned.partition none key)
    · obtain ⟨cache, status, inserted, -⟩ :=
        insert_provided provided call.key call.length call.value
      simp only [machine] at refused
      rw [if_neg absent, inserted] at refused
      cases refused

/-- In every interleaving of reads and inserts, all reads are atomic in all states exactly if every
insert spares the entries that reads have located and not yet copied. -/
theorem atomic_iff_spares (pageNum : Nat) (device : Nat → ByteMemory)
    (events : List (Event Worker)) :
    machine.Along Spares (start pageNum device) events ↔
      machine.Always Atomic (start pageNum device : GpuReaders Worker) events := by
  refine Machine.along_iff_always Kept (fun _ _ _ => step_kept)
    (fun _ _ _ => step_atomic_iff) (fun _ _ => refused_spares) events (start_kept pageNum device) ?_
  exact ⟨(start_owned pageNum device).partition, fun _ => trivial⟩

/-- A value of one slab is inserted and located by a read. -/
def locateOne : List (Event Unit) := [.insert ⟨"a", 1, fun _ => 97⟩, .find () "a" fun _ => 0]

/-- Before the read copies it, it is evicted by a value that needs all slabs. -/
def evictLocated : List (Event Unit) :=
  locateOne ++ [.insert ⟨"b", 2 ^ 10 * 1024, fun _ => 98⟩, .copy ()]

/-- The read then goes through the entry that was erased. -/
theorem not_atomic_of_evictLocated : ∃ readers,
    machine.run (start 1 fun _ _ => 0) evictLocated = some readers ∧
      readers.calls () = .lost "a" ∧ ¬ readers.Atomic := by
  have executed : ∃ readers, machine.run (start 1 fun _ _ => 0) locateOne = some readers ∧
      readers.calls () = .copy "a" 0 (fun _ => 0) ∧ "a" ∈ readers.cache.cachedItem ∧
      "b" ∉ readers.cache.cachedItem ∧ readers.cache.pool.freeNum = 1023 ∧
      readers.cache.cachedItemQueue = ["a"] ∧ readers.cache.slabNum = 1024 :=
    ⟨_, rfl, rfl, by decide, by decide, rfl, rfl, rfl⟩
  obtain ⟨readers, ran, located, cached, absent, free, queue, slabs⟩ := executed
  have kept : readers.Kept :=
    Machine.run_invariant Kept (fun _ _ _ => step_kept) (start_kept 1 _) ran
  have provided : readers.cache.Provided := kept.pages.resolve_left (by rw [slabs]; decide)
  have needed : slabType (2 ^ 10 * 1024) = 10 := slabType_full 10
  let large : InsertCall := ⟨"b", 2 ^ 10 * 1024, fun _ => 98⟩
  obtain ⟨cache, status, inserted, -⟩ := insert_provided provided "b" (2 ^ 10 * 1024) large.value
  have relisted := (insert_kept large kept absent inserted).1.queued
  obtain ⟨rfl, -⟩ := evictsFront_of_insert kept.owned.queued relisted needed.le inserted
  have evicted : "a" ∉ cache.cachedItem := by
    have nothing_before : ["a"].takeWhile (· ≠ "a") = [] := by decide
    rw [survives_iff large kept absent needed.le inserted cached, needed, free, queue,
      nothing_before, released_nil]
    decide
  let after : GpuReaders Unit := { readers with
    cache
    node := Function.update readers.node "b" readers.inserted.length
    inserted := readers.inserted ++ [large] }
  have stored : machine.step readers (.insert large) = some after := by
    simp only [machine]
    rw [if_neg absent, inserted]
    rfl
  have lost : after.copy "a" 0 (fun _ => 0) = .lost "a" := by
    have gone : after.cache.cachedItem.lookup "a" = none := Finmap.lookup_eq_none.mpr evicted
    rw [copy, gone]
  have copied : machine.step after (.copy ()) = some { after with
      calls := Function.update after.calls () (.lost "a") } := by
    have same : after.calls () = .copy "a" 0 (fun _ => 0) := located
    simp only [machine, same, lost]
  have later : machine.run readers [.insert large, .copy ()] = some { after with
      calls := Function.update after.calls () (.lost "a") } :=
    Machine.run_cons.mpr ⟨after, stored, Machine.run_cons.mpr ⟨_, copied, rfl⟩⟩
  have ended : (Function.update after.calls () (.lost "a")) () = .lost "a" :=
    Function.update_self _ _ _
  refine ⟨_, Machine.run_append.mpr ⟨readers, ran, later⟩, ended, fun atomic => ?_⟩
  have sound := atomic.reads ()
  dsimp only at sound
  rw [ended] at sound
  exact sound

end CudaDb.GpuReaders
