import CudaDb.Verif.RamReaders

/-!
# How far an entry of the RAM cache can grow

An entry is never evicted, and a call appends to it only if it looked its key up before the entry
was there. So each worker appends at most once: it is counted for a key as soon as it has no miss
of the key pending, and from the first insert on no worker stops being counted. An entry therefore
owns at most the slabs of one value for each worker.
-/

namespace CudaDb.Readers

variable {Worker : Type*} [DecidableEq Worker] [Fintype Worker] {readers next : Readers Worker}
  {event : Event Worker} {limit : Nat}

/-- A worker counts for a key unless it has a miss of the key pending. -/
def settled (key : String) (call : ReadCall) : Nat := if call.pc.missed = some key then 0 else 1

/-- A worker that counts. -/
theorem settled_eq_one {key : String} {call : ReadCall} (settles : call.pc.missed ≠ some key) :
    settled key call = 1 := if_neg settles

/-- A worker that does not count. -/
theorem settled_eq_zero {key : String} {call : ReadCall} (misses : call.pc.missed = some key) :
    settled key call = 0 := if_pos misses

/-- A worker counts once. -/
theorem settled_le (key : String) (call : ReadCall) : settled key call ≤ 1 := by
  unfold settled
  split <;> omega

/-- The index answers only values of at most `limit` slabs. -/
def Answers (limit : Nat) : Event Worker → Prop
  | .read _ _ _ => True
  | .step _ outside => ∀ info ∈ outside.info, 2 ^ info.lengthType ≤ limit

/-- The entry of each key owns at most `limit` slabs for each worker that counts for it. -/
structure Grown (limit : Nat) (readers : Readers Worker) : Prop where
  /-- The slabs of the entry of a key, of which there are none without an entry. -/
  entries : ∀ key, (readers.cache.cachedItem.slot key).slabs.length ≤
    limit * Threads.total (settled key) readers.calls
  /-- The values that are on the way to an insert. -/
  carried : ∀ worker info, (readers.calls worker).pc.carried = some info →
    2 ^ info.lengthType ≤ limit

/-- An insert appends at most the slabs of its value to the entry of its key, and nothing to those
of others. -/
theorem insert_slot {cache after : CpuCache} {key : String} {info : IndexInfo}
    {value : ByteMemory} (inserted : cache.insert key info value = some after) (asked : String) :
    (after.cachedItem.slot asked).slabs.length ≤ (cache.cachedItem.slot asked).slabs.length +
      if asked = key then 2 ^ info.lengthType else 0 := by
  by_cases full : cache.pool.freeNum < 2 ^ info.lengthType
  · rw [CpuCache.insert_refused full inserted]
    exact Nat.le_add_right _ _
  obtain ⟨taken, length, entries, -⟩ := CpuCache.insert_appends full inserted
  rw [entries, Table.slot, Table.lookup_insert_if]
  by_cases same : asked = key
  · rw [if_pos same, if_pos same, Option.getD_some, List.length_append, length, same]
  · rw [if_neg same, if_neg same]
    exact le_rfl

/-- An access of a call keeps the bound on the entry of a key. -/
theorem step_entries {worker : Worker} {outside : Outside} {cache : CpuCache} {call : ReadCall}
    (grown : readers.Grown limit)
    (taken : readers.cache.readStep outside (readers.calls worker) = some (cache, call))
    (key : String) : (cache.cachedItem.slot key).slabs.length ≤
      limit * Threads.total (settled key) (Function.update readers.calls worker call) := by
  have step := CpuCache.readStep_spec taken
  have moved := Threads.total_update (settled key) readers.calls worker call
  have before := settled_le key (readers.calls worker)
  have bounded := grown.entries key
  rcases step.cache with ⟨-, same⟩ | ⟨inserted, info, standing, returned, went⟩
  · rw [same]
    by_cases settles : call.pc.missed = some key
    · rcases step.missed key settles with goes_on | absent
      · -- The miss was pending already.
        rw [settled_eq_zero settles, settled_eq_zero goes_on] at moved
        have kept : Threads.total (settled key) readers.calls =
            Threads.total (settled key) (Function.update readers.calls worker call) := by omega
        rw [← kept]
        exact bounded
      · -- A new miss leaves the count, but there is no entry yet.
        have nothing : (readers.cache.cachedItem.slot key).slabs.length = 0 := by
          rw [Table.slot, Finmap.lookup_eq_none.mpr absent]
          rfl
        rw [nothing]
        exact Nat.zero_le _
    · rw [settled_eq_one settles] at moved
      have more : Threads.total (settled key) readers.calls ≤
          Threads.total (settled key) (Function.update readers.calls worker call) := by omega
      exact bounded.trans (Nat.mul_le_mul_left limit more)
  · have appended := insert_slot went key
    have settles : call.pc.missed ≠ some key := by
      rw [returned]
      exact fun missed => by cases missed
    rw [settled_eq_one settles] at moved
    by_cases same : key = inserted
    · -- The worker that appends is counted from now on.
      have pending : (readers.calls worker).pc.missed = some key := by
        rw [standing, same]
        rfl
      have small : 2 ^ info.lengthType ≤ limit := by
        apply grown.carried worker info
        rw [standing]
        rfl
      rw [settled_eq_zero pending] at moved
      have one_more : Threads.total (settled key) (Function.update readers.calls worker call) =
          Threads.total (settled key) readers.calls + 1 := by omega
      rw [if_pos same] at appended
      rw [one_more, Nat.mul_add, Nat.mul_one]
      omega
    · rw [if_neg same] at appended
      have more : Threads.total (settled key) readers.calls ≤
          Threads.total (settled key) (Function.update readers.calls worker call) := by omega
      exact appended.trans (bounded.trans (Nat.mul_le_mul_left limit more))

/-- Every event keeps the entries within their bounds, if the index answers values of at most
`limit` slabs. -/
theorem step_grown (grown : readers.Grown limit) (answers : Answers limit event)
    (stepped : machine.step readers event = some next) : next.Grown limit := by
  cases event with
  | read worker key value =>
    simp only [machine] at stepped
    split at stepped
    · next rest =>
      obtain rfl := Option.some.inj stepped
      have nothing : (readers.calls worker).pc.missed = none := by
        generalize (readers.calls worker).pc = pc at rest ⊢
        cases pc <;> first | rfl | cases rest
      constructor
      · intro asked
        have before : settled asked (readers.calls worker) = 1 := by
          apply settled_eq_one
          rw [nothing]
          exact fun missed => by cases missed
        have after : settled asked { pc := .find key, value } = 1 :=
          settled_eq_one fun missed => by cases missed
        have moved := Threads.total_update (settled asked) readers.calls worker
          { pc := .find key, value }
        have kept : Threads.total (settled asked)
            (Function.update readers.calls worker { pc := .find key, value }) =
              Threads.total (settled asked) readers.calls := by omega
        rw [kept]
        exact grown.entries asked
      · exact Threads.forall_update (fun call : ReadCall => ∀ info,
          call.pc.carried = some info → 2 ^ info.lengthType ≤ limit)
          (fun info carried => by cases carried) grown.carried
    · cases stepped
  | step worker outside =>
    obtain ⟨⟨cache, call⟩, taken, rfl⟩ := Option.map_eq_some_iff.mp stepped
    constructor
    · exact step_entries grown taken
    · refine Threads.forall_update (fun call : ReadCall => ∀ info,
        call.pc.carried = some info → 2 ^ info.lengthType ≤ limit) ?_ grown.carried
      intro info carried
      rcases (CpuCache.readStep_spec taken).carried info carried with kept | answered
      · exact grown.carried worker info kept
      · exact answers info answered

omit [DecidableEq Worker] in
/-- There is no entry at the start. -/
theorem start_grown (limit pageSize pageNum : Nat) (cache : CpuCache)
    (value : Worker → ByteMemory) : (start pageSize pageNum cache value).Grown limit where
  entries := by
    intro key
    have nothing : (start pageSize pageNum cache value).cache.cachedItem.slot key = default := by
      rw [Table.slot]
      exact congrArg (Option.getD · default) (Finmap.lookup_empty key)
    rw [nothing]
    exact Nat.zero_le _
  carried := by
    intro worker info carried
    cases carried

omit [DecidableEq Worker] in
/-- An entry owns at most `limit` slabs for each worker. -/
theorem Grown.length_le (grown : readers.Grown limit) {key : String} {item : CPUCachedItem}
    (found : readers.cache.cachedItem.lookup key = some item) :
    item.slabs.length ≤ limit * Fintype.card Worker := by
  have bounded := grown.entries key
  rw [Table.slot_of_lookup found] at bounded
  have once : ∀ worker, settled key (readers.calls worker) ≤ 1 := fun worker => settled_le key _
  have workers := Threads.total_le (settled key) once
  rw [Nat.mul_one] at workers
  exact bounded.trans (Nat.mul_le_mul_left limit workers)

/-- In every run in which the index answers values of at most `limit` slabs, an entry owns at most
`limit` slabs for each worker. -/
theorem run_grown {pageSize pageNum : Nat} {cache : CpuCache} {value : Worker → ByteMemory}
    {events : List (Event Worker)}
    (along : machine.Along (fun _ => Answers limit) (start pageSize pageNum cache value) events)
    (ran : machine.run (start pageSize pageNum cache value) events = some readers)
    {key : String} {item : CPUCachedItem}
    (found : readers.cache.cachedItem.lookup key = some item) :
    item.slabs.length ≤ limit * Fintype.card Worker := by
  have grown : readers.Grown limit :=
    Machine.run_invariant_along (Grown limit)
      (fun _ _ _ grown answers stepped => step_grown grown answers stepped)
      (start_grown limit pageSize pageNum cache value) along ran
  exact grown.length_le found

end CudaDb.Readers
