import CudaDb.Verif.BufferLookup

/-!
# When the write buffer keeps keys apart

The buffer is indexed by the hash alone, and neither `WriteBuffer::read` nor the test in
`WriteBuffer::write` compares the stored key. A key is served and admitted as if the buffer held
full keys exactly while no other buffered key has its hash.
-/

namespace CudaDb.Storage

variable {Db : Type*} {hash : String → UInt64} {leveldb : LevelDb Db} {key : String}

/-- `WriteBuffer::read` copies out nothing but a value that was accepted under the key. -/
def ReadsOwn (hash : String → UInt64) (storage : Storage Db) (log : Log) (key : String) : Prop :=
  ∀ memory, storage.buffer.read hash key memory = (0, memory) ∨
    ∃ value, (key, value) ∈ log ∧
      storage.buffer.read hash key memory = (value.length, memory.write value)

/-- `WriteBuffer::write` refuses a short value of the key only if the key is buffered. -/
def RefusesOwn (hash : String → UInt64) (storage : Storage Db) (key : String) : Prop :=
  ∀ value, value.length ≤ slabSize 10 →
    (storage.buffer.writeLocked hash key value).map Prod.fst = some (-1) →
    ∃ hashed info, storage.buffer.kvStore.lookup hashed = some info ∧ info.key = key

/-- A key that is alone under its hash reads its own values. -/
theorem readsOwn_of_alone {storage : Storage Db} {log : Log} {pending : List Nat}
    (coherent : storage.Coherent hash leveldb pending) (logged : storage.Logged log)
    (alone : Alone hash storage.buffer key) : storage.ReadsOwn hash log key := by
  intro memory
  unfold WriteBuffer.read
  cases found : storage.buffer.kvStore.lookup (hash key) with
  | none => exact Or.inl rfl
  | some info =>
    have hashed := (coherent.buffer.entries _ info found).1
    have own : info.key = key := alone _ info found hashed
    exact Or.inr ⟨info.value, own ▸ logged _ info found, rfl⟩

/-- The status of `write` under its lock is -1 only where the hash is stored. -/
theorem stored_of_refused {buffer : WriteBuffer} {value : List UInt8}
    (refused : (buffer.writeLocked hash key value).map Prod.fst = some (-1)) :
    hash key ∈ buffer.kvStore := by
  by_contra absent
  rw [WriteBuffer.writeLocked, if_neg absent] at refused
  dsimp only at refused
  split at refused
  · simp at refused
  · simp at refused

/-- A key that is alone under its hash is refused only if it is buffered. -/
theorem refusesOwn_of_alone {storage : Storage Db} {pending : List Nat}
    (coherent : storage.Coherent hash leveldb pending)
    (alone : Alone hash storage.buffer key) : storage.RefusesOwn hash key := by
  intro value _ refused
  obtain ⟨info, found⟩ := Finmap.mem_iff.mp (stored_of_refused refused)
  have hashed := (coherent.buffer.entries _ info found).1
  exact ⟨hash key, info, found, alone _ info found hashed⟩

/-- A key that is refused only if it is buffered is alone under its hash. -/
theorem alone_of_refusesOwn {storage : Storage Db} {pending : List Nat}
    (coherent : storage.Coherent hash leveldb pending)
    (refuses : storage.RefusesOwn hash key) : Alone hash storage.buffer key := by
  intro hashed info found same
  have here : hashed = hash key := (coherent.buffer.entries hashed info found).1.symm.trans same
  have present : hash key ∈ storage.buffer.kvStore := Finmap.mem_iff.mpr ⟨info, here ▸ found⟩
  have refused : (storage.buffer.writeLocked hash key []).map Prod.fst = some (-1) := by
    rw [WriteBuffer.writeLocked, if_pos present]
    rfl
  obtain ⟨place, other, there, own⟩ := refuses [] (Nat.zero_le _) refused
  have place_eq : place = hash key := by
    rw [← own]
    exact (coherent.buffer.entries place other there).1.symm
  obtain rfl : info = other := by
    rw [here] at found
    rw [place_eq] at there
    exact Option.some.inj (found.symm.trans there)
  exact own

/-- In every state of every run, whatever the hash, a key is served and refused on its own account
exactly when no other buffered key has its hash. -/
theorem isolated_iff_alone {pageSize pagePerBlock pageNum : Nat} {events : List Event}
    {final : Session Db} {log : Log}
    (ran : ((machine hash leveldb).observed (accept hash)).run
      (start leveldb pageSize pagePerBlock pageNum, []) events = some (final, log))
    (key : String) :
    final.storage.ReadsOwn hash log key ∧ final.storage.RefusesOwn hash key ↔
      Alone hash final.storage.buffer key := by
  obtain ⟨coherent, logged⟩ := run_logged ran
  constructor
  · intro isolated
    exact alone_of_refusesOwn coherent.storage isolated.2
  · intro alone
    exact ⟨readsOwn_of_alone coherent.storage logged alone,
      refusesOwn_of_alone coherent.storage alone⟩

/-- A write of one key. -/
def writeA : List Event := [.write "a" [1], .step false, .step false, .step false]

/-- A write of another key. -/
def writeBb : List Event := [.write "bb" [2], .step false, .step false, .step false]

/-- Where the hash is the length, two buffered keys of different lengths are served and refused on
their own account, and a third key with the length of the first one is not. -/
theorem isolated_after_two_writes :
    ∃ final log,
      ((machine lengthHash LevelDb.table).observed (accept lengthHash)).run
        (start LevelDb.table (1024 * 1024) 64 1024, []) (writeA ++ writeBb) = some (final, log) ∧
      (final.storage.ReadsOwn lengthHash log "a" ∧ final.storage.RefusesOwn lengthHash "a") ∧
      (final.storage.ReadsOwn lengthHash log "bb" ∧ final.storage.RefusesOwn lengthHash "bb") ∧
      ¬ (final.storage.ReadsOwn lengthHash log "c" ∧ final.storage.RefusesOwn lengthHash "c") := by
  have executed : ∃ final log,
      ((machine lengthHash LevelDb.table).observed (accept lengthHash)).run
        (start LevelDb.table (1024 * 1024) 64 1024, []) (writeA ++ writeBb) = some (final, log) ∧
      log = [("bb", [2]), ("a", [1])] ∧
      final.storage.buffer.kvStore.lookup 1 = some ⟨"a", [1], 0⟩ := ⟨_, _, rfl, rfl, rfl⟩
  obtain ⟨final, log, ran, accepted, buffered⟩ := executed
  have only (hashed : UInt64) (info : KvInfo)
      (found : final.storage.buffer.kvStore.lookup hashed = some info) :
      info.key = "bb" ∨ info.key = "a" := by
    have logged := (run_logged ran).2 hashed info found
    rw [accepted] at logged
    simp only [List.mem_cons, Prod.mk.injEq, List.not_mem_nil, or_false] at logged
    exact logged.imp And.left And.left
  have alone_a : Alone lengthHash final.storage.buffer "a" := by
    intro hashed info found same
    refine (only hashed info found).resolve_left fun other => ?_
    rw [other] at same
    exact absurd same (by decide)
  have alone_bb : Alone lengthHash final.storage.buffer "bb" := by
    intro hashed info found same
    refine (only hashed info found).resolve_right fun other => ?_
    rw [other] at same
    exact absurd same (by decide)
  have crowded : ¬ Alone lengthHash final.storage.buffer "c" := by
    intro alone
    have same : "a" = "c" := alone 1 _ buffered rfl
    exact absurd same (by decide)
  exact ⟨final, log, ran, (isolated_iff_alone ran "a").mpr alone_a,
    (isolated_iff_alone ran "bb").mpr alone_bb, fun isolated =>
      crowded ((isolated_iff_alone ran "c").mp isolated)⟩

/-- Under a hash that does not tell two keys apart, the value written under the first is read
under the second. -/
theorem not_isolated_of_collision :
    ¬ ∀ (hash : String → UInt64) (events : List Event) (final : Session (Table String IndexRecord))
      (log : Log),
      ((machine hash LevelDb.table).observed (accept hash)).run
        (start LevelDb.table (1024 * 1024) 64 1024, []) events = some (final, log) →
      ∀ key, final.storage.ReadsOwn hash log key ∧ final.storage.RefusesOwn hash key := by
  intro always
  have executed : ∃ final log,
      ((machine (fun _ => 0) LevelDb.table).observed (accept fun _ => 0)).run
        (start LevelDb.table (1024 * 1024) 64 1024, []) writeA = some (final, log) ∧
      final.storage.buffer.read (fun _ => 0) "b" (fun _ => 0) =
        (1, ByteMemory.write (fun _ => 0) [1]) ∧ log = [("a", [1])] :=
    ⟨_, _, rfl, rfl, rfl⟩
  obtain ⟨final, log, ran, served, logged⟩ := executed
  rcases (always _ writeA final log ran "b").1 (fun _ => 0) with nothing | ⟨value, own, -⟩
  · rw [served] at nothing
    cases nothing
  · simp [logged] at own

end CudaDb.Storage
