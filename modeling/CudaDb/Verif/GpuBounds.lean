import CudaDb.Verif.GpuCounters
import CudaDb.Verif.GpuReadBack

/-!
# What an insert reads of its value

`GpuCache::insert` copies whole slabs from the value pointer, as many as the type of the length
asks for, and `mog_gpu::insert` passes the characters of a string. Every byte that is copied ends
up in a slab, so what an insert reads is what its result depends on: the bytes of the slabs, all
of them. They stay within the string and its terminating NUL only when the string fills its slabs,
or leaves room for just the NUL.
-/

namespace CudaDb

namespace GpuCache

variable {cache : GpuCache} {key : String} {length : Nat}

/-- An insert depends on the value only as far as its slabs reach. -/
theorem insert_congr {first second : ByteMemory}
    (agree : ∀ position < 2 ^ slabType length * 1024, first position = second position) :
    cache.insert key length first = cache.insert key length second := by
  have stores (roomy : GpuCache) (pushFlag : Bool) :
      store key length (slabType length) first roomy pushFlag =
        store key length (slabType length) second roomy pushFlag := by
    unfold store
    rw [SlabPool.fill_congr (by simpa using agree)]
  simp only [insert, stores]

/-- An insert that is accepted depends on the last byte of the last slab. -/
theorem insert_reads_last {first second : ByteMemory} {after other : GpuCache} {status code : Int}
    (fits : slabType length ≤ 10)
    (inserted : cache.insert key length first = some (after, status))
    (reinserted : cache.insert key length second = some (other, code))
    (different : first (2 ^ slabType length * 1024 - 1) ≠
      second (2 ^ slabType length * 1024 - 1)) : after ≠ other := by
  intro same
  rcases insert_cases inserted with ⟨long, -, -⟩ | ⟨-, -, roomy, pushFlag, room, stored⟩
  · omega
  rcases insert_cases reinserted with ⟨long, -, -⟩ | ⟨-, -, _, _, other_room, restored⟩
  · omega
  rw [room] at other_room
  obtain ⟨rfl, rfl⟩ := Prod.mk.inj (Option.some.inj other_room)
  obtain ⟨taken, filled, -, -, -⟩ := store_spec stored
  obtain ⟨others, refilled, -, -, -⟩ := store_spec restored
  obtain ⟨count, pieces⟩ : ∃ count, 2 ^ slabType length = count + 1 :=
    Nat.exists_eq_add_one.mpr (by positivity)
  rw [pieces] at filled refilled different
  have last : (count + 1) * 1024 - 1 = (0 + count) * 1024 + 1023 := by omega
  -- Both inserts take the same slabs from the front of the queue.
  have taken_same : taken = others := by
    have left := SlabPool.fill_takes filled
    have right := SlabPool.fill_takes refilled
    exact (List.append_inj (left.1.symm.trans right.1) (left.2.1.trans right.2.1.symm)).1
  obtain ⟨slab, ends, holds⟩ := SlabPool.fill_last filled
  obtain ⟨other_slab, other_ends, other_holds⟩ := SlabPool.fill_last refilled
  rw [← taken_same, ends] at other_ends
  obtain rfl := Option.some.inj other_ends
  apply different
  rw [last, ← holds 1023 (by decide), ← other_holds 1023 (by decide), same]

/-- A cache without pages accepts no value. -/
theorem insert_no_pages {device : Nat → ByteMemory} (fits : slabType length ≤ 10)
    (value : ByteMemory) : (start 0 device).insert key length value = none := by
  have lacking : (start 0 device).pool.freeNum < (2 : Int) ^ slabType length := by
    have none_free : (start 0 device).pool.freeNum = 0 := by
      change ((0 * (1024 * 1024) / 1024 : Nat) : Int) = 0
      simp
    rw [none_free]
    positivity
  have absent : key ∉ (start 0 device).cachedItem := Finmap.notMem_empty
  have dry : makeRoom key (2 ^ slabType length) (start 0 device) true = none := by
    unfold makeRoom
    rw [if_pos lacking]
    rfl
  unfold insert
  dsimp only
  rw [if_neg (by omega), releaseOld, if_neg absent]
  dsimp only
  rw [dry, Option.bind_none]

end GpuCache

namespace MogGpu

variable {mog next : MogGpu} {deviceId : Int} {key : String} {value : List UInt8}

/-- `mog_gpu::insert` reads nothing behind the terminating NUL of the value: what lies there makes
no difference. -/
def InBounds (mog : MogGpu) (deviceId : Int) (key : String) (value : List UInt8) : Prop :=
  ∀ first second, mog.insert deviceId key value first = mog.insert deviceId key value second

/-- The slabs of the value are filled, or have room left only for its NUL. -/
def FillsSlabs (value : List UInt8) : Prop :=
  ∃ type ≤ 10, value.length = 2 ^ type * 1024 ∨ value.length + 1 = 2 ^ type * 1024

/-- A value of an accepted length fills its slabs exactly if they do not reach behind its NUL. -/
theorem fillsSlabs_iff (short : value.length ≤ 1024 * 1024) :
    FillsSlabs value ↔ 2 ^ slabType value.length * 1024 ≤ value.length + 1 := by
  have reach := length_le_slab value.length
  constructor
  · rintro ⟨type, -, full | nearly⟩
    · rw [full, slabType_full]
      omega
    · rw [nearly]
      have smaller : slabType value.length ≤ type :=
        slabType_le_iff.mpr (nearly ▸ Nat.le_succ value.length)
      exact Nat.mul_le_mul_right 1024 (Nat.pow_le_pow_right (by decide) smaller)
  · intro tight
    refine ⟨slabType value.length, slabType_le_ten.mpr short, ?_⟩
    omega

/-- The bytes of a string and its NUL are the same whatever follows. -/
theorem cStr_congr {position : Nat} (inside : position < value.length + 1)
    (first second : ByteMemory) : cStr value first position = cStr value second position := by
  have within : position < (value ++ [0]).length := by
    rw [List.length_append]
    exact inside
  rw [cStr, cStr, ByteMemory.write_startsWith _ _ position within,
    ByteMemory.write_startsWith _ _ position within]

/-- Behind the NUL of a string is what follows it. -/
theorem cStr_behind {position : Nat} (outside : value.length + 1 ≤ position)
    (beyond : ByteMemory) : cStr value beyond position = beyond position := by
  apply ByteMemory.write_outside
  rw [List.length_append]
  exact outside

/-- The devices that were set up with no pages are as they were, and the others are provided. -/
def Ready (pageNum : Nat) (mog : MogGpu) : Prop :=
  ∀ deviceId cache, mog.gpuCaches.lookup deviceId = some cache →
    (pageNum = 0 ∧ ∃ device, cache = GpuCache.start 0 device) ∨ 1 ≤ pageNum ∧ cache.Provided

/-- The devices that were set up are ready. -/
theorem setup_ready (pageNum : Nat) (memory : Int → Nat → ByteMemory) (devices : List Int) :
    (setup pageNum memory devices).Ready pageNum := by
  intro deviceId cache found
  have fresh := setup_lookup found
  rcases Nat.eq_zero_or_pos pageNum with rfl | pages
  · exact Or.inl ⟨rfl, _, fresh⟩
  · exact Or.inr ⟨pages, fresh ▸ GpuCache.start_provided pages _⟩

/-- Every insert leaves the devices ready. -/
theorem step_ready {pageNum : Nat} {call : InsertCall} (ready : mog.Ready pageNum)
    (stepped : machine.step mog call = some next) : next.Ready pageNum := by
  obtain ⟨⟨after, returned⟩, taken, rfl⟩ := Option.map_eq_some_iff.mp stepped
  obtain ⟨cache, device, taken⟩ := Option.bind_eq_some_iff.mp taken
  obtain ⟨⟨stored, status⟩, inserted, same⟩ := Option.map_eq_some_iff.mp taken
  obtain ⟨rfl, -⟩ := Prod.mk.inj same
  intro deviceId found here
  rw [Table.lookup_insert_if] at here
  split at here
  swap
  · exact ready deviceId found here
  obtain rfl := Option.some.inj here
  rcases ready call.deviceId cache device with ⟨none, memory, rfl⟩ | ⟨pages, provided⟩
  · left
    refine ⟨none, memory, ?_⟩
    rcases GpuCache.insert_cases inserted with ⟨-, unchanged, -⟩ | ⟨short, -⟩
    · exact unchanged
    · rw [GpuCache.insert_no_pages short] at inserted
      cases inserted
  · right
    obtain ⟨other, code, also, kept⟩ := GpuCache.insert_provided provided call.key
      call.value.length (cStr call.value call.beyond)
    rw [inserted] at also
    obtain ⟨rfl, -⟩ := Prod.mk.inj (Option.some.inj also)
    exact ⟨pages, kept⟩

/-- After any inserts, an insert of at most 1 MiB on a device in use stays within its value exactly
if the value fills its slabs, up to the NUL; without pages it reads nothing. -/
theorem inBounds_iff_fillsSlabs (pageNum : Nat) (memory : Int → Nat → ByteMemory)
    (devices : List Int) (calls : List InsertCall)
    (ran : machine.run (setup pageNum memory devices) calls = some mog)
    (inUse : deviceId ∈ mog.gpuCaches) (key : String) (short : value.length ≤ 1024 * 1024) :
    mog.InBounds deviceId key value ↔ pageNum = 0 ∨ FillsSlabs value := by
  have ready : mog.Ready pageNum :=
    Machine.run_invariant (Ready pageNum) (fun _ _ _ => step_ready)
      (setup_ready pageNum memory devices) ran
  obtain ⟨cache, device⟩ := Finmap.mem_iff.mp inUse
  have fits := slabType_le_ten.mpr short
  rw [fillsSlabs_iff short]
  constructor
  · intro inside
    by_contra overruns
    rw [not_or, not_le] at overruns
    obtain ⟨pages, beyond_nul⟩ := overruns
    rcases ready deviceId cache device with ⟨none, -⟩ | ⟨-, provided⟩
    · exact pages none
    obtain ⟨after, status, inserted, -⟩ :=
      GpuCache.insert_provided provided key value.length (cStr value fun _ => 0)
    obtain ⟨other, code, reinserted, -⟩ :=
      GpuCache.insert_provided provided key value.length (cStr value fun _ => 1)
    have same := inside (fun _ => 0) fun _ => 1
    simp only [insert, device, Option.bind_some, inserted, reinserted, Option.map_some,
      Option.some.injEq, Prod.mk.injEq, and_true, MogGpu.mk.injEq] at same
    have stored := congrArg (Finmap.lookup deviceId) same
    rw [Finmap.lookup_insert, Finmap.lookup_insert] at stored
    refine GpuCache.insert_reads_last fits inserted reinserted ?_ (Option.some.inj stored)
    rw [cStr_behind (by omega), cStr_behind (by omega)]
    decide
  · rintro (none | tight) first second
    · rcases ready deviceId cache device with ⟨-, memory, rfl⟩ | ⟨pages, -⟩
      · simp only [insert, device, Option.bind_some, GpuCache.insert_no_pages fits]
      · omega
    · have same : cache.insert key value.length (cStr value first) =
          cache.insert key value.length (cStr value second) :=
        GpuCache.insert_congr fun position inside =>
          cStr_congr (lt_of_lt_of_le inside tight) first second
      simp only [insert, device, Option.bind_some, same]

/-- A value of 1 KiB inserted on one device of one page stays within its string. -/
theorem inBounds_of_one_slab :
    (setup 1 (fun _ _ _ => 0) [0]).InBounds 0 "k" (List.replicate 1024 97) := by
  have filled : FillsSlabs (List.replicate 1024 97) :=
    ⟨0, by decide, Or.inl (by rw [List.length_replicate]; decide)⟩
  have inUse : (0 : Int) ∈ (setup 1 (fun _ _ _ => 0) [0]).gpuCaches :=
    (Finmap.mem_insert (s := ∅)).mpr (Or.inl rfl)
  have short : (List.replicate 1024 (97 : UInt8)).length ≤ 1024 * 1024 := by
    rw [List.length_replicate]
    decide
  exact (inBounds_iff_fillsSlabs 1 _ [0] [] rfl inUse "k" short).mpr (Or.inr filled)

/-- A value of one byte is read 1022 bytes behind its NUL. -/
theorem not_inBounds_of_one_byte :
    ¬ (setup 1 (fun _ _ _ => 0) [0]).InBounds 0 "k" [97] := by
  intro inside
  have bytes (beyond : UInt8) : ((setup 1 (fun _ _ _ => 0) [0]).insert 0 "k" [97]
      (fun _ => beyond)).bind (fun result =>
        (result.1.gpuCaches.lookup 0).map fun cache => cache.pool.slabs 0 1023) = some beyond := by
    rfl
  have same := bytes 0
  rw [inside (fun _ => 0) fun _ => 1, bytes 1] at same
  exact absurd same (by decide)

end MogGpu

end CudaDb
