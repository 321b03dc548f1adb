import CudaDb.Verif.SsdCounters

/-!
# Which block is fetched

The record of the reads is turned into buckets of blocks by how far their counts stay below the
threshold, in ascending order, and the scan of the buckets keeps the last block that is not cached.
So of the blocks that are not cached it chooses one that was read least, and among these the one
with the largest id.
-/

namespace CudaDb

namespace SSDCache

variable {cache : SSDCache} {difference : Int} {blockId : Nat} {buckets : List (Int × List Nat)}

/-! ## The record -/

/-- The record lists the blocks in ascending order. -/
def Ascending (record : List (Nat × Nat)) : Prop :=
  record.Pairwise fun left right => left.1 < right.1

/-- A block that is recorded after counting a read is the one that was read or was recorded. -/
theorem mem_bump {record : List (Nat × Nat)} {entry : Nat × Nat}
    (member : entry ∈ bump blockId record) :
    entry.1 = blockId ∨ entry ∈ record := by
  induction record with
  | nil =>
    rw [bump, List.mem_singleton] at member
    exact Or.inl (congrArg Prod.fst member)
  | cons first record ih =>
    obtain ⟨other, count⟩ := first
    rw [bump] at member
    by_cases below : blockId < other
    · rw [if_pos below, List.mem_cons] at member
      exact member.imp (congrArg Prod.fst) id
    rw [if_neg below] at member
    by_cases same : blockId = other
    · rw [if_pos same, List.mem_cons] at member
      rcases member with rfl | later
      · exact Or.inl same.symm
      · exact Or.inr (List.mem_cons_of_mem _ later)
    · rw [if_neg same, List.mem_cons] at member
      rcases member with rfl | later
      · exact Or.inr List.mem_cons_self
      · exact (ih later).imp_right (List.mem_cons_of_mem _)

/-- Counting a read keeps the record in ascending order. -/
theorem bump_ascending {record : List (Nat × Nat)} (ascending : Ascending record) (blockId : Nat) :
    Ascending (bump blockId record) := by
  induction record with
  | nil => exact List.pairwise_singleton _ _
  | cons first record ih =>
    obtain ⟨other, count⟩ := first
    obtain ⟨least, rest⟩ := List.pairwise_cons.mp ascending
    rw [bump]
    by_cases below : blockId < other
    · rw [if_pos below]
      refine List.pairwise_cons.mpr ⟨fun entry member => ?_, ascending⟩
      rcases List.mem_cons.mp member with rfl | later
      · exact below
      · exact below.trans (least entry later)
    rw [if_neg below]
    by_cases same : blockId = other
    · rw [if_pos same]
      exact List.pairwise_cons.mpr ⟨least, rest⟩
    · rw [if_neg same]
      refine List.pairwise_cons.mpr ⟨fun entry member => ?_, ih rest⟩
      rcases mem_bump member with read | old
      · rw [read]
        exact lt_of_le_of_ne (not_lt.mp below) fun equal => same equal.symm
      · exact least entry old

/-! ## The buckets -/

/-- The candidates with their differences, in the order of the scan. -/
def candidates (buckets : List (Int × List Nat)) : List (Int × Nat) :=
  buckets.flatMap fun bucket => bucket.2.map fun blockId => (bucket.1, blockId)

/-- The buckets are in ascending order of their differences. -/
def Sorted (buckets : List (Int × List Nat)) : Prop :=
  buckets.Pairwise fun left right => left.1 < right.1

/-- The candidates after a block is pushed. -/
theorem mem_candidates_pushBucket {candidate : Int × Nat} :
    candidate ∈ candidates (pushBucket difference blockId buckets) ↔
      candidate = (difference, blockId) ∨ candidate ∈ candidates buckets := by
  induction buckets with
  | nil => simp [pushBucket, candidates]
  | cons first buckets ih =>
    obtain ⟨other, bucket⟩ := first
    rw [pushBucket]
    by_cases below : difference < other
    · rw [if_pos below]
      simp [candidates]
    rw [if_neg below]
    by_cases same : difference = other
    · rw [if_pos same, same]
      simp only [candidates, List.flatMap_cons, List.map_append, List.mem_append, List.map_cons,
        List.map_nil, List.mem_singleton]
      tauto
    · rw [if_neg same]
      unfold candidates at ih ⊢
      rw [List.flatMap_cons, List.flatMap_cons, List.mem_append, List.mem_append, ih]
      exact or_left_comm

/-- The difference of a bucket after a block is pushed. -/
theorem mem_pushBucket {bucket : Int × List Nat}
    (member : bucket ∈ pushBucket difference blockId buckets) :
    bucket.1 = difference ∨ ∃ old ∈ buckets, old.1 = bucket.1 := by
  induction buckets with
  | nil =>
    rw [pushBucket, List.mem_singleton] at member
    exact Or.inl (congrArg Prod.fst member)
  | cons first buckets ih =>
    obtain ⟨other, ids⟩ := first
    rw [pushBucket] at member
    by_cases below : difference < other
    · rw [if_pos below, List.mem_cons] at member
      exact member.imp (congrArg Prod.fst) fun old => ⟨bucket, old, rfl⟩
    rw [if_neg below] at member
    by_cases same : difference = other
    · rw [if_pos same, List.mem_cons] at member
      rcases member with rfl | old
      · exact Or.inl same.symm
      · exact Or.inr ⟨bucket, List.mem_cons_of_mem _ old, rfl⟩
    · rw [if_neg same, List.mem_cons] at member
      rcases member with rfl | later
      · exact Or.inr ⟨(other, ids), List.mem_cons_self, rfl⟩
      · exact (ih later).imp_right fun ⟨old, inside, equal⟩ =>
          ⟨old, List.mem_cons_of_mem _ inside, equal⟩

/-- Pushing a block keeps the buckets sorted. -/
theorem pushBucket_sorted (sorted : Sorted buckets) (difference : Int) (blockId : Nat) :
    Sorted (pushBucket difference blockId buckets) := by
  induction buckets with
  | nil => exact List.pairwise_singleton _ _
  | cons first buckets ih =>
    obtain ⟨other, ids⟩ := first
    obtain ⟨least, rest⟩ := List.pairwise_cons.mp sorted
    rw [pushBucket]
    by_cases below : difference < other
    · rw [if_pos below]
      refine List.pairwise_cons.mpr ⟨fun bucket member => ?_, sorted⟩
      rcases List.mem_cons.mp member with rfl | later
      · exact below
      · exact below.trans (least bucket later)
    rw [if_neg below]
    by_cases same : difference = other
    · rw [if_pos same]
      exact List.pairwise_cons.mpr ⟨least, rest⟩
    · rw [if_neg same]
      refine List.pairwise_cons.mpr ⟨fun bucket member => ?_, ih rest⟩
      rcases mem_pushBucket member with new | ⟨old, inside, equal⟩
      · rw [new]
        exact lt_of_le_of_ne (not_lt.mp below) fun equal => same equal.symm
      · rw [← equal]
        exact least old inside

/-- A bucket lists its blocks in ascending order after a larger block is pushed. -/
theorem pushBucket_inner (inner : ∀ bucket ∈ buckets, bucket.2.Pairwise (· < ·))
    (largest : ∀ bucket ∈ buckets, ∀ other ∈ bucket.2, other < blockId) :
    ∀ bucket ∈ pushBucket difference blockId buckets, bucket.2.Pairwise (· < ·) := by
  induction buckets with
  | nil =>
    intro bucket member
    rw [pushBucket, List.mem_singleton] at member
    rw [member]
    exact List.pairwise_singleton _ _
  | cons first buckets ih =>
    obtain ⟨other, ids⟩ := first
    intro bucket member
    rw [pushBucket] at member
    by_cases below : difference < other
    · rw [if_pos below, List.mem_cons] at member
      rcases member with rfl | old
      · exact List.pairwise_singleton _ _
      · exact inner bucket old
    rw [if_neg below] at member
    by_cases same : difference = other
    · rw [if_pos same, List.mem_cons] at member
      rcases member with rfl | old
      · refine List.pairwise_append.mpr ⟨inner _ List.mem_cons_self,
          List.pairwise_singleton _ _, fun earlier inside last new => ?_⟩
        rw [List.mem_singleton.mp new]
        exact largest _ List.mem_cons_self earlier inside
      · exact inner bucket (List.mem_cons_of_mem _ old)
    · rw [if_neg same, List.mem_cons] at member
      rcases member with rfl | later
      · exact inner _ List.mem_cons_self
      · exact ih (fun old inside => inner old (List.mem_cons_of_mem _ inside))
          (fun old inside => largest old (List.mem_cons_of_mem _ inside)) bucket later

/-- The candidates are the blocks of the buckets. -/
theorem mem_candidates {candidate : Int × Nat} :
    candidate ∈ candidates buckets ↔
      ∃ bucket ∈ buckets, bucket.1 = candidate.1 ∧ candidate.2 ∈ bucket.2 := by
  obtain ⟨difference, blockId⟩ := candidate
  simp [candidates]

/-- The order of the scan: ascending differences, and ascending blocks for equal ones. -/
def Earlier (left right : Int × Nat) : Prop :=
  left.1 < right.1 ∨ left.1 = right.1 ∧ left.2 < right.2

/-- Sorted buckets with sorted blocks are scanned in order. -/
theorem candidates_earlier (sorted : Sorted buckets)
    (inner : ∀ bucket ∈ buckets, bucket.2.Pairwise (· < ·)) :
    (candidates buckets).Pairwise Earlier := by
  unfold candidates
  refine List.pairwise_flatMap.mpr ⟨fun bucket member => ?_, ?_⟩
  · exact List.pairwise_map.mpr ((inner bucket member).imp fun below => Or.inr ⟨rfl, below⟩)
  · refine sorted.imp fun below first here second there => ?_
    obtain ⟨-, -, rfl⟩ := List.mem_map.mp here
    obtain ⟨-, -, rfl⟩ := List.mem_map.mp there
    exact Or.inl below

/-- The buckets of a record. -/
def readRecordSta (checkThreshold : Nat) (record : List (Nat × Nat))
    (buckets : List (Int × List Nat)) : List (Int × List Nat) :=
  record.foldl (fun buckets (blockId, count) =>
    pushBucket (checkThreshold - count) blockId buckets) buckets

/-- The candidates of a record are scanned in order, each block with how far its count stays below
the threshold. -/
theorem readRecordSta_candidates {checkThreshold : Nat} {record : List (Nat × Nat)}
    (ascending : Ascending record) (sorted : Sorted buckets)
    (inner : ∀ bucket ∈ buckets, bucket.2.Pairwise (· < ·))
    (smaller : ∀ candidate ∈ candidates buckets, ∀ entry ∈ record, candidate.2 < entry.1) :
    (candidates (readRecordSta checkThreshold record buckets)).Pairwise Earlier ∧
      ∀ candidate, candidate ∈ candidates (readRecordSta checkThreshold record buckets) ↔
        candidate ∈ candidates buckets ∨
          ∃ entry ∈ record, candidate = ((checkThreshold : Int) - entry.2, entry.1) := by
  induction record generalizing buckets with
  | nil =>
    refine ⟨candidates_earlier sorted inner, fun candidate => ?_⟩
    simp [readRecordSta]
  | cons first record ih =>
    obtain ⟨blockId, count⟩ := first
    obtain ⟨least, rest⟩ := List.pairwise_cons.mp ascending
    have largest : ∀ bucket ∈ buckets, ∀ other ∈ bucket.2, other < blockId :=
      fun bucket member other inside =>
        smaller (bucket.1, other) (mem_candidates.mpr ⟨bucket, member, rfl, inside⟩)
          (blockId, count)
          List.mem_cons_self
    have later : ∀ candidate ∈ candidates (pushBucket (checkThreshold - count) blockId buckets),
        ∀ entry ∈ record, candidate.2 < entry.1 := by
      intro candidate member entry inside
      rcases mem_candidates_pushBucket.mp member with rfl | old
      · exact least entry inside
      · exact smaller candidate old entry (List.mem_cons_of_mem _ inside)
    obtain ⟨ordered, exact_candidates⟩ := ih rest
      (pushBucket_sorted sorted (checkThreshold - count) blockId)
      (pushBucket_inner inner largest) later
    refine ⟨ordered, fun candidate => (exact_candidates candidate).trans ?_⟩
    rw [mem_candidates_pushBucket, List.exists_mem_cons_iff, or_assoc, or_left_comm]

/-! ## The scan -/

/-- The scan of cached blocks keeps what it started with. -/
theorem scan_cached {cachedBlock : Table Nat Nat} {blocks : List Nat} (start : Nat)
    (cached : ∀ blockId ∈ blocks, blockId ∈ cachedBlock) :
    blocks.foldl (fun chosen candidate =>
      if candidate ∈ cachedBlock then chosen else candidate) start = start := by
  induction blocks with
  | nil => rfl
  | cons first blocks ih =>
    obtain ⟨here, there⟩ := List.forall_mem_cons.mp cached
    rw [List.foldl_cons, if_pos here]
    exact ih there

/-- The scan keeps the last block that is not cached, if there is one. -/
theorem scan_last (cachedBlock : Table Nat Nat) (blocks : List Nat) (start : Nat) :
    (∀ blockId ∈ blocks, blockId ∈ cachedBlock) ∨
      ∃ chosen before later, blocks = before ++ chosen :: later ∧ chosen ∉ cachedBlock ∧
        (∀ blockId ∈ later, blockId ∈ cachedBlock) ∧
        blocks.foldl (fun chosen candidate =>
          if candidate ∈ cachedBlock then chosen else candidate) start = chosen := by
  induction blocks generalizing start with
  | nil => exact Or.inl fun _ member => absurd member List.not_mem_nil
  | cons first blocks ih =>
    rcases ih (if first ∈ cachedBlock then start else first) with
      all | ⟨chosen, before, later, split, uncached, rest, kept⟩
    · by_cases cached : first ∈ cachedBlock
      · exact Or.inl (List.forall_mem_cons.mpr ⟨cached, all⟩)
      · refine Or.inr ⟨first, [], blocks, rfl, cached, all, ?_⟩
        rw [List.foldl_cons, if_neg cached]
        exact scan_cached first all
    · exact Or.inr ⟨chosen, first :: before, later, by rw [split, List.cons_append], uncached, rest,
        kept⟩

/-- If some recorded block is not cached, the scan chooses one of those that were read least, the
one with the largest id. -/
theorem blockIdToFetch_least (ascending : Ascending cache.readRecord) (checkThreshold : Nat)
    (missing : ∃ entry ∈ cache.readRecord, entry.1 ∉ cache.cachedBlock) :
    ∃ count, (cache.blockIdToFetch checkThreshold, count) ∈ cache.readRecord ∧
      cache.blockIdToFetch checkThreshold ∉ cache.cachedBlock ∧
      ∀ entry ∈ cache.readRecord, entry.1 ∉ cache.cachedBlock →
        count < entry.2 ∨ count = entry.2 ∧ entry.1 ≤ cache.blockIdToFetch checkThreshold := by
  obtain ⟨ordered, exact_candidates⟩ := @readRecordSta_candidates [] checkThreshold _ ascending
    List.Pairwise.nil (fun _ member => absurd member List.not_mem_nil)
    (fun _ member => absurd member List.not_mem_nil)
  have listed : ∀ candidate, candidate ∈ candidates (readRecordSta checkThreshold
      cache.readRecord []) ↔
      ∃ entry ∈ cache.readRecord, candidate = ((checkThreshold : Int) - entry.2, entry.1) :=
    fun candidate => (exact_candidates candidate).trans (or_iff_right List.not_mem_nil)
  have scanned : cache.blockIdToFetch checkThreshold =
      ((candidates (readRecordSta checkThreshold cache.readRecord [])).map Prod.snd).foldl
        (fun chosen candidate => if candidate ∈ cache.cachedBlock then chosen else candidate)
        0 := by
    have blocks (buckets : List (Int × List Nat)) :
        (candidates buckets).map Prod.snd = buckets.flatMap Prod.snd := by
      simp [candidates, List.map_flatMap]
    rw [blocks]
    rfl
  generalize candidates (readRecordSta checkThreshold cache.readRecord []) = order at *
  rcases scan_last cache.cachedBlock (order.map Prod.snd) 0 with
    all | ⟨chosen, before, later, split, uncached, rest, kept⟩
  · obtain ⟨entry, recorded, absent⟩ := missing
    have member := (listed ((checkThreshold : Int) - entry.2, entry.1)).mpr ⟨entry, recorded, rfl⟩
    exact absurd (all entry.1 (List.mem_map.mpr ⟨_, member, rfl⟩)) absent
  rw [scanned, kept]
  obtain ⟨front, tail, same, -, chosen_tail⟩ := List.map_eq_append_iff.mp split
  obtain ⟨last, after, rfl, own, cached_tail⟩ := List.map_eq_cons_iff.mp chosen_tail
  rw [same] at ordered listed
  obtain ⟨entry, recorded, value⟩ := (listed last).mp (List.mem_append_right _ List.mem_cons_self)
  rw [value] at own
  refine ⟨entry.2, ?_, uncached, fun other inside absent => ?_⟩
  · rw [← own]
    exact recorded
  have member := (listed ((checkThreshold : Int) - other.2, other.1)).mpr ⟨other, inside, rfl⟩
  rcases List.mem_append.mp member with earlier | here
  · have below := (List.pairwise_append.mp ordered).2.2 _ earlier last List.mem_cons_self
    rw [value] at below
    rcases below with less | ⟨equal, less⟩
    · dsimp only at less
      exact Or.inl (by omega)
    · dsimp only at equal less own
      exact Or.inr ⟨by omega, by omega⟩
  rcases List.mem_cons.mp here with this | behind
  · rw [value] at this
    obtain ⟨equal, block⟩ := Prod.mk.inj this
    dsimp only at own
    exact Or.inr ⟨by omega, by omega⟩
  · refine absurd (rest other.1 ?_) absent
    rw [← cached_tail]
    exact List.mem_map.mpr ⟨_, behind, rfl⟩

/-! ## The hottest block -/

/-- The cache with the read counted, as `read` looks at it. -/
def counted (cache : SSDCache) (blockId : Nat) : SSDCache :=
  { cache with
    readRecord := bump blockId cache.readRecord
    readNum := cache.readNum + 1 }

/-- A read makes `read_num` exceed the threshold while a block that can be fetched is missing. -/
def Due (cache : SSDCache) : Prop :=
  cache.readNum > 50 ∧ ∃ entry ∈ cache.readRecord, entry.1 ≠ 0 ∧ entry.1 ∉ cache.cachedBlock

/-- The chosen block is not cached, and no block that is not cached has been read more often. -/
def ChoosesHottest (cache : SSDCache) : Prop :=
  cache.blockIdToFetch 50 ≠ 0 ∧ cache.blockIdToFetch 50 ∉ cache.cachedBlock ∧
    ∃ count, (cache.blockIdToFetch 50, count) ∈ cache.readRecord ∧
      ∀ entry ∈ cache.readRecord, entry.1 ∉ cache.cachedBlock → entry.2 ≤ count

/-- All recorded blocks that are not cached have been read equally often. -/
def Level (cache : SSDCache) : Prop :=
  ∀ first ∈ cache.readRecord, ∀ second ∈ cache.readRecord, first.1 ∉ cache.cachedBlock →
    second.1 ∉ cache.cachedBlock → first.2 = second.2

/-- A block is recorded once. -/
theorem Ascending.count_unique {record : List (Nat × Nat)} (ascending : Ascending record)
    {first second : Nat} (here : (blockId, first) ∈ record) (there : (blockId, second) ∈ record) :
    first = second := by
  have distinct : (record.map Prod.fst).Nodup :=
    List.pairwise_map.mpr (ascending.imp fun below => below.ne)
  exact congrArg Prod.snd (List.inj_on_of_nodup_map distinct here there rfl)

/-- The chosen block is a hottest one exactly if all missing blocks are equally hot. -/
theorem choosesHottest_iff_level (ascending : Ascending cache.readRecord) (due : cache.Due) :
    cache.ChoosesHottest ↔ cache.Level := by
  obtain ⟨-, missing, recorded, positive, absent⟩ := due
  obtain ⟨count, chosen, uncached, least⟩ :=
    blockIdToFetch_least ascending 50 ⟨missing, recorded, absent⟩
  constructor
  · rintro ⟨-, -, most, same, hottest⟩
    have equal : most = count := ascending.count_unique same chosen
    intro first here second there out_first out_second
    have upper := hottest first here out_first
    have upper' := hottest second there out_second
    have lower := least first here out_first
    have lower' := least second there out_second
    omega
  · intro level
    refine ⟨?_, uncached, count, chosen, fun entry inside out => ?_⟩
    · have bound := least missing recorded absent
      have equal := level _ chosen missing recorded uncached absent
      dsimp only at equal
      omega
    · exact (level entry inside _ chosen out uncached).le

end SSDCache

namespace SsdTier

variable {content : Nat → List UInt8} {world next : World} {maxBlockNum : Nat}

/-- If the event is a read that is due to choose a block, then it chooses a hottest one. -/
def Hottest (world : World) : Event → Prop
  | .read info =>
    (world.tier.cache.counted info.blockId).Due →
      (world.tier.cache.counted info.blockId).ChoosesHottest
  | _ => True

/-- If the event is a read that is due to choose a block, then all missing blocks are equally
hot. -/
def Evenly (world : World) : Event → Prop
  | .read info =>
    (world.tier.cache.counted info.blockId).Due → (world.tier.cache.counted info.blockId).Level
  | _ => True

/-- A step of a task does not touch the record. -/
theorem runTask_readRecord (tier : SsdTier) (hdd : Directory) (task : SsdTask) :
    (tier.runTask hdd task).2.1.cache.readRecord = tier.cache.readRecord := by
  cases task with
  | flushCopy blockId | fetchTest blockId | fetchCopy blockId =>
    unfold runTask
    dsimp only
    split <;> rfl
  | flushSection blockId => exact (evict_evicted _).readRecord
  | fetchSection blockId =>
    change ((tier.fetchSection blockId).getD tier).cache.readRecord = _
    unfold fetchSection
    cases found : tier.ssd.lookup blockId with
    | none => rfl
    | some file => exact (evict_evicted _).readRecord

/-- Counting a read keeps the record in ascending order. -/
theorem noteRead_ascending {cache : SSDCache} (ascending : SSDCache.Ascending cache.readRecord)
    (blockId : Nat) : SSDCache.Ascending (cache.noteRead blockId).readRecord := by
  unfold SSDCache.noteRead
  dsimp only
  split
  · exact List.Pairwise.nil
  · exact SSDCache.bump_ascending ascending blockId

/-- Every step keeps the record in ascending order. -/
theorem step_ascending {event : Event} (ascending : SSDCache.Ascending world.tier.cache.readRecord)
    (stepped : (machine content).step world event = some next) :
    SSDCache.Ascending next.tier.cache.readRecord := by
  cases event with
  | placeSsd blockId | placeHdd blockId =>
    simp only [machine] at stepped
    split at stepped
    · cases stepped
    · obtain rfl := Option.some.inj stepped
      exact ascending
  | newBlock blockId =>
    simp only [machine] at stepped
    split at stepped
    · cases stepped
    · obtain ⟨tier, announced, rfl⟩ := Option.map_eq_some_iff.mp stepped
      obtain ⟨file, -, rfl⟩ := Option.map_eq_some_iff.mp announced
      exact ascending
  | task task =>
    by_cases inside : task ∈ world.tier.cache.threadPool
    · simp only [machine, if_pos inside, Option.some.injEq] at stepped
      subst stepped
      dsimp only
      rw [runTask_readRecord]
      exact ascending
    · simp [machine, if_neg inside] at stepped
  | read info =>
    obtain ⟨⟨tier, delivered⟩, served, rfl⟩ := Option.map_eq_some_iff.mp stepped
    obtain ⟨file, -, same⟩ := Option.map_eq_some_iff.mp served
    obtain ⟨rfl, -⟩ := Prod.mk.inj same
    exact noteRead_ascending ascending info.blockId

/-- In every run, all reads that are due choose a hottest missing block exactly if at each of them
all missing blocks are equally hot. -/
theorem hottest_iff_evenly (content : Nat → List UInt8) (maxBlockNum : Nat)
    (events : List Event) :
    (machine content).Along Hottest (start maxBlockNum) events ↔
      (machine content).Along Evenly (start maxBlockNum) events := by
  have initial : SSDCache.Ascending (start maxBlockNum).tier.cache.readRecord :=
    List.Pairwise.nil
  refine Machine.along_congr
    (fun world => SSDCache.Ascending world.tier.cache.readRecord)
    (fun _ _ _ ascending stepped => step_ascending ascending stepped)
    (fun world event ascending => ?_) initial events
  cases event with
  | read info =>
    exact imp_congr_right fun due => SSDCache.choosesHottest_iff_level
      (SSDCache.bump_ascending ascending info.blockId) due
  | _ => exact Iff.rfl

/-- Block 1 is read fifty times, from the HDD. -/
def fiftyReads : List Event :=
  [.placeHdd 1, .placeHdd 2] ++ List.replicate 50 (.read ⟨1, 0, 1, 0⟩)

/-- Then one read of block 2 makes the cache fetch block 2, although block 1 is not cached
either. -/
theorem not_hottest_of_fiftyReads : ∃ world,
    (machine fun _ => [7]).run (start 4) fiftyReads = some world ∧
    (world.tier.cache.counted 2).blockIdToFetch 50 = 2 ∧
    (world.tier.cache.counted 2).readRecord = [(1, 50), (2, 1)] ∧
    ¬ Hottest world (.read ⟨2, 0, 1, 0⟩) := by
  have executed : ∃ world, (machine fun _ => [7]).run (start 4) fiftyReads = some world ∧
      (world.tier.cache.counted 2).blockIdToFetch 50 = 2 ∧
      (world.tier.cache.counted 2).readRecord = [(1, 50), (2, 1)] ∧
      (world.tier.cache.counted 2).readNum = 51 ∧
      (world.tier.cache.counted 2).cachedBlock = ∅ := ⟨_, rfl, rfl, rfl, rfl, rfl⟩
  obtain ⟨world, ran, chosen, recorded, count, empty⟩ := executed
  refine ⟨world, ran, chosen, recorded, fun hottest => ?_⟩
  have uncached (blockId : Nat) : blockId ∉ (world.tier.cache.counted 2).cachedBlock := by
    rw [empty]
    exact Finmap.notMem_empty
  have due : (world.tier.cache.counted 2).Due := by
    refine ⟨by rw [count]; decide, (1, 50), ?_, by decide, uncached 1⟩
    rw [recorded]
    exact List.mem_cons_self
  obtain ⟨-, -, most, same, upper⟩ := hottest due
  rw [chosen, recorded] at same
  have once : most = 1 := by simpa using same
  have often := upper (1, 50) (by rw [recorded]; exact List.mem_cons_self) (uncached 1)
  omega

end SsdTier

end CudaDb
