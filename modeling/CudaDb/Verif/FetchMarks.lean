import CudaDb.Verif.SsdTransparent
import CudaDb.Model.FetchFaults

/-!
# Which marks outlive their fetch

A mark in `caching_block` is taken back only at the end of the section of its fetch. A fetch that
finds the SSD full at its test, or whose copy fails, ends before that and leaves the mark behind;
nothing takes it back later, and a marked block is not fetched again. These are the only ways:
as long as no test finds the SSD full and no copy of a fetch fails, each marked block has its
fetch.
-/

namespace CudaDb.SsdTier

variable {content : Nat → List UInt8} {world next : World} {blockId : Nat}

/-! ## The blocks of a pool -/

/-- Without a task, the pool has the blocks of its kind but that of the task. -/
theorem mem_kind_erase (kind : SsdTask → Option Nat) {pool : List SsdTask} {task : SsdTask}
    (inside : task ∈ pool) (distinct : (pool.filterMap kind).Nodup) {other : Nat} :
    other ∈ (pool.erase task).filterMap kind ↔
      other ∈ pool.filterMap kind ∧ kind task ≠ some other := by
  have order := (List.perm_cons_erase inside).filterMap kind
  constructor
  · intro member
    refine ⟨order.mem_iff.mpr ?_, fun of_block => pool_apart kind inside of_block distinct member⟩
    rw [List.filterMap_cons]
    split
    · exact member
    · exact List.mem_cons_of_mem _ member
  · rintro ⟨member, apart⟩
    have listed := order.mem_iff.mp member
    rw [List.filterMap_cons] at listed
    split at listed
    · exact listed
    · next of_block =>
      rcases List.mem_cons.mp listed with rfl | rest
      · exact absurd of_block apart
      · exact rest

/-- A task that goes on keeps the blocks of its kind. -/
theorem mem_kind_next (kind : SsdTask → Option Nat) {pool : List SsdTask} {task after : SsdTask}
    (inside : task ∈ pool) (same : kind after = kind task) {other : Nat} :
    other ∈ (pool.erase task ++ [after]).filterMap kind ↔ other ∈ pool.filterMap kind := by
  have order := (List.perm_cons_erase inside).filterMap kind
  have kept : [after].filterMap kind = [task].filterMap kind := by
    simp only [List.filterMap_cons, List.filterMap_nil, same]
  rw [List.filterMap_append, kept, ← List.filterMap_append, order.mem_iff]
  exact ((List.perm_append_singleton _ _).filterMap kind).mem_iff

/-! ## Marks and fetches -/

/-- Each block that is marked as being cached has a fetch that is scheduled or running. -/
def World.MarksAlive (world : World) : Prop :=
  ∀ blockId ∈ world.tier.cache.cachingBlock,
    blockId ∈ world.tier.cache.threadPool.filterMap SsdTask.fetches

/-- The block is marked as being cached and has no fetch. -/
def World.Stranded (blockId : Nat) (world : World) : Prop :=
  blockId ∈ world.tier.cache.cachingBlock ∧
    blockId ∉ world.tier.cache.threadPool.filterMap SsdTask.fetches

/-- The step does not end a fetch before its section: a test finds fewer than `max_block_num`
blocks, and a copy finds its file on the HDD and none on the SSD. -/
def World.KeepsFetch (world : World) : Event → Prop
  | .task (.fetchTest blockId) => .fetchTest blockId ∈ world.tier.cache.threadPool →
      world.tier.cache.blockNum < world.tier.cache.maxBlockNum
  | .task (.fetchCopy blockId) => .fetchCopy blockId ∈ world.tier.cache.threadPool →
      blockId ∈ world.hdd ∧ blockId ∉ world.tier.ssd
  | _ => True

/-- What a step that loses no fetch does to the marks and to the blocks with a fetch. -/
inductive World.MarkStep (world next : World) : Prop
  /-- Neither changes. -/
  | same (marks : ∀ other, other ∈ next.tier.cache.cachingBlock ↔
        other ∈ world.tier.cache.cachingBlock)
      (fetches : ∀ other, other ∈ next.tier.cache.threadPool.filterMap SsdTask.fetches ↔
        other ∈ world.tier.cache.threadPool.filterMap SsdTask.fetches)
  /-- A block that was not marked gets its mark and a fetch. -/
  | scheduled (blockId : Nat) (unmarked : blockId ∉ world.tier.cache.cachingBlock)
      (marks : ∀ other, other ∈ next.tier.cache.cachingBlock ↔
        other = blockId ∨ other ∈ world.tier.cache.cachingBlock)
      (fetches : ∀ other, other ∈ next.tier.cache.threadPool.filterMap SsdTask.fetches ↔
        other ∈ world.tier.cache.threadPool.filterMap SsdTask.fetches ∨ other = blockId)
  /-- A fetch ends at the end of its section and takes the mark of its block back. -/
  | fetched (blockId : Nat)
      (running : blockId ∈ world.tier.cache.threadPool.filterMap SsdTask.fetches)
      (marks : ∀ other, other ∈ next.tier.cache.cachingBlock ↔
        other ∈ world.tier.cache.cachingBlock ∧ other ≠ blockId)
      (fetches : ∀ other, other ∈ next.tier.cache.threadPool.filterMap SsdTask.fetches ↔
        other ∈ world.tier.cache.threadPool.filterMap SsdTask.fetches ∧ other ≠ blockId)

/-- The fetch of the block ends before its section and leaves the mark behind. -/
structure World.LosesFetch (blockId : Nat) (world next : World) : Prop where
  /-- The fetch was alive. -/
  running : blockId ∈ world.tier.cache.threadPool.filterMap SsdTask.fetches
  /-- The marks stay. -/
  marks : ∀ other, other ∈ next.tier.cache.cachingBlock ↔ other ∈ world.tier.cache.cachingBlock
  /-- The other fetches stay. -/
  fetches : ∀ other, other ∈ next.tier.cache.threadPool.filterMap SsdTask.fetches ↔
    other ∈ world.tier.cache.threadPool.filterMap SsdTask.fetches ∧ other ≠ blockId

/-- A step that loses no fetch keeps a fetch for each mark. -/
theorem World.MarkStep.alive (stepped : world.MarkStep next) (alive : world.MarksAlive) :
    next.MarksAlive := by
  intro other marked
  cases stepped with
  | same marks fetches => exact (fetches other).mpr (alive other ((marks other).mp marked))
  | scheduled blockId unmarked marks fetches =>
    rcases (marks other).mp marked with new | old
    · exact (fetches other).mpr (Or.inr new)
    · exact (fetches other).mpr (Or.inl (alive other old))
  | fetched blockId running marks fetches =>
    have before := (marks other).mp marked
    exact (fetches other).mpr ⟨alive other before.1, before.2⟩

/-- A step that loses no fetch leaves a block without one as it is. -/
theorem World.MarkStep.stranded (stepped : world.MarkStep next)
    (stranded : world.Stranded blockId) : next.Stranded blockId := by
  cases stepped with
  | same marks fetches =>
    exact ⟨(marks _).mpr stranded.1, fun member => stranded.2 ((fetches _).mp member)⟩
  | scheduled fetched unmarked marks fetches =>
    refine ⟨(marks _).mpr (Or.inr stranded.1), fun member => ?_⟩
    rcases (fetches _).mp member with old | same
    · exact stranded.2 old
    · exact unmarked (same ▸ stranded.1)
  | fetched fetched running marks fetches =>
    have apart : blockId ≠ fetched := fun same => stranded.2 (same ▸ running)
    exact ⟨(marks _).mpr ⟨stranded.1, apart⟩, fun member => stranded.2 ((fetches _).mp member).1⟩

/-- A fetch that is lost leaves a mark without one. -/
theorem World.LosesFetch.stranded (lost : world.LosesFetch blockId next)
    (coherent : world.Coherent content) : next.Stranded blockId := by
  have marked := coherent.fetching blockId lost.running
  exact ⟨(lost.marks _).mpr marked, fun member => ((lost.fetches _).mp member).2 rfl⟩

/-- A fetch that is lost leaves the blocks without one as they are. -/
theorem World.LosesFetch.others (lost : world.LosesFetch blockId next) {other : Nat}
    (stranded : world.Stranded other) : next.Stranded other :=
  ⟨(lost.marks _).mpr stranded.1, fun member => stranded.2 ((lost.fetches _).mp member).1⟩

/-- A block without a fetch is a mark that is not alive. -/
theorem World.Stranded.dead (stranded : world.Stranded blockId) : ¬ world.MarksAlive :=
  fun alive => stranded.2 (alive blockId stranded.1)

/-! ## The steps -/

/-- What counting a read does to the marks. -/
theorem noteRead_marks (world : World) (blockId : Nat) :
    world.MarkStep { world with tier := { world.tier with
      cache := world.tier.cache.noteRead blockId } } := by
  obtain ⟨readRecord, readNum, counted | ⟨fetched, unmarked, scheduled⟩⟩ :=
    SSDCache.noteRead_cases world.tier.cache blockId
  · rw [counted]
    exact World.MarkStep.same (fun _ => Iff.rfl) fun _ => Iff.rfl
  · rw [scheduled]
    refine World.MarkStep.scheduled fetched unmarked (fun _ => Finmap.mem_insert) fun other => ?_
    change other ∈ (world.tier.cache.threadPool ++ [SsdTask.fetchTest fetched]).filterMap
      SsdTask.fetches ↔ _
    simp [SsdTask.fetches, eq_comm]

/-- A task that goes on changes no mark and no block with a fetch. -/
theorem next_marks (after : SsdTask) {task : SsdTask} (inside : task ∈ world.tier.cache.threadPool)
    (same : after.fetches = task.fetches)
    (marks : next.tier.cache.cachingBlock = world.tier.cache.cachingBlock)
    (pool : next.tier.cache.threadPool = world.tier.cache.threadPool.erase task ++ [after]) :
    world.MarkStep next := by
  refine World.MarkStep.same (fun other => by rw [marks]) fun other => ?_
  rw [pool]
  exact mem_kind_next SsdTask.fetches inside same

/-- The end of a task that is no fetch changes no mark and no block with a fetch. -/
theorem ended_marks (coherent : world.Coherent content) {task : SsdTask}
    (inside : task ∈ world.tier.cache.threadPool) (other_kind : task.fetches = none)
    (marks : next.tier.cache.cachingBlock = world.tier.cache.cachingBlock)
    (pool : next.tier.cache.threadPool = world.tier.cache.threadPool.erase task) :
    world.MarkStep next := by
  refine World.MarkStep.same (fun other => by rw [marks]) fun other => ?_
  rw [pool, mem_kind_erase SsdTask.fetches inside coherent.fetches, other_kind]
  exact and_iff_left (by simp)

/-- The end of a fetch that leaves the marks as they are. -/
theorem ended_loses (coherent : world.Coherent content) {task : SsdTask}
    (inside : task ∈ world.tier.cache.threadPool) (of_block : task.fetches = some blockId)
    (marks : next.tier.cache.cachingBlock = world.tier.cache.cachingBlock)
    (pool : next.tier.cache.threadPool = world.tier.cache.threadPool.erase task) :
    world.LosesFetch blockId next where
  running := mem_kind SsdTask.fetches inside of_block
  marks := fun other => by rw [marks]
  fetches := by
    intro other
    rw [pool, mem_kind_erase SsdTask.fetches inside coherent.fetches, of_block]
    simp [eq_comm]

/-- A step of a task keeps the marks with their fetches, unless it ends a fetch before its section;
then it loses that fetch. -/
theorem task_marks (coherent : world.Coherent content) {task : SsdTask}
    (stepped : (machine content).step world (.task task) = some next) :
    world.KeepsFetch (.task task) ∧ world.MarkStep next ∨
      ¬ world.KeepsFetch (.task task) ∧ ∃ blockId, world.LosesFetch blockId next := by
  by_cases inside : task ∈ world.tier.cache.threadPool
  swap
  · simp [machine, if_neg inside] at stepped
  simp only [machine, if_pos inside, Option.some.injEq] at stepped
  subst stepped
  cases task with
  | flushCopy blockId =>
    left
    refine ⟨trivial, ?_⟩
    rw [runTask]
    cases copyFile world.tier.ssd world.hdd blockId with
    | none => exact ended_marks coherent inside rfl rfl (List.append_nil _)
    | some copied => exact next_marks (.flushSection blockId) inside rfl rfl rfl
  | flushSection blockId =>
    left
    have registered := flushSection_registered coherent inside
    refine ⟨trivial, ended_marks coherent inside rfl registered.caching ?_⟩
    change (world.tier.flushSection blockId).cache.threadPool.erase _ ++ [] = _
    rw [List.append_nil, registered.threadPool]
    rfl
  | fetchTest blockId =>
    rw [runTask]
    by_cases room : world.tier.cache.blockNum < world.tier.cache.maxBlockNum
    · rw [if_pos room]
      exact Or.inl ⟨fun _ => room, next_marks (.fetchCopy blockId) inside rfl rfl rfl⟩
    · rw [if_neg room]
      refine Or.inr ⟨fun keeps => room (keeps inside), blockId, ?_⟩
      exact ended_loses coherent inside rfl rfl (List.append_nil _)
  | fetchCopy blockId =>
    rw [runTask]
    cases copy : copyFile world.hdd world.tier.ssd blockId with
    | none =>
      refine Or.inr ⟨fun keeps => ?_, blockId, ?_⟩
      · obtain ⟨on_hdd, absent⟩ := keeps inside
        obtain ⟨file, found⟩ := Finmap.mem_iff.mp on_hdd
        rw [copyFile_eq_some.mpr ⟨absent, file, found, rfl⟩] at copy
        cases copy
      · exact ended_loses coherent inside rfl rfl (List.append_nil _)
    | some copied =>
      obtain ⟨absent, file, found, -⟩ := copyFile_eq_some.mp copy
      have on_hdd : blockId ∈ world.hdd := Finmap.mem_iff.mpr ⟨file, found⟩
      refine Or.inl ⟨fun _ => ⟨on_hdd, absent⟩, ?_⟩
      exact next_marks (.fetchSection blockId) inside rfl rfl rfl
  | fetchSection blockId =>
    left
    refine ⟨trivial, ?_⟩
    obtain ⟨evicted, registered, ran⟩ := fetchSection_registered coherent inside
    rw [runTask, ran, Option.getD_some]
    refine World.MarkStep.fetched blockId (mem_kind SsdTask.fetches inside rfl) ?_ ?_
    · intro other
      change other ∈ evicted.cache.cachingBlock.erase blockId ↔ _
      rw [registered.caching, Finmap.mem_erase, and_comm]
    · intro other
      change other ∈ (evicted.cache.threadPool.erase _ ++ []).filterMap SsdTask.fetches ↔ _
      rw [List.append_nil, registered.threadPool,
        mem_kind_erase SsdTask.fetches inside coherent.fetches]
      simp [SsdTask.fetches, eq_comm]

/-- Every step keeps the marks with their fetches or loses a fetch, by what its condition says. -/
theorem step_marks {event : Event} (coherent : world.Coherent content)
    (stepped : (machine content).step world event = some next) :
    world.KeepsFetch event ∧ world.MarkStep next ∨
      ¬ world.KeepsFetch event ∧ ∃ blockId, world.LosesFetch blockId next := by
  cases event with
  | placeSsd blockId | placeHdd blockId =>
    simp only [machine] at stepped
    split at stepped
    · cases stepped
    · obtain rfl := Option.some.inj stepped
      exact Or.inl ⟨trivial, World.MarkStep.same (fun _ => Iff.rfl) fun _ => Iff.rfl⟩
  | newBlock blockId =>
    simp only [machine] at stepped
    split at stepped
    · cases stepped
    obtain ⟨tier, announced, rfl⟩ := Option.map_eq_some_iff.mp stepped
    obtain ⟨file, -, rfl⟩ := Option.map_eq_some_iff.mp announced
    refine Or.inl ⟨trivial, World.MarkStep.same (fun _ => Iff.rfl) fun other => ?_⟩
    simp [SsdTask.fetches]
  | task task => exact task_marks coherent stepped
  | read info =>
    obtain ⟨⟨tier, delivered⟩, served, rfl⟩ := Option.map_eq_some_iff.mp stepped
    obtain ⟨file, -, same⟩ := Option.map_eq_some_iff.mp served
    obtain ⟨rfl, -⟩ := Prod.mk.inj same
    exact Or.inl ⟨trivial, noteRead_marks world info.blockId⟩

/-! ## Failing copies -/

/-- The number of blocks plays no part in the invariant. -/
theorem World.Coherent.count (coherent : world.Coherent content) (added : Int) :
    (world.count added).Coherent content :=
  ⟨coherent.ssd, coherent.hdd, ⟨coherent.tier.nodup, coherent.tier.queued, coherent.tier.cached,
    coherent.tier.unsynced⟩, coherent.unsynced, coherent.announced, coherent.flushes,
    coherent.flushing, coherent.fetches, coherent.fetching, coherent.flushCopied,
    coherent.fetchCopied⟩

/-- A step does not end a fetch before its section, and no copy of a fetch fails. -/
def FaultyWorld.KeepsFetch (faulty : FaultyWorld) : FaultyEvent → Prop
  | .sound event => faulty.seen.KeepsFetch event
  | .copyFails (.fetchCopy blockId) => .fetchCopy blockId ∉ faulty.world.tier.cache.threadPool
  | _ => True

/-- Every step keeps the invariant, also where copies fail. -/
theorem faulty_coherent {faulty after : FaultyWorld} {event : FaultyEvent}
    (coherent : faulty.world.Coherent content)
    (stepped : (faultyMachine content).step faulty event = some after) :
    after.world.Coherent content := by
  cases event with
  | sound event =>
    simp only [faultyMachine] at stepped
    split at stepped
    · cases stepped
    · obtain ⟨next, taken, rfl⟩ := Option.map_eq_some_iff.mp stepped
      exact (step_coherent (coherent.count faulty.added) taken).count _
  | enter blockId =>
    simp only [faultyMachine] at stepped
    split at stepped
    · obtain rfl := Option.some.inj stepped
      exact coherent
    · cases stepped
  | leave =>
    obtain ⟨blockId, -, left⟩ := Option.bind_eq_some_iff.mp stepped
    obtain ⟨next, taken, rfl⟩ := Option.map_eq_some_iff.mp left
    exact step_coherent coherent taken
  | copyFails task =>
    simp only [faultyMachine] at stepped
    split at stepped
    · next enabled =>
      obtain rfl := Option.some.inj stepped
      have ended := coherent.ended enabled.2
      rw [List.append_nil] at ended
      exact ended
    · cases stepped

/-- Every step keeps the marks with their fetches or loses a fetch, also where copies fail. -/
theorem faulty_marks {faulty after : FaultyWorld} {event : FaultyEvent}
    (coherent : faulty.world.Coherent content)
    (stepped : (faultyMachine content).step faulty event = some after) :
    faulty.KeepsFetch event ∧ faulty.world.MarkStep after.world ∨
      ¬ faulty.KeepsFetch event ∧ ∃ blockId, faulty.world.LosesFetch blockId after.world := by
  cases event with
  | sound event =>
    simp only [faultyMachine] at stepped
    split at stepped
    · cases stepped
    obtain ⟨next, taken, rfl⟩ := Option.map_eq_some_iff.mp stepped
    rcases step_marks (coherent.count faulty.added) taken with ⟨keeps, step⟩ | ⟨ends, blockId, lost⟩
    · refine Or.inl ⟨keeps, ?_⟩
      cases step with
      | same marks fetches => exact World.MarkStep.same marks fetches
      | scheduled blockId unmarked marks fetches =>
        exact World.MarkStep.scheduled blockId unmarked marks fetches
      | fetched blockId running marks fetches =>
        exact World.MarkStep.fetched blockId running marks fetches
    · exact Or.inr ⟨ends, blockId, lost.running, lost.marks, lost.fetches⟩
  | enter blockId =>
    simp only [faultyMachine] at stepped
    split at stepped
    · obtain rfl := Option.some.inj stepped
      exact Or.inl ⟨trivial, World.MarkStep.same (fun _ => Iff.rfl) fun _ => Iff.rfl⟩
    · cases stepped
  | leave =>
    obtain ⟨blockId, -, left⟩ := Option.bind_eq_some_iff.mp stepped
    obtain ⟨next, taken, rfl⟩ := Option.map_eq_some_iff.mp left
    rcases task_marks coherent taken with ⟨-, step⟩ | ⟨ends, -⟩
    · exact Or.inl ⟨trivial, step⟩
    · exact absurd trivial ends
  | copyFails task =>
    simp only [faultyMachine] at stepped
    split at stepped
    swap
    · cases stepped
    next enabled =>
    obtain rfl := Option.some.inj stepped
    obtain ⟨copies, inside⟩ := enabled
    cases task with
    | flushCopy blockId => exact Or.inl ⟨trivial, ended_marks coherent inside rfl rfl rfl⟩
    | fetchCopy blockId =>
      exact Or.inr ⟨fun keeps => keeps inside, blockId, ended_loses coherent inside rfl rfl rfl⟩
    | flushSection blockId | fetchTest blockId | fetchSection blockId => cases copies

/-- A step that cannot be taken ends no fetch. -/
theorem refused_keepsFetch {event : Event}
    (refused : (machine content).step world event = none) : world.KeepsFetch event := by
  cases event with
  | task task =>
    by_cases inside : task ∈ world.tier.cache.threadPool
    · simp [machine, if_pos inside] at refused
    cases task with
    | fetchTest blockId | fetchCopy blockId => exact fun member => absurd member inside
    | flushCopy blockId | flushSection blockId | fetchSection blockId => trivial
  | placeSsd blockId | placeHdd blockId | newBlock blockId | read info => trivial

/-- A step that cannot be taken ends no fetch, also where copies fail. -/
theorem faulty_refused {faulty : FaultyWorld} {event : FaultyEvent}
    (refused : (faultyMachine content).step faulty event = none) : faulty.KeepsFetch event := by
  cases event with
  | sound event =>
    simp only [faultyMachine] at refused
    split at refused
    · next locked =>
      cases event with
      | task task =>
        cases task with
        | fetchTest blockId | fetchCopy blockId => exact absurd rfl locked.2
        | flushCopy blockId | flushSection blockId | fetchSection blockId => trivial
      | placeSsd blockId | placeHdd blockId | newBlock blockId | read info => trivial
    · exact refused_keepsFetch (Option.map_eq_none_iff.mp refused)
  | enter blockId | leave => trivial
  | copyFails task =>
    cases task with
    | fetchCopy blockId =>
      intro inside
      simp [faultyMachine, SsdTask.copies, inside] at refused
    | flushCopy blockId | flushSection blockId | fetchTest blockId | fetchSection blockId => trivial

/-- In every state of an interleaving with failing copies the marked blocks have their fetches,
exactly if none of its steps ends a fetch before its section. -/
theorem marksAlive_iff_keepsFetch (content : Nat → List UInt8) (maxBlockNum : Nat)
    (events : List FaultyEvent) :
    (faultyMachine content).Along FaultyWorld.KeepsFetch (faultyStart maxBlockNum) events ↔
      (faultyMachine content).Always (fun faulty => faulty.world.MarksAlive)
        (faultyStart maxBlockNum) events := by
  refine Machine.along_iff_always (fun faulty => faulty.world.Coherent content)
    (fun _ _ _ => faulty_coherent) ?_ ?_ events (start_coherent maxBlockNum) ?_
  · intro faulty event after coherent alive stepped
    rcases faulty_marks coherent stepped with ⟨keeps, step⟩ | ⟨ends, blockId, lost⟩
    · exact iff_of_true keeps (step.alive alive)
    · exact iff_of_false ends (lost.stranded coherent).dead
  · intro faulty event coherent stopped
    exact faulty_refused stopped
  · intro blockId marked
    exact absurd marked Finmap.notMem_empty

/-- A block that has lost its fetch keeps its mark in every later state and is not fetched again. -/
theorem stranded_stays {faulty after : FaultyWorld} {events : List FaultyEvent}
    (coherent : faulty.world.Coherent content) (stranded : faulty.world.Stranded blockId)
    (ran : (faultyMachine content).run faulty events = some after) :
    after.world.Stranded blockId := by
  have both : after.world.Coherent content ∧ after.world.Stranded blockId :=
    Machine.run_invariant (fun state : FaultyWorld =>
        state.world.Coherent content ∧ state.world.Stranded blockId)
      (by
        intro state event next holds stepped
        refine ⟨faulty_coherent holds.1 stepped, ?_⟩
        rcases faulty_marks holds.1 stepped with ⟨-, step⟩ | ⟨-, lost, loses⟩
        · exact step.stranded holds.2
        · exact loses.others holds.2) ⟨coherent, stranded⟩ ran
  exact both.2

/-- An announced block fills an SSD for one block; block 1 is then read often enough to be fetched,
and its fetch finds the SSD full. -/
def skippedFetch : List FaultyEvent :=
  [.sound (.placeHdd 1), .sound (.placeSsd 2), .sound (.newBlock 2)] ++
    List.replicate 51 (.sound (.read ⟨1, 0, 1, 0⟩)) ++ [.sound (.task (.fetchTest 1))]

set_option maxRecDepth 2000 in
/-- The skipped fetch leaves its mark behind, and block 1 is never fetched again. -/
theorem not_marksAlive_of_skippedFetch : ∃ faulty,
    (faultyMachine fun _ => [7]).run (faultyStart 1) skippedFetch = some faulty ∧
    ¬ faulty.world.MarksAlive ∧ ∀ events after,
      (faultyMachine fun _ => [7]).run faulty events = some after → after.world.Stranded 1 := by
  have executed : ∃ faulty,
      (faultyMachine fun _ => [7]).run (faultyStart 1) skippedFetch = some faulty ∧
      faulty.world.tier.cache.cachingBlock = (∅ : Table Nat Nat).insert 1 1 ∧
      faulty.world.tier.cache.threadPool = [.flushCopy 2] := ⟨_, rfl, rfl, rfl⟩
  obtain ⟨faulty, ran, marks, pool⟩ := executed
  have coherent : faulty.world.Coherent fun _ => [7] :=
    Machine.run_invariant (fun state : FaultyWorld => state.world.Coherent fun _ => [7])
      (fun _ _ _ => faulty_coherent) (start_coherent 1) ran
  have stranded : faulty.world.Stranded 1 := by
    constructor
    · rw [marks]
      exact Finmap.mem_insert.mpr (Or.inl rfl)
    · rw [pool]
      decide
  exact ⟨faulty, ran, stranded.dead, fun _ _ => stranded_stays coherent stranded⟩

end CudaDb.SsdTier
