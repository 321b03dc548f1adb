import CudaDb.Model.Fleet
import CudaDb.Lib.Threads
import CudaDb.Verif.MogReset

/-!
# What the workers charge

A call of `read_file` that does not find its file is admitted to write it, writes it, and then
charges its length to `total_size`, whether the write buffer accepted it or not. So `total_size`
and the lengths that the workers still owe exceed the accepted lengths by the lengths of the
refused values. The account is exact, in a state where no worker is inserting a file, exactly if
no file was refused that has bytes.
-/

namespace CudaDb

/-- The bytes that a call has given to the write buffer and has still to charge. -/
def MogPc.owed : MogPc → Nat
  | .buffer (.insert _ bytes) (.returned _) | .addTotal _ bytes => bytes.length
  | _ => 0

/-- The bytes that a call was admitted to write and has still to charge. -/
def MogPc.admitted : MogPc → Nat
  | .buffer (.insert _ bytes) _ | .addTotal _ bytes => bytes.length
  | _ => 0

/-- The value of a call of `WriteBuffer::write` that stands under the lock, with its key. -/
def MogPc.locked : MogPc → Option (String × List UInt8)
  | .buffer _ (.locked key value) => some (key, value)
  | _ => none

/-- The bytes that the next access gives to the write buffer. -/
def MogPc.written (pc : MogPc) : Nat := (pc.locked.map fun write => write.2.length).getD 0

/-- The call is inside `insert_file_with_copy`. -/
def MogPc.inserting : MogPc → Bool
  | .openFile _ _ | .testTotal _ _ _ | .buffer (.insert _ _) _ | .addTotal _ _ => true
  | _ => false

/-- Where a call of `read_file` can stand, with what it carries to the write buffer. -/
def MogPc.Serving : MogPc → Prop
  | .readBuffer reader _ | .findItem reader _ | .copyItem reader _ | .getIndex reader _
  | .readSsd reader _ _ | .insertItem reader _ _ => ∃ path, reader = .file path
  | .buffer (.insert _ bytes) inner => bytes.length ≤ maxValueLength ∧
      ((∃ key, inner.call = some (key, bytes)) ∨ ∃ status, inner = .returned status)
  | .addTotal _ bytes => bytes.length ≤ maxValueLength
  | .buffer _ _ | .syncSsd => False
  | _ => True

/-- A call outside `insert_file_with_copy` owes nothing. -/
theorem MogPc.owed_of_outside {pc : MogPc} (outside : pc.inserting = false) : pc.owed = 0 := by
  unfold owed
  split
  · cases outside
  · cases outside
  · rfl

/-- What a call owes it was admitted to write. -/
theorem MogPc.owed_le_admitted (pc : MogPc) : pc.owed ≤ pc.admitted := by
  unfold owed
  split
  · exact le_rfl
  · exact le_rfl
  · exact Nat.zero_le _

/-- A call is admitted to write at most 1 MiB. -/
theorem MogPc.Serving.admitted_le {pc : MogPc} (serving : pc.Serving) :
    pc.admitted ≤ maxValueLength := by
  unfold admitted
  split
  · exact serving.1
  · exact serving
  · exact Nat.zero_le _

namespace Mog

variable {Db : Type*} {hash : String → UInt64} {leveldb : LevelDb Db} {config : MogConfig}
  {files : String → Option (List UInt8)} {mog next : Mog Db} {caller after : Caller}

/-- What an access of a call of `read_file` does to the account. -/
structure AccountStep (config : MogConfig) (mog : Mog Db) (caller after : Caller) : Prop where
  /-- The call goes on. -/
  serving : after.pc.Serving
  /-- What is written is owed until it is charged. -/
  owed : after.pc.owed + caller.pc.charged = caller.pc.owed + caller.pc.written
  /-- What was admitted stays so until it is charged, or the call is admitted within the budget. -/
  admitted : after.pc.admitted + caller.pc.charged = caller.pc.admitted ∨
    (caller.pc.admitted = 0 ∧ caller.pc.charged = 0 ∧
      100 * mog.totalSize ≤ 95 * 1024 * 1024 * config.hddPageNum)

/-- An access of a call that neither writes nor charges anything before or after. -/
theorem accountStep_of_idle (serving : after.pc.Serving) (before : caller.pc.admitted = 0)
    (charged : caller.pc.charged = 0) (locked : caller.pc.locked = none)
    (later : after.pc.admitted = 0) : AccountStep config mog caller after := by
  have owed_before := caller.pc.owed_le_admitted
  have owed_later := after.pc.owed_le_admitted
  refine ⟨serving, ?_, Or.inl (by omega)⟩
  rw [MogPc.written, locked, Option.map_none, Option.getD_none]
  omega

/-- A call that has returned from `mog::read` goes on without anything to write yet. -/
theorem afterRead_serving (path key : String) (length : Nat) :
    (afterRead (.file path) key length).Serving ∧
      (afterRead (.file path) key length).admitted = 0 := by
  unfold afterRead
  dsimp only
  split
  · exact ⟨trivial, rfl⟩
  · exact ⟨trivial, rfl⟩

/-- Every access of a call of `read_file` keeps the account. -/
theorem step_account (serving : caller.pc.Serving)
    (stepped : mog.step hash leveldb config files caller = some (next, after)) :
    AccountStep config mog caller after := by
  obtain ⟨pc, value⟩ := caller
  cases step_access stepped with
  | ready path => exact accountStep_of_idle ⟨path, rfl⟩ rfl rfl rfl rfl
  | unready | directNothing | directFile | fileNothing | fileRead | uncached =>
    exact accountStep_of_idle trivial rfl rfl rfl rfl
  | bufferMiss | itemFound | itemMissed | indexFound | ssdRead =>
    exact accountStep_of_idle serving rfl rfl rfl rfl
  | bufferHit | itemCopied | itemInserted =>
    obtain ⟨path, rfl⟩ := serving
    obtain ⟨served, nothing⟩ := afterRead_serving path _ _
    exact accountStep_of_idle served rfl rfl rfl nothing
  | indexMissed reader key =>
    obtain ⟨path, rfl⟩ := serving
    obtain ⟨served, nothing⟩ := afterRead_serving path key 0
    exact accountStep_of_idle served rfl rfl rfl nothing
  | admitted path key bytes small room =>
    have short : ¬ bytes.length > slabSize 10 := Nat.not_lt.mpr small
    have call : WriteBuffer.write key bytes = .waitTotal key bytes := if_neg short
    rw [call]
    exact ⟨⟨small, Or.inl ⟨key, rfl⟩⟩, rfl, Or.inr ⟨rfl, rfl, room⟩⟩
  | bufferStep writer inner later buffer taken =>
    cases writer with
    | write key bytes => exact serving.elim
    | sync => exact serving.elim
    | insert path bytes =>
      obtain ⟨short, ⟨key, call⟩ | ⟨status, rfl⟩⟩ := serving
      · cases inner with
        | waitTotal own carried | waitSsd own carried =>
          rcases WriteBuffer.step_write call taken with goes_on | ⟨standing, -⟩
          · refine ⟨⟨short, Or.inl ⟨key, goes_on⟩⟩, ?_, Or.inl rfl⟩
            cases later with
            | returned status => cases goes_on
            | _ => rfl
          · cases standing
        | locked own carried =>
          obtain ⟨rfl, rfl⟩ := Prod.mk.inj (Option.some.inj call)
          obtain ⟨⟨status, written⟩, -, returned⟩ := Option.map_eq_some_iff.mp taken
          obtain ⟨rfl, -⟩ := Prod.mk.inj returned
          exact ⟨⟨short, Or.inr ⟨status, rfl⟩⟩, Nat.add_comm _ _, Or.inl rfl⟩
        | _ => cases call
      · cases taken
  | bufferReturned writer status =>
    cases writer with
    | insert path bytes => exact ⟨serving.1, rfl, Or.inl rfl⟩
    | _ => exact serving.elim
  | charged path bytes =>
    exact ⟨trivial, (Nat.zero_add _).trans (Nat.add_zero _).symm, Or.inl (Nat.zero_add _)⟩
  | synced => exact serving.elim

/-- A caller at rest carries nothing. -/
theorem admitted_of_atRest {pc : MogPc} (rest : pc.atRest = true) :
    pc.admitted = 0 ∧ pc.owed = 0 ∧ pc.locked = none := by
  cases pc <;> first | exact ⟨rfl, rfl, rfl⟩ | cases rest

/-- Under its lock `write` accepts a value exactly if the hash of its key is not buffered. -/
theorem writeLocked_status {buffer written : WriteBuffer} {key : String} {value : List UInt8}
    {status : Int} (taken : buffer.writeLocked hash key value = some (status, written)) :
    status = 0 ↔ hash key ∉ buffer.kvStore := by
  unfold WriteBuffer.writeLocked at taken
  by_cases present : hash key ∈ buffer.kvStore
  · rw [if_pos present] at taken
    obtain ⟨rfl, -⟩ := Prod.mk.inj (Option.some.inj taken)
    exact iff_of_false (by decide) (not_not_intro present)
  · rw [if_neg present] at taken
    refine iff_of_true ?_ present
    dsimp only at taken
    split at taken
    · obtain ⟨packed, -, same⟩ := Option.map_eq_some_iff.mp taken
      exact (Prod.mk.inj same).1.symm
    · exact (Prod.mk.inj (Option.some.inj taken)).1.symm

end Mog

namespace Fleet

variable {Worker : Type*} [DecidableEq Worker] {Db : Type*} {hash : String → UInt64}
  {leveldb : LevelDb Db} {config : MogConfig} {files : String → Option (List UInt8)}
  {fleet next : Fleet Worker Db} {event : Event Worker} {values : List (List UInt8)}

/-- What an event does to a fleet that allows it. -/
inductive Occurs (hash : String → UInt64) (leveldb : LevelDb Db) (config : MogConfig)
    (files : String → Option (List UInt8)) (fleet : Fleet Worker Db) :
    Event Worker → Fleet Worker Db → Prop
  /-- A worker at rest calls `read_file`. -/
  | readFile (worker : Worker) (path : String) (rest : (fleet.workers worker).pc.atRest = true) :
    Occurs hash leveldb config files fleet (.readFile worker path)
      { fleet with
        workers := Function.update fleet.workers worker
          { fleet.workers worker with pc := Mog.begin (.readFile path) } }
  /-- A worker makes its next access. -/
  | step (worker : Worker) (mog : Mog Db) (caller : Caller)
    (taken : fleet.mog.step hash leveldb config files (fleet.workers worker) =
      some (mog, caller)) :
    Occurs hash leveldb config files fleet (.step worker)
      { mog, workers := Function.update fleet.workers worker caller }
  /-- A scheduled flush runs. -/
  | flush (blockId : Nat) (storage : Storage Db)
    (ran : fleet.mog.storage.runFlush hash leveldb blockId = some storage) :
    Occurs hash leveldb config files fleet (.flush blockId)
      { fleet with mog := { fleet.mog with storage } }
  /-- A scheduled fetch runs. -/
  | fetch (blockId : Nat)
    (scheduled : SsdTask.fetchTest blockId ∈ fleet.mog.tier.cache.threadPool) :
    Occurs hash leveldb config files fleet (.fetch blockId)
      { fleet with mog := { fleet.mog with
        tier := { Mog.fetch blockId fleet.mog.tier fleet.mog.storage.hdd with
          cache := { (Mog.fetch blockId fleet.mog.tier fleet.mog.storage.hdd).cache with
            threadPool := (Mog.fetch blockId fleet.mog.tier
              fleet.mog.storage.hdd).cache.threadPool.erase (.fetchTest blockId) } } } }

/-- Every event is one of these. -/
theorem step_occurs
    (stepped : (machine hash leveldb config files).step fleet event = some next) :
    Occurs hash leveldb config files fleet event next := by
  cases event with
  | readFile worker path =>
    obtain ⟨rest, same⟩ := Option.ite_none_right_eq_some.mp stepped
    obtain rfl := Option.some.inj same
    exact .readFile worker path rest
  | step worker =>
    obtain ⟨⟨mog, caller⟩, taken, rfl⟩ := Option.map_eq_some_iff.mp stepped
    exact .step worker mog caller taken
  | flush blockId =>
    obtain ⟨storage, ran, rfl⟩ := Option.map_eq_some_iff.mp stepped
    exact .flush blockId storage ran
  | fetch blockId =>
    obtain ⟨scheduled, same⟩ := Option.ite_none_right_eq_some.mp stepped
    obtain rfl := Option.some.inj same
    exact .fetch blockId scheduled

/-- Every worker is at rest or in a call of `read_file`. -/
def Served (fleet : Fleet Worker Db) : Prop := ∀ worker, (fleet.workers worker).pc.Serving

/-- The sum of the lengths of some values. -/
def lengths (values : List (List UInt8)) : Nat := (values.map List.length).sum

/-- A step of the workers has the write buffer refuse no value with bytes: where a worker stands
under the lock, the hash of its key is not buffered, or its file is empty. -/
def Unrefused (hash : String → UInt64) (fleet : Fleet Worker Db) : Event Worker → Prop
  | .step worker => ∀ write ∈ (fleet.workers worker).pc.locked,
      hash write.1 ∉ fleet.mog.storage.buffer.kvStore ∨ write.2 = []
  | _ => True

/-- Whether a step is refused can be computed. -/
instance decidableUnrefused (hash : String → UInt64) (fleet : Fleet Worker Db) :
    ∀ event : Event Worker, Decidable (Unrefused hash fleet event)
  | .step worker => inferInstanceAs (Decidable (∀ write ∈ (fleet.workers worker).pc.locked,
      hash write.1 ∉ fleet.mog.storage.buffer.kvStore ∨ write.2 = []))
  | .readFile _ _ | .flush _ | .fetch _ => isTrue trivial

/-- Every event keeps the workers in their calls. -/
theorem step_served (served : fleet.Served)
    (stepped : (machine hash leveldb config files).step fleet event = some next) :
    next.Served := by
  cases step_occurs stepped with
  | readFile worker path =>
    exact Threads.forall_update (fun caller : Caller => caller.pc.Serving) trivial served
  | step worker mog caller taken =>
    have moved := (Mog.step_account (served worker) taken).serving
    exact Threads.forall_update (fun caller : Caller => caller.pc.Serving) moved served
  | flush | fetch => exact served

omit [DecidableEq Worker] in
/-- The access of a worker that does not stand under the lock has nothing accepted. -/
theorem accepted_of_unlocked {worker : Worker}
    (unlocked : (fleet.workers worker).pc.locked = none) :
    accepted hash fleet (.step worker) = none := by
  unfold accepted
  dsimp only
  split
  · next standing =>
    rw [standing] at unlocked
    cases unlocked
  · rfl

/-- The access of a worker under the lock has its value accepted, unless the hash of the key is
buffered. -/
theorem accepted_of_locked {worker : Worker} {key : String} {value : List UInt8}
    (locked : (fleet.workers worker).pc.locked = some (key, value))
    (stepped : (machine hash leveldb config files).step fleet (.step worker) = some next) :
    accepted hash fleet (.step worker) =
      if hash key ∈ fleet.mog.storage.buffer.kvStore then none else some value := by
  obtain ⟨⟨mog, caller⟩, taken, -⟩ := Option.map_eq_some_iff.mp stepped
  unfold accepted
  dsimp only
  generalize fleet.workers worker = before at locked taken ⊢
  obtain ⟨pc, held⟩ := before
  cases pc with
  | buffer writer inner =>
    cases inner with
    | locked own bytes =>
      obtain ⟨rfl, rfl⟩ := Prod.mk.inj (Option.some.inj locked)
      obtain ⟨⟨later, buffer⟩, written, -⟩ := Option.map_eq_some_iff.mp taken
      obtain ⟨⟨status, stored⟩, result, -⟩ := Option.map_eq_some_iff.mp written
      have accepts := Mog.writeLocked_status result
      dsimp only
      simp only [result, Option.map_some, Option.some.injEq]
      by_cases present : hash own ∈ fleet.mog.storage.buffer.kvStore
      · rw [if_pos present, if_neg fun zero => accepts.mp zero present]
      · rw [if_neg present, if_pos (accepts.mpr present)]
    | _ => cases locked
  | _ => cases locked

/-- What is accepted in an access of a worker is what was written, unless it was refused. -/
theorem accepted_written {worker : Worker}
    (stepped : (machine hash leveldb config files).step fleet (.step worker) = some next) :
    lengths (accepted hash fleet (.step worker)).toList ≤ (fleet.workers worker).pc.written ∧
    (Unrefused hash fleet (.step worker) ↔
      lengths (accepted hash fleet (.step worker)).toList = (fleet.workers worker).pc.written) := by
  unfold MogPc.written Unrefused
  dsimp only
  cases locked : (fleet.workers worker).pc.locked with
  | none =>
    rw [accepted_of_unlocked locked]
    exact ⟨le_rfl, iff_of_true nofun rfl⟩
  | some write =>
    obtain ⟨key, value⟩ := write
    rw [accepted_of_locked locked stepped]
    by_cases present : hash key ∈ fleet.mog.storage.buffer.kvStore
    · rw [if_pos present]
      refine ⟨Nat.zero_le _, ?_⟩
      constructor
      · intro unrefused
        have empty := (unrefused _ rfl).resolve_left (not_not_intro present)
        exact (congrArg List.length empty).symm
      · rintro same write ⟨⟩
        exact Or.inr (List.eq_nil_of_length_eq_zero same.symm)
    · rw [if_neg present]
      refine ⟨le_rfl, iff_of_true ?_ rfl⟩
      rintro write ⟨⟩
      exact Or.inl present

variable [Fintype Worker]

/-- What was charged or is owed beyond the accepted lengths. -/
def excess (fleet : Fleet Worker Db) (values : List (List UInt8)) : Int :=
  fleet.mog.totalSize + Threads.total (fun caller => caller.pc.owed) fleet.workers - lengths values

omit [DecidableEq Worker] [Fintype Worker] in
/-- The lengths of the accepted values with those of an event before them. -/
theorem lengths_noteAccepted : lengths (noteAccepted hash values fleet event) =
    lengths (accepted hash fleet event).toList + lengths values := by
  unfold lengths noteAccepted
  rw [List.map_append, List.sum_append]

/-- The excess grows by what is refused, and by nothing else. -/
theorem step_excess (values : List (List UInt8)) (served : fleet.Served)
    (stepped : (machine hash leveldb config files).step fleet event = some next) :
    fleet.excess values ≤ next.excess (noteAccepted hash values fleet event) ∧
    (Unrefused hash fleet event ↔
      next.excess (noteAccepted hash values fleet event) = fleet.excess values) := by
  unfold excess
  rw [lengths_noteAccepted]
  cases step_occurs stepped with
  | readFile worker path rest =>
    have moved := Threads.total_update (fun caller => caller.pc.owed) fleet.workers worker
      { fleet.workers worker with pc := Mog.begin (.readFile path) }
    have before : (fleet.workers worker).pc.owed = 0 := (Mog.admitted_of_atRest rest).2.1
    have called : (Mog.begin (.readFile path)).owed = 0 := rfl
    have nothing : lengths (accepted hash fleet (.readFile worker path)).toList = 0 := rfl
    dsimp only at moved ⊢
    rw [before, called] at moved
    exact ⟨by omega, iff_of_true trivial (by omega)⟩
  | step worker mog caller taken =>
    obtain ⟨less, unrefused⟩ := accepted_written stepped
    have owed := (Mog.step_account (served worker) taken).owed
    have total := Mog.step_totalSize taken
    have moved := Threads.total_update (fun caller => caller.pc.owed) fleet.workers worker caller
    rw [unrefused]
    dsimp only at less moved ⊢
    rw [total]
    exact ⟨by omega, by omega⟩
  | flush blockId =>
    have nothing : lengths (accepted hash fleet (.flush blockId)).toList = 0 := rfl
    dsimp only
    exact ⟨by omega, iff_of_true trivial (by omega)⟩
  | fetch blockId =>
    have nothing : lengths (accepted hash fleet (.fetch blockId)).toList = 0 := rfl
    dsimp only
    exact ⟨by omega, iff_of_true trivial (by omega)⟩

omit [DecidableEq Worker] in
/-- The workers start in no call and owe nothing. -/
theorem start_excess (leveldb : LevelDb Db) (config : MogConfig) (value : Worker → ByteMemory) :
    (start leveldb config value).excess [] = 0 := by
  have nothing : Threads.total (fun caller : Caller => caller.pc.owed)
      (start leveldb config value).workers = 0 := Threads.total_eq_zero fun _ => rfl
  unfold excess
  rw [nothing]
  rfl

/-- In every run of any number of workers that call `read_file`, with the flush and fetch tasks in
between: in a state in which no worker is inside `insert_file_with_copy`, `total_size` is the sum
of the lengths of the accepted values exactly if no file that has bytes was refused. -/
theorem account_exact_iff {value : Worker → ByteMemory} {events : List (Event Worker)}
    (ran : ((machine hash leveldb config files).observed (noteAccepted hash)).run
      (start leveldb config value, []) events = some (fleet, values))
    (outside : ∀ worker, (fleet.workers worker).pc.inserting = false) :
    fleet.mog.totalSize = lengths values ↔
      (machine hash leveldb config files).Along (Unrefused hash) (start leveldb config value)
        events := by
  have served : (start leveldb config value).Served := fun _ => trivial
  have grows := Machine.along_iff_measure_eq
    (fun state : Fleet Worker Db × List (List UInt8) => state.1.excess state.2)
    (fun state => state.1.Served) (fun state event => Unrefused hash state.1 event) ?_ ?_ ?_
    served ran
  · rw [← Machine.along_observed, grows]
    have settled : Threads.total (fun caller : Caller => caller.pc.owed) fleet.workers = 0 :=
      Threads.total_eq_zero fun worker => MogPc.owed_of_outside (outside worker)
    dsimp only
    rw [start_excess, excess, settled]
    omega
  · intro state event after served stepped
    exact step_served served (Machine.observed_step.mp stepped).1
  · rintro ⟨state, before⟩ event ⟨after, noted⟩ served stepped
    obtain ⟨taken, rfl⟩ := Machine.observed_step.mp stepped
    exact (step_excess before served taken).1
  · rintro ⟨state, before⟩ event ⟨after, noted⟩ served stepped
    obtain ⟨taken, rfl⟩ := Machine.observed_step.mp stepped
    exact (step_excess before served taken).2

/-- Two workers are asked for one file, the second one when the first has answered. -/
def oneAfterTheOther : List (Event (Fin 10)) :=
  .readFile 0 "a" :: List.replicate 11 (.step 0) ++ [.readFile 1 "a", .step 1, .step 1]

/-- The first worker caches the file, the second one is served from the buffer. -/
theorem account_exact_oneAfterTheOther :
    ∃ fleet values, ((machine Mog.powerHash LevelDb.table MogConfig.oneBlock Mog.oneFile).observed
        (noteAccepted Mog.powerHash)).run
        (start LevelDb.table MogConfig.oneBlock fun _ _ => 0, []) oneAfterTheOther =
          some (fleet, values) ∧
      values = [[1, 2]] ∧ fleet.mog.totalSize = lengths values := by
  have executed : ∃ fleet values,
      ((machine Mog.powerHash LevelDb.table MogConfig.oneBlock Mog.oneFile).observed
        (noteAccepted Mog.powerHash)).run
        (start LevelDb.table MogConfig.oneBlock fun _ _ => 0, []) oneAfterTheOther =
          some (fleet, values) ∧
      values = [[1, 2]] ∧ ∀ worker, (fleet.workers worker).pc.inserting = false :=
    ⟨_, _, rfl, rfl, by decide⟩
  obtain ⟨fleet, values, ran, accepted, outside⟩ := executed
  have unrefused : (machine Mog.powerHash LevelDb.table MogConfig.oneBlock Mog.oneFile).Along
      (Unrefused Mog.powerHash) (start LevelDb.table MogConfig.oneBlock fun _ _ => 0)
      oneAfterTheOther := by
    decide +kernel
  exact ⟨fleet, values, ran, accepted, (account_exact_iff ran outside).mpr unrefused⟩

/-- Two workers are asked for one file and take their steps in turn. -/
def bothAtOnce : List (Event (Fin 10)) :=
  [.readFile 0 "a", .readFile 1 "a"] ++ (List.replicate 11 [.step 0, .step 1]).flatten

/-- Both workers miss the file, one of them has its write refused, and both charge it. -/
theorem not_account_exact_bothAtOnce :
    ∃ fleet values, ((machine Mog.powerHash LevelDb.table MogConfig.oneBlock Mog.oneFile).observed
        (noteAccepted Mog.powerHash)).run
        (start LevelDb.table MogConfig.oneBlock fun _ _ => 0, []) bothAtOnce =
          some (fleet, values) ∧
      (∀ worker, (fleet.workers worker).pc.inserting = false) ∧
      fleet.mog.totalSize = 4 ∧ lengths values = 2 ∧ fleet.mog.totalSize ≠ lengths values :=
  ⟨_, _, rfl, by decide, rfl, rfl, by decide⟩

end Fleet

end CudaDb
