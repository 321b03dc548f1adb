import CudaDb.Verif.MogRead
import CudaDb.Verif.BufferLookup

/-!
# The last accepted write

A key is rewritten in the write buffer and in the index, but its copy in the RAM cache is never
replaced, and an empty buffered value does not hide what the index holds. In every run of reads,
writes and syncs in which no accepted write meets an outdated copy of its key, a read returns
what was accepted last; a rewrite of a value that has been read back from disk is lost.
-/

namespace CudaDb.Mog

open Storage (Log Change Agrees)

variable {Db : Type*} {hash : String → UInt64} {leveldb : LevelDb Db} {config : MogConfig}
  {files : String → Option (List UInt8)} {keys : Set String} {mog next : Mog Db}
  {caller after : Caller} {log : Log}

/-- The accepted writes, with the one that is about to return. -/
def accepted (pc : MogPc) (log : Log) : Log :=
  match pc with
  | .buffer (.write key value) (.returned status) => if status = 0 then (key, value) :: log else log
  | _ => log

/-- The history of the calls of `mog::write` that returned 0. -/
def noteWrite (log : Log) (session : Session Db) : Event → Log
  | .step => accepted session.caller.pc log
  | _ => log

/-- The value is the one that was accepted last under the key. -/
def LastOf (log : Log) (key : String) (value : List UInt8) : Prop := log.lookup key = some value

/-- The calls are reads and writes of these keys, and syncs. -/
def Event.OnKeys (keys : Set String) : Event → Prop
  | .call (.read key) | .call (.write key _) => key ∈ keys
  | .call .sync | .step | .flush _ | .fetch _ => True
  | _ => False

/-- The call that is being executed reads or writes one of these keys, or is a sync. -/
def Calling (keys : Set String) : MogPc → Prop
  | .readBuffer reader key | .findItem reader key | .copyItem reader key | .getIndex reader key
  | .readSsd reader key _ | .insertItem reader key _ => reader = .caller ∧ key ∈ keys
  | .buffer (.write key value) pc =>
    key ∈ keys ∧ (pc.call = some (key, value) ∨ ∃ status, pc = .returned status)
  | .buffer .sync pc => pc.call = none
  | .idle | .done _ _ | .syncSsd => True
  | _ => False

/-- The call of `mog::write` that stands under the lock of the write buffer. -/
def lockedWrite : MogPc → Option (String × List UInt8)
  | .buffer (.write key value) (.locked _ _) => some (key, value)
  | _ => none

/-- Where a write is about to be accepted, no outdated copy of its key is cached in RAM, and an
empty value has no longer one on disk behind it. -/
def Fresh (hash : String → UInt64) (leveldb : LevelDb Db) (mog : Mog Db) (pc : MogPc) (log : Log) :
    Prop :=
  ∀ write ∈ lockedWrite pc, hash write.1 ∉ mog.storage.buffer.kvStore →
    (write.1 ∈ mog.ram.cachedItem → LastOf log write.1 write.2) ∧
    (write.2 = [] → ∀ info ∈ CentraIndex.getInfo leveldb mog.storage.db write.1, info.length = 0)

/-- Whether a value is the last accepted one can be computed. -/
instance decidableLastOf (log : Log) (key : String) (value : List UInt8) :
    Decidable (LastOf log key value) := inferInstanceAs (Decidable (_ = _))

/-- Whether a write is fresh can be computed. -/
instance decidableFresh (hash : String → UInt64) (leveldb : LevelDb Db) (mog : Mog Db) (pc : MogPc)
    (log : Log) : Decidable (mog.Fresh hash leveldb pc log) :=
  inferInstanceAs (Decidable (∀ write ∈ lockedWrite pc, _ → (_ → _) ∧ (_ → ∀ info ∈ _, _)))

/-- What the stores hold is up to date with the accepted writes. -/
structure Latest (hash : String → UInt64) (leveldb : LevelDb Db) (keys : Set String)
    (mog : Mog Db) (log : Log) : Prop where
  /-- The buffer, and the disk behind it, hold for each key what was accepted last. -/
  agrees : Agrees hash leveldb keys mog.storage log
  /-- The RAM cache holds only values that were accepted last. -/
  ram : mog.ram.Holds (LastOf log)
  /-- Behind an empty buffered value there is no longer one on disk. -/
  empty : ∀ hashed info, mog.storage.buffer.kvStore.lookup hashed = some info → info.value = [] →
    ∀ record, CentraIndex.getInfo leveldb mog.storage.db info.key = some record →
      record.length = 0

/-- The storage with the call of the write buffer that the caller is in. -/
def storageSession (mog : Mog Db) (pc : MogPc) : Storage.Session Db where
  storage := mog.storage
  pc := pc.bufferPc

/-- An open `mog` has a coherent storage. -/
theorem Opened.session {pc : MogPc} (opened : mog.Opened hash leveldb pc) :
    (mog.storageSession pc).Coherent hash leveldb :=
  ⟨opened.storage, opened.short⟩

/-- A call stays within its keys in the write buffer. -/
theorem Calling.within {pc : MogPc} (calling : Calling keys pc) (mog : Mog Db) :
    (mog.storageSession pc).Within keys := by
  intro key value call
  cases pc with
  | buffer writer inner =>
    cases writer with
    | write own bytes =>
      rcases calling.2 with own_call | ⟨status, rfl⟩
      · obtain ⟨rfl, -⟩ := Prod.mk.inj (Option.some.inj (own_call.symm.trans call))
        exact calling.1
      · cases call
    | insert path buffer => exact calling.elim
    | sync =>
      have none_called : inner.call = none := calling
      have called : inner.call = some (key, value) := call
      rw [none_called] at called
      cases called
  | _ => cases call

/-! ## Reads -/

/-- What is found for a key that the buffer has no bytes for is what was accepted last. -/
theorem Latest.disk (latest : mog.Latest hash leveldb keys log) (injective : Set.InjOn hash keys)
    {pc : MogPc} (opened : mog.Opened hash leveldb pc) {key : String} (used : key ∈ keys) :
    mog.DiskHolds hash leveldb (LastOf log) key := by
  intro info missed found
  obtain ⟨-, -, -, bytes, slice⟩ := opened.storage.indexed key info found
  have agreed := latest.agrees.found key used
  refine ⟨bytes, ?_, slice⟩
  unfold Storage.lookup at agreed
  cases stored : mog.storage.buffer.kvStore.lookup (hash key) with
  | none =>
    rw [stored] at agreed
    dsimp only at agreed
    rw [Storage.onDisk, found, Option.bind_some, slice] at agreed
    exact agreed.symm
  | some entry =>
    rw [stored] at agreed
    have nothing : entry.value = [] := missed entry stored
    have own : entry.key = key := by
      have hashed := (opened.storage.buffer.entries _ entry stored).1
      exact injective (latest.agrees.buffered _ entry stored) used hashed
    have short := latest.empty _ entry stored nothing info (own ▸ found)
    have bytes_nil : bytes = [] := by
      apply List.eq_nil_of_length_eq_zero
      rw [Storage.slice_length slice, short]
    rw [bytes_nil, ← nothing]
    exact agreed.symm

/-- An answer for a key in use is the value that was accepted last, or nothing. -/
theorem Latest.answer (latest : mog.Latest hash leveldb keys log) {key : String}
    (used : key ∈ keys) {value : List UInt8}
    (answer : Answer hash leveldb (LastOf log) mog key value) :
    value = (log.lookup key).getD [] := by
  have agreed := latest.agrees.found key used
  unfold Storage.lookup at agreed
  cases answer with
  | held value own => rw [LastOf] at own; rw [own, Option.getD_some]
  | buffered info found =>
    rw [found] at agreed
    rw [← agreed, Option.getD_some]
  | absent missed unknown =>
    cases stored : mog.storage.buffer.kvStore.lookup (hash key) with
    | none =>
      rw [stored] at agreed
      dsimp only at agreed
      rw [Storage.onDisk, unknown, Option.bind_none] at agreed
      rw [← agreed, Option.getD_none]
    | some entry =>
      rw [stored] at agreed
      rw [← agreed, Option.getD_some]
      exact (missed entry stored).symm

/-! ## Writes -/

/-- A caller that stands under the lock of `write` is in a call of `mog::write`. -/
theorem Calling.locked {pc : MogPc} (calling : Calling keys pc) {key : String}
    {value : List UInt8} (locked : pc.bufferPc = .locked key value) :
    pc = .buffer (.write key value) (.locked key value) := by
  cases pc with
  | buffer writer inner =>
    have standing : inner = .locked key value := locked
    subst standing
    cases writer with
    | write own bytes =>
      rcases calling.2 with call | ⟨status, returned⟩
      · obtain ⟨rfl, rfl⟩ := Prod.mk.inj (Option.some.inj call)
        rfl
      · cases returned
    | insert path buffer => exact calling.elim
    | sync => cases calling
  | _ => cases locked

/-- Outside a call of `mog::write` the accepted writes have returned. -/
theorem accepted_afterWrite (writer : Writer) (status : Int) :
    accepted (afterWrite writer status) log = log := by
  cases writer <;> rfl

/-- A step of a call of the write buffer leaves the store alone or has a write accepted. -/
theorem buffer_writing (log : Log) {writer : Writer} {inner later : WriteBuffer.Pc}
    {buffer : WriteBuffer}
    {ssdFull : Bool} (opened : mog.Opened hash leveldb (.buffer writer inner))
    (calling : Calling keys (.buffer writer inner))
    (taken : mog.storage.buffer.step hash ssdFull inner = some (later, buffer)) :
    Calling keys (.buffer writer later) ∧
    ((buffer.kvStore = mog.storage.buffer.kvStore ∧ accepted (.buffer writer later) log = log) ∨
    ∃ key value, MogPc.buffer writer inner = .buffer (.write key value) (.locked key value) ∧
      hash key ∉ mog.storage.buffer.kvStore ∧
      buffer.kvStore = mog.storage.buffer.kvStore.insert (hash key)
        { key, value, valueLengthType := slabType value.length } ∧
      accepted (.buffer writer later) log = (key, value) :: log) := by
  have change := (WriteBuffer.step_kept opened.storage.buffer opened.short taken).2
  cases writer with
  | insert path file => exact calling.elim
  | sync =>
    have none_called : inner.call = none := calling
    have still : later.call = none := by
      cases call : later.call with
      | none => rfl
      | some about =>
        have before := WriteBuffer.step_call taken call
        rw [none_called] at before
        cases before
    refine ⟨still, Or.inl ⟨?_, rfl⟩⟩
    rcases change with ⟨key, value, locked, -⟩ | ⟨unchanged, -⟩
    · have standing : inner = .locked key value := locked
      rw [standing] at none_called
      cases none_called
    · exact unchanged
  | write key value =>
    obtain ⟨used, call | ⟨status, rfl⟩⟩ := calling
    · rcases WriteBuffer.step_write call taken with goes_on | ⟨rfl, status, rfl⟩
      · refine ⟨⟨used, Or.inl goes_on⟩, Or.inl ⟨?_, ?_⟩⟩
        · rcases change with ⟨_, _, -, rfl, -⟩ | ⟨unchanged, -⟩
          · cases goes_on
          · exact unchanged
        · cases later with
          | returned status => cases goes_on
          | _ => rfl
      · refine ⟨⟨used, Or.inr ⟨status, rfl⟩⟩, ?_⟩
        rcases change with ⟨own, bytes, same, returned, absent, stored⟩ | ⟨unchanged, refused⟩
        · obtain ⟨rfl, rfl⟩ := WriteBuffer.Pc.locked.inj same
          obtain rfl := WriteBuffer.Pc.returned.inj returned
          exact Or.inr ⟨key, value, rfl, absent, stored, rfl⟩
        · obtain rfl := WriteBuffer.Pc.returned.inj (refused key value rfl).1
          exact Or.inl ⟨unchanged, rfl⟩
    · cases taken

/-- What an access outside a read does for the accepted writes. -/
structure WriteStep (hash : String → UInt64) (keys : Set String) (mog next : Mog Db)
    (caller after : Caller) (log : Log) : Prop where
  /-- The call stays on the keys in use. -/
  calling : Calling keys after.pc
  /-- No read returns. -/
  no_answer : ∀ key result, after.pc ≠ .done (.read key) result
  /-- The store stays, or a write is accepted. -/
  change : (next.storage.buffer.kvStore = mog.storage.buffer.kvStore ∧
      accepted after.pc (accepted caller.pc log) = accepted caller.pc log) ∨
    ∃ key value, caller.pc = .buffer (.write key value) (.locked key value) ∧
      hash key ∉ mog.storage.buffer.kvStore ∧
      next.storage.buffer.kvStore = mog.storage.buffer.kvStore.insert (hash key)
        { key, value, valueLengthType := slabType value.length } ∧
      accepted after.pc (accepted caller.pc log) = (key, value) :: accepted caller.pc log

/-- An access outside a read leaves the store alone or has a write accepted. -/
theorem step_writing (log : Log) (opened : mog.Opened hash leveldb caller.pc)
    (calling : Calling keys caller.pc) (no_read : caller.pc.reading = none)
    (stepped : mog.step hash leveldb config files caller = some (next, after)) :
    WriteStep hash keys mog next caller after log := by
  obtain ⟨pc, value⟩ := caller
  cases step_access stepped with
  | bufferStep writer inner later buffer taken =>
    obtain ⟨still, change⟩ := buffer_writing log opened calling taken
    refine ⟨still, nofun, ?_⟩
    cases inner with
    | returned status => cases taken
    | _ => cases writer <;> exact change
  | bufferReturned writer status =>
    refine ⟨?_, ?_, Or.inl ⟨rfl, accepted_afterWrite writer status⟩⟩
    · cases writer <;> trivial
    · cases writer <;> exact nofun
  | synced => exact ⟨trivial, nofun, Or.inl ⟨rfl, rfl⟩⟩
  | _ => first | exact calling.elim | cases no_read

/-- An access outside a read that meets the condition keeps the stores up to date. -/
theorem Latest.write (latest : mog.Latest hash leveldb keys (accepted caller.pc log))
    (injective : Set.InjOn hash keys) (opened : mog.Opened hash leveldb caller.pc)
    (calling : Calling keys caller.pc) (fresh : mog.Fresh hash leveldb caller.pc log)
    (no_read : caller.pc.reading = none)
    (stepped : mog.step hash leveldb config files caller = some (next, after)) :
    next.Latest hash leveldb keys (accepted after.pc (accepted caller.pc log)) := by
  have step := step_other (LastOf log) no_read stepped
  rcases (step_writing log opened calling no_read stepped).change with
    ⟨kvStore, logged⟩ | ⟨key, value, standing, absent, kvStore, logged⟩
  · have change : Change hash leveldb (mog.storageSession caller.pc)
        (next.storageSession after.pc) (accepted caller.pc log) (accepted caller.pc log) :=
      Change.same kvStore step.db step.hdd rfl
    rw [logged]
    refine ⟨change.keeps_agrees injective opened.session (calling.within mog) latest.agrees, ?_, ?_⟩
    · rw [step.ram]
      exact latest.ram
    · rw [kvStore, step.db]
      exact latest.empty
  · have change : Change hash leveldb (mog.storageSession caller.pc)
        (next.storageSession after.pc) (accepted caller.pc log)
        ((key, value) :: accepted caller.pc log) :=
      Change.accepted key value (congrArg MogPc.bufferPc standing) absent kvStore step.db step.hdd
        rfl
    have locked : (key, value) ∈ lockedWrite caller.pc := by rw [standing]; rfl
    obtain ⟨copies, long⟩ := fresh (key, value) locked absent
    have before : accepted caller.pc log = log := by rw [standing]; rfl
    rw [logged]
    refine ⟨change.keeps_agrees injective opened.session (calling.within mog) latest.agrees, ?_, ?_⟩
    · intro asked item found
      rw [step.ram] at found
      obtain ⟨held, own, length, stores⟩ := latest.ram asked item found
      rw [before, LastOf] at own
      rw [step.ram]
      refine ⟨held, ?_, length, stores⟩
      rw [LastOf, List.lookup_cons, before]
      by_cases same : asked = key
      · subst same
        have copied : log.lookup asked = some value := copies (Finmap.mem_iff.mpr ⟨item, found⟩)
        rw [beq_self_eq_true, ← own, copied]
      · rw [beq_false_of_ne same]
        exact own
    · intro hashed info found nothing record indexed
      rw [kvStore, Table.lookup_insert_if] at found
      rw [step.db] at indexed
      split at found
      · obtain rfl := Option.some.inj found
        exact long nothing record indexed
      · exact latest.empty hashed info found nothing record indexed

/-- A flush keeps the stores up to date. -/
theorem Latest.flush {pc : MogPc} (latest : mog.Latest hash leveldb keys log)
    (injective : Set.InjOn hash keys) (opened : mog.Opened hash leveldb pc)
    (calling : Calling keys pc) {storage : Storage Db} {blockId : Nat}
    (ran : mog.storage.runFlush hash leveldb blockId = some storage) :
    ({ mog with storage } : Mog Db).Latest hash leveldb keys log := by
  have change : Change hash leveldb (mog.storageSession pc)
      (({ mog with storage } : Mog Db).storageSession pc) log log := Change.flushed blockId ran rfl
  refine ⟨change.keeps_agrees injective opened.session (calling.within mog) latest.agrees,
    latest.ram, ?_⟩
  intro hashed info found nothing record indexed
  have before := Storage.runFlush_kvStore ran found
  have own : hash info.key = hashed := (opened.storage.buffer.entries hashed info before).1
  dsimp only at found indexed
  obtain ⟨-, rfl⟩ := Storage.runFlush_eq_some.mp ran
  rcases Storage.flush_index _ hash leveldb blockId info.key with
    ⟨entry, inside, same, -⟩ | ⟨-, unchanged⟩
  · -- An entry of the block is no longer buffered.
    rw [Storage.flush_kvStore, Table.lookup_eraseAll, if_pos] at found
    · cases found
    · rw [← own, ← same]
      exact List.mem_map_of_mem inside
  · exact latest.empty hashed info before nothing record (unchanged.symm.trans indexed)

/-! ## Whole runs -/

/-- A read that has returned has returned what was accepted last, or nothing. -/
def ReturnsLast (log : Log) (caller : Caller) : Prop :=
  ∀ key result, caller.pc = .done (.read key) result →
    result = ((log.lookup key).getD []).length ∧
      caller.value.StartsWith ((log.lookup key).getD [])

/-- What holds in every run whose steps meet the condition. -/
structure UpToDate (hash : String → UInt64) (leveldb : LevelDb Db) (keys : Set String)
    (mog : Mog Db) (caller : Caller) (log : Log) : Prop where
  /-- The stores are coherent. -/
  opened : mog.Opened hash leveldb caller.pc
  /-- They are up to date. -/
  latest : mog.Latest hash leveldb keys (accepted caller.pc log)
  /-- A read knows what it must. -/
  reading : Reading hash (LastOf log) mog caller.value caller.pc
  /-- The call is on the keys in use. -/
  calling : Calling keys caller.pc
  /-- The last read has returned what it must. -/
  returned : ReturnsLast log caller

/-- The accesses of a read are those of `mog::read` on a key in use. -/
theorem calling_reading (keys : Set String) (log : Log) {pc : MogPc} {reader : Reader}
    {key : String}
    (reads : pc.reading = some (reader, key)) :
    (Calling keys pc ↔ reader = .caller ∧ key ∈ keys) ∧ accepted pc log = log := by
  cases pc with
  | readBuffer | findItem | copyItem | getIndex | readSsd | insertItem =>
    obtain ⟨rfl, rfl⟩ := Prod.mk.inj (Option.some.inj reads)
    exact ⟨Iff.rfl, rfl⟩
  | _ => cases reads

/-- A call that does not stand at the end of a read has no read to account for. -/
theorem returnsLast_of_ne (other : ∀ key result, caller.pc ≠ .done (.read key) result) :
    ReturnsLast log caller :=
  fun key result done => absurd done (other key result)

/-- An access that meets the condition keeps the store up to date. -/
theorem access_upToDate (injective : Set.InjOn hash keys)
    (current : UpToDate hash leveldb keys mog caller log)
    (fresh : mog.Fresh hash leveldb caller.pc log)
    (stepped : mog.step hash leveldb config files caller = some (next, after)) :
    UpToDate hash leveldb keys next after (accepted caller.pc log) := by
  have opened := step_opened current.opened stepped
  cases reads : caller.pc.reading with
  | none =>
    have step := step_other (LastOf (accepted caller.pc log)) reads stepped
    have written := step_writing log current.opened current.calling reads stepped
    have latest :=
      current.latest.write injective current.opened current.calling fresh reads stepped
    exact ⟨opened, latest, step.reading, written.calling, returnsLast_of_ne written.no_answer⟩
  | some asked =>
    obtain ⟨reader, key⟩ := asked
    obtain ⟨rfl, used⟩ := (calling_reading keys log reads).1.mp current.calling
    have same : accepted caller.pc log = log := (calling_reading keys log reads).2
    have latest := current.latest
    rw [same] at latest ⊢
    have step := step_reading current.opened latest.ram
      (latest.disk injective current.opened used) current.reading reads stepped
    have kept : next.Latest hash leveldb keys log := by
      refine ⟨?_, step.ram, ?_⟩
      · rw [step.storage]
        exact latest.agrees
      · rw [step.storage]
        exact latest.empty
    rcases step.outcome with ⟨goes_on, knows⟩ | ⟨value, answer, returned, starts⟩
    · obtain ⟨calls, still⟩ := calling_reading keys log goes_on
      refine ⟨opened, by rw [still]; exact kept, knows, calls.mpr ⟨rfl, used⟩,
        returnsLast_of_ne fun other result done => ?_⟩
      rw [done] at goes_on
      cases goes_on
    · rw [afterRead] at returned
      refine ⟨opened, by rw [returned]; exact kept, by rw [returned]; trivial,
        by rw [returned]; trivial, fun other result done => ?_⟩
      obtain ⟨call, length⟩ := MogPc.done.inj (returned.symm.trans done)
      obtain rfl := MogCall.read.inj call
      have last := latest.answer used answer
      rw [← last]
      exact ⟨length.symm, starts⟩

/-- The condition on a step of a run: a write that is about to be accepted is fresh. -/
def StepFresh (hash : String → UInt64) (leveldb : LevelDb Db) (state : Session Db × Log) :
    Event → Prop
  | .step => state.1.mog.Fresh hash leveldb state.1.caller.pc state.2
  | _ => True

/-- Whether a step meets the condition can be computed. -/
instance decidableStepFresh (hash : String → UInt64) (leveldb : LevelDb Db)
    (state : Session Db × Log) : ∀ event, Decidable (StepFresh hash leveldb state event)
  | .step => decidableFresh hash leveldb state.1.mog state.1.caller.pc state.2
  | .call _ | .flush _ | .fetch _ | .setReady _ | .closeDb | .openDb | .changeFiles _ =>
    isTrue trivial

/-- A caller at rest has no write to return. -/
theorem accepted_of_atRest {pc : MogPc} (rest : pc.atRest = true) : accepted pc log = log := by
  cases pc <;> first | rfl | cases rest

/-- A call that starts has had no write accepted. -/
theorem accepted_begin (call : MogCall) : accepted (begin call) log = log := by
  cases call with
  | write key value =>
    rw [begin, WriteBuffer.write]
    split <;> rfl
  | _ => rfl

/-- A call on the keys in use stays on them. -/
theorem begin_calling {call : MogCall} (on_keys : Event.OnKeys keys (.call call)) :
    Calling keys (begin call) := by
  cases call with
  | read key => exact ⟨rfl, on_keys⟩
  | readFile path => exact on_keys.elim
  | sync => rfl
  | write key value =>
    refine ⟨on_keys, ?_⟩
    unfold WriteBuffer.write
    split
    · exact Or.inr ⟨-1, rfl⟩
    · exact Or.inl rfl

/-- Every step of a run that meets the condition keeps the store up to date. -/
theorem step_upToDate (injective : Set.InjOn hash keys) {state : Session Db × Log}
    {event : Event} {next : Session Db}
    (current : UpToDate hash leveldb keys state.1.mog state.1.caller state.2)
    (on_keys : event.OnKeys keys) (fresh : StepFresh hash leveldb state event)
    (stepped : (machine hash leveldb config).step state.1 event = some next) :
    UpToDate hash leveldb keys next.mog next.caller (noteWrite state.2 state.1 event) := by
  obtain ⟨session, log⟩ := state
  dsimp only at current stepped ⊢
  cases step_occurs stepped with
  | call call rest =>
    have opened := begin_opened call current.opened rest
    have latest := current.latest
    rw [accepted_of_atRest rest] at latest
    refine ⟨opened, ?_, ?_, begin_calling on_keys, returnsLast_of_ne fun key result => ?_⟩
    · rw [accepted_begin]
      exact latest
    · cases call <;> trivial
    · cases call <;> exact nofun
  | step mog caller taken => exact access_upToDate injective current fresh taken
  | flush blockId storage ran =>
    exact ⟨runFlush_opened current.opened ran,
      current.latest.flush injective current.opened current.calling ran,
      runFlush_reading current.opened current.reading ran, current.calling, current.returned⟩
  | fetch blockId =>
    exact ⟨fetch_opened current.opened blockId _,
      ⟨current.latest.agrees, current.latest.ram, current.latest.empty⟩,
      fetch_reading current.reading _, current.calling, current.returned⟩
  | _ => exact on_keys.elim

/-- An opened `mog` that nothing was written to is up to date. -/
theorem startOpen_upToDate (leveldb : LevelDb Db) (config : MogConfig)
    (files : String → Option (List UInt8)) (value : ByteMemory) :
    UpToDate hash leveldb keys (startOpen leveldb config files value).mog
      (startOpen leveldb config files value).caller [] := by
  have empty : (startOpen leveldb config files value).mog.storage.buffer.kvStore = ∅ := rfl
  have fresh (key : String) :
      CentraIndex.getInfo leveldb (startOpen leveldb config files value).mog.storage.db key =
        none :=
    CentraIndex.getInfo_setup leveldb key
  refine ⟨openDb_opened (new_cleared leveldb) leveldb config rfl, ⟨⟨?_, ?_⟩, ?_, ?_⟩, trivial,
    trivial, nofun⟩
  · intro hashed info found
    rw [empty] at found
    cases found
  · intro key _
    rw [Storage.lookup, empty, Storage.onDisk, fresh]
    rfl
  · intro key item found
    cases found
  · intro hashed info found
    rw [empty] at found
    cases found

/-- In every run of reads and writes of keys that the hash tells apart, and syncs, with the flush
and fetch tasks in between: if no accepted write meets an outdated copy of its key, a read that
has returned has returned the length and the bytes of the last write that returned 0, or 0 if
there was none. -/
theorem read_eq_last (injective : Set.InjOn hash keys) {events : List Event}
    (on_keys : ∀ event ∈ events, event.OnKeys keys) {files : String → Option (List UInt8)}
    {value : ByteMemory} {session : Session Db} {log : Log}
    (fresh : ((machine hash leveldb config).observed noteWrite).Along (StepFresh hash leveldb)
      (startOpen leveldb config files value, []) events)
    (ran : ((machine hash leveldb config).observed noteWrite).run
      (startOpen leveldb config files value, []) events = some (session, log))
    {key : String} {result : Int} (returned : session.caller.pc = .done (.read key) result) :
    result = ((log.lookup key).getD []).length ∧
      session.caller.value.StartsWith ((log.lookup key).getD []) := by
  have conditions := Machine.along_and fresh (Machine.along_of_mem on_keys _)
  have reached := Machine.run_invariant_along
    (fun state : Session Db × Log =>
      UpToDate hash leveldb keys state.1.mog state.1.caller state.2)
    (fun state event next current condition stepped => by
      obtain ⟨taken, noted⟩ := Machine.observed_step.mp stepped
      rw [← noted]
      exact step_upToDate injective current condition.2 condition.1 taken)
    (startOpen_upToDate leveldb config files value) conditions ran
  exact reached.returned key result returned

/-- A write of a value, and a sync with the flush of its block. -/
def storeValue (value : List UInt8) (blockId : Nat) : List Event :=
  [.call (.write "a" value)] ++ List.replicate 4 .step ++ [.call .sync] ++
    List.replicate 4 .step ++ [.flush blockId] ++ List.replicate 3 .step

/-- A value is stored and another one after it. That one is read from disk, stored once more without
a change, and read from RAM. -/
def storeAnew (first second : List UInt8) : List Event :=
  [storeValue first 1, storeValue second 2, [.call (.read "a")], List.replicate 5 .step,
    storeValue second 3, [.call (.read "a")], List.replicate 3 .step].flatten

/-- A new value is read as stored last, and so is one that is stored again unchanged. -/
theorem read_after_new_value :
    ∃ session log,
      ((machine Storage.lengthHash LevelDb.table .oneBlock).observed noteWrite).run
        (startOpen LevelDb.table .oneBlock (fun _ => none) fun _ => 0, [])
        (storeAnew [1] [2]) = some (session, log) ∧
      log = [("a", [2]), ("a", [2]), ("a", [1])] ∧
      1 = (((log.lookup "a").getD []).length : Int) ∧
      session.caller.value.StartsWith ((log.lookup "a").getD []) := by
  have executed : ∃ session log,
      ((machine Storage.lengthHash LevelDb.table .oneBlock).observed noteWrite).run
        (startOpen LevelDb.table .oneBlock (fun _ => none) fun _ => 0, [])
        (storeAnew [1] [2]) = some (session, log) ∧
      session.caller.pc = .done (.read "a") 1 ∧ log = [("a", [2]), ("a", [2]), ("a", [1])] :=
    ⟨_, _, rfl, rfl, rfl⟩
  have fresh : ((machine Storage.lengthHash LevelDb.table .oneBlock).observed noteWrite).Along
      (StepFresh Storage.lengthHash LevelDb.table)
      (startOpen LevelDb.table .oneBlock (fun _ => none) fun _ => 0, []) (storeAnew [1] [2]) := by
    decide +kernel
  have on_keys : ∀ event ∈ storeAnew [1] [2], event.OnKeys {"a", "bb"} := by
    simp [storeAnew, storeValue, Event.OnKeys]
  obtain ⟨session, log, ran, returned, logged⟩ := executed
  exact ⟨session, log, ran, logged,
    read_eq_last Storage.lengthHash_injOn on_keys fresh ran returned⟩

/-- A value is stored and read from disk, and the second value is stored and read from RAM. -/
def storeTwice (first second : List UInt8) : List Event :=
  [storeValue first 1, [.call (.read "a")], List.replicate 5 .step, storeValue second 2,
    [.call (.read "a")], List.replicate 3 .step].flatten

/-- A value that was read back from disk before it was written anew is read for ever. -/
theorem not_read_eq_last_of_stale_copy :
    ¬ ∀ (hash : String → UInt64) (keys : Set String) (events : List Event)
      (session : Session (Table String IndexRecord)) (log : Log) (key : String) (result : Int),
      Set.InjOn hash keys → (∀ event ∈ events, event.OnKeys keys) →
      ((machine hash LevelDb.table .oneBlock).observed noteWrite).run
        (startOpen LevelDb.table .oneBlock (fun _ => none) fun _ => 0, []) events =
        some (session, log) →
      session.caller.pc = .done (.read key) result →
      result = ((log.lookup key).getD []).length ∧
        session.caller.value.StartsWith ((log.lookup key).getD []) := by
  intro always
  have executed : ∃ session log,
      ((machine Storage.lengthHash LevelDb.table .oneBlock).observed noteWrite).run
        (startOpen LevelDb.table .oneBlock (fun _ => none) fun _ => 0, [])
        (storeTwice [1] [2]) = some (session, log) ∧
      session.caller.pc = .done (.read "a") 1 ∧ session.caller.value 0 = 1 ∧
      (log.lookup "a").getD [] = [2] := ⟨_, _, rfl, rfl, rfl, rfl⟩
  obtain ⟨session, log, ran, returned, stale, last⟩ := executed
  have on_keys : ∀ event ∈ storeTwice [1] [2], event.OnKeys {"a", "bb"} := by
    simp [storeTwice, storeValue, Event.OnKeys]
  have claimed := (always Storage.lengthHash {"a", "bb"} (storeTwice [1] [2]) session log "a" 1
    Storage.lengthHash_injOn on_keys ran returned).2
  rw [last] at claimed
  have byte : session.caller.value 0 = 2 := claimed 0 Nat.zero_lt_one
  rw [stale] at byte
  exact absurd byte (by decide)

end CudaDb.Mog
