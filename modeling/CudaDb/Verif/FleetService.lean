import CudaDb.Lib.Service
import CudaDb.Verif.FleetTransparent

/-!
# The cache server is a file service

To its clients the cache server is a service that answers the path of a file by the bytes of the
file. Every run of the workers, however their accesses and the flush and fetch tasks interleave, is
one of this service: the requests and the answers happen in the same order, a call being answered at
its last access.
-/

namespace CudaDb

/-- The path that a reader of `mog::read` asks for. -/
def Reader.asking : Reader → Option String
  | .caller => none
  | .file path => some path

/-- The path that a running call of `read_file` was asked for. -/
def MogPc.asking : MogPc → Option String
  | .testReady path | .readDirect path | .openFile path _ | .testTotal path _ _
  | .buffer (.insert path _) _ | .addTotal path _ => some path
  | .readBuffer reader _ | .findItem reader _ | .copyItem reader _ | .getIndex reader _
  | .readSsd reader _ _ | .insertItem reader _ _ => reader.asking
  | _ => none

namespace Mog

variable {Db : Type*} {hash : String → UInt64} {leveldb : LevelDb Db} {config : MogConfig}
  {files : String → Option (List UInt8)} {mog next : Mog Db} {caller after : Caller}

/-- A call goes on for its path, or has returned from it. -/
def GoesOn (path : String) (pc : MogPc) : Prop :=
  pc.asking = some path ∨ ∃ result, pc = .done (.readFile path) result

/-- A call that has returned from `mog::read` goes on for its path, or has returned from it. -/
theorem goesOn_afterRead {reader : Reader} {path : String} (asked : reader.asking = some path)
    (key : String) (length : Nat) : GoesOn path (afterRead reader key length) := by
  cases reader with
  | caller => cases asked
  | file own =>
    obtain rfl := Option.some.inj asked
    unfold afterRead
    dsimp only
    split
    · exact Or.inr ⟨_, rfl⟩
    · exact Or.inl rfl

/-- Every access of a call is for its path. -/
theorem step_goesOn {path : String} (asked : caller.pc.asking = some path)
    (stepped : mog.step hash leveldb config files caller = some (next, after)) :
    GoesOn path after.pc := by
  obtain ⟨pc, value⟩ := caller
  cases step_access stepped with
  | bufferHit reader key | itemCopied reader key | indexMissed reader key
  | itemInserted reader key => exact goesOn_afterRead asked key _
  | directNothing | directFile | fileNothing | uncached | charged =>
    obtain rfl := Option.some.inj asked
    exact Or.inr ⟨_, rfl⟩
  | bufferReturned writer status =>
    cases writer with
    | insert own bytes => exact Or.inl asked
    | _ => cases asked
  | bufferStep writer inner later buffer taken =>
    cases writer with
    | insert own bytes => exact Or.inl asked
    | _ => cases asked
  | synced => cases asked
  | _ => exact Or.inl asked

/-- Only a running call makes an access. -/
theorem running_of_step
    (stepped : mog.step hash leveldb config files caller = some (next, after)) :
    caller.pc.atRest = false := by
  obtain ⟨pc, value⟩ := caller
  cases pc with
  | idle | done => cases stepped
  | _ => rfl

end Mog

/-- A running call of `read_file` was asked for a path. -/
theorem MogPc.Serving.asking {pc : MogPc} (serving : pc.Serving) (running : pc.atRest = false) :
    ∃ path, pc.asking = some path := by
  cases pc with
  | idle | done => cases running
  | testReady path | readDirect path | openFile path | testTotal path | addTotal path =>
    exact ⟨path, rfl⟩
  | readBuffer | findItem | copyItem | getIndex | readSsd | insertItem =>
    obtain ⟨path, rfl⟩ := serving
    exact ⟨path, rfl⟩
  | buffer writer inner =>
    cases writer with
    | insert path bytes => exact ⟨path, rfl⟩
    | _ => exact serving.elim
  | syncSsd => exact serving.elim

/-- A call that was asked for a path is running. -/
theorem MogPc.running_of_asking {pc : MogPc} {path : String} (asked : pc.asking = some path) :
    pc.atRest = false := by
  cases pc <;> first | rfl | cases asked

/-- What a worker shows of itself is where a client of the service stands. -/
inductive Caller.Shows (caller : Caller) : Service.Standing String (List UInt8) → Prop
  /-- It has not been asked. -/
  | idle (pc : caller.pc = .idle) : Shows caller .idle
  /-- Its call is running. -/
  | asked (path : String) (pc : caller.pc.asking = some path) : Shows caller (.asked path)
  /-- Its call has returned the bytes that its buffer starts with. -/
  | answered (path : String) (bytes : List UInt8) (result : Int)
    (pc : caller.pc = .done (.readFile path) result) (length : result = bytes.length)
    (starts : caller.value.StartsWith bytes) : Shows caller (.answered path bytes)

/-- A worker at rest shows a client that does not wait. -/
theorem Caller.Shows.free {caller : Caller} {standing : Service.Standing String (List UInt8)}
    (shows_it : caller.Shows standing) (rest : caller.pc.atRest = true) :
    standing.free = true := by
  cases shows_it with
  | idle | answered => rfl
  | asked path pc =>
    rw [MogPc.running_of_asking pc] at rest
    cases rest

/-- A running worker shows a client that waits. -/
theorem Caller.Shows.waiting {caller : Caller} {standing : Service.Standing String (List UInt8)}
    {path : String} (shows_it : caller.Shows standing) (asked : caller.pc.asking = some path) :
    standing = .asked path := by
  cases shows_it with
  | idle pc =>
    rw [pc] at asked
    cases asked
  | asked other pc => rw [Option.some.inj (pc.symm.trans asked)]
  | answered other bytes result pc =>
    rw [pc] at asked
    cases asked

namespace Fleet

variable {Worker : Type*} [DecidableEq Worker] {Db : Type*} {hash : String → UInt64}
  {leveldb : LevelDb Db} {config : MogConfig} {files : String → Option (List UInt8)}
  {paths : Set String} {fleet next : Fleet Worker Db} {event : Event Worker}

/-- What the clients see of an event: the request of a worker, and the last access of its call. -/
def seen (hash : String → UInt64) (leveldb : LevelDb Db) (config : MogConfig)
    (files : String → Option (List UInt8)) (fleet : Fleet Worker Db) :
    Event Worker → Option (Service.Event Worker String)
  | .readFile worker path => some (.ask worker path)
  | .step worker =>
    match fleet.mog.step hash leveldb config files (fleet.workers worker) with
    | some (_, caller) => if caller.pc.atRest then some (.answer worker) else none
    | none => none
  | _ => none

/-- The history of what the clients see. -/
def noteSeen (hash : String → UInt64) (leveldb : LevelDb Db) (config : MogConfig)
    (files : String → Option (List UInt8)) (history : List (Service.Event Worker String))
    (fleet : Fleet Worker Db) (event : Event Worker) : List (Service.Event Worker String) :=
  history ++ (seen hash leveldb config files fleet event).toList

/-- The clients of a service stand where the workers show it. -/
def Shows (fleet : Fleet Worker Db)
    (standing : Worker → Service.Standing String (List UInt8)) : Prop :=
  ∀ worker, (fleet.workers worker).Shows (standing worker)

/-- A worker and a client move together. -/
theorem shows_update {workers : Worker → Caller}
    {standing : Worker → Service.Standing String (List UInt8)}
    (shows_them : ∀ worker, (workers worker).Shows (standing worker)) (worker : Worker)
    {caller : Caller} {moved : Service.Standing String (List UInt8)}
    (shows_it : caller.Shows moved) (other : Worker) :
    (Function.update workers worker caller other).Shows
      (Function.update standing worker moved other) := by
  by_cases same : other = worker
  · rw [same, Function.update_self, Function.update_self]
    exact shows_it
  · rw [Function.update_of_ne same, Function.update_of_ne same]
    exact shows_them other

/-- What the clients see of an event is an event of the service, or nothing. -/
theorem step_shows (sound : fleet.Sound hash leveldb paths files)
    (later : next.Sound hash leveldb paths files)
    {standing : Worker → Service.Standing String (List UInt8)} (shows_them : fleet.Shows standing)
    {history : List (Service.Event Worker String)}
    (ran : (Service.machine (Mog.direct files)).run (fun _ => .idle) history = some standing)
    (stepped : (machine hash leveldb config files).step fleet event = some next) :
    ∃ after, (Service.machine (Mog.direct files)).run (fun _ => .idle)
        (noteSeen hash leveldb config files history fleet event) = some after ∧
      next.Shows after := by
  unfold noteSeen
  cases step_occurs stepped with
  | readFile worker path rest =>
    have free := (shows_them worker).free rest
    exact ⟨_, Service.run_snoc ran (Service.step_ask free path),
      shows_update shows_them worker (.asked path rfl)⟩
  | step worker mog caller taken =>
    have running : (fleet.workers worker).pc.atRest = false := Mog.running_of_step taken
    obtain ⟨path, asked⟩ := (sound.served worker).asking running
    have waiting := (shows_them worker).waiting asked
    have goes_on := Mog.step_goesOn asked taken
    unfold seen
    simp only [taken]
    by_cases returned : caller.pc.atRest = true
    · rw [if_pos returned]
      rcases goes_on with still | ⟨result, done⟩
      · rw [MogPc.running_of_asking still] at returned
        cases returned
      · have answered : Mog.Answered files caller := by
          have own := (later.workers worker).answered
          dsimp only at own
          rw [Function.update_self] at own
          exact own
        obtain ⟨length, starts⟩ := answered path result done
        exact ⟨_, Service.run_snoc ran (Service.step_answer waiting), shows_update shows_them worker
          (.answered path (Mog.direct files path) result done length starts)⟩
    · rw [if_neg returned, Option.toList_none, List.append_nil]
      rcases goes_on with still | ⟨result, done⟩
      · have own : caller.Shows (standing worker) := by
          rw [waiting]
          exact .asked path still
        exact ⟨standing, ran, Threads.each_update
          (fun other (caller : Caller) => caller.Shows (standing other)) own shows_them⟩
      · rw [done] at returned
        exact absurd rfl returned
  | flush | fetch =>
    rw [seen, Option.toList_none, List.append_nil]
    · exact ⟨standing, ran, shows_them⟩
    · exact fun _ _ same => (by cases same)
    · exact fun _ same => (by cases same)

/-- However the accesses of any number of workers interleave with each other and with the flush and
fetch tasks between two resets: where the hash tells the paths and their keys apart, the requests
and the answers of a run, in their order, are a run of the service that answers each path by its
file, and each worker holds the answer that it shows. -/
theorem refines_service (paths_apart : Set.InjOn hash paths)
    (keys_apart : Set.InjOn hash (keyOf hash '' paths)) {totalSize : Int}
    {value : Worker → ByteMemory} {events : List (Event Worker)}
    {history : List (Service.Event Worker String)}
    (asks : ∀ event ∈ events, event.Asks paths)
    (ran : ((machine hash leveldb config files).observed
      (noteSeen hash leveldb config files)).run (reopened leveldb config totalSize value, [])
        events = some (fleet, history)) :
    ∃ standing, (Service.machine (Mog.direct files)).run (fun _ => .idle) history =
        some standing ∧ fleet.Shows standing := by
  have kept : fleet.Sound hash leveldb paths files ∧ ∃ standing,
      (Service.machine (Mog.direct files)).run (fun _ => .idle) history = some standing ∧
        fleet.Shows standing := by
    refine Machine.run_invariant_along (fun both : Fleet Worker Db × _ =>
      both.1.Sound hash leveldb paths files ∧ ∃ standing,
        (Service.machine (Mog.direct files)).run (fun _ => .idle) both.2 = some standing ∧
          both.1.Shows standing) ?_ ?_ (Machine.along_of_mem asks _) ran
    · rintro ⟨state, before⟩ event ⟨after, noted⟩ ⟨sound, standing, served, shows_them⟩ asked taken
      obtain ⟨stepped, rfl⟩ := Machine.observed_step.mp taken
      have later := step_sound paths_apart keys_apart sound asked stepped
      exact ⟨later, step_shows sound later shows_them served stepped⟩
    · exact ⟨reopened_sound leveldb config totalSize value, fun _ => .idle, rfl,
        fun _ => .idle rfl⟩
  exact kept.2

/-- The requests of two workers that cache one file at once, and their answers. -/
theorem refines_service_bothAtOnce :
    ∃ (fleet : Fleet (Fin 10) _) (history : List (Service.Event (Fin 10) String)),
      ((machine Mog.powerHash LevelDb.table MogConfig.oneBlock Mog.oneFile).observed
        (noteSeen Mog.powerHash LevelDb.table MogConfig.oneBlock Mog.oneFile)).run
          (reopened LevelDb.table MogConfig.oneBlock 2 fun _ _ => 0, []) bothAtOnce =
            some (fleet, history) ∧
      history = [.ask 0 "a", .ask 1 "a", .answer 0, .answer 1] ∧
      ∃ standing, (Service.machine (Mog.direct Mog.oneFile)).run (fun _ => .idle) history =
        some standing ∧ fleet.Shows standing := by
  have executed : ∃ (fleet : Fleet (Fin 10) _) (history : List (Service.Event (Fin 10) String)),
      ((machine Mog.powerHash LevelDb.table MogConfig.oneBlock Mog.oneFile).observed
        (noteSeen Mog.powerHash LevelDb.table MogConfig.oneBlock Mog.oneFile)).run
          (reopened LevelDb.table MogConfig.oneBlock 2 fun _ _ => 0, []) bothAtOnce =
            some (fleet, history) ∧
      history = [.ask 0 "a", .ask 1 "a", .answer 0, .answer 1] := ⟨_, _, rfl, rfl⟩
  obtain ⟨fleet, history, ran, events⟩ := executed
  have asks : ∀ event ∈ bothAtOnce, event.Asks {"a", "bb"} := by
    simp [bothAtOnce, Event.Asks]
  exact ⟨fleet, history, ran, events,
    refines_service Mog.powerHash_injOn Mog.powerHash_keys_injOn asks ran⟩

end Fleet

end CudaDb
