import Mathlib
import CudaDb.Model.Server

/-!
# The mutex and the flags of the server

What a single statement of a worker can do, and the invariant of every interleaving: the mutex
has exactly one owner, and the flags `reset_flag`, `first` and the pointer `DB` have the values
that the position of the owner dictates.
-/

namespace CudaDb

/-- `reset_flag` is set while a thread stands at this statement. -/
@[simp] def CreatePc.resetting : CreatePc → Bool
  | .setResetFlag | .setReady | .unlock => false
  | _ => true

/-- The statements after the start of `DB->close()`, up to the end of `DB->open()`. -/
@[simp] def CreatePc.reopening : CreatePc → Bool
  | .closeWriteBuffer | .closeCpuCache | .closeCentraIndex | .closeSsdCache | .removeSsd
  | .testFirst | .clearReady | .create | .openReady => true
  | _ => false

/-- The statements that a thread may execute before `DB` points to an entry. -/
@[simp] def CreatePc.beforeEntry : CreatePc → Bool
  | .setResetFlag | .testDb | .testFirst => true
  | _ => false

namespace Server

variable {Worker : Type*} {server next : Server Worker} {worker : Worker}

/-! ## The owner of the mutex -/

/-- Who owns the mutex: nobody, a worker about to start a thread, or the only thread. -/
inductive Owner (server : Server Worker) : Prop
  /-- The mutex is free. -/
  | free (unlocked : server.locked = false) (none_running : server.creators = [])
      (none_starting : ∀ worker, server.workers worker ≠ .createMog)
  /-- A worker has locked the mutex for a thread that it has not created yet. -/
  | starting (worker : Worker) (taken : server.locked = true) (none_running : server.creators = [])
      (at_start : server.workers worker = .createMog)
      (alone : ∀ other, server.workers other = .createMog → other = worker)
  /-- The mutex belongs to the thread. -/
  | running (pc : CreatePc) (taken : server.locked = true) (thread : server.creators = [pc])
      (none_starting : ∀ worker, server.workers worker ≠ .createMog)

/-- The values of the flags, by the position of the thread. -/
structure Flags (server : Server Worker) : Prop where
  /-- `reset_flag` is set exactly in the statements of a thread between its two assignments. -/
  resetFlag : server.resetFlag = true ↔ ∃ pc ∈ server.creators, pc.resetting = true
  /-- While the stores are closed, a thread is reopening them and `ready` is false. -/
  closed : server.closed = true →
    server.db = some false ∧ ∃ pc ∈ server.creators, pc.reopening = true
  /-- The entry is created the first time. -/
  first : server.first = true ↔ server.db = none
  /-- Without an entry the first thread has not got further than creating it. -/
  missing : server.db = none → ∃ pc ∈ server.creators, pc.beforeEntry = true

/-- The owner and the flags agree. -/
structure Protocol (server : Server Worker) : Prop where
  /-- The mutex has one owner. -/
  owner : server.Owner
  /-- The flags have the owner's values. -/
  flags : server.Flags

/-- The server starts with the first thread as owner. -/
theorem initial_protocol : (initial : Server Worker).Protocol where
  owner := Owner.running .setResetFlag rfl rfl (by simp [initial])
  flags := by constructor <;> simp [initial, CreatePc.resetting, CreatePc.beforeEntry]

/-- A server with a single thread and matching flags follows the protocol. -/
theorem Protocol.of_running {pc : CreatePc} (taken : server.locked = true)
    (thread : server.creators = [pc]) (none_starting : ∀ worker, server.workers worker ≠ .createMog)
    (resetFlag : server.resetFlag = pc.resetting)
    (closed : server.closed = true → server.db = some false ∧ pc.reopening = true)
    (first : server.first = true ↔ server.db = none)
    (missing : server.db = none → pc.beforeEntry = true) : server.Protocol where
  owner := Owner.running pc taken thread none_starting
  flags := {
    resetFlag := by rw [thread, resetFlag]; simp
    closed := by rw [thread]; simpa using closed
    first
    missing := by rw [thread]; simpa using missing }

variable [DecidableEq Worker]

/-! ## Single statements -/

/-- Only the worker that moves has another statement. -/
@[simp] theorem workerAt_workers (server : Server Worker) (worker other : Worker) (pc : WorkerPc) :
    (server.workerAt worker pc).workers other =
      if other = worker then pc else server.workers other := by
  simp [workerAt, Function.update_apply]

/-- A move of a worker that reads shared variables and writes none. -/
structure Move (server : Server Worker) (before after : WorkerPc) : Prop where
  /-- The statement does not write. -/
  silent : before ≠ .clearReady ∧ before ≠ .createMog
  /-- A failed attempt finds the mutex locked. -/
  refused : before = .tryLock → server.locked = true
  /-- The handler of a '!' request is entered by `receive` alone. -/
  inside : after ≠ .clearReady ∧ after ≠ .tryLock ∧ after ≠ .createMog
  /-- `read_file` is entered exactly where the test finds `reset_flag` clear. -/
  entered : after = .testReady ↔ before = .testResetFlag ∧ server.resetFlag = false
  /-- The stores are entered with `ready` set. -/
  found : after = .lookup → server.db = some true
  /-- The insert follows the lookup. -/
  missed : after = .insert → before = .lookup

/-- What one statement of a worker can do. -/
theorem workerStep_cases {missed : Bool}
    (stepped : server.workerStep worker missed = some next) :
    (server.workers worker = .clearReady ∧ server.db ≠ none ∧
      next = { server.workerAt worker .tryLock with db := some false }) ∨
    (server.workers worker = .tryLock ∧ server.locked = false ∧
      next = { server.workerAt worker .createMog with locked := true }) ∨
    (server.workers worker = .createMog ∧
      next = { server.workerAt worker .sendOk with
        creators := server.creators ++ [.setResetFlag] }) ∨
    ∃ pc, server.Move (server.workers worker) pc ∧ next = server.workerAt worker pc := by
  unfold workerStep at stepped
  cases pc : server.workers worker with
  | recv => simp [pc] at stepped
  | clearReady =>
    simp only [pc, assignReady, workerAt, Option.map_eq_some_iff] at stepped
    rcases stepped with ⟨ready, exists_db, rfl⟩
    exact Or.inl ⟨rfl, by simp [exists_db], rfl⟩
  | tryLock =>
    simp only [pc] at stepped
    split at stepped
    · next taken =>
      exact Or.inr (Or.inr (Or.inr ⟨.sleep, by constructor <;> simp [taken],
        (Option.some.inj stepped).symm⟩))
    · next free =>
      exact Or.inr (Or.inl ⟨rfl, by simpa using free, (Option.some.inj stepped).symm⟩)
  | createMog =>
    simp only [pc] at stepped
    exact Or.inr (Or.inr (Or.inl ⟨rfl, (Option.some.inj stepped).symm⟩))
  | testResetFlag =>
    simp only [pc] at stepped
    refine Or.inr (Or.inr (Or.inr ⟨_, ?_, (Option.some.inj stepped).symm⟩))
    cases flag : server.resetFlag <;> constructor <;> simp [flag]
  | testReady =>
    simp only [pc, Option.map_eq_some_iff] at stepped
    rcases stepped with ⟨ready, exists_db, rfl⟩
    refine Or.inr (Or.inr (Or.inr ⟨_, ?_, rfl⟩))
    cases ready <;> constructor <;> simp [exists_db]
  | lookup =>
    simp only [pc] at stepped
    refine Or.inr (Or.inr (Or.inr ⟨_, ?_, (Option.some.inj stepped).symm⟩))
    cases missed <;> constructor <;> simp
  | sleep | sendOk | readDirect | insert | send =>
    simp only [pc] at stepped
    refine Or.inr (Or.inr (Or.inr ⟨_, ?_, (Option.some.inj stepped).symm⟩))
    constructor <;> simp

/-- What receiving a request does. -/
theorem receive_cases {request : Request}
    (stepped : server.receive worker request = some next) :
    server.workers worker = .recv ∧ next = server.workerAt worker
      (if request = .clean then .clearReady else .testResetFlag) := by
  unfold receive at stepped
  split at stepped
  · next waiting => exact ⟨waiting, (Option.some.inj stepped).symm⟩
  · cases stepped

/-- A statement of the thread that neither sets `ready` for the last time, nor starts to close
the stores, nor unlocks the mutex. -/
structure Progress (server next : Server Worker) (before after : CreatePc) : Prop where
  /-- The thread goes on to another statement. -/
  thread : next.creators = [after]
  /-- It stays the owner of the mutex. -/
  locked : next.locked = server.locked
  /-- The workers do not move. -/
  workers : next.workers = server.workers
  /-- The stores do not become closed. -/
  closed : next.closed = true → server.closed = true
  /-- The entry stays. -/
  db : next.db = none → server.db = none
  /-- The three other statements are excluded. -/
  other : before ≠ .unlock ∧ before ≠ .setReady ∧ before ≠ .closeReady ∧ after ≠ .unlock

omit [DecidableEq Worker] in
/-- What one statement of the only thread can do. -/
theorem creatorStep_cases {pc : CreatePc} (alone : server.creators = [pc])
    (stepped : server.creatorStep 0 pc = some next) :
    (pc = .unlock ∧ next = { server with locked := false, creators := [] }) ∨
    (pc = .setReady ∧ next = { server with db := some true, creators := [.unlock] }) ∨
    (pc = .closeReady ∧ next = { server with
      db := some false, closed := true, creators := [.closeWriteBuffer] }) ∨
    ∃ after, server.Progress next pc after := by
  cases pc with
  | unlock =>
    simp only [creatorStep, alone, List.eraseIdx_cons_zero, Option.some.injEq] at stepped
    exact Or.inl ⟨rfl, stepped.symm⟩
  | setReady =>
    simp only [creatorStep, creatorAt, assignReady, alone, List.set_cons_zero,
      Option.map_eq_some_iff] at stepped
    rcases stepped with ⟨_, _, rfl⟩
    exact Or.inr (Or.inl ⟨rfl, rfl⟩)
  | closeReady =>
    simp only [creatorStep, creatorAt, assignReady, alone, List.set_cons_zero,
      Option.map_eq_some_iff] at stepped
    rcases stepped with ⟨_, _, rfl⟩
    exact Or.inr (Or.inr (Or.inl ⟨rfl, rfl⟩))
  | clearReady | openReady | create =>
    simp only [creatorStep, creatorAt, assignReady, alone, List.set_cons_zero,
      Option.map_eq_some_iff] at stepped
    rcases stepped with ⟨_, entry, rfl⟩
    refine Or.inr (Or.inr (Or.inr ⟨_, rfl, rfl, rfl, ?_, ?_, ?_⟩)) <;> simp [entry]
  | setResetFlag | testDb | closeWriteBuffer | closeCpuCache | closeCentraIndex | closeSsdCache
  | removeSsd | clearResetFlag =>
    simp only [creatorStep, creatorAt, alone, List.set_cons_zero, Option.some.injEq] at stepped
    subst stepped
    refine Or.inr (Or.inr (Or.inr ⟨_, rfl, rfl, rfl, id, id, ?_⟩))
    simp <;> split <;> simp
  | testFirst =>
    simp only [creatorStep, creatorAt, alone, List.set_cons_zero] at stepped
    by_cases first_time : server.first = true
    · rw [if_pos first_time, Option.some.injEq] at stepped
      subst stepped
      exact Or.inr (Or.inr (Or.inr ⟨_, rfl, rfl, rfl, id, nofun, by simp⟩))
    · rw [if_neg first_time, Option.some.injEq] at stepped
      subst stepped
      exact Or.inr (Or.inr (Or.inr ⟨_, rfl, rfl, rfl, id, id, by simp⟩))

/-! ## Every statement keeps the protocol -/

/-- Moving a worker between statements other than the creation of a thread keeps the owner. -/
theorem Owner.move {pc : WorkerPc} (owner : server.Owner)
    (before : server.workers worker ≠ .createMog) (after : pc ≠ .createMog) :
    (server.workerAt worker pc).Owner := by
  have same : ∀ other, (server.workerAt worker pc).workers other = .createMog ↔
      server.workers other = .createMog := by
    intro other
    rw [workerAt_workers]
    by_cases moved : other = worker
    · rw [if_pos moved, moved]
      exact iff_of_false after before
    · rw [if_neg moved]
  cases owner with
  | free unlocked none_running none_starting =>
    exact Owner.free unlocked none_running fun other => mt (same other).mp (none_starting other)
  | starting holder taken none_running at_start alone =>
    exact Owner.starting holder taken none_running ((same holder).mpr at_start)
      fun other here => alone other ((same other).mp here)
  | running thread taken only none_starting =>
    exact Owner.running thread taken only fun other => mt (same other).mp (none_starting other)

/-- A worker's statement keeps the protocol. -/
theorem workerStep_protocol {missed : Bool} (protocol : server.Protocol)
    (stepped : server.workerStep worker missed = some next) : next.Protocol := by
  have flags := protocol.flags
  rcases workerStep_cases stepped with
    ⟨at_clear, exists_db, rfl⟩ | ⟨at_try, unlocked, rfl⟩ | ⟨at_create, rfl⟩ | ⟨pc, move, rfl⟩
  · have owner : (server.workerAt worker .tryLock).Owner :=
      protocol.owner.move (by simp [at_clear]) (by decide)
    refine ⟨?_, ⟨flags.resetFlag, fun shut => ⟨rfl, (flags.closed shut).2⟩, ?_, nofun⟩⟩
    · cases owner with
      | free unlocked none_running none_starting =>
        exact Owner.free unlocked none_running none_starting
      | starting holder taken none_running at_start alone =>
        exact Owner.starting holder taken none_running at_start alone
      | running thread taken only none_starting =>
        exact Owner.running thread taken only none_starting
    · exact iff_of_false (mt flags.first.mp exists_db) nofun
  · refine ⟨?_, ⟨flags.resetFlag, flags.closed, flags.first, flags.missing⟩⟩
    cases protocol.owner with
    | free _ none_running none_starting =>
      refine Owner.starting worker rfl none_running (by simp) fun other here => ?_
      by_contra another
      simp only [workerAt_workers, if_neg another] at here
      exact none_starting other here
    | starting _ taken | running _ taken => simp [taken] at unlocked
  · cases protocol.owner with
    | free _ _ none_starting | running _ _ _ none_starting =>
      exact absurd at_create (none_starting worker)
    | starting holder taken none_running at_start alone =>
      have ready : server.db ≠ none := by
        intro missing
        have := flags.missing missing
        simp [none_running] at this
      have open_stores : server.closed = false := by
        by_contra shut
        have := (flags.closed (by simpa using shut)).2
        simp [none_running] at this
      have clear_flag : server.resetFlag = false := by
        by_contra set
        have := flags.resetFlag.mp (by simpa using set)
        simp [none_running] at this
      refine ⟨Owner.running .setResetFlag taken (by simp [none_running]) ?_, ?_⟩
      · intro other here
        by_cases moved : other = worker
        · simp [moved] at here
        · simp only [workerAt_workers, if_neg moved] at here
          exact moved ((alone other here).trans (alone worker at_create).symm)
      · constructor <;> simp [workerAt, none_running, clear_flag, open_stores, ready, flags.first,
          CreatePc.resetting]
  · exact ⟨protocol.owner.move move.silent.2 move.inside.2.2,
      ⟨flags.resetFlag, flags.closed, flags.first, flags.missing⟩⟩

omit [DecidableEq Worker] in
/-- A thread that can move owns the mutex, and it is the only one. -/
theorem Protocol.only_thread {thread : Nat} {pc : CreatePc} (protocol : server.Protocol)
    (found : server.creators[thread]? = some pc) :
    thread = 0 ∧ server.locked = true ∧ server.creators = [pc] ∧
      ∀ worker, server.workers worker ≠ .createMog := by
  cases protocol.owner with
  | free _ none_running | starting _ _ none_running => simp [none_running] at found
  | running only taken alone none_starting =>
    rw [alone] at found
    cases thread with
    | zero =>
      have same : only = pc := by simpa using found
      exact ⟨rfl, taken, same ▸ alone, none_starting⟩
    | succ _ => simp at found

omit [DecidableEq Worker] in
/-- A statement of the thread keeps the protocol. -/
theorem creatorStep_protocol {thread : Nat} {pc : CreatePc} (protocol : server.Protocol)
    (found : server.creators[thread]? = some pc)
    (stepped : server.creatorStep thread pc = some next) : next.Protocol := by
  have flags := protocol.flags
  rcases protocol.only_thread found with ⟨rfl, taken, alone, none_starting⟩
  have reset := flags.resetFlag
  have shut := flags.closed
  have first := flags.first
  have missing := flags.missing
  simp only [alone, List.mem_singleton, exists_eq_left] at reset shut missing
  cases pc with
  | setResetFlag | closeWriteBuffer | closeCpuCache | closeCentraIndex | closeSsdCache |
    removeSsd | clearResetFlag =>
    simp only [creatorStep, creatorAt, alone, List.set_cons_zero, Option.some.injEq] at stepped
    subst stepped
    exact Protocol.of_running taken rfl none_starting (by simp_all) (by simp_all) first
      (by simp_all)
  | testDb =>
    simp only [creatorStep, creatorAt, alone, List.set_cons_zero, Option.some.injEq] at stepped
    subst stepped
    by_cases no_entry : server.db = none
    · rw [if_pos no_entry]
      exact Protocol.of_running taken rfl none_starting (by simp_all) (by simp_all) first
        (by simp)
    · rw [if_neg no_entry]
      exact Protocol.of_running taken rfl none_starting (by simp_all) (by simp_all) first
        (fun missing => absurd missing no_entry)
  | closeReady | clearReady | openReady | setReady | create =>
    simp only [creatorStep, creatorAt, assignReady, alone, List.set_cons_zero,
      Option.map_eq_some_iff] at stepped
    rcases stepped with ⟨ready, entry, rfl⟩
    exact Protocol.of_running taken rfl none_starting (by simp_all) (by simp_all)
      (by simp_all) (by simp_all)
  | testFirst =>
    simp only [creatorStep, creatorAt, alone, List.set_cons_zero] at stepped
    by_cases first_time : server.first = true
    · rw [if_pos first_time, Option.some.injEq] at stepped
      subst stepped
      exact Protocol.of_running taken rfl none_starting (by simp_all) (by simp_all)
        (by simp) (by simp)
    · rw [if_neg first_time, Option.some.injEq] at stepped
      subst stepped
      exact Protocol.of_running taken rfl none_starting (by simp_all) (by simp_all)
        first (fun missing => absurd (first.mpr missing) first_time)
  | unlock =>
    simp only [creatorStep, alone, List.eraseIdx_cons_zero, Option.some.injEq] at stepped
    subst stepped
    refine ⟨Owner.free rfl rfl none_starting, ?_⟩
    constructor <;> simp_all

/-- Every step keeps the protocol. -/
theorem step_protocol {event : Event Worker} (protocol : server.Protocol)
    (stepped : machine.step server event = some next) : next.Protocol := by
  cases event with
  | receive worker request =>
    rcases receive_cases stepped with ⟨waiting, rfl⟩
    have before : server.workers worker ≠ .createMog := by simp [waiting]
    have after :
        (if request = .clean then .clearReady else .testResetFlag) ≠ WorkerPc.createMog := by
      split <;> decide
    exact ⟨protocol.owner.move before after, ⟨protocol.flags.resetFlag, protocol.flags.closed,
      protocol.flags.first, protocol.flags.missing⟩⟩
  | worker worker missed => exact workerStep_protocol protocol stepped
  | creator thread =>
    rcases Option.bind_eq_some_iff.mp stepped with ⟨pc, found, taken⟩
    exact creatorStep_protocol protocol found taken

end Server

end CudaDb
