import CudaDb.Verif.ServerThreads

/-!
# When no request touches a missing or closed store

The guard of a request is the test of `reset_flag` and then of `ready`, several statements before
the stores are used. This module names the three steps at which the guard fails: a '!' request
received, or a path that passes the test of `reset_flag`, while `DB` is null, and a `DB->close()`
started while some worker is between its test of `ready` and its last use of the stores. Without
these steps no worker ever uses a missing or closed store, and each of them makes one do so.
-/

namespace CudaDb

/-- The statements of a worker that dereference `DB`. -/
@[simp] def WorkerPc.dereferences : WorkerPc → Bool
  | .clearReady | .testReady | .lookup | .insert => true
  | _ => false

/-- The statements of a worker that use `WriteBuffer`, `CpuCache`, `CentraIndex` or `SSDCache`. -/
@[simp] def WorkerPc.inStores : WorkerPc → Bool
  | .lookup | .insert => true
  | _ => false

namespace Server

variable {Worker : Type*}

/-- No worker's next statement touches a missing or closed store. -/
structure Safe (server : Server Worker) : Prop where
  /-- No worker is about to dereference `DB` while it is null. -/
  entry : ∀ worker, (server.workers worker).dereferences = true → server.db ≠ none
  /-- No worker is about to use a store between the start of `DB->close()` and the completion of
  the `DB->open()` that follows it. -/
  stores : ∀ worker, (server.workers worker).inStores = true → server.closed = false

/-- The step is none of the three at which the guard of a request fails. -/
def Admitted (server : Server Worker) : Event Worker → Prop
  | .receive worker request =>
    server.workers worker = .recv → request = .clean → server.db ≠ none
  | .worker worker _ =>
    server.workers worker = .testResetFlag → server.resetFlag = false → server.db ≠ none
  | .creator thread =>
    server.creators[thread]? = some .closeReady →
      ∀ worker, (server.workers worker).inStores = false

variable [DecidableEq Worker] {server next : Server Worker}

/-- Moving a worker keeps the server safe exactly when its new statement is safe. -/
theorem workerAt_safe (safe : server.Safe) (worker : Worker) (pc : WorkerPc) :
    (server.workerAt worker pc).Safe ↔
      (pc.dereferences = true → server.db ≠ none) ∧ (pc.inStores = true → server.closed = false) := by
  constructor
  · intro after
    have entry := after.entry worker
    have stores := after.stores worker
    rw [workerAt_workers, if_pos rfl] at entry stores
    exact ⟨entry, stores⟩
  · rintro ⟨entry, stores⟩
    constructor
    · intro other uses
      rw [workerAt_workers] at uses
      by_cases moved : other = worker
      · rw [if_pos moved] at uses
        exact entry uses
      · rw [if_neg moved] at uses
        exact safe.entry other uses
    · intro other uses
      rw [workerAt_workers] at uses
      by_cases moved : other = worker
      · rw [if_pos moved] at uses
        exact stores uses
      · rw [if_neg moved] at uses
        exact safe.stores other uses

/-- Receiving a request is safe exactly when it is admitted. -/
theorem receive_safe {worker : Worker} {request : Request} (safe : server.Safe)
    (stepped : server.receive worker request = some next) :
    server.Admitted (.receive worker request) ↔ next.Safe := by
  rcases receive_cases stepped with ⟨waiting, rfl⟩
  rw [workerAt_safe safe]
  cases request <;> simp [Admitted, waiting]

/-- A worker's statement is safe exactly when it is admitted. -/
theorem workerStep_safe {worker : Worker} {missed : Bool} (protocol : server.Protocol)
    (safe : server.Safe) (stepped : server.workerStep worker missed = some next) :
    server.Admitted (.worker worker missed) ↔ next.Safe := by
  rcases workerStep_cases stepped with
    ⟨at_clear, -, rfl⟩ | ⟨at_try, -, rfl⟩ | ⟨at_create, rfl⟩ | ⟨pc, move, rfl⟩
  · have after : (server.workerAt worker .tryLock).Safe :=
      (workerAt_safe safe worker _).mpr (by simp)
    exact iff_of_true (by simp [Admitted, at_clear]) ⟨fun _ _ => nofun, after.stores⟩
  · have after : (server.workerAt worker .createMog).Safe :=
      (workerAt_safe safe worker _).mpr (by simp)
    exact iff_of_true (by simp [Admitted, at_try]) ⟨after.entry, after.stores⟩
  · have after : (server.workerAt worker .sendOk).Safe :=
      (workerAt_safe safe worker _).mpr (by simp)
    exact iff_of_true (by simp [Admitted, at_create]) ⟨after.entry, after.stores⟩
  · rw [workerAt_safe safe]
    have admitted : server.Admitted (.worker worker missed) ↔
        (pc = .testReady → server.db ≠ none) := by
      rw [move.entered, and_imp]
      rfl
    have opened : server.db = some true → server.closed = false := by
      intro ready
      by_contra shut
      have := (protocol.flags.closed (by simpa using shut)).1
      simp [ready] at this
    rw [admitted]
    cases pc with
    | lookup => simp [move.found rfl, opened (move.found rfl)]
    | insert =>
      have before := move.missed rfl
      have entry := safe.entry worker (by simp [before])
      have stores := safe.stores worker (by simp [before])
      simp [entry, stores]
    | clearReady => exact absurd rfl move.inside.1
    | _ => simp

omit [DecidableEq Worker] in
/-- A statement of the thread is safe exactly when it is admitted. -/
theorem creatorStep_safe {thread : Nat} {pc : CreatePc} (protocol : server.Protocol)
    (safe : server.Safe) (found : server.creators[thread]? = some pc)
    (stepped : server.creatorStep thread pc = some next) :
    server.Admitted (.creator thread) ↔ next.Safe := by
  rcases protocol.only_thread found with ⟨rfl, -, alone, -⟩
  rcases creatorStep_cases alone stepped with ⟨rfl, rfl⟩ | ⟨rfl, rfl⟩ | ⟨rfl, rfl⟩ | ⟨after, moved⟩
  · exact iff_of_true (by simp [Admitted, found]) ⟨safe.entry, safe.stores⟩
  · exact iff_of_true (by simp [Admitted, found]) ⟨fun _ _ => nofun, safe.stores⟩
  · constructor
    · intro admitted
      refine ⟨fun _ _ => nofun, fun worker uses => ?_⟩
      have outside : (server.workers worker).inStores = false := admitted found worker
      exact absurd (outside.symm.trans uses) (by decide)
    · intro after _ worker
      by_contra uses
      have := after.stores worker (by simpa using uses)
      simp at this
  · have other : pc ≠ .closeReady := moved.other.2.2.1
    refine iff_of_true (by simp [Admitted, found, other]) ⟨?_, ?_⟩
    · intro worker uses missing
      rw [moved.workers] at uses
      exact safe.entry worker uses (moved.db missing)
    · intro worker uses
      rw [moved.workers] at uses
      have opened := safe.stores worker uses
      by_contra shut
      have := moved.closed (by simpa using shut)
      simp [opened] at this

/-- In every run from the start of the process, no worker ever touches a missing or closed store
exactly when every step of the run is admitted. -/
theorem always_safe_iff_admitted (events : List (Event Worker)) :
    machine.Along Admitted (initial : Server Worker) events ↔
      machine.Always Safe (initial : Server Worker) events := by
  have safe : (initial : Server Worker).Safe := by constructor <;> simp [initial]
  refine Machine.along_iff_always Protocol (fun _ _ _ => step_protocol) ?_ ?_
    events initial_protocol safe
  · intro server event next protocol safe stepped
    cases event with
    | receive worker request => exact receive_safe safe stepped
    | worker worker missed => exact workerStep_safe protocol safe stepped
    | creator thread =>
      rcases Option.bind_eq_some_iff.mp stepped with ⟨pc, found, taken⟩
      exact creatorStep_safe protocol safe found taken
  · intro server event protocol stuck
    cases event with
    | receive worker request =>
      intro waiting
      simp [machine, receive, waiting] at stuck
    | worker worker missed =>
      intro testing
      simp [machine, workerStep, testing] at stuck
    | creator thread =>
      intro closing
      rcases protocol.only_thread closing with ⟨rfl, -, alone, -⟩
      have missing : server.db = none := by
        simpa [machine, alone, creatorStep, creatorAt, assignReady] using stuck
      have before := protocol.flags.missing missing
      simp [alone] at before

/-- A path received before the first thread has run is tested against a `reset_flag` that is still
clear, and a '!' request can make the stores close after another worker has tested `ready`. -/
theorem not_always_safe :
    (∃ (events : List (Event (Fin 10))) (final : Server (Fin 10)) (worker : Fin 10),
      machine.run initial events = some final ∧
      (final.workers worker).dereferences = true ∧ final.db = none) ∧
    (∃ (events : List (Event (Fin 10))) (final : Server (Fin 10)) (worker : Fin 10),
      machine.run initial events = some final ∧
      (final.workers worker).inStores = true ∧ final.closed = true) := by
  constructor
  · exact ⟨[.receive 0 .path, .worker 0 false], _, 0, rfl, rfl, rfl⟩
  · exact ⟨List.replicate 9 (Event.creator 0) ++
      [Event.receive 0 .path, Event.worker 0 false, Event.worker 0 false] ++
      [Event.receive 1 .clean, Event.worker 1 false, Event.worker 1 false, Event.worker 1 false] ++
      List.replicate 3 (Event.creator 0), _, 0, rfl, rfl, rfl⟩

end Server

end CudaDb
