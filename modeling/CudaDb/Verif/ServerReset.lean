import CudaDb.Verif.ServerThreads

/-!
# When a reset gives the cache back

A handler of '!' clears `ready` before it knows whether the mutex is free. Where it does so
between the last `DB->ready = true` of a reset and the `mtx.unlock()` after it, nobody sets the
flag again. This module shows that this is the only way in which a quiescent server can be left
with `ready` cleared.
-/

namespace CudaDb

/-- The statements of a worker that handles a '!' request. -/
@[simp] def WorkerPc.cleaning : WorkerPc → Bool
  | .clearReady | .tryLock | .createMog | .sleep | .sendOk => true
  | _ => false

namespace Server

variable {Worker : Type*}

/-- The mutex is free and no worker is in the middle of a '!' request. -/
structure Quiescent (server : Server Worker) : Prop where
  /-- The mutex is free. -/
  unlocked : server.locked = false
  /-- No worker handles a '!' request. -/
  handled : ∀ worker, (server.workers worker).cleaning = false

/-- `DB->ready` is true and `reset_flag` is false. -/
def GivenBack (server : Server Worker) : Prop :=
  server.db = some true ∧ server.resetFlag = false

/-- The history of `DB->ready=false` by handlers of '!': whether one was executed after the last
`DB->ready = true` of `CreateMogEntry` and before the `mtx.unlock()` that follows it. -/
def lateClear (late : Bool) (server : Server Worker) : Event Worker → Bool
  | .receive _ _ => late
  | .worker worker _ =>
    late || decide (server.workers worker = .clearReady ∧ .unlock ∈ server.creators)
  | .creator thread => if server.creators[thread]? = some .setReady then false else late

/-- What `ready` is once `CreateMogEntry` has set it, as long as no new reset is on its way. -/
structure Settled (server : Server Worker) (late : Bool) : Prop where
  /-- Before the mutex is unlocked. -/
  at_unlock : server.creators = [.unlock] → server.db = some (!late)
  /-- After it was unlocked, until a worker tries to lock it. -/
  when_free : server.locked = false → (∀ worker, server.workers worker ≠ .tryLock) →
    server.db = some (!late)

variable [DecidableEq Worker] {server next : Server Worker}

/-- A worker's statement keeps what is known of `ready`. -/
theorem workerStep_settled {worker : Worker} {missed late : Bool} (protocol : server.Protocol)
    (settled : server.Settled late) (stepped : server.workerStep worker missed = some next) :
    next.Settled (lateClear late server (.worker worker missed)) := by
  rcases workerStep_cases stepped with
    ⟨at_clear, -, rfl⟩ | ⟨at_try, unlocked, rfl⟩ | ⟨at_create, rfl⟩ | ⟨pc, move, rfl⟩
  · constructor
    · intro at_unlock
      have window : server.creators = [.unlock] := at_unlock
      simp [lateClear, at_clear, window]
    · intro _ none_trying
      have here := none_trying worker
      simp at here
  · constructor
    · intro at_unlock
      have window : server.creators = [.unlock] := at_unlock
      cases protocol.owner with
      | free _ none_running | starting _ _ none_running => simp [none_running] at window
      | running _ taken => simp [taken] at unlocked
    · intro free
      cases free
  · cases protocol.owner with
    | free _ _ none_starting | running _ _ _ none_starting =>
      exact absurd at_create (none_starting worker)
    | starting _ taken none_running =>
      constructor
      · intro at_unlock
        simp [none_running] at at_unlock
      · intro free _
        have unlocked : server.locked = false := free
        simp [taken] at unlocked
  · have unchanged : lateClear late server (.worker worker missed) = late := by
      simp [lateClear, move.silent.1]
    rw [unchanged]
    refine ⟨settled.at_unlock,
      fun free none_trying => settled.when_free free fun other trying => ?_⟩
    by_cases moved : other = worker
    · have taken := move.refused (moved ▸ trying)
      have unlocked : server.locked = false := free
      simp [taken] at unlocked
    · have there := none_trying other
      rw [workerAt_workers, if_neg moved] at there
      exact there trying

omit [DecidableEq Worker] in
/-- A statement of the thread keeps what is known of `ready`. -/
theorem creatorStep_settled {thread : Nat} {pc : CreatePc} {late : Bool}
    (protocol : server.Protocol) (settled : server.Settled late)
    (found : server.creators[thread]? = some pc)
    (stepped : server.creatorStep thread pc = some next) :
    next.Settled (lateClear late server (.creator thread)) := by
  rcases protocol.only_thread found with ⟨rfl, taken, alone, -⟩
  rcases creatorStep_cases alone stepped with ⟨rfl, rfl⟩ | ⟨rfl, rfl⟩ | ⟨rfl, rfl⟩ | ⟨after, moved⟩
  · have known : server.db = some (!late) := settled.at_unlock alone
    have unchanged : lateClear late server (.creator 0) = late := by simp [lateClear, found]
    rw [unchanged]
    exact ⟨nofun, fun _ _ => known⟩
  · have forgotten : lateClear late server (.creator 0) = false := by simp [lateClear, found]
    rw [forgotten]
    exact ⟨fun _ => rfl, fun _ _ => rfl⟩
  · constructor
    · intro at_unlock
      simp at at_unlock
    · intro free _
      have unlocked : server.locked = false := free
      simp [taken] at unlocked
  · constructor
    · intro at_unlock
      have unlocking : after = .unlock := by simpa [moved.thread] using at_unlock
      exact absurd unlocking moved.other.2.2.2
    · intro free _
      simp [moved.locked, taken] at free

/-- Every step keeps what is known of `ready`. -/
theorem step_settled {late : Bool} {event : Event Worker} (protocol : server.Protocol)
    (settled : server.Settled late) (stepped : machine.step server event = some next) :
    next.Settled (lateClear late server event) := by
  cases event with
  | receive worker request =>
    rcases receive_cases stepped with ⟨waiting, rfl⟩
    refine ⟨settled.at_unlock, fun free none_trying => settled.when_free free fun other => ?_⟩
    by_cases moved : other = worker
    · simp [moved, waiting]
    · have there := none_trying other
      rwa [workerAt_workers, if_neg moved] at there
  | worker worker missed => exact workerStep_settled protocol settled stepped
  | creator thread =>
    rcases Option.bind_eq_some_iff.mp stepped with ⟨pc, found, taken⟩
    exact creatorStep_settled protocol settled found taken

/-- In every run from the start of the server, a quiescent state has `ready` set and `reset_flag`
clear exactly when no handler of '!' cleared `ready` between the last `DB->ready = true` of
`CreateMogEntry` and the `mtx.unlock()` that follows it. -/
theorem givenBack_iff_no_late_clear {events : List (Event Worker)} {final : Server Worker}
    {late : Bool}
    (ran : (machine.observed lateClear).run (initial, false) events = some (final, late))
    (quiescent : final.Quiescent) : final.GivenBack ↔ late = false := by
  have start : (initial : Server Worker).Protocol ∧ (initial : Server Worker).Settled false :=
    ⟨initial_protocol, ⟨by simp [initial], by simp [initial]⟩⟩
  have reached : final.Protocol ∧ final.Settled late := by
    refine Machine.run_invariant (fun state : Server Worker × Bool =>
      state.1.Protocol ∧ state.1.Settled state.2) ?_ start ran
    intro state event next holds stepped
    rcases Machine.observed_step.mp stepped with ⟨taken, noted⟩
    exact ⟨step_protocol holds.1 taken, noted ▸ step_settled holds.1 holds.2 taken⟩
  have none_trying : ∀ worker, final.workers worker ≠ .tryLock := by
    intro worker trying
    have := quiescent.handled worker
    simp [trying] at this
  have ready := reached.2.when_free quiescent.unlocked none_trying
  have none_running : final.creators = [] := by
    cases reached.1.owner with
    | free _ none_running => exact none_running
    | starting _ taken | running _ taken => simp [quiescent.unlocked] at taken
  have flag : final.resetFlag = false := by
    by_contra set
    have := reached.1.flags.resetFlag.mp (by simpa using set)
    simp [none_running] at this
  simp [GivenBack, ready, flag]

/-- After the first reset one worker handles a '!' request and starts the second reset; another one
handles its own while the mutex is locked, before the second `DB->ready = true`. -/
def twoCleans {Worker : Type*} (first second : Worker) : List (Event Worker) :=
  [List.replicate 9 (.creator 0), [.receive first .clean], List.replicate 3 (.worker first false),
    [.receive second .clean], List.replicate 2 (.worker second false),
    List.replicate 15 (.creator 0), List.replicate 2 (.worker second false),
    [.worker first false]].flatten

/-- After both '!' requests the server is quiescent and has its cache. -/
theorem givenBack_after_twoCleans : ∃ final : Server (Fin 10),
    (machine.observed lateClear).run (initial, false) (twoCleans 0 1) = some (final, false) ∧
      final.Quiescent ∧ final.GivenBack := by
  have executed : ∃ final : Server (Fin 10),
      (machine.observed lateClear).run (initial, false) (twoCleans 0 1) = some (final, false) ∧
      final.locked = false ∧ ∀ worker, (final.workers worker).cleaning = false :=
    ⟨_, rfl, rfl, by decide⟩
  rcases executed with ⟨final, ran, unlocked, handled⟩
  have quiescent : final.Quiescent := ⟨unlocked, handled⟩
  exact ⟨final, ran, quiescent, (givenBack_iff_no_late_clear ran quiescent).mpr rfl⟩

/-- The first reset, up to its `DB->ready = true`. -/
def firstReset : List (Event (Fin 10)) := List.replicate 8 (.creator 0)

/-- A '!' request handled between the last two statements of the first reset: the mutex is still
locked, so no reset follows, and `ready` stays cleared. -/
theorem not_givenBack_of_late_clear :
    ¬ ∀ (events : List (Event (Fin 10))) (final : Server (Fin 10)),
      machine.run initial events = some final → final.Quiescent → final.GivenBack := by
  intro always
  have given := always (firstReset ++ [.receive 0 .clean, .worker 0 false, .worker 0 false,
    .creator 0, .worker 0 false, .worker 0 false]) _ rfl ⟨rfl, by decide⟩
  exact absurd given.1 (by decide)

end Server

end CudaDb
