import CudaDb.Verif.ServerThreads

/-!
# The cycle of resets

The stores behind `DB` are singletons: `mog::close` and `mog::open` act on the same objects, and
nothing in them refuses a second open or a second close. That they are opened and closed in turn
is the work of the mutex. This module follows what `CreateMogEntry` does to the stores through
every interleaving. Where `mog::close` waits for the tasks of its stores is not part of it.
-/

namespace CudaDb

/-- What `CreateMogEntry` does to the stores as a whole. -/
inductive Phase
  /-- `DB->close()` has started. -/
  | closed
  /-- `DB->open()` has completed. -/
  | opened
  deriving DecidableEq

/-- What the statement does to the stores as a whole. -/
def CreatePc.phase : CreatePc → Option Phase
  | .closeReady => some .closed
  | .openReady => some .opened
  | _ => none

/-- The statements after the end of `DB->open()`. -/
@[simp] def CreatePc.reopened : CreatePc → Bool
  | .clearResetFlag | .setReady | .unlock => true
  | _ => false

/-- The statements left to the end of `CreateMogEntry`, this one included. -/
@[simp] def CreatePc.remaining : CreatePc → Nat
  | .setResetFlag => 15
  | .testDb => 14
  | .closeReady => 13
  | .closeWriteBuffer => 12
  | .closeCpuCache => 11
  | .closeCentraIndex => 10
  | .closeSsdCache => 9
  | .removeSsd => 8
  | .testFirst => 7
  | .clearReady => 6
  | .create => 5
  | .openReady => 4
  | .clearResetFlag => 3
  | .setReady => 2
  | .unlock => 1

/-- The stores are opened and closed in turn, and opened first. -/
structure Alternates (phases : List Phase) : Prop where
  /-- No two neighbours are equal. -/
  turns : phases.IsChain (· ≠ ·)
  /-- The first one is an open. -/
  first : ∀ phase ∈ phases.head?, phase = .opened

/-- Something else than the last time is done to the stores. -/
theorem Alternates.snoc {phases : List Phase} {phase : Phase} (alternates : Alternates phases)
    (differs : phases.getLast? ≠ some phase) (begins : phases = [] → phase = .opened) :
    Alternates (phases ++ [phase]) := by
  constructor
  · apply List.isChain_append.mpr
    refine ⟨alternates.turns, List.isChain_singleton phase, fun last here new there same => ?_⟩
    have new_phase : phase = new := by simpa using there
    rw [same, ← new_phase] at here
    exact differs here
  · cases phases with
    | nil => simpa using begins rfl
    | cons head rest => simpa using alternates.first

/-- The history of the mutex and of the stores. -/
structure Ledger where
  /-- The times that `mtx` has been locked, the first one by `main`. -/
  taken : Nat
  /-- The times that `mtx` has been unlocked. -/
  released : Nat
  /-- The steps taken for a reset by the owner of the mutex. -/
  moves : Nat
  /-- What has been done to the stores. -/
  phases : List Phase
  deriving DecidableEq

/-- `main` — the mutex is locked, and nothing has been done to the stores. -/
def Ledger.start : Ledger where
  taken := 1
  released := 0
  moves := 0
  phases := []

namespace Server

variable {Worker : Type*}

/-- What a step adds to the history. -/
def observe (ledger : Ledger) (server : Server Worker) : Event Worker → Ledger
  | .receive _ _ => ledger
  | .worker worker _ =>
    match server.workers worker with
    | .tryLock => if server.locked then ledger else { ledger with taken := ledger.taken + 1 }
    | .createMog => { ledger with moves := ledger.moves + 1 }
    | _ => ledger
  | .creator thread =>
    match server.creators[thread]? with
    | none => ledger
    | some pc => { ledger with
        released := ledger.released + (if pc = .unlock then 1 else 0)
        moves := ledger.moves + 1
        phases := ledger.phases ++ pc.phase.toList }

/-- The steps that the owner of the mutex has left. -/
def remaining (server : Server Worker) : Nat :=
  if server.locked then
    match server.creators with
    | [] => 16
    | pc :: _ => pc.remaining
  else 0

/-- The owner of the mutex has yet to complete `DB->open()`. -/
def unopened (server : Server Worker) : Bool :=
  server.locked && !server.creators.any CreatePc.reopened

/-! ## The history of every interleaving -/

/-- The history agrees with the mutex and the flags. -/
structure Told (server : Server Worker) (ledger : Ledger) : Prop where
  /-- Every lock but the last one has been released. -/
  taken : ledger.taken = ledger.released + server.locked.toNat
  /-- Every lock has led to one `DB->open()`, or will do so. -/
  opened : ledger.phases.count .opened + server.unopened.toNat = ledger.taken
  /-- Each lock pays for the steps of its owner. -/
  moves : ledger.moves + server.remaining ≤ 16 * ledger.taken
  /-- The stores are opened and closed in turn. -/
  turns : Alternates ledger.phases
  /-- The stores are closed when they were closed last. -/
  last_closed : server.closed = true → ledger.phases.getLast? = some .closed
  /-- Nothing was done to them before the first `DB->open()`. -/
  untouched : server.closed = false →
    (server.db = none ∨ ∃ pc ∈ server.creators, pc.reopening = true) → ledger.phases = []
  /-- Otherwise they were opened last. -/
  last_opened : server.closed = false → server.db ≠ none →
    (∀ pc ∈ server.creators, pc.reopening = false) → ledger.phases.getLast? = some .opened

/-- The server starts with an empty history. -/
theorem initial_told : (initial : Server Worker).Told .start where
  taken := rfl
  opened := rfl
  moves := Nat.le_succ 15
  turns := ⟨List.isChain_nil, by simp [Ledger.start]⟩
  last_closed := by simp [initial]
  untouched := fun _ _ => rfl
  last_opened := by simp [initial]

variable [DecidableEq Worker] {server next : Server Worker} {ledger : Ledger}

omit [DecidableEq Worker] in
/-- A step that leaves the mutex, its owner and the stores as they are leaves the history true. -/
theorem Told.same (told : server.Told ledger) (locked : next.locked = server.locked)
    (creators : next.creators = server.creators) (closed : next.closed = server.closed)
    (db : next.db = none ↔ server.db = none) : next.Told ledger := by
  have remaining : next.remaining = server.remaining := by simp [Server.remaining, locked, creators]
  have unopened : next.unopened = server.unopened := by simp [Server.unopened, locked, creators]
  constructor
  · rw [locked]
    exact told.taken
  · rw [unopened]
    exact told.opened
  · rw [remaining]
    exact told.moves
  · exact told.turns
  · rw [closed]
    exact told.last_closed
  · rw [closed, creators, db]
    exact told.untouched
  · rw [closed, creators, ne_eq, db]
    exact told.last_opened

/-- A worker's statement keeps the history true. -/
theorem workerStep_told {worker : Worker} {missed : Bool} (protocol : server.Protocol)
    (told : server.Told ledger) (stepped : server.workerStep worker missed = some next) :
    next.Told (observe ledger server (.worker worker missed)) := by
  rcases workerStep_cases stepped with
    ⟨at_clear, exists_db, rfl⟩ | ⟨at_try, free, rfl⟩ | ⟨at_create, rfl⟩ | ⟨pc, move, rfl⟩
  · have unchanged : observe ledger server (.worker worker missed) = ledger := by
      simp [observe, at_clear]
    rw [unchanged]
    exact told.same rfl rfl rfl (iff_of_false (by simp) exists_db)
  · have locked_now : observe ledger server (.worker worker missed) =
        { ledger with taken := ledger.taken + 1 } := by simp [observe, at_try, free]
    have idle : server.creators = [] := by
      cases protocol.owner with
      | free _ none_running => exact none_running
      | starting _ taken | running _ taken => simp [taken] at free
    have before := told.taken
    have opens := told.opened
    have paid := told.moves
    have waiting : server.unopened = false := by simp [unopened, free]
    rw [free, Bool.toNat_false] at before
    rw [waiting, Bool.toNat_false] at opens
    rw [locked_now]
    constructor
    · show ledger.taken + 1 = ledger.released + 1
      omega
    · show ledger.phases.count .opened + Bool.toNat (true && !server.creators.any _) =
        ledger.taken + 1
      rw [idle]
      show ledger.phases.count .opened + 1 = ledger.taken + 1
      omega
    · show ledger.moves + (match server.creators with | [] => 16 | pc :: _ => pc.remaining) ≤
        16 * (ledger.taken + 1)
      rw [idle]
      show ledger.moves + 16 ≤ 16 * (ledger.taken + 1)
      omega
    · exact told.turns
    · exact told.last_closed
    · exact told.untouched
    · exact told.last_opened
  · have moved : observe ledger server (.worker worker missed) =
        { ledger with moves := ledger.moves + 1 } := by simp [observe, at_create]
    rw [moved]
    cases protocol.owner with
    | free _ _ none_starting | running _ _ _ none_starting =>
      exact absurd at_create (none_starting worker)
    | starting _ taken idle =>
      have paid := told.moves
      have opens := told.opened
      have left : server.remaining = 16 := by simp [remaining, taken, idle]
      have waiting : server.unopened = true := by simp [unopened, taken, idle]
      rw [left] at paid
      rw [waiting] at opens
      constructor
      · exact told.taken
      · simpa [unopened, workerAt, taken, idle] using opens
      · show ledger.moves + 1 + _ ≤ 16 * ledger.taken
        have fifteen : remaining { server.workerAt worker .sendOk with
            creators := server.creators ++ [.setResetFlag] } = 15 := by
          simp [remaining, workerAt, taken, idle]
        rw [fifteen]
        omega
      · exact told.turns
      · exact told.last_closed
      · intro open_stores reopening
        apply told.untouched open_stores
        simpa [workerAt, idle] using reopening
      · intro open_stores entry _
        exact told.last_opened open_stores entry (by simp [idle])
  · have unchanged : observe ledger server (.worker worker missed) = ledger := by
      unfold observe
      cases at_pc : server.workers worker with
      | tryLock => simp [at_pc, move.refused at_pc]
      | createMog => exact absurd at_pc move.silent.2
      | _ => simp [at_pc]
    rw [unchanged]
    exact told.same rfl rfl rfl Iff.rfl

omit [DecidableEq Worker] in
/-- No more than 16 steps are left to the owner of the mutex. -/
theorem remaining_le (server : Server Worker) : server.remaining ≤ 16 := by
  unfold remaining
  split
  · split
    · exact le_refl 16
    · next pc _ _ => cases pc <;> decide
  · exact Nat.zero_le 16

omit [DecidableEq Worker] in
/-- What is left to the owner of the mutex, when it is a thread that has not returned. -/
theorem remaining_running {pc : CreatePc} (taken : server.locked = true)
    (alone : server.creators = [pc]) : server.remaining = pc.remaining := by
  simp [remaining, taken, alone]

omit [DecidableEq Worker] in
/-- Whether `DB->open()` is still to come, when a thread owns the mutex. -/
theorem unopened_running {pc : CreatePc} (taken : server.locked = true)
    (alone : server.creators = [pc]) : server.unopened = !pc.reopened := by
  simp [unopened, taken, alone]

omit [DecidableEq Worker] in
/-- A statement of the thread that does nothing to the stores as a whole, and only takes the thread
further, keeps the history true. -/
theorem Told.goes_on {before after : CreatePc} (told : server.Told ledger)
    (taken : server.locked = true) (alone : server.creators = [before])
    (locked : next.locked = server.locked) (closed : next.closed = server.closed)
    (thread : next.creators = [after]) (further : after.remaining < before.remaining)
    (reopened : after.reopened = before.reopened)
    (untouched : next.db = none ∨ after.reopening = true →
      server.db = none ∨ before.reopening = true)
    (settled : next.db ≠ none → after.reopening = false →
      server.db ≠ none ∧ before.reopening = false) :
    next.Told { ledger with moves := ledger.moves + 1 } := by
  have paid := told.moves
  have opens := told.opened
  have earlier := told.untouched
  have later := told.last_opened
  rw [remaining_running taken alone] at paid
  rw [unopened_running taken alone] at opens
  simp only [alone, List.mem_singleton, exists_eq_left, forall_eq] at earlier later
  constructor
  · rw [locked]
    exact told.taken
  · rw [unopened_running (locked.trans taken) thread, reopened]
    exact opens
  · rw [remaining_running (locked.trans taken) thread]
    show ledger.moves + 1 + after.remaining ≤ 16 * ledger.taken
    omega
  · exact told.turns
  · rw [closed]
    exact told.last_closed
  · rw [closed, thread]
    simp only [List.mem_singleton, exists_eq_left]
    exact fun open_stores here => earlier open_stores (untouched here)
  · rw [closed, thread]
    simp only [List.mem_singleton, forall_eq]
    intro open_stores entry outside
    have stood := settled entry outside
    exact later open_stores stood.1 stood.2

omit [DecidableEq Worker] in
/-- What a thread that can move adds to the history. -/
theorem observe_creator {pc : CreatePc} (alone : server.creators = [pc]) :
    observe ledger server (.creator 0) = { ledger with
      released := ledger.released + (if pc = .unlock then 1 else 0)
      moves := ledger.moves + 1
      phases := ledger.phases ++ pc.phase.toList } := by
  simp [observe, alone]

omit [DecidableEq Worker] in
/-- Most statements add a step, and nothing else. -/
theorem observe_silent {pc : CreatePc} (alone : server.creators = [pc])
    (silent : pc.phase = none) (goes_on : pc ≠ .unlock) :
    observe ledger server (.creator 0) = { ledger with moves := ledger.moves + 1 } := by
  rw [observe_creator alone, silent, if_neg goes_on]
  simp

omit [DecidableEq Worker] in
/-- A statement of the thread keeps the history true. -/
theorem creatorStep_told {pc : CreatePc} (protocol : server.Protocol) (told : server.Told ledger)
    (taken : server.locked = true) (alone : server.creators = [pc])
    (stepped : server.creatorStep 0 pc = some next) :
    next.Told (observe ledger server (.creator 0)) := by
  have paid := told.moves
  have opens := told.opened
  have locks := told.taken
  rw [remaining_running taken alone] at paid
  rw [unopened_running taken alone] at opens
  rw [taken, Bool.toNat_true] at locks
  have shut := protocol.flags.closed
  simp only [alone, List.mem_singleton, exists_eq_left] at shut
  cases pc with
  | setResetFlag | closeWriteBuffer | closeCpuCache | closeCentraIndex | closeSsdCache |
    removeSsd | clearResetFlag =>
    simp only [creatorStep, creatorAt, alone, List.set_cons_zero, Option.some.injEq] at stepped
    subst stepped
    rw [observe_silent alone rfl (by decide)]
    exact told.goes_on taken alone rfl rfl rfl (by decide) rfl (by simp) (by simp)
  | clearReady | create | setReady =>
    simp only [creatorStep, creatorAt, assignReady, alone, List.set_cons_zero,
      Option.map_eq_some_iff] at stepped
    rcases stepped with ⟨ready, entry, rfl⟩
    rw [observe_silent alone rfl (by decide)]
    exact told.goes_on taken alone rfl rfl rfl (by decide) rfl (by simp) (by simp [entry])
  | testDb =>
    simp only [creatorStep, creatorAt, alone, List.set_cons_zero, Option.some.injEq] at stepped
    subst stepped
    rw [observe_silent alone rfl (by decide)]
    by_cases no_entry : server.db = none
    · rw [if_pos no_entry]
      exact told.goes_on taken alone rfl rfl rfl (by decide) rfl (by simp [no_entry]) (by simp)
    · rw [if_neg no_entry]
      exact told.goes_on taken alone rfl rfl rfl (by decide) rfl (by simp) (by simp)
  | testFirst =>
    simp only [creatorStep, creatorAt, alone, List.set_cons_zero] at stepped
    rw [observe_silent alone rfl (by decide)]
    by_cases first_time : server.first = true
    · rw [if_pos first_time, Option.some.injEq] at stepped
      subst stepped
      exact told.goes_on taken alone rfl rfl rfl (by decide) rfl (by simp) (by simp)
    · rw [if_neg first_time, Option.some.injEq] at stepped
      subst stepped
      exact told.goes_on taken alone rfl rfl rfl (by decide) rfl (by simp) (by simp)
  | closeReady =>
    simp only [creatorStep, creatorAt, assignReady, alone, List.set_cons_zero,
      Option.map_eq_some_iff] at stepped
    rcases stepped with ⟨ready, entry, rfl⟩
    have open_stores : server.closed = false := by
      by_contra set
      have reopening := (shut (by simpa using set)).2
      simp at reopening
    have last : ledger.phases.getLast? = some .opened :=
      told.last_opened open_stores (by simp [entry]) (by simp [alone])
    rw [observe_creator alone]
    constructor
    · show ledger.taken = ledger.released + 0 + server.locked.toNat
      rw [taken, Bool.toNat_true]
      exact locks
    · simpa [unopened, taken, CreatePc.phase] using opens
    · simp [remaining, taken] at paid ⊢
      omega
    · apply told.turns.snoc
      · rw [last]
        decide
      · intro nothing
        rw [nothing] at last
        cases last
    · exact fun _ => List.getLast?_concat
    · simp
    · simp
  | openReady =>
    simp only [creatorStep, creatorAt, assignReady, alone, List.set_cons_zero,
      Option.map_eq_some_iff] at stepped
    rcases stepped with ⟨ready, entry, rfl⟩
    have differs : ledger.phases.getLast? ≠ some .opened := by
      by_cases shut_now : server.closed = true
      · rw [told.last_closed shut_now]
        decide
      · have nothing : ledger.phases = [] :=
          told.untouched (by simpa using shut_now) (Or.inr (by simp [alone]))
        simp [nothing]
    rw [observe_creator alone]
    constructor
    · show ledger.taken = ledger.released + 0 + server.locked.toNat
      rw [taken, Bool.toNat_true]
      exact locks
    · simpa [unopened, taken, CreatePc.phase] using opens
    · simp [remaining, taken] at paid ⊢
      omega
    · exact told.turns.snoc differs fun _ => rfl
    · simp
    · simp
    · exact fun _ _ _ => List.getLast?_concat
  | unlock =>
    simp only [creatorStep, alone, List.eraseIdx_cons_zero, Option.some.injEq] at stepped
    subst stepped
    rw [observe_creator alone]
    constructor
    · show ledger.taken = ledger.released + 1 + 0
      exact locks
    · simpa [unopened, CreatePc.phase] using opens
    · simp [remaining] at paid ⊢
      omega
    · simpa [CreatePc.phase] using told.turns
    · simpa [CreatePc.phase] using told.last_closed
    · simpa [alone, CreatePc.phase] using told.untouched
    · simpa [alone, CreatePc.phase] using told.last_opened

/-- Every step keeps the history true. -/
theorem step_told {event : Event Worker} (protocol : server.Protocol) (told : server.Told ledger)
    (stepped : machine.step server event = some next) :
    next.Told (observe ledger server event) := by
  cases event with
  | receive worker request =>
    rcases receive_cases stepped with ⟨waiting, rfl⟩
    exact told.same rfl rfl rfl Iff.rfl
  | worker worker missed => exact workerStep_told protocol told stepped
  | creator thread =>
    rcases Option.bind_eq_some_iff.mp stepped with ⟨pc, found, moved⟩
    have only := protocol.only_thread found
    rw [only.1] at moved ⊢
    exact creatorStep_told protocol told only.2.1 only.2.2.1 moved

omit [DecidableEq Worker] in
/-- The stores are closed exactly when they were closed last. -/
theorem Told.closed_iff (told : server.Told ledger) :
    server.closed = true ↔ ledger.phases.getLast? = some .closed := by
  constructor
  · exact told.last_closed
  · intro last
    by_contra still
    have open_stores : server.closed = false := by simpa using still
    by_cases before : server.db = none ∨ ∃ pc ∈ server.creators, pc.reopening = true
    · rw [told.untouched open_stores before] at last
      cases last
    · have outside : ∀ pc ∈ server.creators, pc.reopening = false := by
        intro pc member
        by_contra inside
        exact before (Or.inr ⟨pc, member, by simpa using inside⟩)
      rw [told.last_opened open_stores (fun missing => before (Or.inl missing)) outside] at last
      cases last

/-- In every interleaving of the workers and the threads of `CreateMogEntry`, the stores are opened
and closed in turn, an open first; every lock of the mutex but the last one has been released, and
every lock leads to exactly one `DB->open()`. All owners together have made at most 16 steps for
each lock, with those that the present owner has left. -/
theorem resets_in_turn {events : List (Event Worker)}
    (ran : (machine.observed observe).run (initial, .start) events = some (server, ledger)) :
    Alternates ledger.phases ∧
      (server.closed = true ↔ ledger.phases.getLast? = some .closed) ∧
      ledger.taken = ledger.released + server.locked.toNat ∧
      ledger.phases.count .opened + server.unopened.toNat = ledger.taken ∧
      ledger.moves + server.remaining ≤ 16 * ledger.taken := by
  have start : (initial : Server Worker).Protocol ∧ (initial : Server Worker).Told .start :=
    ⟨initial_protocol, initial_told⟩
  have reached : server.Protocol ∧ server.Told ledger := by
    apply Machine.run_invariant (fun state : Server Worker × Ledger =>
      state.1.Protocol ∧ state.1.Told state.2) _ start ran
    intro state event next holds stepped
    have parts := Machine.observed_step.mp stepped
    rw [← parts.2]
    exact ⟨step_protocol holds.1 parts.1, step_told holds.1 holds.2 parts.1⟩
  have told := reached.2
  exact ⟨told.turns, told.closed_iff, told.taken, told.opened, told.moves⟩

/-- The first reset, and the second one up to the start of its `DB->close()`. -/
def intoSecondReset : List (Event Unit) :=
  List.replicate 9 (.creator 0) ++ .receive () .clean :: List.replicate 3 (.worker () false) ++
    List.replicate 3 (.creator 0)

/-- In the middle of the second reset the stores have been opened and closed once. -/
theorem resets_in_turn_second : ∃ server ledger,
    (machine.observed observe).run (initial, .start) intoSecondReset = some (server, ledger) ∧
      ledger.phases = [.opened, .closed] ∧ Alternates ledger.phases ∧
      ledger.taken = ledger.released + 1 ∧ server.closed = true := by
  have executed : ∃ server ledger,
      (machine.observed observe).run (initial, .start) intoSecondReset = some (server, ledger) ∧
        ledger.phases = [.opened, .closed] ∧ server.locked = true := ⟨_, _, rfl, rfl, rfl⟩
  rcases executed with ⟨server, ledger, ran, phases, taken⟩
  have history := resets_in_turn ran
  have locks := history.2.2.1
  rw [taken, Bool.toNat_true] at locks
  have shut : server.closed = true := by
    apply history.2.1.mpr
    rw [phases]
    rfl
  exact ⟨server, ledger, ran, phases, history.1, locks, shut⟩

/-! ## The steps of the owner -/

/-- The step is one of the owner of the mutex: of the thread, or of the worker that starts it. -/
def Event.owns (server : Server Worker) : Event Worker → Prop
  | .receive _ _ => False
  | .worker actor _ => server.workers actor = .createMog
  | .creator _ => True

omit [DecidableEq Worker] in
/-- The only thread can always execute its next statement. -/
theorem creatorStep_enabled {pc : CreatePc} (protocol : server.Protocol)
    (alone : server.creators = [pc]) : ∃ next, server.creatorStep 0 pc = some next := by
  have missing := protocol.flags.missing
  simp only [alone, List.mem_singleton, exists_eq_left] at missing
  by_cases entry : pc.beforeEntry = true
  · cases pc with
    | setResetFlag | testDb => exact ⟨_, rfl⟩
    | testFirst => by_cases first_time : server.first = true <;> simp [creatorStep, first_time]
    | _ => cases entry
  · have there : ∃ ready, server.db = some ready :=
      Option.ne_none_iff_exists'.mp fun absent => entry (missing absent)
    rcases there with ⟨ready, at_db⟩
    cases pc with
    | testFirst => exact absurd rfl entry
    | _ => simp [creatorStep, creatorAt, assignReady, at_db]

omit [DecidableEq Worker] in
/-- A statement of the only thread other than `mtx.unlock()` leads to a later one, and to
`mtx.unlock()` only with `ready` set. -/
theorem creatorStep_forward {pc : CreatePc} (alone : server.creators = [pc])
    (stepped : server.creatorStep 0 pc = some next) (goes_on : pc ≠ .unlock) :
    next.workers = server.workers ∧
      ∃ after, next.creators = [after] ∧ after.remaining < pc.remaining ∧
        (after = .unlock → next.db = some true) := by
  cases pc with
  | unlock => exact absurd rfl goes_on
  | testDb =>
    simp only [creatorStep, creatorAt, alone, List.set_cons_zero, Option.some.injEq] at stepped
    subst stepped
    refine ⟨rfl, _, rfl, ?_⟩
    by_cases no_entry : server.db = none
    · rw [if_pos no_entry]
      exact ⟨by decide, fun last => (by cases last)⟩
    · rw [if_neg no_entry]
      exact ⟨by decide, fun last => (by cases last)⟩
  | testFirst =>
    simp only [creatorStep, creatorAt, alone, List.set_cons_zero] at stepped
    by_cases first_time : server.first = true
    · rw [if_pos first_time, Option.some.injEq] at stepped
      subst stepped
      exact ⟨rfl, _, rfl, by decide, fun last => (by cases last)⟩
    · rw [if_neg first_time, Option.some.injEq] at stepped
      subst stepped
      exact ⟨rfl, _, rfl, by decide, fun last => (by cases last)⟩
  | setResetFlag | closeWriteBuffer | closeCpuCache | closeCentraIndex | closeSsdCache
  | removeSsd | clearResetFlag =>
    simp only [creatorStep, creatorAt, alone, List.set_cons_zero, Option.some.injEq] at stepped
    subst stepped
    exact ⟨rfl, _, rfl, by decide, fun last => (by cases last)⟩
  | setReady =>
    simp only [creatorStep, creatorAt, assignReady, alone, List.set_cons_zero,
      Option.map_eq_some_iff] at stepped
    rcases stepped with ⟨ready, entry, rfl⟩
    exact ⟨rfl, _, rfl, by decide, fun _ => rfl⟩
  | closeReady | clearReady | openReady | create =>
    simp only [creatorStep, creatorAt, assignReady, alone, List.set_cons_zero,
      Option.map_eq_some_iff] at stepped
    rcases stepped with ⟨ready, entry, rfl⟩
    exact ⟨rfl, _, rfl, by decide, fun last => (by cases last)⟩

omit [DecidableEq Worker] in
/-- A server with a free mutex has neither flag of a reset set. -/
theorem Protocol.settled (protocol : server.Protocol) (free : server.locked = false) :
    server.resetFlag = false ∧ server.closed = false := by
  have idle : server.creators = [] := by
    cases protocol.owner with
    | free _ none_running => exact none_running
    | starting _ taken | running _ taken => simp [taken] at free
  constructor
  · by_contra set
    have running := protocol.flags.resetFlag.mp (by simpa using set)
    simp [idle] at running
  · by_contra set
    have running := (protocol.flags.closed (by simpa using set)).2
    simp [idle] at running

/-- Every step of the owner of the mutex brings it closer to its end. -/
theorem owns_remaining {event : Event Worker} (protocol : server.Protocol)
    (owns : event.owns server) (stepped : machine.step server event = some next) :
    next.remaining < server.remaining := by
  cases event with
  | receive => exact absurd owns id
  | worker actor missed =>
    have at_start : server.workers actor = .createMog := owns
    cases protocol.owner with
    | free _ _ none_starting | running _ _ _ none_starting =>
      exact absurd at_start (none_starting actor)
    | starting _ taken idle =>
      have moved : server.workerStep actor missed = some next := stepped
      simp only [workerStep, at_start, idle, Option.some.injEq] at moved
      subst moved
      simp [remaining, workerAt, taken, idle]
  | creator thread =>
    rcases Option.bind_eq_some_iff.mp stepped with ⟨pc, found, moved⟩
    have only := protocol.only_thread found
    rw [only.1] at moved
    have alone := only.2.2.1
    rw [remaining_running only.2.1 alone]
    by_cases ends : pc = .unlock
    · subst ends
      simp only [creatorStep, Option.some.injEq] at moved
      subst moved
      exact Nat.one_pos
    · have forward := creatorStep_forward alone moved ends
      rcases forward with ⟨-, after, thread_at, further, -⟩
      unfold remaining
      rw [thread_at]
      split
      · exact further
      · omega

end Server

end CudaDb
