import CudaDb.Verif.ClientReplies

/-!
# Which flags are left set

`get` clears the flag of its slot only after the reply has been copied. A call that an exception
leaves in between keeps the flag set, although no thread uses the slot any more, and no step of any
thread clears it later. These are the only ways to lose a slot: as long as no `send` and no `recv`
throws, the flags that are set belong to the calls between `test_and_set` and `clear`, one each.
-/

namespace CudaDb.Exchange

variable {Thread Worker : Type*} {exchange next : Exchange Thread Worker}

/-- The flags that are set are those of the calls between `test_and_set` and `clear`, one to one. -/
structure Matched (exchange : Exchange Thread Worker) : Prop where
  /-- Two calls do not hold one slot. -/
  alone : Threads.Exclusive GetPc.held exchange.threads
  /-- A flag is set while a call holds its slot, and only then. -/
  held : ∀ slot, exchange.flags slot = true ↔
    ∃ thread, (exchange.threads thread).held = some slot

/-- The flag of the slot is set and no call holds it. -/
def Leaked (exchange : Exchange Thread Worker) (slot : Slot) : Prop :=
  exchange.flags slot = true ∧ ∀ thread, (exchange.threads thread).held ≠ some slot

/-- The step is not an exception that leaves a call which holds a slot. -/
def NoThrow (exchange : Exchange Thread Worker) : ExchangeEvent Thread Worker → Prop
  | .sendThrows thread _ => ∀ call fileName slot,
      exchange.threads thread ≠ .send call fileName slot
  | .recvThrows thread => ∀ call fileName slot,
      exchange.threads thread ≠ .recv call fileName slot
  | _ => True

/-- What a step that is no exception does to the flags and to what the calls hold. -/
inductive SlotStep (exchange next : Exchange Thread Worker) : Prop
  /-- Neither changes. -/
  | same (flags : next.flags = exchange.flags)
      (held : ∀ thread, (next.threads thread).held = (exchange.threads thread).held)
  /-- A call takes a slot whose flag was clear. -/
  | acquired (thread : Thread) (slot : Slot) (free : exchange.flags slot = false)
      (flags : next.flags = Function.update exchange.flags slot true)
      (held : ∀ other taken, (next.threads other).held = some taken ↔
        (exchange.threads other).held = some taken ∨ other = thread ∧ taken = slot)
  /-- A call gives back the slot that it held. -/
  | released (thread : Thread) (slot : Slot) (holds : (exchange.threads thread).held = some slot)
      (flags : next.flags = Function.update exchange.flags slot false)
      (held : ∀ other taken, (next.threads other).held = some taken ↔
        (exchange.threads other).held = some taken ∧ other ≠ thread)

/-- An exception leaves the call of the thread, which held the slot. -/
structure Abandons (thread : Thread) (slot : Slot) (exchange next : Exchange Thread Worker) :
    Prop where
  /-- The call held the slot. -/
  holds : (exchange.threads thread).held = some slot
  /-- The flags stay. -/
  flags : next.flags = exchange.flags
  /-- The call holds nothing any more, and the others what they held. -/
  held : ∀ other taken, (next.threads other).held = some taken ↔
    (exchange.threads other).held = some taken ∧ other ≠ thread

/-! ## What the steps mean for the slots -/

/-- A step that is no exception keeps the flags matched. -/
theorem SlotStep.matched (stepped : exchange.SlotStep next) (matched : exchange.Matched) :
    next.Matched := by
  cases stepped with
  | same flags held =>
    refine ⟨fun first second slot left right => ?_, fun slot => ?_⟩
    · rw [held] at left right
      exact matched.alone first second slot left right
    · simp only [flags, held]
      exact matched.held slot
  | acquired thread slot free flags held =>
    have untaken (other : Thread) : (exchange.threads other).held ≠ some slot := by
      intro holds
      have set := (matched.held slot).mpr ⟨other, holds⟩
      rw [free] at set
      cases set
    refine ⟨fun first second taken left right => ?_, fun taken => ?_⟩
    · rcases (held first taken).mp left with old | ⟨one, same⟩
      · rcases (held second taken).mp right with also | ⟨-, same⟩
        · exact matched.alone first second taken old also
        · exact absurd (same ▸ old) (untaken first)
      · rcases (held second taken).mp right with also | ⟨two, -⟩
        · exact absurd (same ▸ also) (untaken second)
        · exact one.trans two.symm
    · rw [flags]
      by_cases same : taken = slot
      · rw [same, Function.update_self]
        exact iff_of_true rfl ⟨thread, (held thread slot).mpr (Or.inr ⟨rfl, rfl⟩)⟩
      · rw [Function.update_of_ne same, matched.held]
        exact exists_congr fun other => by simp [held, same]
  | released thread slot holds flags held =>
    refine ⟨fun first second taken left right => ?_, fun taken => ?_⟩
    · exact matched.alone first second taken ((held first taken).mp left).1
        ((held second taken).mp right).1
    · rw [flags]
      by_cases same : taken = slot
      · rw [same, Function.update_self]
        refine iff_of_false Bool.false_ne_true ?_
        rintro ⟨other, still⟩
        obtain ⟨before, apart⟩ := (held other slot).mp still
        exact apart (matched.alone other thread slot before holds)
      · rw [Function.update_of_ne same, matched.held]
        apply exists_congr
        intro other
        rw [held]
        refine (and_iff_left_of_imp fun before moved => ?_).symm
        rw [moved, holds] at before
        exact same (Option.some.inj before).symm

/-- A step that is no exception leaves a leaked slot leaked. -/
theorem SlotStep.leaked (stepped : exchange.SlotStep next) {lost : Slot}
    (leaked : exchange.Leaked lost) : next.Leaked lost := by
  cases stepped with
  | same flags held => exact ⟨flags ▸ leaked.1, fun thread => held thread ▸ leaked.2 thread⟩
  | acquired thread slot free flags held =>
    have apart : lost ≠ slot := by
      rintro rfl
      rw [leaked.1] at free
      cases free
    refine ⟨?_, fun other holds => ?_⟩
    · rw [flags, Function.update_of_ne apart]
      exact leaked.1
    · rcases (held other lost).mp holds with old | ⟨-, same⟩
      · exact leaked.2 other old
      · exact apart same
  | released thread slot holds flags held =>
    have apart : lost ≠ slot := by
      rintro rfl
      exact leaked.2 thread holds
    refine ⟨?_, fun other holds => leaked.2 other ((held other lost).mp holds).1⟩
    rw [flags, Function.update_of_ne apart]
    exact leaked.1

/-- An exception leaks the slot of its call. -/
theorem Abandons.leaks {thread : Thread} {slot : Slot}
    (abandoned : exchange.Abandons thread slot next)
    (matched : exchange.Matched) : next.Leaked slot := by
  refine ⟨?_, fun other still => ?_⟩
  · rw [abandoned.flags]
    exact (matched.held slot).mpr ⟨thread, abandoned.holds⟩
  · obtain ⟨before, apart⟩ := (abandoned.held other slot).mp still
    exact apart (matched.alone other thread slot before abandoned.holds)

/-- An exception leaves the slots leaked before leaked. -/
theorem Abandons.leaked {thread : Thread} {slot lost : Slot}
    (abandoned : exchange.Abandons thread slot next) (leaked : exchange.Leaked lost) :
    next.Leaked lost :=
  ⟨abandoned.flags ▸ leaked.1,
    fun other still => leaked.2 other ((abandoned.held other lost).mp still).1⟩

/-- A leaked slot is not matched. -/
theorem Leaked.not_matched {slot : Slot} (leaked : exchange.Leaked slot) : ¬ exchange.Matched := by
  intro matched
  obtain ⟨thread, holds⟩ := (matched.held slot).mp leaked.1
  exact leaked.2 thread holds

/-! ## The steps -/

variable [DecidableEq Thread]

/-- What the threads hold after one of them has moved. -/
theorem held_update (threads : Thread → GetPc) (thread : Thread) (pc : GetPc) (other : Thread) :
    (Function.update threads thread pc other).held =
      if other = thread then pc.held else (threads other).held := by
  by_cases same : other = thread
  · rw [same, Function.update_self, if_pos rfl]
  · rw [Function.update_of_ne same, if_neg same]

/-- A thread that moves and holds what it held changes nothing. -/
theorem moved_same {thread : Thread} {pc : GetPc} (held : pc.held = (exchange.threads thread).held)
    (flags : next.flags = exchange.flags)
    (threads : next.threads = Function.update exchange.threads thread pc) :
    exchange.SlotStep next := by
  refine SlotStep.same flags fun other => ?_
  rw [threads, held_update]
  by_cases same : other = thread
  · rw [if_pos same, held, same]
  · rw [if_neg same]

/-- What the threads hold after one of them has moved to hold nothing. -/
theorem moved_out {thread : Thread} {pc : GetPc} (held : pc.held = none)
    (threads : next.threads = Function.update exchange.threads thread pc) (other : Thread)
    (taken : Slot) : (next.threads other).held = some taken ↔
      (exchange.threads other).held = some taken ∧ other ≠ thread := by
  rw [threads, held_update, held]
  by_cases same : other = thread
  · rw [if_pos same]
    exact iff_of_false (Option.some_ne_none taken).symm fun both => both.2 same
  · rw [if_neg same]
    exact (and_iff_left same).symm

/-- A statement of `get` that does not use the socket keeps the slots. -/
theorem threadStep_slots {thread : Thread}
    (stepped : exchange.threadStep thread (exchange.threads thread) = some next) :
    exchange.SlotStep next := by
  cases standing : exchange.threads thread with
  | testAndSet call fileName slot =>
    rw [standing] at stepped
    simp only [threadStep] at stepped
    split at stepped
    · obtain rfl := Option.some.inj stepped
      exact moved_same (by rw [standing]; rfl) rfl rfl
    · next free =>
      obtain rfl := Option.some.inj stepped
      refine SlotStep.acquired thread slot (Bool.eq_false_iff.mpr free) rfl fun other taken => ?_
      change (Function.update exchange.threads thread (.send call fileName slot) other).held =
        some taken ↔ _
      rw [held_update]
      by_cases same : other = thread
      · have outside : (exchange.threads other).held = none := by
          rw [same, standing]
          rfl
        rw [if_pos same, outside]
        simp [GetPc.held, same, eq_comm]
      · rw [if_neg same]
        simp [same]
  | copy call fileName slot data =>
    rw [standing] at stepped
    obtain rfl := Option.some.inj stepped
    exact moved_same (by rw [standing]; rfl) rfl rfl
  | clear call fileName slot data =>
    rw [standing] at stepped
    obtain rfl := Option.some.inj stepped
    have holds : (exchange.threads thread).held = some slot := by
      rw [standing]
      rfl
    exact SlotStep.released thread slot holds rfl (moved_out rfl rfl)
  | idle | send _ _ _ | recv _ _ _ | returned _ _ _ =>
    rw [standing] at stepped
    cases stepped

variable [DecidableEq Worker]

/-- Every step keeps the slots or is an exception that leaves a call which holds one. -/
theorem step_slots {event : ExchangeEvent Thread Worker}
    (stepped : machine.step exchange event = some next) :
    exchange.NoThrow event ∧ exchange.SlotStep next ∨
      ¬ exchange.NoThrow event ∧ ∃ thread slot, exchange.Abandons thread slot next := by
  cases event with
  | call thread fileName =>
    left
    refine ⟨trivial, ?_⟩
    simp only [machine] at stepped
    cases standing : exchange.threads thread with
    | idle | returned _ _ _ =>
      rw [standing] at stepped
      obtain rfl := Option.some.inj stepped
      exact moved_same (by rw [standing]; rfl) rfl rfl
    | testAndSet _ _ _ | send _ _ _ | recv _ _ _ | copy _ _ _ _ | clear _ _ _ _ =>
      rw [standing] at stepped
      cases stepped
  | step thread => exact Or.inl ⟨trivial, threadStep_slots stepped⟩
  | send thread =>
    left
    refine ⟨trivial, ?_⟩
    simp only [machine] at stepped
    split at stepped
    swap
    · cases stepped
    next call fileName slot standing =>
    split at stepped
    · cases stepped
    · obtain rfl := Option.some.inj stepped
      exact moved_same (by rw [standing]; rfl) rfl rfl
  | sendThrows thread queued =>
    right
    simp only [machine] at stepped
    split at stepped
    swap
    · cases stepped
    next call fileName slot standing =>
    have holds : (exchange.threads thread).held = some slot := by
      rw [standing]
      rfl
    refine ⟨fun never => never call fileName slot standing, thread, slot, holds, ?_, ?_⟩
    · split at stepped
      all_goals
        obtain rfl := Option.some.inj stepped
        rfl
    · split at stepped
      all_goals
        obtain rfl := Option.some.inj stepped
        exact moved_out rfl rfl
  | recv thread reply =>
    left
    refine ⟨trivial, ?_⟩
    simp only [machine] at stepped
    split at stepped
    swap
    · cases stepped
    next call fileName slot standing =>
    split at stepped
    · obtain rfl := Option.some.inj stepped
      exact moved_same (by rw [standing]; rfl) rfl rfl
    · cases stepped
  | recvThrows thread =>
    right
    simp only [machine] at stepped
    split at stepped
    swap
    · cases stepped
    next call fileName slot standing =>
    have holds : (exchange.threads thread).held = some slot := by
      rw [standing]
      rfl
    obtain rfl := Option.some.inj stepped
    exact ⟨fun never => never call fileName slot standing, thread, slot, holds, rfl,
      moved_out rfl rfl⟩
  | wire event =>
    obtain ⟨wire, -, rfl⟩ := Option.map_eq_some_iff.mp stepped
    exact Or.inl ⟨trivial, SlotStep.same rfl fun _ => rfl⟩

/-- A step that cannot be taken is no exception. -/
theorem refused_noThrow {event : ExchangeEvent Thread Worker}
    (refused : machine.step exchange event = none) : exchange.NoThrow event := by
  cases event with
  | sendThrows thread queued =>
    intro call fileName slot standing
    simp only [machine, standing] at refused
    split at refused
    all_goals cases refused
  | recvThrows thread =>
    intro call fileName slot standing
    simp only [machine, standing] at refused
    cases refused
  | call _ _ | step _ | send _ | recv _ _ | wire _ => trivial

/-- In every interleaving the flags that are set belong to the calls between `test_and_set` and
`clear`, one to one and in every state, exactly if no `send` and no `recv` throws. -/
theorem matched_iff_noThrow (events : List (ExchangeEvent Thread Worker)) :
    machine.Along NoThrow initial events ↔
      machine.Always Matched (initial : Exchange Thread Worker) events := by
  refine Machine.along_iff_always (fun _ => True) (fun _ _ _ _ _ => trivial) ?_
    (fun _ _ _ => refused_noThrow) events trivial ?_
  · intro exchange event next _ matched stepped
    rcases step_slots stepped with ⟨calm, step⟩ | ⟨throws, thread, slot, abandoned⟩
    · exact iff_of_true calm (step.matched matched)
    · exact iff_of_false throws (abandoned.leaks matched).not_matched
  · refine ⟨fun first second slot left => ?_, fun slot => ?_⟩
    · cases left
    · refine iff_of_false Bool.false_ne_true ?_
      rintro ⟨thread, holds⟩
      cases holds

/-- A slot that is leaked once stays so, whatever the threads do. -/
theorem leaked_stays {events : List (ExchangeEvent Thread Worker)} {slot : Slot}
    (leaked : exchange.Leaked slot) (ran : machine.run exchange events = some next) :
    next.Leaked slot := by
  refine Machine.run_invariant (fun state => Leaked state slot) ?_ leaked ran
  intro before event after lost stepped
  rcases step_slots stepped with ⟨-, step⟩ | ⟨-, thread, taken, abandoned⟩
  · exact step.leaked lost
  · exact abandoned.leaked lost

/-- Once all slots are leaked, no call comes past `test_and_set` any more. -/
theorem all_leaked_spins {events : List (ExchangeEvent Thread Worker)}
    (leaked : ∀ slot, exchange.Leaked slot) (ran : machine.run exchange events = some next)
    (thread : Thread) : (next.threads thread).held = none := by
  cases holds : (next.threads thread).held with
  | none => rfl
  | some slot => exact absurd holds ((leaked_stays (leaked slot) ran).2 thread)

/-- A thread calls `get` five times, and each time the `send` on its slot throws. -/
def fiveFailures : List (ExchangeEvent Unit Unit) :=
  (List.range socketNum).flatMap fun failed =>
    [.call () []] ++ List.replicate (failed + 1) (.step ()) ++ [.sendThrows () false]

/-- The five slots are leaked then: no call holds one, and no later call ever gets one. -/
theorem not_matched_of_fiveFailures : ∃ exchange,
    machine.run initial fiveFailures = some exchange ∧ ¬ exchange.Matched ∧
      ∀ events next, machine.run exchange events = some next →
        ∀ thread, (next.threads thread).held = none := by
  have executed : ∃ exchange, machine.run initial fiveFailures = some exchange ∧
      (∀ slot, exchange.flags slot = true) ∧ exchange.threads () = .idle :=
    ⟨_, rfl, by decide, rfl⟩
  obtain ⟨exchange, ran, flags, idle⟩ := executed
  have leaked (slot : Slot) : exchange.Leaked slot := by
    refine ⟨flags slot, fun thread holds => ?_⟩
    rw [idle] at holds
    cases holds
  exact ⟨exchange, ran, (leaked 0).not_matched, fun _ _ later => all_leaked_spins leaked later⟩

end CudaDb.Exchange
