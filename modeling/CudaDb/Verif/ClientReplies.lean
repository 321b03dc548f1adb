import CudaDb.Verif.ClientWire

/-!
# Requests and replies do not cross

A thread that holds the flag of a slot is the only one that uses its socket. A socket that awaits a
reply has one request on its way, which is the request of the thread that receives on it or of a
call that an exception ended; in the second case the flag stays set, and no later call uses the
slot.
-/

namespace CudaDb

/-- The slot whose flag the call has set. -/
def GetPc.held : GetPc → Option Slot
  | .send _ _ slot | .recv _ _ slot | .copy _ _ slot _ | .clear _ _ slot _ => some slot
  | _ => none

/-- The call, while it has sent no request. -/
def GetPc.unsent : GetPc → Option Nat
  | .testAndSet call _ _ | .send call _ _ => some call
  | _ => none

namespace Exchange

variable {Thread Worker : Type*} [Fintype Worker]
  {exchange next : Exchange Thread Worker}

/-- A worker has sent these bytes as the reply to the request of the call for the file. -/
def Answered (exchange : Exchange Thread Worker) (call : Nat) (fileName data : List UInt8) :
    Prop :=
  ∃ slot, { request := { slot, payload := requestOf fileName, call }, data } ∈
    exchange.wire.served

/-- What is known of a thread at each statement of `get`. -/
def Ok (exchange : Exchange Thread Worker) : GetPc → Prop
  | .idle => True
  | .testAndSet call _ _ => call < exchange.calls ∧ exchange.wire.traces call = 0
  | .send call _ slot => (call < exchange.calls ∧ exchange.wire.traces call = 0) ∧
      exchange.flags slot = true ∧ exchange.awaiting slot = false
  | .recv call fileName slot => exchange.flags slot = true ∧ exchange.awaiting slot = true ∧
      ∀ request, exchange.wire.Travels request → request.slot = slot →
        request = { slot, payload := requestOf fileName, call }
  | .copy call fileName slot data | .clear call fileName slot data =>
      exchange.flags slot = true ∧ exchange.awaiting slot = false ∧
        exchange.Answered call fileName data
  | .returned call fileName data => exchange.Answered call fileName data

/-- What holds of the client and the messages in every interleaving. -/
structure Orderly (exchange : Exchange Thread Worker) : Prop where
  /-- Two threads do not hold one slot. -/
  slots : Threads.Exclusive GetPc.held exchange.threads
  /-- Two threads do not make one call. -/
  numbers : Threads.Exclusive GetPc.unsent exchange.threads
  /-- Every thread is where its call has come. -/
  threads : ∀ thread, exchange.Ok (exchange.threads thread)
  /-- A slot that is not held has no request on its way. -/
  settled : ∀ slot, exchange.flags slot = false → exchange.awaiting slot = false
  /-- A socket that awaits a reply has one request outstanding, and any other has none. -/
  counted : ∀ slot, exchange.wire.outstanding slot = if exchange.awaiting slot then 1 else 0
  /-- The replies on their way have been sent by workers. -/
  logged : exchange.wire.Logged
  /-- A call has at most one request. -/
  once : ∀ call, exchange.wire.traces call ≤ 1
  /-- A call that has not been made has no request. -/
  fresh : ∀ call, exchange.calls ≤ call → exchange.wire.traces call = 0

/-- What is known of a thread stays so while its slot and its call are left alone. -/
theorem Ok.keep {pc : GetPc} (ok : exchange.Ok pc) (calls : exchange.calls ≤ next.calls)
    (flags : ∀ slot, pc.held = some slot → next.flags slot = exchange.flags slot)
    (awaiting : ∀ slot, pc.held = some slot → next.awaiting slot = exchange.awaiting slot)
    (traces : ∀ call, pc.unsent = some call → next.wire.traces call = exchange.wire.traces call)
    (travels : ∀ request, pc.held = some request.slot →
      next.wire.Travels request → exchange.wire.Travels request)
    (served : ∀ reply ∈ exchange.wire.served, reply ∈ next.wire.served) : next.Ok pc := by
  have answers {call : Nat} {fileName data : List UInt8}
      (answered : exchange.Answered call fileName data) : next.Answered call fileName data := by
    obtain ⟨slot, member⟩ := answered
    exact ⟨slot, served _ member⟩
  cases pc with
  | idle => trivial
  | testAndSet call fileName slot =>
    exact ⟨ok.1.trans_le calls, (traces call rfl).trans ok.2⟩
  | send call fileName slot =>
    exact ⟨⟨ok.1.1.trans_le calls, (traces call rfl).trans ok.1.2⟩, (flags slot rfl).trans ok.2.1,
      (awaiting slot rfl).trans ok.2.2⟩
  | recv call fileName slot =>
    refine ⟨(flags slot rfl).trans ok.1, (awaiting slot rfl).trans ok.2.1, ?_⟩
    intro request travelling same
    exact ok.2.2 request (travels request (congrArg some same.symm) travelling) same
  | copy call fileName slot data | clear call fileName slot data =>
    exact ⟨(flags slot rfl).trans ok.1, (awaiting slot rfl).trans ok.2.1, answers ok.2.2⟩
  | returned call fileName data => exact answers ok

/-- A flag that a thread holds is set. -/
theorem Ok.flag {pc : GetPc} {slot : Slot} (ok : exchange.Ok pc) (held : pc.held = some slot) :
    exchange.flags slot = true := by
  cases pc with
  | send _ _ _ =>
    obtain rfl := Option.some.inj held
    exact ok.2.1
  | recv _ _ _ | copy _ _ _ _ | clear _ _ _ _ =>
    obtain rfl := Option.some.inj held
    exact ok.1
  | _ => cases held

/-- A call that has sent no request has been made. -/
theorem Ok.made {pc : GetPc} {call : Nat} (ok : exchange.Ok pc) (unsent : pc.unsent = some call) :
    call < exchange.calls := by
  cases pc with
  | testAndSet _ _ _ =>
    obtain rfl := Option.some.inj unsent
    exact ok.1
  | send _ _ _ =>
    obtain rfl := Option.some.inj unsent
    exact ok.1.1
  | _ => cases unsent

/-- A step of the server or of the transport keeps the order. -/
theorem Orderly.wire {wire : Wire Worker} (orderly : exchange.Orderly)
    (kept : exchange.wire.Kept wire) : Orderly { exchange with wire } where
  slots := orderly.slots
  numbers := orderly.numbers
  threads thread := (orderly.threads thread).keep le_rfl (fun _ _ => rfl) (fun _ _ => rfl)
    (fun call _ => kept.traces call) (fun request _ => kept.travels request) kept.served
  settled := orderly.settled
  counted slot := (kept.outstanding slot).trans (orderly.counted slot)
  logged := kept.logged orderly.logged
  once call := (kept.traces call).trans_le (orderly.once call)
  fresh call later := (kept.traces call).trans (orderly.fresh call later)

variable [DecidableEq Thread]

/-- A thread that moves and leaves the slots and the messages keeps the order. -/
theorem Orderly.threadAt {thread : Thread} {pc : GetPc} (orderly : exchange.Orderly)
    (held : ∀ slot, pc.held = some slot → (exchange.threads thread).held = some slot)
    (unsent : ∀ call, pc.unsent = some call → (exchange.threads thread).unsent = some call)
    (ok : exchange.Ok pc) : (exchange.threadAt thread pc).Orderly where
  slots := orderly.slots.keep held
  numbers := orderly.numbers.keep unsent
  threads := Threads.forall_update (exchange.threadAt thread pc).Ok
    (ok.keep le_rfl (fun _ _ => rfl) (fun _ _ => rfl) (fun _ _ => rfl) (fun _ _ => id) fun _ => id)
    fun other => (orderly.threads other).keep le_rfl (fun _ _ => rfl) (fun _ _ => rfl)
      (fun _ _ => rfl) (fun _ _ => id) fun _ => id
  settled := orderly.settled
  counted := orderly.counted
  logged := orderly.logged
  once := orderly.once
  fresh := orderly.fresh

/-- A thread that calls `get` gets the next number. -/
theorem Orderly.enter {thread : Thread} {fileName : List UInt8} (orderly : exchange.Orderly) :
    Orderly { exchange.threadAt thread (.testAndSet exchange.calls fileName 0) with
      calls := exchange.calls + 1 } where
  slots := orderly.slots.keep fun slot held => (by cases held)
  numbers := orderly.numbers.take fun other call new old => by
    obtain rfl := Option.some.inj new
    exact absurd ((orderly.threads other).made old) (Nat.lt_irrefl _)
  threads := by
    apply Threads.forall_update
    · exact ⟨Nat.lt_succ_self _, orderly.fresh _ le_rfl⟩
    · intro other
      exact (orderly.threads other).keep (Nat.le_succ _) (fun _ _ => rfl) (fun _ _ => rfl)
        (fun _ _ => rfl) (fun _ _ => id) fun _ => id
  settled := orderly.settled
  counted := orderly.counted
  logged := orderly.logged
  once := orderly.once
  fresh call later := orderly.fresh call ((Nat.le_succ _).trans later)

/-- A thread that sets a flag holds its slot alone. -/
theorem Orderly.acquire {thread : Thread} {call : Nat} {fileName : List UInt8} {slot : Slot}
    (orderly : exchange.Orderly) (free : exchange.flags slot = false)
    (standing : exchange.threads thread = .testAndSet call fileName slot) :
    Orderly { exchange.threadAt thread (.send call fileName slot) with
      flags := Function.update exchange.flags slot true } := by
  have others (other : Thread) {taken : Slot}
      (held : (exchange.threads other).held = some taken) : taken ≠ slot := by
    rintro rfl
    have set := (orderly.threads other).flag held
    rw [free] at set
    cases set
  have own : exchange.Ok (.testAndSet call fileName slot) := standing ▸ orderly.threads thread
  constructor
  case slots =>
    apply orderly.slots.take
    intro other taken new old
    obtain rfl := Option.some.inj new
    exact absurd rfl (others other old)
  case numbers =>
    apply orderly.numbers.keep
    intro number unsent
    rw [standing]
    exact unsent
  case threads =>
    apply Threads.forall_update
    · exact ⟨own, Function.update_self _ _ _, orderly.settled slot free⟩
    · intro other
      apply Ok.keep (orderly.threads other)
      case flags =>
        intro taken held
        exact Function.update_of_ne (others other held) _ _
      case calls => exact le_rfl
      case awaiting | traces => exact fun _ _ => rfl
      case travels => exact fun _ _ => id
      case served => exact fun _ => id
  case settled =>
    intro other clear
    by_cases same : other = slot
    · rw [same]
      exact orderly.settled slot free
    · exact orderly.settled other ((Function.update_of_ne same _ _).symm.trans clear)
  case counted => exact orderly.counted
  case logged => exact orderly.logged
  case once => exact orderly.once
  case fresh => exact orderly.fresh

/-- A socket that accepts the request of its holder has that request on its way and no other. -/
theorem Orderly.submit {thread : Thread} {call : Nat} {fileName : List UInt8} {slot : Slot}
    {pc : GetPc} (orderly : exchange.Orderly)
    (standing : exchange.threads thread = .send call fileName slot)
    (goes : pc = .recv call fileName slot ∨ pc = .idle) :
    ((exchange.submit call fileName slot).threadAt thread pc).Orderly := by
  have own : exchange.Ok (.send call fileName slot) := standing ▸ orderly.threads thread
  have holds : (exchange.threads thread).held = some slot := by rw [standing]; rfl
  have sends : (exchange.threads thread).unsent = some call := by rw [standing]; rfl
  have nothing : exchange.wire.outstanding slot = 0 := by
    rw [orderly.counted slot, own.2.2]
    rfl
  have alone (request : FileRequest)
      (travels : (exchange.submit call fileName slot).wire.Travels request)
      (same : request.slot = slot) :
      request = { slot, payload := requestOf fileName, call } := by
    rcases Wire.submit_travels travels with new | old
    · exact new
    · have counted := old.outstanding_pos
      rw [same] at counted
      omega
  constructor
  case slots =>
    apply orderly.slots.keep
    intro taken held
    rcases goes with rfl | rfl
    · rw [holds]
      exact held
    · cases held
  case numbers =>
    apply orderly.numbers.keep
    intro number unsent
    rcases goes with rfl | rfl <;> cases unsent
  case threads =>
    apply Threads.forall_move
    · rcases goes with rfl | rfl
      · exact ⟨own.2.1, Function.update_self _ _ _, alone⟩
      · trivial
    · intro other apart
      apply Ok.keep (orderly.threads other)
      case awaiting =>
        intro taken held
        exact Function.update_of_ne (orderly.slots.ne apart held holds) _ _
      case traces =>
        intro number unsent
        have different : call ≠ number := (orderly.numbers.ne apart unsent sends).symm
        exact (Wire.submit_traces _ _ number).trans (by simp [different])
      case travels =>
        intro request held travels
        rcases Wire.submit_travels travels with rfl | old
        · exact absurd (orderly.slots other thread slot held holds) apart
        · exact old
      case calls => exact le_rfl
      case flags => exact fun _ _ => rfl
      case served => exact fun _ => id
  case settled =>
    intro other clear
    have different : other ≠ slot := by
      rintro rfl
      exact absurd (own.2.1.symm.trans clear) (by decide)
    exact (Function.update_of_ne different _ _).trans (orderly.settled other clear)
  case counted =>
    intro other
    have sent := Wire.submit_outstanding exchange.wire
      { slot, payload := requestOf fileName, call } other
    have before := orderly.counted other
    show (exchange.wire.submit _).outstanding other =
      if Function.update exchange.awaiting slot true other then 1 else 0
    by_cases same : slot = other
    · subst same
      rw [Function.update_self, sent, nothing]
      simp
    · rw [Function.update_of_ne (Ne.symm same), sent, before]
      simp [same]
  case logged => exact orderly.logged
  case once =>
    intro number
    have sent := Wire.submit_traces exchange.wire
      { slot, payload := requestOf fileName, call } number
    have before := orderly.once number
    show (exchange.wire.submit _).traces number ≤ 1
    by_cases same : call = number
    · subst same
      rw [sent, own.1.2]
      simp
    · rw [sent]
      simpa [same] using before
  case fresh =>
    intro number later
    have different : call ≠ number := Nat.ne_of_lt (own.1.1.trans_le later)
    have sent := Wire.submit_traces exchange.wire
      { slot, payload := requestOf fileName, call } number
    have before := orderly.fresh number later
    show (exchange.wire.submit _).traces number = 0
    rw [sent, before]
    simp [different]

/-- A holder that receives a reply receives the one to its own request. -/
theorem Orderly.receive {thread : Thread} {call : Nat} {fileName : List UInt8} {slot : Slot}
    {reply : FileReply} (orderly : exchange.Orderly)
    (standing : exchange.threads thread = .recv call fileName slot)
    (member : reply ∈ exchange.wire.arrived) (addressed : reply.request.slot = slot) :
    Orderly { exchange.threadAt thread (.copy call fileName slot reply.data) with
      awaiting := Function.update exchange.awaiting slot false
      wire := exchange.wire.hand reply } := by
  have own : exchange.Ok (.recv call fileName slot) := standing ▸ orderly.threads thread
  have holds : (exchange.threads thread).held = some slot := by rw [standing]; rfl
  have request : reply.request = { slot, payload := requestOf fileName, call } :=
    own.2.2 reply.request (Or.inr (Or.inr (Or.inr ⟨reply, member, rfl⟩))) addressed
  have answered : exchange.Answered call fileName reply.data :=
    ⟨slot, request ▸ orderly.logged.2 reply member⟩
  constructor
  case slots =>
    apply orderly.slots.keep
    intro taken held
    rw [holds]
    exact held
  case numbers =>
    apply orderly.numbers.keep
    intro number unsent
    cases unsent
  case threads =>
    apply Threads.forall_move
    · exact ⟨own.1, Function.update_self _ _ _, answered⟩
    · intro other apart
      apply Ok.keep (orderly.threads other)
      case awaiting =>
        intro taken held
        exact Function.update_of_ne (orderly.slots.ne apart held holds) _ _
      case travels => exact fun _ _ => Wire.hand_travels
      case calls => exact le_rfl
      case flags | traces => exact fun _ _ => rfl
      case served => exact fun _ => id
  case settled =>
    intro other clear
    by_cases same : other = slot
    · rw [same]
      exact Function.update_self _ _ _
    · exact (Function.update_of_ne same _ _).trans (orderly.settled other clear)
  case counted =>
    intro other
    have taken := Wire.hand_outstanding member other
    have before := orderly.counted other
    show (exchange.wire.hand reply).outstanding other =
      if Function.update exchange.awaiting slot false other then 1 else 0
    by_cases same : slot = other
    · subst same
      rw [own.2.1] at before
      rw [Function.update_self]
      simp only [addressed, if_true] at taken before
      simp only [Bool.false_eq_true, if_false]
      omega
    · rw [Function.update_of_ne (Ne.symm same), ← before]
      rw [addressed, if_neg same] at taken
      omega
  case logged => exact Wire.hand_logged orderly.logged
  case once => exact orderly.once
  case fresh => exact orderly.fresh

/-- A holder that clears its flag leaves a socket without a request on its way. -/
theorem Orderly.release {thread : Thread} {call : Nat} {fileName data : List UInt8} {slot : Slot}
    (orderly : exchange.Orderly)
    (standing : exchange.threads thread = .clear call fileName slot data) :
    Orderly { exchange.threadAt thread (.returned call fileName data) with
      flags := Function.update exchange.flags slot false } := by
  have own : exchange.Ok (.clear call fileName slot data) := standing ▸ orderly.threads thread
  have holds : (exchange.threads thread).held = some slot := by rw [standing]; rfl
  constructor
  case slots =>
    apply orderly.slots.keep
    intro taken held
    cases held
  case numbers =>
    apply orderly.numbers.keep
    intro number unsent
    cases unsent
  case threads =>
    apply Threads.forall_move
    · exact own.2.2
    · intro other apart
      apply Ok.keep (orderly.threads other)
      case flags =>
        intro taken held
        exact Function.update_of_ne (orderly.slots.ne apart held holds) _ _
      case calls => exact le_rfl
      case awaiting | traces => exact fun _ _ => rfl
      case travels => exact fun _ _ => id
      case served => exact fun _ => id
  case settled =>
    intro other clear
    by_cases same : other = slot
    · rw [same]
      exact own.2.1
    · exact orderly.settled other ((Function.update_of_ne same _ _).symm.trans clear)
  case counted => exact orderly.counted
  case logged => exact orderly.logged
  case once => exact orderly.once
  case fresh => exact orderly.fresh

/-- A statement that does not use the socket keeps the order. -/
theorem Orderly.threadStep {thread : Thread} {pc : GetPc} (orderly : exchange.Orderly)
    (standing : exchange.threads thread = pc)
    (stepped : exchange.threadStep thread pc = some next) :
    next.Orderly := by
  have own : exchange.Ok pc := standing ▸ orderly.threads thread
  unfold Exchange.threadStep at stepped
  cases pc with
  | testAndSet call fileName slot =>
    dsimp only at stepped
    split at stepped
    · obtain rfl := Option.some.inj stepped
      apply orderly.threadAt
      · intro taken held
        cases held
      · intro number unsent
        rw [standing]
        exact unsent
      · exact own
    · rename_i free
      obtain rfl := Option.some.inj stepped
      exact orderly.acquire (Bool.eq_false_of_not_eq_true free) standing
  | copy call fileName slot data =>
    obtain rfl := Option.some.inj stepped
    apply orderly.threadAt
    · intro taken held
      rw [standing]
      exact held
    · intro number unsent
      cases unsent
    · exact own
  | clear call fileName slot data =>
    obtain rfl := Option.some.inj stepped
    exact orderly.release standing
  | _ => cases stepped

/-- A thread that an exception ends leaves the flag of its slot set. -/
theorem Orderly.abandon {thread : Thread} (orderly : exchange.Orderly) :
    (exchange.threadAt thread .idle).Orderly := by
  apply orderly.threadAt
  · intro taken held
    cases held
  · intro number unsent
    cases unsent
  · trivial

variable [DecidableEq Worker]

/-- Every step keeps the order. -/
theorem step_orderly {event : ExchangeEvent Thread Worker} (orderly : exchange.Orderly)
    (stepped : machine.step exchange event = some next) : next.Orderly := by
  unfold machine at stepped
  cases event with
  | call thread fileName =>
    dsimp only at stepped
    unfold callGet at stepped
    split at stepped
    · obtain rfl := Option.some.inj stepped
      exact orderly.enter
    · obtain rfl := Option.some.inj stepped
      exact orderly.enter
    · cases stepped
  | step thread => exact orderly.threadStep rfl stepped
  | send thread =>
    dsimp only at stepped
    split at stepped
    · rename_i call fileName slot standing
      split at stepped
      · cases stepped
      · obtain rfl := Option.some.inj stepped
        exact orderly.submit standing (Or.inl rfl)
    · cases stepped
  | sendThrows thread queued =>
    dsimp only at stepped
    split at stepped
    · rename_i call fileName slot standing
      split at stepped
      · obtain rfl := Option.some.inj stepped
        exact orderly.submit standing (Or.inr rfl)
      · obtain rfl := Option.some.inj stepped
        exact orderly.abandon
    · cases stepped
  | recv thread reply =>
    dsimp only at stepped
    split at stepped
    · rename_i call fileName slot standing
      split at stepped
      · rename_i arrived
        obtain rfl := Option.some.inj stepped
        exact orderly.receive standing arrived.2.1 arrived.2.2
      · cases stepped
    · cases stepped
  | recvThrows thread =>
    dsimp only at stepped
    split at stepped
    · obtain rfl := Option.some.inj stepped
      exact orderly.abandon
    · cases stepped
  | wire event =>
    obtain ⟨wire, moved, rfl⟩ := Option.map_eq_some_iff.mp stepped
    exact orderly.wire (Wire.step_kept moved)

omit [DecidableEq Thread] [DecidableEq Worker] in
/-- A new instance is orderly. -/
theorem initial_orderly : (initial : Exchange Thread Worker).Orderly := by
  have traceless (call : Nat) : (Wire.empty : Wire Worker).traces call = 0 := by
    have none_pending : (Wire.empty : Wire Worker).pending (fun request => request.call = call) =
        0 := Wire.empty_pending _
    exact none_pending
  constructor
  case slots => exact fun _ _ _ held => (by cases held)
  case numbers => exact fun _ _ _ unsent => (by cases unsent)
  case threads => exact fun _ => trivial
  case settled => exact fun _ _ => rfl
  case counted =>
    intro slot
    have none_pending : (Wire.empty : Wire Worker).pending (fun request => request.slot = slot) =
        0 := Wire.empty_pending _
    exact none_pending
  case logged => exact ⟨fun _ member => absurd member (Multiset.notMem_zero _),
    fun _ member => absurd member (Multiset.notMem_zero _)⟩
  case once => exact fun call => (traceless call).trans_le (Nat.zero_le 1)
  case fresh => exact fun call _ => traceless call

omit [DecidableEq Thread] [DecidableEq Worker] in
/-- A call has at most one reply. -/
theorem Orderly.unique (orderly : exchange.Orderly) {first second : FileReply}
    (left : first ∈ exchange.wire.served) (right : second ∈ exchange.wire.served)
    (same : first.request.call = second.request.call) : first = second := by
  have once := orderly.once second.request.call
  by_contra different
  have rest : first ∈ exchange.wire.served.erase second :=
    (Multiset.mem_erase_of_ne different).mpr left
  have counted := countP_erase_add
    (fun reply : FileReply => reply.request.call = second.request.call) right
  have others : 0 < (exchange.wire.served.erase second).countP
      fun reply => reply.request.call = second.request.call :=
    Multiset.countP_pos.mpr ⟨first, rest, same⟩
  unfold Wire.traces at once
  simp only [if_true] at counted
  omega

/-- In every interleaving of any number of threads and workers, also after exceptions in `send` and
`recv`, each call that has returned holds the one reply that a worker sent to the request of this
call, which is the message for its file name; and no socket has two requests outstanding. -/
theorem replies_never_cross {exchange : Exchange Thread Worker}
    {events : List (ExchangeEvent Thread Worker)}
    (ran : machine.run initial events = some exchange) :
    (∀ thread call fileName data, exchange.threads thread = .returned call fileName data →
      ∃ reply ∈ exchange.wire.served,
        (∀ other ∈ exchange.wire.served, other.request.call = call ↔ other = reply) ∧
          reply.request.payload = requestOf fileName ∧ reply.data = data) ∧
      ∀ slot, exchange.wire.outstanding slot ≤ 1 := by
  have orderly : exchange.Orderly := Machine.run_invariant Orderly
    (fun _ _ _ before stepped => step_orderly before stepped) initial_orderly ran
  constructor
  · intro thread call fileName data standing
    have own : exchange.Ok (.returned call fileName data) := standing ▸ orderly.threads thread
    obtain ⟨slot, member⟩ := own
    refine ⟨_, member, ?_, rfl, rfl⟩
    intro other sent
    constructor
    · exact fun same => orderly.unique sent member same
    · rintro rfl
      rfl
  · intro slot
    rw [orderly.counted slot]
    split <;> omega

/-- A thread whose `recv` throws leaves its slot set and its request on the way. Another thread goes
on to the next slot, and its call returns the reply to its own request. -/
theorem replies_never_cross_after_throw :
    ∃ exchange : Exchange Bool Unit, machine.run initial
      [.call false [97], .step false, .send false, .recvThrows false,
        .call true [98], .step true, .step true, .send true,
        .wire (.take () ⟨0, [97, 0], 0⟩), .wire (.handle () [1]), .wire (.reply ()),
        .wire (.take () ⟨1, [98, 0], 1⟩), .wire (.handle () [2]), .wire (.reply ()),
        .wire (.deliver ⟨⟨0, [97, 0], 0⟩, [1]⟩), .wire (.deliver ⟨⟨1, [98, 0], 1⟩, [2]⟩),
        .recv true ⟨⟨1, [98, 0], 1⟩, [2]⟩, .step true, .step true] = some exchange ∧
      exchange.threads true = .returned 1 [98] [2] ∧
      (∃ reply ∈ exchange.wire.served,
        (∀ other ∈ exchange.wire.served, other.request.call = 1 ↔ other = reply) ∧
          reply.request.payload = requestOf [98] ∧ reply.data = [2]) ∧
      exchange.wire.outstanding 0 ≤ 1 := by
  have executed : ∃ exchange : Exchange Bool Unit, machine.run initial
      [.call false [97], .step false, .send false, .recvThrows false,
        .call true [98], .step true, .step true, .send true,
        .wire (.take () ⟨0, [97, 0], 0⟩), .wire (.handle () [1]), .wire (.reply ()),
        .wire (.take () ⟨1, [98, 0], 1⟩), .wire (.handle () [2]), .wire (.reply ()),
        .wire (.deliver ⟨⟨0, [97, 0], 0⟩, [1]⟩), .wire (.deliver ⟨⟨1, [98, 0], 1⟩, [2]⟩),
        .recv true ⟨⟨1, [98, 0], 1⟩, [2]⟩, .step true, .step true] = some exchange ∧
      exchange.threads true = .returned 1 [98] [2] := ⟨_, rfl, rfl⟩
  obtain ⟨exchange, ran, returned⟩ := executed
  have safe := replies_never_cross ran
  exact ⟨exchange, ran, returned, safe.1 true 1 [98] [2] returned, safe.2 0⟩

end Exchange

end CudaDb
