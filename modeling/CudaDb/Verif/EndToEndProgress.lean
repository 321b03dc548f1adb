import CudaDb.Lib.Reachability
import CudaDb.Verif.ClientSlots
import CudaDb.Verif.EndToEnd
import CudaDb.Verif.FleetProgress

/-!
# Every call of a client can return

A call of `get` waits for a slot, for a free worker, for the accesses of the worker to the stores,
and for its reply. None of these waits depends on another one in a circle: as long as a slot is left
that no exception has leaked, all calls that have been made can return, without a new call and
without an exception.
-/

namespace CudaDb

/-- The call that a thread is in, with its name. -/
def GetPc.calling : GetPc → Option (Nat × List UInt8)
  | .testAndSet call fileName _ | .send call fileName _ | .recv call fileName _
  | .copy call fileName _ _ | .clear call fileName _ _ => some (call, fileName)
  | _ => none

/-- Where a thread ends whose call returns with these bytes for its name. A thread in no call
stays. -/
def GetPc.finished (bytes : List UInt8 → List UInt8) (pc : GetPc) : GetPc :=
  match pc.calling with
  | some (call, fileName) => .returned call fileName (bytes fileName)
  | none => pc

/-- The worker executes a statement between its two accesses to the socket. -/
def ReplierPc.handling : ReplierPc → Bool
  | .handle _ => true
  | _ => false

/-- What travels at a socket from which something is outstanding. -/
theorem Wire.travels_of_outstanding {Worker : Type*} [Fintype Worker] {wire : Wire Worker}
    {slot : Slot} (some_out : 0 < wire.outstanding slot) :
    ∃ request, wire.Travels request ∧ request.slot = slot := by
  unfold Wire.outstanding Wire.pending at some_out
  simp only [decide_eq_true_eq] at some_out
  by_cases waits : 0 < wire.requests.countP fun request => request.slot = slot
  · rcases Multiset.countP_pos.mp waits with ⟨request, member, same⟩
    exact ⟨request, Or.inl member, same⟩
  by_cases back : 0 < wire.replies.countP fun reply => reply.request.slot = slot
  · rcases Multiset.countP_pos.mp back with ⟨reply, member, same⟩
    exact ⟨reply.request, Or.inr (Or.inr (Or.inl ⟨reply, member, rfl⟩)), same⟩
  by_cases arrived : 0 < wire.arrived.countP fun reply => reply.request.slot = slot
  · rcases Multiset.countP_pos.mp arrived with ⟨reply, member, same⟩
    exact ⟨reply.request, Or.inr (Or.inr (Or.inr ⟨reply, member, rfl⟩)), same⟩
  have held : 0 < Threads.total (Wire.held fun request => request.slot = slot) wire.workers := by
    omega
  by_contra none_travels
  have nothing (worker : Worker) :
      Wire.held (fun request => request.slot = slot) (wire.workers worker) = 0 := by
    unfold Wire.held
    cases holds : (wire.workers worker).request with
    | none => rfl
    | some request =>
      have other : request.slot ≠ slot := fun same =>
        none_travels ⟨request, Or.inr (Or.inl ⟨worker, holds⟩), same⟩
      simp [other]
  have total := Threads.total_eq_zero nothing
  omega

namespace Exchange

variable {Thread Worker : Type*} {exchange next : Exchange Thread Worker}

/-- A slot that is leaked after a step that is no exception was leaked before. -/
theorem SlotStep.unleaked (stepped : exchange.SlotStep next) {lost : Slot}
    (leaked : next.Leaked lost) : exchange.Leaked lost := by
  have set := leaked.1
  cases stepped with
  | same flags held =>
    rw [flags] at set
    refine ⟨set, fun thread holds => leaked.2 thread ?_⟩
    rw [held]
    exact holds
  | acquired thread slot free flags held =>
    have apart : lost ≠ slot := by
      rintro rfl
      exact leaked.2 thread ((held thread lost).mpr (Or.inr ⟨rfl, rfl⟩))
    rw [flags, Function.update_of_ne apart] at set
    exact ⟨set, fun other holds => leaked.2 other ((held other lost).mpr (Or.inl holds))⟩
  | released thread slot holds flags held =>
    have apart : lost ≠ slot := by
      rintro rfl
      rw [flags, Function.update_self] at set
      cases set
    rw [flags, Function.update_of_ne apart] at set
    refine ⟨set, fun other still => ?_⟩
    by_cases same : other = thread
    · rw [same, holds] at still
      exact apart (Option.some.inj still).symm
    · exact leaked.2 other ((held other lost).mpr ⟨still, same⟩)

variable [DecidableEq Thread] [DecidableEq Worker]

/-- A step that proceeds leaks no slot. -/
theorem step_unleaked {event : ExchangeEvent Thread Worker} (proceeds : event.proceeds)
    (stepped : machine.step exchange event = some next) {slot : Slot}
    (leaked : next.Leaked slot) : exchange.Leaked slot := by
  have calm : exchange.NoThrow event := by
    cases event with
    | call | sendThrows | recvThrows => exact proceeds.elim
    | _ => trivial
  rcases step_slots stepped with ⟨-, slots⟩ | ⟨throws, -⟩
  · exact slots.unleaked leaked
  · exact absurd calm throws

end Exchange

namespace Deployment

variable {Thread Worker Db : Type*} {hash : String → UInt64} {leveldb : LevelDb Db}
  {config : MogConfig} {files : String → Option (List UInt8)} {names : Set (List UInt8)}
  {deployment next : Deployment Thread Worker Db}

/-- A step that proceeds asks for nothing. -/
theorem Event.proceeds.asks {event : Event Thread Worker} (proceeds : event.proceeds) :
    event.Asks names := by
  cases event with
  | client event =>
    cases event with
    | call => exact proceeds.elim
    | _ => trivial
  | _ => trivial

/-- What keeps every call going, in every run. -/
structure Going [Fintype Worker] (hash : String → UInt64) (leveldb : LevelDb Db)
    (config : MogConfig) (files : String → Option (List UInt8)) (names : Set (List UInt8))
    (deployment : Deployment Thread Worker Db) : Prop where
  /-- The slots and the messages are in order. -/
  orderly : deployment.exchange.Orderly
  /-- The parts fit together. -/
  delivers : deployment.Delivers hash leveldb files names
  /-- Nothing that the workers need from the stores is missing. -/
  lively : deployment.fleet.Lively hash leveldb config
  /-- A worker that handles no request makes no call. -/
  resting : ∀ worker, (deployment.exchange.wire.workers worker).handling = false →
    (deployment.fleet.workers worker).pc.atRest = true

variable [DecidableEq Thread] [DecidableEq Worker]

/-- Every event keeps the workers that handle no request at rest. -/
theorem step_resting {event : Event Thread Worker}
    (delivers : deployment.Delivers hash leveldb files names) (asks : event.Asks names)
    (resting : ∀ worker, (deployment.exchange.wire.workers worker).handling = false →
      (deployment.fleet.workers worker).pc.atRest = true)
    (stepped : (machine hash leveldb config files).step deployment event = some next)
    (worker : Worker) (idle : (next.exchange.wire.workers worker).handling = false) :
    (next.fleet.workers worker).pc.atRest = true := by
  unfold machine at stepped
  cases event with
  | client event =>
    rcases Option.ite_none_right_eq_some.mp stepped with ⟨outside, moved⟩
    rcases Option.map_eq_some_iff.mp moved with ⟨exchange, taken, rfl⟩
    apply resting worker
    cases (Exchange.step_named delivers.named asks outside taken).2 with
    | nothing workers => rwa [← workers]
    | reply sender request data busy waits others =>
      by_cases same : worker = sender
      · rw [same, busy]
        rfl
      · rwa [← others worker same]
  | take receiver request =>
    dsimp only at stepped
    split at stepped
    · rcases Option.bind_eq_some_iff.mp stepped with ⟨exchange, taken, moved⟩
      rcases Option.map_eq_some_iff.mp moved with ⟨fleet, called, rfl⟩
      rcases Exchange.step_take_iff.mp taken with ⟨-, -, rfl⟩
      cases Fleet.step_occurs called
      dsimp only at idle ⊢
      by_cases same : worker = receiver
      · rw [same, Function.update_self] at idle
        cases idle
      · rw [Function.update_of_ne same] at idle ⊢
        exact resting worker idle
    · cases stepped
  | store event =>
    rcases Option.ite_none_right_eq_some.mp stepped with ⟨inside, moved⟩
    rcases Option.map_eq_some_iff.mp moved with ⟨fleet, taken, rfl⟩
    have rest := resting worker idle
    cases Fleet.step_occurs taken with
    | readFile => cases inside
    | flush | fetch => exact rest
    | step actor mog caller access =>
      dsimp only
      by_cases same : worker = actor
      · have running := Mog.running_of_step access
        rw [← same, rest] at running
        cases running
      · rw [Function.update_of_ne same]
        exact rest
  | fill filler =>
    dsimp only at stepped
    split at stepped
    · next call readLen done =>
      rcases Option.bind_eq_some_iff.mp stepped with ⟨data, filled, moved⟩
      rcases Option.map_eq_some_iff.mp moved with ⟨exchange, taken, rfl⟩
      rcases Exchange.step_handle_iff.mp taken with ⟨request, busy, rfl⟩
      dsimp only at idle ⊢
      by_cases same : worker = filler
      · rw [same, done]
        rfl
      · rw [Function.update_of_ne same] at idle
        exact resting worker idle
    · cases stepped

/-- Every event leaves the store and its workers, or is a step of them. -/
theorem step_fleet {event : Event Thread Worker}
    (stepped : (machine hash leveldb config files).step deployment event = some next) :
    next.fleet = deployment.fleet ∨ ∃ moved,
      (Fleet.machine hash leveldb config files).step deployment.fleet moved = some next.fleet := by
  unfold machine at stepped
  cases event with
  | client event =>
    rcases Option.ite_none_right_eq_some.mp stepped with ⟨-, moved⟩
    rcases Option.map_eq_some_iff.mp moved with ⟨exchange, -, rfl⟩
    exact Or.inl rfl
  | take worker request =>
    dsimp only at stepped
    split at stepped
    · rcases Option.bind_eq_some_iff.mp stepped with ⟨exchange, -, moved⟩
      rcases Option.map_eq_some_iff.mp moved with ⟨fleet, called, rfl⟩
      exact Or.inr ⟨_, called⟩
    · cases stepped
  | store event =>
    rcases Option.ite_none_right_eq_some.mp stepped with ⟨-, moved⟩
    rcases Option.map_eq_some_iff.mp moved with ⟨fleet, taken, rfl⟩
    exact Or.inr ⟨event, taken⟩
  | fill worker =>
    dsimp only at stepped
    split at stepped
    · rcases Option.bind_eq_some_iff.mp stepped with ⟨data, -, moved⟩
      rcases Option.map_eq_some_iff.mp moved with ⟨exchange, -, rfl⟩
      exact Or.inl rfl
    · cases stepped

/-! ## What can be reached -/

/-- The goal can be reached without a new call and without an exception. -/
def Reaches (hash : String → UInt64) (leveldb : LevelDb Db) (config : MogConfig)
    (files : String → Option (List UInt8)) (goal : Deployment Thread Worker Db → Prop)
    (deployment : Deployment Thread Worker Db) : Prop :=
  (machine hash leveldb config files).CanReach Event.proceeds goal deployment

variable {goal middle : Deployment Thread Worker Db → Prop}

/-- A step of the client or of the transport leads to what can be reached after it. -/
theorem Reaches.client {event : ExchangeEvent Thread Worker} {exchange : Exchange Thread Worker}
    (taken : Exchange.machine.step deployment.exchange event = some exchange)
    (proceeds : event.proceeds) (outside : event.outside = true)
    (rest : Reaches hash leveldb config files goal { deployment with exchange }) :
    deployment.Reaches hash leveldb config files goal := by
  have stepped : (machine hash leveldb config files).step deployment (.client event) =
      some { deployment with exchange } := by
    simp [machine, outside, taken]
  have allowed : Event.proceeds (.client event : Event Thread Worker) := proceeds
  exact Machine.CanReach.step allowed stepped rest

/-- A goal that is met can be reached. -/
theorem Reaches.here (met : goal deployment) :
    deployment.Reaches hash leveldb config files goal := Machine.CanReach.here met

/-- A run of the store is one of the deployment. -/
theorem Reaches.store {events : List (Fleet.Event Worker)} {fleet : Fleet Worker Db}
    (inside : ∀ event ∈ events, event.inside = true)
    (ran : (Fleet.machine hash leveldb config files).run deployment.fleet events = some fleet)
    (rest : Reaches hash leveldb config files goal { deployment with fleet }) :
    deployment.Reaches hash leveldb config files goal := by
  induction events generalizing deployment with
  | nil =>
    have same : deployment.fleet = fleet := Option.some.inj ran
    rw [← same] at rest
    exact rest
  | cons event events ih =>
    rcases Machine.run_cons.mp ran with ⟨middle, taken, later⟩
    have first : event.inside = true := inside event List.mem_cons_self
    have stepped : (machine hash leveldb config files).step deployment (.store event) =
        some { deployment with fleet := middle } := by
      simp [machine, first, taken]
    have allowed : Event.proceeds (.store event : Event Thread Worker) := trivial
    apply Machine.CanReach.step allowed stepped
    exact ih (fun other member => inside other (List.mem_cons_of_mem _ member)) later rest

/-- The call of the thread returns, and no other thread moves. -/
def Returns (before : Thread → GetPc) (thread : Thread) (call : Nat) (fileName : List UInt8)
    (final : Deployment Thread Worker Db) : Prop :=
  ∃ data, final.exchange.threads = Function.update before thread (.returned call fileName data)

omit [DecidableEq Worker] in
/-- What a thread returns with does not depend on where it stood. -/
theorem Returns.before {before : Thread → GetPc} {thread : Thread} {pc : GetPc} {call : Nat}
    {fileName : List UInt8}
    (returns : Returns (Function.update before thread pc) thread call fileName deployment) :
    Returns before thread call fileName deployment := by
  rcases returns with ⟨data, same⟩
  exact ⟨data, same.trans (Function.update_idem _ _ _)⟩

variable {thread : Thread} {call : Nat} {fileName data : List UInt8} {slot : Slot}

/-- A thread that has copied its reply returns. -/
theorem copied_returns
    (standing : deployment.exchange.threads thread = .clear call fileName slot data) :
    deployment.Reaches hash leveldb config files
      (Returns deployment.exchange.threads thread call fileName) := by
  have cleared : Exchange.machine.step deployment.exchange (.step thread) =
      some { deployment.exchange.threadAt thread (.returned call fileName data) with
        flags := Function.update deployment.exchange.flags slot false } := by
    show deployment.exchange.threadStep thread (deployment.exchange.threads thread) = _
    rw [standing]
    rfl
  have proceeds : (ExchangeEvent.step thread : ExchangeEvent Thread Worker).proceeds := trivial
  apply Reaches.client cleared proceeds rfl
  exact Reaches.here ⟨data, rfl⟩

/-- A thread that has its reply returns. -/
theorem received_returns
    (standing : deployment.exchange.threads thread = .copy call fileName slot data) :
    deployment.Reaches hash leveldb config files
      (Returns deployment.exchange.threads thread call fileName) := by
  have copied : Exchange.machine.step deployment.exchange (.step thread) =
      some (deployment.exchange.threadAt thread (.clear call fileName slot data)) := by
    show deployment.exchange.threadStep thread (deployment.exchange.threads thread) = _
    rw [standing]
    rfl
  have proceeds : (ExchangeEvent.step thread : ExchangeEvent Thread Worker).proceeds := trivial
  apply Reaches.client copied proceeds rfl
  have now : Function.update deployment.exchange.threads thread
      (.clear call fileName slot data) thread = .clear call fileName slot data :=
    Function.update_self _ _ _
  apply (copied_returns now).mono
  exact fun final returns => returns.before

/-! ## What every run keeps -/

variable [Fintype Worker]

/-- Every event keeps the calls going. -/
theorem step_going (plain : ∀ fileName ∈ names, 0 ∉ fileName ∧ fileName.head? ≠ some 33)
    (paths_apart : Set.InjOn hash (pathOf '' names))
    (keys_apart : Set.InjOn hash (keyOf hash '' (pathOf '' names)))
    (page : 1 ≤ config.pagePerBlock) {event : Event Thread Worker}
    (going : deployment.Going hash leveldb config files names) (asks : event.Asks names)
    (stepped : (machine hash leveldb config files).step deployment event = some next) :
    next.Going hash leveldb config files names where
  orderly := by
    rcases step_exchange stepped with same | ⟨moved, -, taken⟩
    · rw [same]
      exact going.orderly
    · exact Exchange.step_orderly going.orderly taken
  delivers := step_delivers plain paths_apart keys_apart going.delivers asks stepped
  lively := by
    rcases step_fleet stepped with same | ⟨moved, taken⟩
    · rw [same]
      exact going.lively
    · exact Fleet.step_lively page going.lively taken
  resting := step_resting going.delivers asks going.resting stepped

/-- Every call can still return: a slot is left. -/
structure Alive (hash : String → UInt64) (leveldb : LevelDb Db) (config : MogConfig)
    (files : String → Option (List UInt8)) (names : Set (List UInt8))
    (deployment : Deployment Thread Worker Db) : Prop where
  /-- The calls are kept going. -/
  going : deployment.Going hash leveldb config files names
  /-- Not every slot is leaked. -/
  slot : ∃ slot, ¬ deployment.exchange.Leaked slot

/-- Every step that proceeds leaves a slot. -/
theorem step_alive (plain : ∀ fileName ∈ names, 0 ∉ fileName ∧ fileName.head? ≠ some 33)
    (paths_apart : Set.InjOn hash (pathOf '' names))
    (keys_apart : Set.InjOn hash (keyOf hash '' (pathOf '' names)))
    (page : 1 ≤ config.pagePerBlock) {event : Event Thread Worker}
    (alive : deployment.Alive hash leveldb config files names) (proceeds : event.proceeds)
    (stepped : (machine hash leveldb config files).step deployment event = some next) :
    next.Alive hash leveldb config files names where
  going := step_going plain paths_apart keys_apart page alive.going proceeds.asks stepped
  slot := by
    rcases alive.slot with ⟨slot, kept⟩
    refine ⟨slot, fun leaked => kept ?_⟩
    rcases step_exchange stepped with same | ⟨moved, also, taken⟩
    · rwa [same] at leaked
    · exact Exchange.step_unleaked (also proceeds) taken leaked

/-- What progress rests on: the names are sent and decoded as they are, the hash tells the paths and
their keys apart, and a block fits into the buffer and into the SSD cache. -/
structure Assumed (hash : String → UInt64) (config : MogConfig) (names : Set (List UInt8)) :
    Prop where
  /-- The names hold no NUL and begin with no '!'. -/
  plain : ∀ fileName ∈ names, 0 ∉ fileName ∧ fileName.head? ≠ some 33
  /-- The hash tells the paths apart. -/
  paths_apart : Set.InjOn hash (pathOf '' names)
  /-- The hash tells the keys apart. -/
  keys_apart : Set.InjOn hash (keyOf hash '' (pathOf '' names))
  /-- A block has a page. -/
  page : 1 ≤ config.pagePerBlock
  /-- A page has 1 MiB. -/
  pages : config.pageSize = 1024 * 1024
  /-- A block fits. -/
  fits : WriteTraffic.BlockFits config

/-- What is reached from a goal that can be reached can be reached, a slot being left. -/
theorem Reaches.trans (assumed : Assumed hash config names)
    (alive : deployment.Alive hash leveldb config files names)
    (first : deployment.Reaches hash leveldb config files middle)
    (second : ∀ next : Deployment Thread Worker Db, next.Alive hash leveldb config files names →
      middle next → next.Reaches hash leveldb config files goal) :
    deployment.Reaches hash leveldb config files goal := by
  have kept := first.keeps (Alive hash leveldb config files names)
    (fun state event after holds proceeds stepped => step_alive assumed.plain assumed.paths_apart
      assumed.keys_apart assumed.page holds proceeds stepped) alive
  exact Machine.CanReach.trans kept fun next holds => second next holds.1 holds.2

/-! ## The way of a request -/

omit [Fintype Worker] in
/-- A thread whose reply has arrived returns. -/
theorem arrived_returns {reply : FileReply}
    (standing : deployment.exchange.threads thread = .recv call fileName slot)
    (awaits : deployment.exchange.awaiting slot = true)
    (arrived : reply ∈ deployment.exchange.wire.arrived) (addressed : reply.request.slot = slot) :
    deployment.Reaches hash leveldb config files
      (Returns deployment.exchange.threads thread call fileName) := by
  have received : Exchange.machine.step deployment.exchange (.recv thread reply) =
      some { deployment.exchange.threadAt thread (.copy call fileName slot reply.data) with
        awaiting := Function.update deployment.exchange.awaiting slot false
        wire := deployment.exchange.wire.hand reply } := by
    simp [Exchange.machine, standing, awaits, arrived, addressed]
  have proceeds : (ExchangeEvent.recv thread reply : ExchangeEvent Thread Worker).proceeds :=
    trivial
  apply Reaches.client received proceeds rfl
  have now : Function.update deployment.exchange.threads thread
      (.copy call fileName slot reply.data) thread = .copy call fileName slot reply.data :=
    Function.update_self _ _ _
  apply (received_returns now).mono
  exact fun final returns => returns.before

/-- A thread whose reply has been sent returns. -/
theorem replied_returns {reply : FileReply}
    (alive : deployment.Alive hash leveldb config files names)
    (standing : deployment.exchange.threads thread = .recv call fileName slot)
    (sent : reply ∈ deployment.exchange.wire.replies) (addressed : reply.request.slot = slot) :
    deployment.Reaches hash leveldb config files
      (Returns deployment.exchange.threads thread call fileName) := by
  have own : deployment.exchange.Ok (.recv call fileName slot) :=
    standing ▸ alive.going.orderly.threads thread
  have delivered : Exchange.machine.step deployment.exchange (.wire (.deliver reply)) =
      some { deployment.exchange with wire := { deployment.exchange.wire with
        replies := deployment.exchange.wire.replies.erase reply
        arrived := reply ::ₘ deployment.exchange.wire.arrived } } := by
    simp [Exchange.machine, Wire.step, sent]
  have proceeds : (ExchangeEvent.wire (.deliver reply) : ExchangeEvent Thread Worker).proceeds :=
    trivial
  apply Reaches.client delivered proceeds rfl
  exact arrived_returns standing own.2.1 (Multiset.mem_cons_self _ _) addressed

omit [Fintype Worker] [DecidableEq Thread] in
/-- A worker sends the reply that it has filled. -/
theorem step_reply [DecidableEq Thread] {worker : Worker} {request : FileRequest}
    {data : List UInt8}
    (busy : deployment.exchange.wire.workers worker = .send request data) :
    Exchange.machine.step deployment.exchange (.wire (.reply worker)) =
      some { deployment.exchange with wire := { deployment.exchange.wire with
        workers := Function.update deployment.exchange.wire.workers worker .recv
        replies := { request, data } ::ₘ deployment.exchange.wire.replies
        served := { request, data } ::ₘ deployment.exchange.wire.served } } := by
  simp [Exchange.machine, Wire.step, busy]

/-- A thread whose reply is with a worker returns. -/
theorem filled_returns (assumed : Assumed hash config names) {worker : Worker}
    {request : FileRequest} {data : List UInt8}
    (alive : deployment.Alive hash leveldb config files names)
    (standing : deployment.exchange.threads thread = .recv call fileName slot)
    (busy : deployment.exchange.wire.workers worker = .send request data)
    (addressed : request.slot = slot) :
    deployment.Reaches hash leveldb config files
      (Returns deployment.exchange.threads thread call fileName) := by
  have proceeds : (ExchangeEvent.wire (.reply worker) : ExchangeEvent Thread Worker).proceeds :=
    trivial
  have sent : deployment.Reaches hash leveldb config files fun next =>
      next.exchange.threads = deployment.exchange.threads ∧
        { request, data } ∈ next.exchange.wire.replies := by
    apply Reaches.client (step_reply busy) proceeds rfl
    exact Reaches.here ⟨rfl, Multiset.mem_cons_self _ _⟩
  apply sent.trans assumed alive
  intro next later same
  rw [← same.1] at standing ⊢
  exact replied_returns later standing same.2 addressed

/-- A worker that handles a request comes to send its reply, and nothing else happens outside the
store. -/
theorem handling_fills (assumed : Assumed hash config names) {worker : Worker}
    {request : FileRequest} (alive : deployment.Alive hash leveldb config files names)
    (busy : deployment.exchange.wire.workers worker = .handle request) :
    deployment.Reaches hash leveldb config files fun next => ∃ data,
      next.exchange = { deployment.exchange with wire := { deployment.exchange.wire with
        workers := Function.update deployment.exchange.wire.workers worker
          (.send request data) } } := by
  have returned : ∃ events fleet,
      (Fleet.machine hash leveldb config files).run deployment.fleet events = some fleet ∧
      (fleet.workers worker).pc.atRest = true ∧
      ∀ event ∈ events, event.accesses worker ∨ event.flushes := by
    rcases Fleet.returns assumed.page assumed.pages assumed.fits worker alive.going.lively with
      ⟨events, fleet, ran, rest, -, own, -⟩
    exact ⟨events, fleet, ran, rest, own⟩
  rcases returned with ⟨events, fleet, ran, rest, own⟩
  have inside : ∀ event ∈ events, event.inside = true := by
    intro event member
    cases event with
    | readFile => rcases own _ member with access | flush <;> contradiction
    | _ => rfl
  have stored : deployment.Reaches hash leveldb config files fun next =>
      next.exchange = deployment.exchange ∧ (next.fleet.workers worker).pc.atRest = true :=
    Reaches.store inside ran (Reaches.here ⟨rfl, rest⟩)
  apply stored.trans assumed alive
  intro next later same
  rw [← same.1] at busy ⊢
  have serves := later.going.delivers.workers worker
  rw [busy] at serves
  rcases serves with ⟨fileName, -, -, goes_on⟩
  have done : ∃ call readLen, (next.fleet.workers worker).pc = .done call readLen := by
    rcases goes_on with asked | ⟨result, ended⟩
    · have running := MogPc.running_of_asking asked
      rw [same.2] at running
      cases running
    · exact ⟨_, result, ended⟩
  rcases done with ⟨call, readLen, ended⟩
  rcases filled_right assumed.plain later.going.delivers busy ended with ⟨data, filled, -, -⟩
  have handled : Exchange.machine.step next.exchange (.wire (.handle worker data)) =
      some { next.exchange with wire := { next.exchange.wire with
        workers := Function.update next.exchange.wire.workers worker
          (.send request (replyTo request.payload data)) } } :=
    Exchange.step_handle_iff.mpr ⟨request, busy, rfl⟩
  have stepped : (machine hash leveldb config files).step next (.fill worker) =
      some { next with exchange := { next.exchange with wire := { next.exchange.wire with
        workers := Function.update next.exchange.wire.workers worker
          (.send request (replyTo request.payload data)) } } } := by
    simp only [machine, ended, filled, Option.bind_some]
    rw [handled, Option.map_some]
  have allowed : Event.proceeds (.fill worker : Event Thread Worker) := trivial
  exact Machine.CanReach.step allowed stepped (Machine.CanReach.here ⟨_, rfl⟩)

/-- A thread whose request is handled returns. -/
theorem handled_returns (assumed : Assumed hash config names) {worker : Worker}
    {request : FileRequest} (alive : deployment.Alive hash leveldb config files names)
    (standing : deployment.exchange.threads thread = .recv call fileName slot)
    (busy : deployment.exchange.wire.workers worker = .handle request)
    (addressed : request.slot = slot) :
    deployment.Reaches hash leveldb config files
      (Returns deployment.exchange.threads thread call fileName) := by
  apply (handling_fills assumed alive busy).trans assumed alive
  intro next later filled
  rcases filled with ⟨data, same⟩
  have threads : next.exchange.threads = deployment.exchange.threads := by rw [same]
  have sends : next.exchange.wire.workers worker = .send request data := by
    rw [same]
    exact Function.update_self _ _ _
  rw [← threads] at standing ⊢
  exact filled_returns assumed later standing sends addressed

/-- A thread whose request waits for a worker that is free returns. -/
theorem free_returns (assumed : Assumed hash config names) {worker : Worker}
    {request : FileRequest} (alive : deployment.Alive hash leveldb config files names)
    (standing : deployment.exchange.threads thread = .recv call fileName slot)
    (free : deployment.exchange.wire.workers worker = .recv)
    (waits : request ∈ deployment.exchange.wire.requests) (addressed : request.slot = slot) :
    deployment.Reaches hash leveldb config files
      (Returns deployment.exchange.threads thread call fileName) := by
  rcases alive.going.delivers.named.requests request waits with ⟨name, inside, payload⟩
  have decoded : Decoded.decode request.payload = some (.read name) := by
    rw [payload]
    exact Decoded.decode_requestOf_iff.mpr (assumed.plain name inside)
  have rest : (deployment.fleet.workers worker).pc.atRest = true := by
    apply alive.going.resting worker
    rw [free]
    rfl
  have taken : Exchange.machine.step deployment.exchange (.wire (.take worker request)) =
      some { deployment.exchange with wire := { deployment.exchange.wire with
        requests := deployment.exchange.wire.requests.erase request
        workers := Function.update deployment.exchange.wire.workers worker (.handle request) } } :=
    Exchange.step_take_iff.mpr ⟨free, waits, rfl⟩
  have called : ∃ fleet, (Fleet.machine hash leveldb config files).step deployment.fleet
      (.readFile worker (pathOf name)) = some fleet := by
    simp [Fleet.machine, rest]
  rcases called with ⟨fleet, called⟩
  have stepped : (machine hash leveldb config files).step deployment (.take worker request) =
      some { exchange := { deployment.exchange with wire := { deployment.exchange.wire with
        requests := deployment.exchange.wire.requests.erase request
        workers := Function.update deployment.exchange.wire.workers worker (.handle request) } }
             fleet } := by
    simp only [machine, decoded]
    rw [taken, Option.bind_some, called, Option.map_some]
  have allowed : Event.proceeds (.take worker request : Event Thread Worker) := trivial
  have received : deployment.Reaches hash leveldb config files fun next =>
      next.exchange.threads = deployment.exchange.threads ∧
        next.exchange.wire.workers worker = .handle request := by
    apply Machine.CanReach.step allowed stepped
    exact Machine.CanReach.here ⟨rfl, Function.update_self _ _ _⟩
  apply received.trans assumed alive
  intro next later same
  rw [← same.1] at standing ⊢
  exact handled_returns assumed later standing same.2 addressed

/-- A thread whose request waits for the workers returns: any of them comes to be free. -/
theorem waiting_returns (assumed : Assumed hash config names) (worker : Worker)
    {request : FileRequest} (alive : deployment.Alive hash leveldb config files names)
    (standing : deployment.exchange.threads thread = .recv call fileName slot)
    (waits : request ∈ deployment.exchange.wire.requests) (addressed : request.slot = slot) :
    deployment.Reaches hash leveldb config files
      (Returns deployment.exchange.threads thread call fileName) := by
  have sends (before : Deployment Thread Worker Db) (other : FileRequest) (data : List UInt8)
      (busy : before.exchange.wire.workers worker = .send other data) :
      before.Reaches hash leveldb config files fun next =>
        next.exchange.threads = before.exchange.threads ∧
          next.exchange.wire.requests = before.exchange.wire.requests ∧
            next.exchange.wire.workers worker = .recv := by
    have proceeds : (ExchangeEvent.wire (.reply worker) : ExchangeEvent Thread Worker).proceeds :=
      trivial
    apply Reaches.client (step_reply busy) proceeds rfl
    exact Reaches.here ⟨rfl, rfl, Function.update_self _ _ _⟩
  have comes_free : deployment.Reaches hash leveldb config files fun next =>
      next.exchange.threads = deployment.exchange.threads ∧
        next.exchange.wire.requests = deployment.exchange.wire.requests ∧
          next.exchange.wire.workers worker = .recv := by
    cases held : deployment.exchange.wire.workers worker with
    | recv => exact Reaches.here ⟨rfl, rfl, held⟩
    | send other data => exact sends deployment other data held
    | handle other =>
      apply (handling_fills assumed alive held).trans assumed alive
      rintro next - ⟨data, same⟩
      have busy : next.exchange.wire.workers worker = .send other data := by
        rw [same]
        exact Function.update_self _ _ _
      have threads : next.exchange.threads = deployment.exchange.threads := by rw [same]
      have requests : next.exchange.wire.requests = deployment.exchange.wire.requests := by
        rw [same]
      rw [← threads, ← requests]
      exact sends next other data busy
  apply comes_free.trans assumed alive
  intro next later same
  rw [← same.2.1] at waits
  rw [← same.1] at standing ⊢
  exact free_returns assumed later standing same.2.2 waits addressed

/-- A thread that waits for its reply returns, wherever its request is. -/
theorem receiver_returns (assumed : Assumed hash config names) (worker : Worker)
    (alive : deployment.Alive hash leveldb config files names)
    (standing : deployment.exchange.threads thread = .recv call fileName slot) :
    deployment.Reaches hash leveldb config files
      (Returns deployment.exchange.threads thread call fileName) := by
  have own : deployment.exchange.Ok (.recv call fileName slot) :=
    standing ▸ alive.going.orderly.threads thread
  have counted := alive.going.orderly.counted slot
  rw [own.2.1, if_pos rfl] at counted
  have some_out : 0 < deployment.exchange.wire.outstanding slot := by omega
  rcases Wire.travels_of_outstanding some_out with ⟨request, travels, addressed⟩
  rcases travels with waits | ⟨holder, held⟩ | ⟨reply, sent, same⟩ | ⟨reply, arrived, same⟩
  · exact waiting_returns assumed worker alive standing waits addressed
  · cases busy : deployment.exchange.wire.workers holder with
    | recv =>
      rw [busy] at held
      cases held
    | handle other =>
      rw [busy] at held
      have same : other = request := Option.some.inj held
      rw [same] at busy
      exact handled_returns assumed alive standing busy addressed
    | send other data =>
      rw [busy] at held
      have same : other = request := Option.some.inj held
      rw [same] at busy
      exact filled_returns assumed alive standing busy addressed
  · rw [← same] at addressed
    exact replied_returns alive standing sent addressed
  · rw [← same] at addressed
    exact arrived_returns standing own.2.1 arrived addressed

/-- A thread that holds a slot returns. -/
theorem holder_returns (assumed : Assumed hash config names) (worker : Worker)
    (alive : deployment.Alive hash leveldb config files names)
    (holds : (deployment.exchange.threads thread).held = some slot)
    (inside : (deployment.exchange.threads thread).calling = some (call, fileName)) :
    deployment.Reaches hash leveldb config files
      (Returns deployment.exchange.threads thread call fileName) := by
  have own := alive.going.orderly.threads thread
  cases standing : deployment.exchange.threads thread with
  | idle | testAndSet | returned =>
    rw [standing] at holds
    cases holds
  | send number name place =>
    rw [standing] at inside own
    cases inside
    have sent : Exchange.machine.step deployment.exchange (.send thread) =
        some ((deployment.exchange.submit call fileName place).threadAt thread
          (.recv call fileName place)) := by
      simp [Exchange.machine, standing, own.2.2]
    have proceeds : (ExchangeEvent.send thread : ExchangeEvent Thread Worker).proceeds := trivial
    have waits : deployment.Reaches hash leveldb config files fun next =>
        next.exchange.threads =
          Function.update deployment.exchange.threads thread (.recv call fileName place) := by
      apply Reaches.client sent proceeds rfl
      exact Reaches.here rfl
    apply waits.trans assumed alive
    intro next later moved
    have now : next.exchange.threads thread = .recv call fileName place := by
      rw [moved, Function.update_self]
    apply (receiver_returns assumed worker later now).mono
    intro final returns
    rw [moved] at returns
    exact returns.before
  | recv number name place =>
    rw [standing] at inside
    cases inside
    exact receiver_returns assumed worker alive standing
  | copy number name place data =>
    rw [standing] at inside
    cases inside
    exact received_returns standing
  | clear number name place data =>
    rw [standing] at inside
    cases inside
    exact copied_returns standing

/-! ## All calls -/

omit [Fintype Worker] in
/-- A thread that has called gets a slot when one is clear: the loop over the slots comes to it. -/
theorem caller_acquires {first : Slot}
    (standing : deployment.exchange.threads thread = .testAndSet call fileName first)
    (clear : deployment.exchange.flags slot = false) :
    deployment.Reaches hash leveldb config files fun next => ∃ own,
      next.exchange.threads =
        Function.update deployment.exchange.threads thread (.send call fileName own) := by
  have proceeds : (ExchangeEvent.step thread : ExchangeEvent Thread Worker).proceeds := trivial
  -- The distance to the clear slot falls with every slot whose flag is set.
  induction distance : (slot - first).val using Nat.strong_induction_on
    generalizing deployment first with
  | _ bound ih =>
    by_cases taken : deployment.exchange.flags first = true
    · have stepped : Exchange.machine.step deployment.exchange (.step thread) =
          some (deployment.exchange.threadAt thread (.testAndSet call fileName (first + 1))) := by
        show deployment.exchange.threadStep thread (deployment.exchange.threads thread) = _
        rw [standing]
        simp [Exchange.threadStep, taken]
      have apart : first ≠ slot := by
        rintro rfl
        rw [clear] at taken
        cases taken
      have closer : ∀ first slot : Slot, first ≠ slot →
          (slot - (first + 1)).val < (slot - first).val := by decide
      have fewer : (slot - (first + 1)).val < bound := by
        rw [← distance]
        exact closer first slot apart
      have now : Function.update deployment.exchange.threads thread
          (.testAndSet call fileName (first + 1)) thread =
            .testAndSet call fileName (first + 1) := Function.update_self _ _ _
      have onward : Reaches hash leveldb config files (fun next => ∃ own, next.exchange.threads =
          Function.update (Function.update deployment.exchange.threads thread
            (.testAndSet call fileName (first + 1))) thread (.send call fileName own))
          { deployment with
            exchange := deployment.exchange.threadAt thread
              (.testAndSet call fileName (first + 1)) } := ih _ fewer now clear rfl
      apply Reaches.client stepped proceeds rfl
      apply onward.mono
      rintro next ⟨own, same⟩
      exact ⟨own, same.trans (Function.update_idem _ _ _)⟩
    · have stepped : Exchange.machine.step deployment.exchange (.step thread) =
          some { deployment.exchange.threadAt thread (.send call fileName first) with
            flags := Function.update deployment.exchange.flags first true } := by
        show deployment.exchange.threadStep thread (deployment.exchange.threads thread) = _
        rw [standing]
        simp [Exchange.threadStep, taken]
      apply Reaches.client stepped proceeds rfl
      exact Reaches.here ⟨first, rfl⟩

/-- Some call returns, if there is any: one that holds a slot, or else one that gets a slot. -/
theorem some_call_returns (assumed : Assumed hash config names) (worker : Worker)
    (alive : deployment.Alive hash leveldb config files names)
    (calls : ∃ thread, (deployment.exchange.threads thread).calling ≠ none) :
    ∃ thread call fileName,
      (deployment.exchange.threads thread).calling = some (call, fileName) ∧
      deployment.Reaches hash leveldb config files
        (Returns deployment.exchange.threads thread call fileName) := by
  by_cases held : ∃ thread slot, (deployment.exchange.threads thread).held = some slot
  · rcases held with ⟨thread, slot, holds⟩
    have inside : ∃ call fileName,
        (deployment.exchange.threads thread).calling = some (call, fileName) := by
      cases standing : deployment.exchange.threads thread with
      | idle | testAndSet | returned =>
        rw [standing] at holds
        cases holds
      | _ => exact ⟨_, _, rfl⟩
    rcases inside with ⟨call, fileName, inside⟩
    exact ⟨thread, call, fileName, inside, holder_returns assumed worker alive holds inside⟩
  have none_holds (thread : Thread) : (deployment.exchange.threads thread).held = none := by
    cases holds : (deployment.exchange.threads thread).held with
    | none => rfl
    | some slot => exact absurd ⟨thread, slot, holds⟩ held
  rcases alive.slot with ⟨slot, kept⟩
  have clear : deployment.exchange.flags slot = false := by
    cases flag : deployment.exchange.flags slot with
    | false => rfl
    | true =>
      apply absurd _ kept
      refine ⟨flag, fun thread holds => ?_⟩
      rw [none_holds thread] at holds
      cases holds
  rcases calls with ⟨thread, inside⟩
  have free := none_holds thread
  cases standing : deployment.exchange.threads thread with
  | idle | returned =>
    rw [standing] at inside
    exact absurd rfl inside
  | send | recv | copy | clear =>
    rw [standing] at free
    cases free
  | testAndSet call fileName first =>
    refine ⟨thread, call, fileName, by rw [standing]; rfl, ?_⟩
    apply (caller_acquires standing clear).trans assumed alive
    rintro next later ⟨own, moved⟩
    have now : next.exchange.threads thread = .send call fileName own := by
      rw [moved, Function.update_self]
    have holds : (next.exchange.threads thread).held = some own := by rw [now]; rfl
    have still : (next.exchange.threads thread).calling = some (call, fileName) := by
      rw [now]
      rfl
    apply (holder_returns assumed worker later holds still).mono
    intro final returns
    rw [moved] at returns
    exact returns.before

omit [DecidableEq Thread] [DecidableEq Worker] in
/-- At first the calls are kept going. -/
theorem start_going (leveldb : LevelDb Db) (config : MogConfig) (totalSize : Int)
    (value : Worker → ByteMemory) :
    (start leveldb config totalSize value : Deployment Thread Worker Db).Going hash leveldb config
      files names where
  orderly := Exchange.initial_orderly
  delivers := start_delivers leveldb config totalSize value
  lively := Fleet.reopened_lively leveldb config totalSize value
  resting := fun _ _ => rfl

/-- A thread stands where it stood, or its call has returned since. -/
def Since (before after : GetPc) : Prop :=
  after = before ∨ ∃ call fileName data, before.calling = some (call, fileName) ∧
    after = .returned call fileName data

/-- All calls return, as long as a slot is left: the number of the threads that are in a call can
always be lowered. -/
theorem all_calls_return [Fintype Thread] (assumed : Assumed hash config names) (worker : Worker)
    (alive : deployment.Alive hash leveldb config files names) :
    deployment.Reaches hash leveldb config files fun final =>
      (final.Alive hash leveldb config files names ∧
        ∀ thread, Since (deployment.exchange.threads thread) (final.exchange.threads thread)) ∧
      ∀ thread, (final.exchange.threads thread).calling = none := by
  have start : deployment.Alive hash leveldb config files names ∧
      ∀ thread, Since (deployment.exchange.threads thread) (deployment.exchange.threads thread) :=
    ⟨alive, fun _ => Or.inl rfl⟩
  apply Machine.CanReach.of_rank (fun state : Deployment Thread Worker Db =>
      state.Alive hash leveldb config files names ∧
        ∀ thread, Since (deployment.exchange.threads thread) (state.exchange.threads thread))
    (fun state => (Finset.univ.filter fun thread =>
      (state.exchange.threads thread).calling ≠ none).card) _ start
  rintro state ⟨here, since⟩ unmet
  have calls : ∃ thread, (state.exchange.threads thread).calling ≠ none := not_forall.mp unmet
  rcases some_call_returns assumed worker here calls with ⟨thread, call, fileName, inside, returns⟩
  apply Reaches.trans assumed here returns
  rintro next later ⟨data, moved⟩
  apply Reaches.here
  refine ⟨⟨later, fun other => ?_⟩, ?_⟩
  · rw [moved]
    by_cases same : other = thread
    · rw [same, Function.update_self]
      rcases since thread with stays | ⟨number, name, bytes, -, ended⟩
      · rw [stays] at inside
        exact Or.inr ⟨call, fileName, data, inside, rfl⟩
      · rw [ended] at inside
        cases inside
    · rw [Function.update_of_ne same]
      exact since other
  · apply Finset.card_lt_card
    rw [Finset.ssubset_iff_of_subset]
    · refine ⟨thread, ?_, ?_⟩
      · simp [inside]
      · simp [moved, GetPc.calling]
    · intro other member
      by_cases same : other = thread
      · simp [same, moved, GetPc.calling] at member
      · simpa [moved, Function.update_of_ne same] using member

/-- However the threads of a client, the transport, the workers of the server, and the flush and
fetch tasks have interleaved since a reset, also after exceptions in `send` and `recv`: as long as
not every slot is leaked, steps that are neither a new call nor an exception lead to a state in
which every call of `get` that was under way has returned with the bytes of its file. -/
theorem calls_return [Fintype Thread] [Nonempty Worker]
    (plain : ∀ fileName ∈ names, 0 ∉ fileName ∧ fileName.head? ≠ some 33)
    (paths_apart : Set.InjOn hash (pathOf '' names))
    (keys_apart : Set.InjOn hash (keyOf hash '' (pathOf '' names)))
    (page : 1 ≤ config.pagePerBlock) (pages : config.pageSize = 1024 * 1024)
    (fits : WriteTraffic.BlockFits config) {totalSize : Int} {value : Worker → ByteMemory}
    {events : List (Event Thread Worker)} (asks : ∀ event ∈ events, event.Asks names)
    (ran : (machine hash leveldb config files).run (start leveldb config totalSize value) events =
      some deployment) (left : ∃ slot, ¬ deployment.exchange.Leaked slot) :
    ∃ more final, (∀ event ∈ more, event.proceeds) ∧
      (machine hash leveldb config files).run deployment more = some final ∧
      ∀ thread, final.exchange.threads thread =
        (deployment.exchange.threads thread).finished fun fileName =>
          Mog.direct files (pathOf fileName) := by
  have assumed : Assumed hash config names := ⟨plain, paths_apart, keys_apart, page, pages, fits⟩
  have going : deployment.Going hash leveldb config files names :=
    Machine.run_invariant_along (Going hash leveldb config files names)
      (fun _ _ _ holds asked stepped =>
        step_going plain paths_apart keys_apart page holds asked stepped)
      (start_going leveldb config totalSize value) (Machine.along_of_mem asks _) ran
  rcases all_calls_return assumed (Classical.arbitrary Worker) ⟨going, left⟩ with
    ⟨more, final, allowed, later, ⟨alive, since⟩, quiet⟩
  refine ⟨more, final, allowed, later, fun thread => ?_⟩
  unfold GetPc.finished
  rcases since thread with stays | ⟨call, fileName, data, inside, ended⟩
  · rw [← stays, quiet thread]
  · rw [inside, ended]
    have right : data = Mog.direct files (pathOf fileName) :=
      returned_right alive.going.orderly alive.going.delivers ended
    rw [right]

/-- Two workers have received the requests of two threads; both calls come to return the file. -/
theorem calls_return_askedTogether :
    ∃ deployment, (machine Mog.powerHash LevelDb.table MogConfig.oneBlock Mog.oneFile).run
        (start LevelDb.table MogConfig.oneBlock 2 fun _ _ => 0) ((askedTogether 0 1).take 9) =
          some deployment ∧
      ∃ more final, (∀ event ∈ more, event.proceeds) ∧
        (machine Mog.powerHash LevelDb.table MogConfig.oneBlock Mog.oneFile).run deployment more =
          some final ∧
        final.exchange.threads false = .returned 0 [97] (Mog.direct Mog.oneFile "a") ∧
        final.exchange.threads true = .returned 1 [97] (Mog.direct Mog.oneFile "a") := by
  have executed : ∃ deployment,
      (machine Mog.powerHash LevelDb.table MogConfig.oneBlock Mog.oneFile).run
        (start LevelDb.table MogConfig.oneBlock 2 fun _ _ => 0) ((askedTogether 0 1).take 9) =
          some deployment ∧
      deployment.exchange.threads false = .recv 0 [97] 0 ∧
      deployment.exchange.threads true = .recv 1 [97] 1 ∧
      deployment.exchange.flags 2 = false := ⟨_, rfl, rfl, rfl, rfl⟩
  rcases executed with ⟨deployment, ran, first, second, free⟩
  have asks : ∀ event ∈ (askedTogether 0 1).take 9, event.Asks {[97], [98, 98]} :=
    fun event member => askedTogether_asks 0 1 event (List.mem_of_mem_take member)
  have left : ∃ slot, ¬ deployment.exchange.Leaked slot := by
    refine ⟨2, fun leaked => ?_⟩
    rw [leaked.1] at free
    cases free
  have page : 1 ≤ MogConfig.oneBlock.pagePerBlock := by decide
  have fits : WriteTraffic.BlockFits MogConfig.oneBlock := ⟨by decide, by decide⟩
  rcases calls_return names_plain (names_paths ▸ Mog.powerHash_injOn)
      (names_paths ▸ Mog.powerHash_keys_injOn) page rfl fits asks ran left with
    ⟨more, final, proceeds, later, ended⟩
  refine ⟨deployment, ran, more, final, proceeds, later, ?_, ?_⟩
  · rw [ended false, first]
    rfl
  · rw [ended true, second]
    rfl

end Deployment

end CudaDb
