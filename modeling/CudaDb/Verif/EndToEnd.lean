import CudaDb.Model.Deployment
import CudaDb.Verif.ClientReplies
import CudaDb.Verif.FleetService
import CudaDb.Verif.MessageBytes
import CudaDb.Verif.ServingPaths

/-!
# A client gets its file

The three parts of a deployment have their own invariants: no reply crosses another one between the
threads of the client, a message is decoded to the name that it was made from, and the workers
answer each path by its file. This module joins them: whatever runs between two resets, a call of
`get` that returns has the bytes of the file that it was called for.
-/

namespace CudaDb

/-- The name that a call of `get` has not sent yet. -/
def GetPc.sending : GetPc → Option (List UInt8)
  | .testAndSet _ fileName _ | .send _ fileName _ => some fileName
  | _ => none

namespace Exchange

variable {Thread Worker : Type*} {exchange next : Exchange Thread Worker}
  {names : Set (List UInt8)}

/-- The request is the message for one of the names. -/
def Asked (names : Set (List UInt8)) (request : FileRequest) : Prop :=
  ∃ fileName ∈ names, request.payload = requestOf fileName

/-- All that is asked for are these names. -/
structure Named (names : Set (List UInt8)) (exchange : Exchange Thread Worker) : Prop where
  /-- The calls that have sent nothing are for one of the names. -/
  threads : ∀ thread fileName, (exchange.threads thread).sending = some fileName →
    fileName ∈ names
  /-- So are the requests that no worker has received. -/
  requests : ∀ request ∈ exchange.wire.requests, Asked names request

/-- What a step of the client or of the transport does to the workers: nothing, or one of them has
sent its reply. -/
inductive Sends (exchange next : Exchange Thread Worker) : Prop
  /-- No worker moves. -/
  | nothing (workers : next.wire.workers = exchange.wire.workers)
    (served : next.wire.served = exchange.wire.served)
  /-- The worker sends its reply and waits for the next request. -/
  | reply (worker : Worker) (request : FileRequest) (data : List UInt8)
    (busy : exchange.wire.workers worker = .send request data)
    (idle : next.wire.workers worker = .recv)
    (others : ∀ other, other ≠ worker → next.wire.workers other = exchange.wire.workers other)
    (served : next.wire.served = { request, data } ::ₘ exchange.wire.served)

variable [DecidableEq Thread]

/-- A thread that moves without sending keeps what is asked for. -/
theorem Named.threadAt {thread : Thread} {pc : GetPc} (named : exchange.Named names)
    (same : ∀ fileName, pc.sending = some fileName → fileName ∈ names) :
    (exchange.threadAt thread pc).Named names where
  threads := by
    apply Threads.forall_update (fun pc : GetPc =>
      ∀ fileName, pc.sending = some fileName → fileName ∈ names) same
    exact named.threads
  requests := named.requests

omit [DecidableEq Thread] in
/-- A request that is sent is for one of the names. -/
theorem Named.submit {call : Nat} {fileName : List UInt8} {slot : Slot}
    (named : exchange.Named names) (inside : fileName ∈ names) :
    (exchange.submit call fileName slot).Named names where
  threads := named.threads
  requests := by
    intro request member
    rcases Multiset.mem_cons.mp member with rfl | before
    · exact ⟨fileName, inside, rfl⟩
    · exact named.requests request before

/-- A statement of a thread that does not use the socket asks for nothing new. -/
theorem Named.threadStep {thread : Thread} {pc : GetPc} (named : exchange.Named names)
    (standing : exchange.threads thread = pc)
    (stepped : exchange.threadStep thread pc = some next) :
    next.Named names ∧ exchange.Sends next := by
  have own : ∀ fileName, pc.sending = some fileName → fileName ∈ names := by
    rw [← standing]
    exact named.threads thread
  unfold Exchange.threadStep at stepped
  cases pc with
  | testAndSet call fileName slot =>
    have inside : fileName ∈ names := own fileName rfl
    have still : ∀ other, some fileName = some other → other ∈ names := by
      intro other same
      rw [← Option.some.inj same]
      exact inside
    by_cases taken : exchange.flags slot = true
    · simp only [taken, if_true, Option.some.injEq] at stepped
      subst stepped
      exact ⟨named.threadAt still, .nothing rfl rfl⟩
    · simp only [taken] at stepped
      have moved : (exchange.threadAt thread (.send call fileName slot)).Named names :=
        named.threadAt still
      cases stepped
      exact ⟨⟨moved.threads, moved.requests⟩, .nothing rfl rfl⟩
  | copy call fileName slot data =>
    cases stepped
    exact ⟨named.threadAt fun _ sends => (by cases sends), .nothing rfl rfl⟩
  | clear call fileName slot data =>
    have moved : (exchange.threadAt thread (.returned call fileName data)).Named names :=
      named.threadAt fun _ sends => (by cases sends)
    cases stepped
    exact ⟨⟨moved.threads, moved.requests⟩, .nothing rfl rfl⟩
  | _ => cases stepped

end Exchange

/-- The calls of `get` are for these names. -/
def ExchangeEvent.Asks {Thread Worker : Type*} (names : Set (List UInt8)) :
    ExchangeEvent Thread Worker → Prop
  | .call _ fileName => fileName ∈ names
  | _ => True

/-- The step is neither a new call nor an exception. -/
def ExchangeEvent.proceeds {Thread Worker : Type*} : ExchangeEvent Thread Worker → Prop
  | .call _ _ | .sendThrows _ _ | .recvThrows _ => False
  | _ => True

namespace Exchange

variable {Thread Worker : Type*} [DecidableEq Thread] [DecidableEq Worker]
  {exchange next : Exchange Thread Worker} {names : Set (List UInt8)}

/-- A step of the client or of the transport asks for nothing but these names, and moves no worker
but one that sends its reply. -/
theorem step_named {event : ExchangeEvent Thread Worker} (named : exchange.Named names)
    (asks : event.Asks names) (outside : event.outside = true)
    (stepped : machine.step exchange event = some next) :
    next.Named names ∧ exchange.Sends next := by
  unfold machine at stepped
  cases event with
  | call thread fileName =>
    have first : ∀ other, some fileName = some other → other ∈ names := by
      intro other same
      rw [← Option.some.inj same]
      exact asks
    have moved : (exchange.threadAt thread (.testAndSet exchange.calls fileName 0)).Named names :=
      named.threadAt first
    dsimp only at stepped
    unfold callGet at stepped
    split at stepped
    · cases stepped
      exact ⟨⟨moved.threads, moved.requests⟩, .nothing rfl rfl⟩
    · cases stepped
      exact ⟨⟨moved.threads, moved.requests⟩, .nothing rfl rfl⟩
    · cases stepped
  | step thread => exact named.threadStep rfl stepped
  | send thread =>
    dsimp only at stepped
    split at stepped
    · next call fileName slot standing =>
      have inside : fileName ∈ names := named.threads thread fileName (by rw [standing]; rfl)
      split at stepped
      · cases stepped
      · cases stepped
        exact ⟨(named.submit inside).threadAt fun _ sends => (by cases sends), .nothing rfl rfl⟩
    · cases stepped
  | sendThrows thread queued =>
    dsimp only at stepped
    split at stepped
    · next call fileName slot standing =>
      have inside : fileName ∈ names := named.threads thread fileName (by rw [standing]; rfl)
      split at stepped
      · cases stepped
        exact ⟨(named.submit inside).threadAt fun _ sends => (by cases sends), .nothing rfl rfl⟩
      · cases stepped
        exact ⟨named.threadAt fun _ sends => (by cases sends), .nothing rfl rfl⟩
    · cases stepped
  | recv thread reply =>
    dsimp only at stepped
    split at stepped
    · next call fileName slot standing =>
      have moved : (exchange.threadAt thread (.copy call fileName slot reply.data)).Named names :=
        named.threadAt fun _ sends => (by cases sends)
      split at stepped
      · cases stepped
        exact ⟨⟨moved.threads, moved.requests⟩, .nothing rfl rfl⟩
      · cases stepped
    · cases stepped
  | recvThrows thread =>
    dsimp only at stepped
    split at stepped
    · cases stepped
      exact ⟨named.threadAt fun _ sends => (by cases sends), .nothing rfl rfl⟩
    · cases stepped
  | wire event =>
    rcases Option.map_eq_some_iff.mp stepped with ⟨wire, moved, rfl⟩
    unfold Wire.step at moved
    cases event with
    | take | handle => cases outside
    | reply worker =>
      dsimp only at moved
      split at moved
      · next request data busy =>
        cases moved
        refine ⟨⟨named.threads, named.requests⟩, .reply worker request data busy ?_ ?_ rfl⟩
        · exact Function.update_self _ _ _
        · exact fun other apart => Function.update_of_ne apart _ _
      · cases moved
    | deliver reply =>
      dsimp only at moved
      split at moved
      · cases moved
        exact ⟨⟨named.threads, named.requests⟩, .nothing rfl rfl⟩
      · cases moved

/-- A worker receives a request exactly if it waits and the request does. -/
theorem step_take_iff {worker : Worker} {request : FileRequest} :
    machine.step exchange (.wire (.take worker request)) = some next ↔
      exchange.wire.workers worker = .recv ∧ request ∈ exchange.wire.requests ∧
        next = { exchange with wire := { exchange.wire with
          requests := exchange.wire.requests.erase request
          workers := Function.update exchange.wire.workers worker (.handle request) } } := by
  simp only [machine, Wire.step]
  cases standing : exchange.wire.workers worker with
  | recv =>
    by_cases waits : request ∈ exchange.wire.requests
    · simp [waits, eq_comm]
    · simp [waits]
  | handle | send => simp

/-- A worker fills its reply exactly if it handles a request. -/
theorem step_handle_iff {worker : Worker} {data : List UInt8} :
    machine.step exchange (.wire (.handle worker data)) = some next ↔
      ∃ request, exchange.wire.workers worker = .handle request ∧
        next = { exchange with wire := { exchange.wire with
          workers := Function.update exchange.wire.workers worker
            (.send request (replyTo request.payload data)) } } := by
  simp only [machine, Wire.step]
  cases standing : exchange.wire.workers worker with
  | handle request => simp [eq_comm]
  | recv | send => simp

end Exchange

namespace Deployment

variable {Thread Worker Db : Type*} {hash : String → UInt64} {leveldb : LevelDb Db}
  {config : MogConfig} {files : String → Option (List UInt8)} {names : Set (List UInt8)}
  {deployment next : Deployment Thread Worker Db}

/-- The reply to a request for one of the names is the file of this name. -/
def Right (names : Set (List UInt8)) (files : String → Option (List UInt8))
    (request : FileRequest) (data : List UInt8) : Prop :=
  ∃ fileName ∈ names, request.payload = requestOf fileName ∧
    data = Mog.direct files (pathOf fileName)

/-- What a worker does in the store for the request that it holds. -/
def Serves (names : Set (List UInt8)) (files : String → Option (List UInt8)) (caller : Caller) :
    ReplierPc → Prop
  | .recv => True
  | .handle request => ∃ fileName ∈ names, request.payload = requestOf fileName ∧
      Mog.GoesOn (pathOf fileName) caller.pc
  | .send request data => Right names files request data

/-- The parts of a deployment fit together. -/
structure Delivers (hash : String → UInt64) (leveldb : LevelDb Db)
    (files : String → Option (List UInt8)) (names : Set (List UInt8))
    (deployment : Deployment Thread Worker Db) : Prop where
  /-- The stores are right and the workers sound. -/
  sound : deployment.fleet.Sound hash leveldb (pathOf '' names) files
  /-- All that is asked for are these names. -/
  named : deployment.exchange.Named names
  /-- Every worker serves the request that it holds. -/
  workers : ∀ worker, Serves names files (deployment.fleet.workers worker)
    (deployment.exchange.wire.workers worker)
  /-- Every reply that was sent is the file that was asked for. -/
  served : ∀ reply ∈ deployment.exchange.wire.served, Right names files reply.request reply.data

variable [DecidableEq Thread] [DecidableEq Worker]

/-- A step of the client or of the transport keeps the parts together. -/
theorem client_delivers {event : ExchangeEvent Thread Worker} {exchange : Exchange Thread Worker}
    (delivers : deployment.Delivers hash leveldb files names) (asks : event.Asks names)
    (outside : event.outside = true)
    (stepped : Exchange.machine.step deployment.exchange event = some exchange) :
    Delivers hash leveldb files names { deployment with exchange } := by
  have moved := Exchange.step_named delivers.named asks outside stepped
  cases moved.2 with
  | nothing workers served =>
    refine ⟨delivers.sound, moved.1, ?_, ?_⟩
    · dsimp only
      rw [workers]
      exact delivers.workers
    · dsimp only
      rw [served]
      exact delivers.served
  | reply worker request data busy idle others served =>
    have right : Right names files request data := by
      have own := delivers.workers worker
      rw [busy] at own
      exact own
    refine ⟨delivers.sound, moved.1, ?_, ?_⟩
    · intro other
      dsimp only
      by_cases same : other = worker
      · rw [same, idle]
        trivial
      · rw [others other same]
        exact delivers.workers other
    · intro reply sent
      dsimp only at sent
      rw [served] at sent
      rcases Multiset.mem_cons.mp sent with rfl | before
      · exact right
      · exact delivers.served reply before

/-- A worker that receives a request starts the call for its path. -/
theorem take_delivers (plain : ∀ fileName ∈ names, 0 ∉ fileName ∧ fileName.head? ≠ some 33)
    (paths_apart : Set.InjOn hash (pathOf '' names))
    (keys_apart : Set.InjOn hash (keyOf hash '' (pathOf '' names))) {worker : Worker}
    {request : FileRequest} {fileName : List UInt8} {exchange : Exchange Thread Worker}
    {fleet : Fleet Worker Db} (delivers : deployment.Delivers hash leveldb files names)
    (decoded : Decoded.decode request.payload = some (.read fileName))
    (taken : Exchange.machine.step deployment.exchange (.wire (.take worker request)) =
      some exchange)
    (called : (Fleet.machine hash leveldb config files).step deployment.fleet
      (.readFile worker (pathOf fileName)) = some fleet) :
    Delivers hash leveldb files names { exchange, fleet } := by
  rcases Exchange.step_take_iff.mp taken with ⟨-, waits, rfl⟩
  have asked : Exchange.Asked names request := delivers.named.requests request waits
  rcases asked with ⟨name, inside, payload⟩
  have same : fileName = name := by
    rw [payload, Decoded.decode_requestOf_iff.mpr (plain name inside)] at decoded
    exact (Decoded.read.inj (Option.some.inj decoded)).symm
  subst same
  have asks : Fleet.Event.Asks (pathOf '' names) (.readFile worker (pathOf fileName)) :=
    Set.mem_image_of_mem pathOf inside
  have sound := Fleet.step_sound paths_apart keys_apart delivers.sound asks called
  cases Fleet.step_occurs called
  refine ⟨sound, ⟨delivers.named.threads, ?_⟩, ?_, delivers.served⟩
  · intro other left
    exact delivers.named.requests other (Multiset.mem_of_mem_erase left)
  · intro other
    dsimp only
    by_cases own : other = worker
    · subst own
      rw [Function.update_self, Function.update_self]
      exact ⟨fileName, inside, payload, Or.inl rfl⟩
    · rw [Function.update_of_ne own, Function.update_of_ne own]
      exact delivers.workers other

omit [DecidableEq Thread] in
/-- A step of the store keeps every worker at its request. -/
theorem store_delivers (paths_apart : Set.InjOn hash (pathOf '' names))
    (keys_apart : Set.InjOn hash (keyOf hash '' (pathOf '' names))) {event : Fleet.Event Worker}
    {fleet : Fleet Worker Db} (delivers : deployment.Delivers hash leveldb files names)
    (inside : event.inside = true)
    (stepped : (Fleet.machine hash leveldb config files).step deployment.fleet event =
      some fleet) : Delivers hash leveldb files names { deployment with fleet } := by
  have asks : event.Asks (pathOf '' names) := by
    cases event with
    | readFile => cases inside
    | _ => trivial
  have sound := Fleet.step_sound paths_apart keys_apart delivers.sound asks stepped
  cases Fleet.step_occurs stepped with
  | readFile => cases inside
  | flush | fetch => exact ⟨sound, delivers.named, delivers.workers, delivers.served⟩
  | step worker mog caller taken =>
    refine ⟨sound, delivers.named, fun other => ?_, delivers.served⟩
    dsimp only
    by_cases own : other = worker
    · subst own
      rw [Function.update_self]
      have before := delivers.workers other
      cases held : deployment.exchange.wire.workers other with
      | recv => trivial
      | send request data =>
        rw [held] at before
        exact before
      | handle request =>
        rw [held] at before
        rcases before with ⟨fileName, known, payload, goes_on⟩
        refine ⟨fileName, known, payload, ?_⟩
        rcases goes_on with asked | ⟨result, done⟩
        · exact Mog.step_goesOn asked taken
        · have running := Mog.running_of_step taken
          rw [done] at running
          cases running
    · rw [Function.update_of_ne own]
      exact delivers.workers other

omit [DecidableEq Thread] [DecidableEq Worker] in
/-- What a worker whose call has returned fills its reply with is the file. -/
theorem filled_right (plain : ∀ fileName ∈ names, 0 ∉ fileName ∧ fileName.head? ≠ some 33)
    {worker : Worker} {request : FileRequest} {call : MogCall} {readLen : Int}
    (delivers : deployment.Delivers hash leveldb files names)
    (busy : deployment.exchange.wire.workers worker = .handle request)
    (done : (deployment.fleet.workers worker).pc = .done call readLen) :
    ∃ data, message (deployment.fleet.workers worker).value readLen = some data ∧
      replyTo request.payload data = data ∧ Right names files request data := by
  have own := delivers.workers worker
  rw [busy] at own
  rcases own with ⟨fileName, known, payload, goes_on⟩
  have returned : call = .readFile (pathOf fileName) := by
    rcases goes_on with asked | ⟨result, ended⟩
    · have running := MogPc.running_of_asking asked
      rw [done] at running
      cases running
    · rw [done] at ended
      exact (MogPc.done.inj ended).1
  have answered := (delivers.sound.workers worker).answered (pathOf fileName) readLen
    (returned ▸ done)
  have decoded : Decoded.decode request.payload = some (.read fileName) := by
    rw [payload]
    exact Decoded.decode_requestOf_iff.mpr (plain fileName known)
  refine ⟨Mog.direct files (pathOf fileName), ?_, ?_, fileName, known, payload, rfl⟩
  · rw [answered.1, message_nat]
    exact congrArg some ((ByteMemory.startsWith_iff_take _ _).mp answered.2)
  · rw [Decoded.replyTo_decoded decoded, if_neg (by simp)]

/-- A worker whose call has returned fills its reply with the file. -/
theorem fill_delivers (plain : ∀ fileName ∈ names, 0 ∉ fileName ∧ fileName.head? ≠ some 33)
    {worker : Worker} {call : MogCall} {readLen : Int} {data : List UInt8}
    {exchange : Exchange Thread Worker}
    (delivers : deployment.Delivers hash leveldb files names)
    (done : (deployment.fleet.workers worker).pc = .done call readLen)
    (filled : message (deployment.fleet.workers worker).value readLen = some data)
    (stepped : Exchange.machine.step deployment.exchange (.wire (.handle worker data)) =
      some exchange) : Delivers hash leveldb files names { deployment with exchange } := by
  rcases Exchange.step_handle_iff.mp stepped with ⟨request, busy, rfl⟩
  rcases filled_right plain delivers busy done with ⟨file, same, unchanged, right⟩
  have whole : data = file := Option.some.inj (filled.symm.trans same)
  subst whole
  refine ⟨delivers.sound, ⟨delivers.named.threads, delivers.named.requests⟩, fun other => ?_,
    delivers.served⟩
  dsimp only
  by_cases own : other = worker
  · rw [own, Function.update_self, unchanged]
    exact right
  · rw [Function.update_of_ne own]
    exact delivers.workers other

/-- The calls of `get` are for these names. -/
def Event.Asks (names : Set (List UInt8)) : Event Thread Worker → Prop
  | .client event => event.Asks names
  | _ => True

/-- Every event keeps the parts together. -/
theorem step_delivers (plain : ∀ fileName ∈ names, 0 ∉ fileName ∧ fileName.head? ≠ some 33)
    (paths_apart : Set.InjOn hash (pathOf '' names))
    (keys_apart : Set.InjOn hash (keyOf hash '' (pathOf '' names))) {event : Event Thread Worker}
    (delivers : deployment.Delivers hash leveldb files names) (asks : event.Asks names)
    (stepped : (machine hash leveldb config files).step deployment event = some next) :
    next.Delivers hash leveldb files names := by
  unfold machine at stepped
  cases event with
  | client event =>
    rcases Option.ite_none_right_eq_some.mp stepped with ⟨outside, moved⟩
    rcases Option.map_eq_some_iff.mp moved with ⟨exchange, taken, rfl⟩
    exact client_delivers delivers asks outside taken
  | take worker request =>
    dsimp only at stepped
    split at stepped
    · next fileName decoded =>
      rcases Option.bind_eq_some_iff.mp stepped with ⟨exchange, taken, moved⟩
      rcases Option.map_eq_some_iff.mp moved with ⟨fleet, called, rfl⟩
      exact take_delivers plain paths_apart keys_apart delivers decoded taken called
    · cases stepped
  | store event =>
    rcases Option.ite_none_right_eq_some.mp stepped with ⟨inside, moved⟩
    rcases Option.map_eq_some_iff.mp moved with ⟨fleet, taken, rfl⟩
    exact store_delivers paths_apart keys_apart delivers inside taken
  | fill worker =>
    dsimp only at stepped
    split at stepped
    · next call readLen done =>
      rcases Option.bind_eq_some_iff.mp stepped with ⟨data, filled, moved⟩
      rcases Option.map_eq_some_iff.mp moved with ⟨exchange, taken, rfl⟩
      exact fill_delivers plain delivers done filled taken
    · cases stepped

/-- The step is neither a new call nor an exception. -/
def Event.proceeds : Event Thread Worker → Prop
  | .client event => event.proceeds
  | _ => True

/-- Every event leaves the client and the messages, or is a step of them. -/
theorem step_exchange {event : Event Thread Worker}
    (stepped : (machine hash leveldb config files).step deployment event = some next) :
    next.exchange = deployment.exchange ∨ ∃ moved, (event.proceeds → moved.proceeds) ∧
      Exchange.machine.step deployment.exchange moved = some next.exchange := by
  unfold machine at stepped
  cases event with
  | client event =>
    rcases Option.ite_none_right_eq_some.mp stepped with ⟨-, moved⟩
    rcases Option.map_eq_some_iff.mp moved with ⟨exchange, taken, rfl⟩
    exact Or.inr ⟨event, id, taken⟩
  | take worker request =>
    dsimp only at stepped
    split at stepped
    · rcases Option.bind_eq_some_iff.mp stepped with ⟨exchange, taken, moved⟩
      rcases Option.map_eq_some_iff.mp moved with ⟨fleet, -, rfl⟩
      exact Or.inr ⟨.wire (.take worker request), fun _ => trivial, taken⟩
    · cases stepped
  | store event =>
    rcases Option.ite_none_right_eq_some.mp stepped with ⟨-, moved⟩
    rcases Option.map_eq_some_iff.mp moved with ⟨fleet, -, rfl⟩
    exact Or.inl rfl
  | fill worker =>
    dsimp only at stepped
    split at stepped
    · rcases Option.bind_eq_some_iff.mp stepped with ⟨data, -, moved⟩
      rcases Option.map_eq_some_iff.mp moved with ⟨exchange, taken, rfl⟩
      exact Or.inr ⟨.wire (.handle worker data), fun _ => trivial, taken⟩
    · cases stepped

/-- A new instance of the client, and a server that has been reset. -/
def start (leveldb : LevelDb Db) (config : MogConfig) (totalSize : Int)
    (value : Worker → ByteMemory) : Deployment Thread Worker Db where
  exchange := .initial
  fleet := .reopened leveldb config totalSize value

omit [DecidableEq Thread] [DecidableEq Worker] in
/-- At first nothing is asked for. -/
theorem start_delivers (leveldb : LevelDb Db) (config : MogConfig) (totalSize : Int)
    (value : Worker → ByteMemory) :
    (start leveldb config totalSize value : Deployment Thread Worker Db).Delivers hash leveldb
      files names where
  sound := Fleet.reopened_sound leveldb config totalSize value
  named := ⟨fun _ _ sends => (by cases sends), fun _ member =>
    absurd member (Multiset.notMem_zero _)⟩
  workers := fun _ => trivial
  served := fun _ member => absurd member (Multiset.notMem_zero _)

omit [DecidableEq Thread] [DecidableEq Worker] in
/-- A call that has returned holds the file: its reply is one of those that were sent. -/
theorem returned_right [Fintype Worker] {thread : Thread} {call : Nat}
    {fileName data : List UInt8} (orderly : deployment.exchange.Orderly)
    (delivers : deployment.Delivers hash leveldb files names)
    (returned : deployment.exchange.threads thread = .returned call fileName data) :
    data = Mog.direct files (pathOf fileName) := by
  have own : deployment.exchange.Ok (deployment.exchange.threads thread) := orderly.threads thread
  rw [returned] at own
  rcases own with ⟨slot, sent⟩
  have right := delivers.served _ sent
  rcases right with ⟨name, -, payload, whole⟩
  have same : fileName = name := List.append_cancel_right payload
  rw [same]
  exact whole

/-- However the threads of a client, the transport, the workers of the server, and the flush and
fetch tasks interleave between two resets, also after exceptions in `send` and `recv`: where the
names hold no NUL and begin with no '!', and the hash tells the paths and their keys apart, every
call of `get` that has returned holds the bytes of the file of its name. -/
theorem get_returns_file [Fintype Worker]
    (plain : ∀ fileName ∈ names, 0 ∉ fileName ∧ fileName.head? ≠ some 33)
    (paths_apart : Set.InjOn hash (pathOf '' names))
    (keys_apart : Set.InjOn hash (keyOf hash '' (pathOf '' names))) {totalSize : Int}
    {value : Worker → ByteMemory} {events : List (Event Thread Worker)}
    (asks : ∀ event ∈ events, event.Asks names)
    (ran : (machine hash leveldb config files).run (start leveldb config totalSize value) events =
      some deployment) {thread : Thread} {call : Nat} {fileName data : List UInt8}
    (returned : deployment.exchange.threads thread = .returned call fileName data) :
    data = Mog.direct files (pathOf fileName) := by
  have kept : deployment.exchange.Orderly ∧ deployment.Delivers hash leveldb files names := by
    apply Machine.run_invariant_along (fun state : Deployment Thread Worker Db =>
      state.exchange.Orderly ∧ state.Delivers hash leveldb files names) _
      ⟨Exchange.initial_orderly, start_delivers leveldb config totalSize value⟩
      (Machine.along_of_mem asks _) ran
    intro state event after holds asked stepped
    refine ⟨?_, step_delivers plain paths_apart keys_apart holds.2 asked stepped⟩
    rcases step_exchange stepped with same | ⟨moved, -, taken⟩
    · rw [same]
      exact holds.1
    · exact Exchange.step_orderly holds.1 taken
  exact returned_right kept.1 kept.2 returned

/-- Two threads call `get` for one file on two slots, and two workers look it up at once. -/
def askedTogether (first second : Slot) : List (Event Bool Bool) :=
  [.client (.call false [97]), .client (.call true [97]), .client (.step false),
    .client (.step true), .client (.step true), .client (.send false), .client (.send true),
    .take false ⟨first, [97, 0], 0⟩, .take true ⟨second, [97, 0], 1⟩] ++
  (List.replicate 11 [.store (.step false), .store (.step true)]).flatten ++
  [.fill true, .fill false, .client (.wire (.reply true)), .client (.wire (.reply false)),
    .client (.wire (.deliver ⟨⟨second, [97, 0], 1⟩, [1, 2]⟩)),
    .client (.wire (.deliver ⟨⟨first, [97, 0], 0⟩, [1, 2]⟩)),
    .client (.recv false ⟨⟨first, [97, 0], 0⟩, [1, 2]⟩),
    .client (.recv true ⟨⟨second, [97, 0], 1⟩, [1, 2]⟩),
    .client (.step true), .client (.step false), .client (.step true), .client (.step false)]

/-- Two names hold no NUL and begin with no '!'. -/
theorem names_plain : ∀ fileName ∈ ({[97], [98, 98]} : Set (List UInt8)),
    0 ∉ fileName ∧ fileName.head? ≠ some 33 := by
  rintro fileName (rfl | rfl) <;> decide

/-- The paths of the two names. -/
theorem names_paths : pathOf '' {[97], [98, 98]} = {"a", "bb"} :=
  Set.image_pair pathOf [97] [98, 98]

/-- Nothing but one of the two names is asked for. -/
theorem askedTogether_asks (first second : Slot) :
    ∀ event ∈ askedTogether first second, event.Asks {[97], [98, 98]} := by
  simp [askedTogether, Event.Asks, ExchangeEvent.Asks]

/-- Both calls return the two bytes of the file. -/
theorem get_returns_file_askedTogether :
    ∃ deployment, (machine Mog.powerHash LevelDb.table MogConfig.oneBlock Mog.oneFile).run
        (start LevelDb.table MogConfig.oneBlock 2 fun _ _ => 0) (askedTogether 0 1) =
          some deployment ∧
      deployment.exchange.threads false = .returned 0 [97] (Mog.direct Mog.oneFile "a") ∧
      deployment.exchange.threads true = .returned 1 [97] (Mog.direct Mog.oneFile "a") := by
  have executed : ∃ deployment data other,
      (machine Mog.powerHash LevelDb.table MogConfig.oneBlock Mog.oneFile).run
        (start LevelDb.table MogConfig.oneBlock 2 fun _ _ => 0) (askedTogether 0 1) =
          some deployment ∧
      deployment.exchange.threads false = .returned 0 [97] data ∧
      deployment.exchange.threads true = .returned 1 [97] other := ⟨_, _, _, rfl, rfl, rfl⟩
  rcases executed with ⟨deployment, data, other, ran, first, second⟩
  have files_of {thread : Bool} {call : Nat} {bytes : List UInt8}
      (returned : deployment.exchange.threads thread = .returned call [97] bytes) :
      bytes = Mog.direct Mog.oneFile "a" :=
    get_returns_file names_plain (names_paths ▸ Mog.powerHash_injOn)
      (names_paths ▸ Mog.powerHash_keys_injOn) (askedTogether_asks 0 1) ran returned
  rw [files_of first] at first
  rw [files_of second] at second
  exact ⟨deployment, ran, first, second⟩

end Deployment

end CudaDb
