import CudaDb.Lib.Machine
import CudaDb.Lib.Threads

/-!
# The client and its sockets

The threads of a training process call `st::mog::get` on one instance, which has five REQ
sockets and a flag for each of them. A request travels through the ROUTER and the DEALER socket
of `main` to one of the workers, and its reply travels back to the socket that sent it. Messages
arrive in any order. The definitions follow `mog::get` of the client and `worker_routine`; what a
worker replies to a path is up to the store, and the model of the store is elsewhere.
-/

namespace CudaDb

/-- `SOCKETNUM`. -/
abbrev socketNum : Nat := 5

/-- An index of `socket_pool` and of `a_lock_pool`. -/
abbrev Slot := Fin socketNum

/-- A request message. -/
structure FileRequest where
  /-- The socket that sent the message, which its envelope records. -/
  slot : Slot
  /-- The bytes of the message. -/
  payload : List UInt8
  /-- The call of `get` that sent the message. No step depends on it. -/
  call : Nat
  deriving DecidableEq

/-- A reply message. -/
structure FileReply where
  /-- The request that the worker replies to. Of it, the message carries the envelope. -/
  request : FileRequest
  /-- The bytes of the message. -/
  data : List UInt8
  deriving DecidableEq

/-- The message for a file name: `file_name.length()+1` bytes, the last of them zero. -/
def requestOf (fileName : List UInt8) : List UInt8 :=
  fileName ++ [0]

/-! ## The server -/

/-- The statement of `worker_routine` that a worker executes next, with what it holds. -/
inductive ReplierPc
  /-- `socket.recv (&request)`. -/
  | recv
  /-- The statements between the two accesses to the socket. -/
  | handle (request : FileRequest)
  /-- `socket.send(reply)`. -/
  | send (request : FileRequest) (data : List UInt8)

/-- The request that a worker holds. -/
def ReplierPc.request : ReplierPc → Option FileRequest
  | .recv => none
  | .handle request | .send request _ => some request

/-- The bytes that a worker sends back: "OK" to a message that starts with '!'. -/
def replyTo (payload data : List UInt8) : List UInt8 :=
  if payload.head? = some 33 then [79, 75] else data

/-- The messages on their way, and the workers. -/
structure Wire (Worker : Type*) where
  /-- The requests that no worker has received. -/
  requests : Multiset FileRequest
  /-- The workers. -/
  workers : Worker → ReplierPc
  /-- The replies on their way to the socket in their envelope. -/
  replies : Multiset FileReply
  /-- The replies that wait in the queue of that socket. -/
  arrived : Multiset FileReply
  /-- All replies that a worker has sent. No step depends on it. -/
  served : Multiset FileReply

/-- A step of the server or of the transport. -/
inductive WireEvent (Worker : Type*)
  /-- The worker receives the request. -/
  | take (worker : Worker) (request : FileRequest)
  /-- The worker handles its request, for which the store gives these bytes. -/
  | handle (worker : Worker) (data : List UInt8)
  /-- The worker sends its reply. -/
  | reply (worker : Worker)
  /-- The reply reaches its socket. -/
  | deliver (reply : FileReply)

namespace Wire

variable {Worker : Type*}

/-- No message is on its way. -/
def empty : Wire Worker where
  requests := 0
  workers := fun _ => .recv
  replies := 0
  arrived := 0
  served := 0

/-- A socket accepts a request. -/
def submit (wire : Wire Worker) (request : FileRequest) : Wire Worker :=
  { wire with requests := request ::ₘ wire.requests }

/-- A socket hands over a reply. -/
def hand (wire : Wire Worker) (reply : FileReply) : Wire Worker :=
  { wire with arrived := wire.arrived.erase reply }

/-- One step of the server or of the transport. -/
def step [DecidableEq Worker] (wire : Wire Worker) : WireEvent Worker → Option (Wire Worker)
  | .take worker request =>
    match wire.workers worker with
    | .recv =>
      if request ∈ wire.requests then
        some { wire with
          requests := wire.requests.erase request
          workers := Function.update wire.workers worker (.handle request) }
      else none
    | _ => none
  | .handle worker data =>
    match wire.workers worker with
    | .handle request => some { wire with
        workers :=
          Function.update wire.workers worker (.send request (replyTo request.payload data)) }
    | _ => none
  | .reply worker =>
    match wire.workers worker with
    | .send request data => some { wire with
        workers := Function.update wire.workers worker .recv
        replies := { request, data } ::ₘ wire.replies
        served := { request, data } ::ₘ wire.served }
    | _ => none
  | .deliver reply =>
    if reply ∈ wire.replies then
      some { wire with
        replies := wire.replies.erase reply
        arrived := reply ::ₘ wire.arrived }
    else none

/-- One for a worker whose request is selected. -/
def held (selects : FileRequest → Bool) (pc : ReplierPc) : Nat :=
  if pc.request.any selects then 1 else 0

/-- The number of selected requests that no worker has replied to. -/
def pending [Fintype Worker] (wire : Wire Worker) (selects : FileRequest → Bool) : Nat :=
  wire.requests.countP (fun request => selects request) + Threads.total (held selects) wire.workers

/-- The number of requests of a socket whose reply the client has not received. -/
def outstanding [Fintype Worker] (wire : Wire Worker) (slot : Slot) : Nat :=
  wire.pending (fun request => request.slot = slot) +
    (wire.replies.countP (fun reply => reply.request.slot = slot) +
      wire.arrived.countP fun reply => reply.request.slot = slot)

end Wire

/-! ## The client -/

/-- The statement of `get` that a thread executes next, with the number of the call. -/
inductive GetPc
  /-- The thread is outside `get`, also because an exception has left it. -/
  | idle
  /-- `a_lock_pool[i].test_and_set()`. -/
  | testAndSet (call : Nat) (fileName : List UInt8) (slot : Slot)
  /-- `socket_pool[i]->send (request)`. -/
  | send (call : Nat) (fileName : List UInt8) (slot : Slot)
  /-- `socket_pool[i]->recv (&reply)`. -/
  | recv (call : Nat) (fileName : List UInt8) (slot : Slot)
  /-- `data.clear()` and `data.append(...)`. -/
  | copy (call : Nat) (fileName : List UInt8) (slot : Slot) (data : List UInt8)
  /-- `a_lock_pool[i].clear()`. -/
  | clear (call : Nat) (fileName : List UInt8) (slot : Slot) (data : List UInt8)
  /-- The call has returned, and `data` holds these bytes. -/
  | returned (call : Nat) (fileName : List UInt8) (data : List UInt8)

/-- The instance, the threads that call it, and the messages on their way. -/
structure Exchange (Thread Worker : Type*) where
  /-- `a_lock_pool`. -/
  flags : Slot → Bool
  /-- The REQ sockets that have sent a request and not received its reply. -/
  awaiting : Slot → Bool
  /-- The threads. -/
  threads : Thread → GetPc
  /-- The messages on their way. -/
  wire : Wire Worker
  /-- The number of calls made. -/
  calls : Nat

/-- What can happen next. -/
inductive ExchangeEvent (Thread Worker : Type*)
  /-- The thread calls `get`. -/
  | call (thread : Thread) (fileName : List UInt8)
  /-- The thread executes a statement that does not use the socket. -/
  | step (thread : Thread)
  /-- `send` succeeds. -/
  | send (thread : Thread)
  /-- `send` throws. The message may have been queued. -/
  | sendThrows (thread : Thread) (queued : Bool)
  /-- `recv` succeeds with a reply that waits in the socket. -/
  | recv (thread : Thread) (reply : FileReply)
  /-- `recv` throws. -/
  | recvThrows (thread : Thread)
  /-- The server or the transport makes a step. -/
  | wire (event : WireEvent Worker)

namespace Exchange

variable {Thread Worker : Type*}

/-- The constructor of `mog` — five connected sockets, their flags clear. -/
def initial : Exchange Thread Worker where
  flags := fun _ => false
  awaiting := fun _ => false
  threads := fun _ => .idle
  wire := .empty
  calls := 0

variable [DecidableEq Thread]

/-- The thread goes on to another statement. -/
def threadAt (exchange : Exchange Thread Worker) (thread : Thread) (pc : GetPc) :
    Exchange Thread Worker :=
  { exchange with threads := Function.update exchange.threads thread pc }

/-- A REQ socket that awaits no reply sends the request of a call. -/
def submit (exchange : Exchange Thread Worker) (call : Nat) (fileName : List UInt8) (slot : Slot) :
    Exchange Thread Worker :=
  { exchange with
    awaiting := Function.update exchange.awaiting slot true
    wire := exchange.wire.submit { slot, payload := requestOf fileName, call } }

/-- `get` — a statement that does not use the socket. -/
def threadStep (exchange : Exchange Thread Worker) (thread : Thread) :
    GetPc → Option (Exchange Thread Worker)
  | .testAndSet call fileName slot =>
    -- The `for` loop restarts at the first slot, from inside the `while (true)`.
    if exchange.flags slot then
      some (exchange.threadAt thread (.testAndSet call fileName (slot + 1)))
    else some { exchange.threadAt thread (.send call fileName slot) with
      flags := Function.update exchange.flags slot true }
  | .copy call fileName slot data =>
    some (exchange.threadAt thread (.clear call fileName slot data))
  | .clear call fileName slot data =>
    some { exchange.threadAt thread (.returned call fileName data) with
      flags := Function.update exchange.flags slot false }
  | _ => none

/-- A thread that is outside `get` calls it. -/
def callGet (exchange : Exchange Thread Worker) (thread : Thread) (fileName : List UInt8) :
    GetPc → Option (Exchange Thread Worker)
  | .idle | .returned _ _ _ => some { exchange.threadAt thread
      (.testAndSet exchange.calls fileName 0) with calls := exchange.calls + 1 }
  | _ => none

/-- Any interleaving of the steps of the threads, the workers and the transport. A REQ socket
alternates `send` and `recv`: each of them throws when it is not its turn. -/
def machine [DecidableEq Worker] :
    Machine (Exchange Thread Worker) (ExchangeEvent Thread Worker) where
  step exchange
    | .call thread fileName => exchange.callGet thread fileName (exchange.threads thread)
    | .step thread => exchange.threadStep thread (exchange.threads thread)
    | .send thread =>
      match exchange.threads thread with
      | .send call fileName slot =>
        if exchange.awaiting slot then none
        else some ((exchange.submit call fileName slot).threadAt thread (.recv call fileName slot))
      | _ => none
    | .sendThrows thread queued =>
      match exchange.threads thread with
      | .send call fileName slot =>
        if queued ∧ exchange.awaiting slot = false then
          some ((exchange.submit call fileName slot).threadAt thread .idle)
        else some (exchange.threadAt thread .idle)
      | _ => none
    | .recv thread reply =>
      match exchange.threads thread with
      | .recv call fileName slot =>
        if exchange.awaiting slot ∧ reply ∈ exchange.wire.arrived ∧ reply.request.slot = slot then
          some { exchange.threadAt thread (.copy call fileName slot reply.data) with
            awaiting := Function.update exchange.awaiting slot false
            wire := exchange.wire.hand reply }
        else none
      | _ => none
    | .recvThrows thread =>
      match exchange.threads thread with
      | .recv _ _ _ => some (exchange.threadAt thread .idle)
      | _ => none
    | .wire event => (exchange.wire.step event).map fun wire => { exchange with wire }

end Exchange

end CudaDb
