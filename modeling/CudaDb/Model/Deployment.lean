import CudaDb.Model.Client
import CudaDb.Model.Fleet
import CudaDb.Model.MessageBytes
import CudaDb.Model.Serving

/-!
# Clients, transport and server in one

The threads of a client call `get` on one instance, the messages travel, and the workers of the
server answer each path from `mog::read_file`, whose accesses interleave with everything else. The
definitions follow `worker_routine` between two resets, where `reset_flag` is clear; a command that
starts a reset is not taken here.
-/

namespace CudaDb

/-- `std::string` of `(char *)request.data()`, each byte of which is a character. -/
def pathOf (fileName : List UInt8) : String :=
  String.ofList (fileName.map fun byte => Char.ofNat byte.toNat)

/-- The client side with the messages, and the server side. -/
structure Deployment (Thread Worker Db : Type*) where
  /-- The client, the messages, and what each worker holds of them. -/
  exchange : Exchange Thread Worker
  /-- The store, and the calls that the workers make on it. -/
  fleet : Fleet Worker Db

/-- A step of the client or of the transport, or the `send` of a worker: all that does not depend
on the store. -/
def ExchangeEvent.outside {Thread Worker : Type*} : ExchangeEvent Thread Worker → Bool
  | .wire (.take _ _) | .wire (.handle _ _) => false
  | _ => true

/-- A step of the store: all but the start of a call. -/
def Fleet.Event.inside {Worker : Type*} : Fleet.Event Worker → Bool
  | .readFile _ _ => false
  | _ => true

namespace Deployment

variable {Thread Worker Db : Type*}

/-- What can happen next. -/
inductive Event (Thread Worker : Type*)
  /-- The client or the transport makes a step, or a worker sends its reply. -/
  | client (event : ExchangeEvent Thread Worker)
  /-- The worker receives the request and calls `DB->read_file` for its path. -/
  | take (worker : Worker) (request : FileRequest)
  /-- The store makes a step. -/
  | store (event : Fleet.Event Worker)
  /-- The call of the worker has returned, and `reply` is filled from `mog_data`. -/
  | fill (worker : Worker)

variable [DecidableEq Thread] [DecidableEq Worker]

/-- The steps of the clients, of the transport and of the server in any order, each flush and each
fetch being one step as in `Fleet.machine`. -/
def machine (hash : String → UInt64) (leveldb : LevelDb Db) (config : MogConfig)
    (files : String → Option (List UInt8)) :
    Machine (Deployment Thread Worker Db) (Event Thread Worker) where
  step deployment
    | .client event =>
      if event.outside then
        (Exchange.machine.step deployment.exchange event).map fun exchange =>
          { deployment with exchange }
      else none
    | .take worker request =>
      match Decoded.decode request.payload with
      | some (.read fileName) =>
        (Exchange.machine.step deployment.exchange (.wire (.take worker request))).bind
          fun exchange =>
            ((Fleet.machine hash leveldb config files).step deployment.fleet
              (.readFile worker (pathOf fileName))).map fun fleet => { exchange, fleet }
      | _ => none
    | .store event =>
      if event.inside then
        ((Fleet.machine hash leveldb config files).step deployment.fleet event).map fun fleet =>
          { deployment with fleet }
      else none
    | .fill worker =>
      match (deployment.fleet.workers worker).pc with
      | .done _ readLen =>
        (message (deployment.fleet.workers worker).value readLen).bind fun data =>
          (Exchange.machine.step deployment.exchange (.wire (.handle worker data))).map
            fun exchange => { deployment with exchange }
      | _ => none

end Deployment

end CudaDb
