import CudaDb.Lib.Machine

/-!
# Services that answer at once

The simplest service that many clients can share: a client asks, and at some later moment gets the
answer, which is a function of the request alone. Nothing else is remembered. A concurrent
implementation refines such a service if the requests and answers of each of its runs, in the order
in which they happen, are a run of the service. It names no particular system.
-/

namespace Service

/-- Where a client stands. -/
inductive Standing (Request Answer : Type*)
  /-- It has not asked. -/
  | idle
  /-- It waits for the answer to its last request. -/
  | asked (request : Request)
  /-- Its last request was answered. -/
  | answered (request : Request) (answer : Answer)

/-- What clients can see. -/
inductive Event (Client Request : Type*)
  /-- A client that does not wait asks. -/
  | ask (client : Client) (request : Request)
  /-- A client that waits gets its answer. -/
  | answer (client : Client)

variable {Client Request Answer : Type*}

/-- A client does not wait for an answer. -/
def Standing.free : Standing Request Answer → Bool
  | .asked _ => false
  | _ => true

variable [DecidableEq Client]

/-- The service that answers each request by a function of it. -/
def machine (respond : Request → Answer) :
    Machine (Client → Standing Request Answer) (Event Client Request) where
  step standing
    | .ask client request =>
      if (standing client).free then some (Function.update standing client (.asked request))
      else none
    | .answer client =>
      match standing client with
      | .asked request =>
        some (Function.update standing client (.answered request (respond request)))
      | _ => none

variable {respond : Request → Answer} {standing : Client → Standing Request Answer}
  {client : Client}

/-- A client that does not wait can ask. -/
theorem step_ask (free : (standing client).free = true) (request : Request) :
    (machine respond).step standing (.ask client request) =
      some (Function.update standing client (.asked request)) := if_pos free

/-- A client that waits can get its answer. -/
theorem step_answer {request : Request} (waiting : standing client = .asked request) :
    (machine respond).step standing (.answer client) =
      some (Function.update standing client (.answered request (respond request))) := by
  simp only [machine, waiting]

/-- A run can be continued by one event. -/
theorem run_snoc {start : Client → Standing Request Answer} {events : List (Event Client Request)}
    {event : Event Client Request} {next : Client → Standing Request Answer}
    (ran : (machine respond).run start events = some standing)
    (stepped : (machine respond).step standing event = some next) :
    (machine respond).run start (events ++ [event]) = some next :=
  Machine.run_append.mpr ⟨standing, ran, Machine.run_cons.mpr ⟨next, stepped, rfl⟩⟩

end Service
