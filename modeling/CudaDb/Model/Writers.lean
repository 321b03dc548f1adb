import CudaDb.Model.WriteBuffer

/-!
# The callers of the write buffer

Any number of threads call `WriteBuffer::write` and `WriteBuffer::sync`. What `write` does under
its lock is one step, as is one iteration of a loop of `sync`, which takes no lock, and as is a
flush; the steps of all calls and the scheduled flushes interleave in any order.
-/

namespace CudaDb

/-- The write buffer, with what its flushes write to, and its callers. -/
structure Writers (Thread Db : Type*) where
  /-- The storage. -/
  storage : Storage Db
  /-- Where the call of each thread stands. -/
  calls : Thread → WriteBuffer.Pc

namespace Writers

variable {Thread Db : Type*}

/-- What can happen next. -/
inductive Event (Thread : Type*)
  /-- A thread whose last call has returned calls `WriteBuffer::write`. -/
  | write (thread : Thread) (key : String) (value : List UInt8)
  /-- A thread whose last call has returned calls `WriteBuffer::sync`. -/
  | sync (thread : Thread)
  /-- The call of a thread goes one step on. -/
  | step (thread : Thread) (ssdFull : Bool)
  /-- A flush thread flushes a scheduled block. -/
  | flush (blockId : Nat)

/-- The calls of the threads with the scheduled flushes in between. -/
def machine [DecidableEq Thread] (hash : String → UInt64) (leveldb : LevelDb Db) :
    Machine (Writers Thread Db) (Event Thread) where
  step writers
    | .write thread key value =>
      match writers.calls thread with
      | .returned _ => some { writers with
          calls := Function.update writers.calls thread (WriteBuffer.write key value) }
      | _ => none
    | .sync thread =>
      match writers.calls thread with
      | .returned _ => some { writers with
          calls := Function.update writers.calls thread WriteBuffer.sync }
      | _ => none
    | .step thread ssdFull =>
      (writers.storage.buffer.step hash ssdFull (writers.calls thread)).map fun (pc, buffer) =>
        { storage := { writers.storage with buffer }
          calls := Function.update writers.calls thread pc }
    | .flush blockId =>
      (writers.storage.runFlush hash leveldb blockId).map fun storage => { writers with storage }

/-- The threads before their first calls, on a fresh storage. -/
def start (leveldb : LevelDb Db) (pageSize pagePerBlock pageNum : Nat) : Writers Thread Db where
  storage := Storage.initial leveldb pageSize pagePerBlock pageNum
  calls _ := .returned 0

end Writers

end CudaDb
