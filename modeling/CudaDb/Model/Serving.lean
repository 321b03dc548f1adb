import CudaDb.Model.Mog

/-!
# The three direct reads

A file is opened, measured, limited and copied in three places: in `worker_routine` while
`reset_flag` is set, in `mog::read_file` while `mog` is not ready, and in
`mog::insert_file_with_copy`. Each definition follows its copy of the code and keeps the signed
length that the copy passes on. A negative length becomes a `size_t` of at least 2^63. A message of
the length -1 is made all the same, since the size of its allocation wraps around, but the `memcpy`
of that many bytes into it crashes, and no reply follows.
-/

namespace CudaDb

/-- What `std::ifstream` meets behind a path. Where seeking to the end succeeds, the length that
`tellg` then tells is the number of bytes that a read delivers. -/
inductive FileState
  /-- The file cannot be opened. -/
  | missing
  /-- The file opens, and seeking in it fails, as in a pipe. -/
  | unsized
  /-- The file opens, these are its bytes, and `tellg` tells their number. -/
  | regular (bytes : List UInt8)
  deriving DecidableEq

namespace FileState

/-- `ifs.is_open()`. -/
def isOpen : FileState → Bool
  | .missing => false
  | _ => true

/-- `ifs.tellg()` after `ifs.seekg(0, ifs.end)`: -1 once an operation on the stream has failed. -/
def tellg : FileState → Int
  | .regular bytes => bytes.length
  | _ => -1

/-- `ifs.read(buffer, length)` from the start of the file; a stream that failed reads nothing. -/
def read (file : FileState) (buffer : ByteMemory) (length : Int) : ByteMemory :=
  match file with
  | .regular bytes => buffer.write (bytes.take length.toNat)
  | _ => buffer

/-- The bytes of the file, if it can be read. -/
def contents : FileState → Option (List UInt8)
  | .regular bytes => some bytes
  | _ => none

end FileState

/-- `memcpy(target, source, length)`, with a length that becomes a `size_t`. -/
def memcpy (target source : ByteMemory) (length : Int) : Option ByteMemory :=
  if 0 ≤ length then some (target.copy 0 source length.toNat) else none

/-- `zmq::message_t reply(length)` with the `memcpy` that fills it from the memory, which a negative
length makes crash: no bytes can be sent then. -/
def message (memory : ByteMemory) (length : Int) : Option (List UInt8) :=
  if 0 ≤ length then some (memory.take length.toNat) else none

/-- The lengths that serving a request uses, as far as it comes, and the reply. -/
structure Serving where
  /-- The length in `new char[length+1]`. -/
  allocated : Option Int
  /-- The length in `memcpy`. -/
  copied : Option Int
  /-- The length of the message. -/
  replied : Option Int
  /-- The reply, if one is sent. -/
  reply : Option (List UInt8)

/-- What a direct read inside `mog::read_file` leaves. -/
structure FileRead where
  /-- The length in `new char[length+1]`. -/
  allocated : Option Int
  /-- The length in `memcpy`. -/
  copied : Option Int
  /-- The result with the value buffer, if the call returns. -/
  result : Option (Int × ByteMemory)

/-- `worker_routine` — while `reset_flag` is set. `buffer` is what the allocation holds at first. -/
def serveReset (file : FileState) (buffer : ByteMemory) : Serving :=
  -- `len = 0` for a file that is not open is overwritten by `tellg`.
  let measured := file.tellg
  let len := if measured > maxFileLength then 0 else measured
  let filled := file.read buffer len
  { allocated := some len
    replied := some len
    copied := some len
    reply := message filled len }

/-- `mog::read_file` — while `mog` is not ready. -/
def readNotReady (file : FileState) (buffer value : ByteMemory) : FileRead :=
  if file.isOpen then
    let length := file.tellg
    if length > maxFileLength then
      { allocated := none, copied := none, result := some (0, value) }
    else
      { allocated := some length
        copied := some length
        result := (memcpy value (file.read buffer length) length).map fun value =>
          (length, value) }
  else { allocated := none, copied := none, result := some (0, value) }

/-- `mog::insert_file_with_copy` — `hasRoom` is its test of `total_size`. The status of `mog::write`
is not used. -/
def insertFileWithCopy (hasRoom : Bool) (file : FileState) (buffer value : ByteMemory) : FileRead :=
  if file.isOpen then
    let length := file.tellg
    if length > maxFileLength then
      { allocated := none, copied := none, result := some (0, value) }
    else
      let filled := file.read buffer length
      -- `mog::write` copies `length` bytes to its slab.
      let written := if length ≤ maxValueLength ∧ hasRoom then memcpy (fun _ => 0) filled length
        else some filled
      { allocated := some length
        copied := some length
        result := written.bind fun _ =>
          (memcpy value filled length).map fun value => (length, value) }
  else { allocated := none, copied := none, result := some (-1, value) }

/-- `mog::read_file` — when `mog` is ready and `read` has returned 0. -/
def readUncached (hasRoom : Bool) (file : FileState) (buffer value : ByteMemory) : FileRead :=
  let inserted := insertFileWithCopy hasRoom file buffer value
  { inserted with
    result := inserted.result.map fun (length, value) =>
      (if length > 0 then length else 0, value) }

/-- `worker_routine` — the reply from `mog_data` after `DB->read_file`. -/
def serveRead (read : FileRead) : Serving where
  allocated := read.allocated
  copied := read.copied
  replied := read.result.map Prod.fst
  reply := read.result.bind fun (readLen, mogData) => message mogData readLen

/-- What the server is doing when it serves a path. -/
inductive ServerPlace
  /-- `reset_flag` is set. -/
  | reset
  /-- `mog` is not ready. -/
  | notReady
  /-- `mog` is ready and does not have the file. -/
  | uncached (hasRoom : Bool)
  /-- `mog` is ready and has these bytes for the file. -/
  | cached (stored : List UInt8)

/-- `worker_routine` — the reply to a request for the file, if one is sent. -/
def serve (place : ServerPlace) (file : FileState) (buffer mogData : ByteMemory) :
    Option (List UInt8) :=
  match place with
  | .reset => (serveReset file buffer).reply
  | .notReady => (serveRead (readNotReady file buffer mogData)).reply
  | .uncached hasRoom => (serveRead (readUncached hasRoom file buffer mogData)).reply
  | .cached stored => message (mogData.write stored) stored.length

end CudaDb
