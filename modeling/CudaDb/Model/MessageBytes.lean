import CudaDb.Model.Client

/-!
# The bytes of a request

A worker looks at the first byte of a message and, unless it is '!', takes the message for a
terminated string: the path for `std::ifstream` while `reset_flag` is set, and for
`mog::read_file` otherwise. It never looks at `request.size()`. The definitions follow
`worker_routine`; a read of a byte that is not in the message is `none`.
-/

namespace CudaDb

/-- What a worker takes a message for. -/
inductive Decoded
  /-- The command that wipes the cache. -/
  | clean
  /-- A request for the file of this name. -/
  | read (fileName : List UInt8)
  deriving DecidableEq

namespace Decoded

/-- `(char *)request.data()` as a string — the bytes up to the first NUL; `none` where the end of
the message comes first, so that the byte behind it is read. -/
def cString : List UInt8 → Option (List UInt8)
  | [] => none
  | byte :: rest => if byte = 0 then some [] else (cString rest).map fun string => byte :: string

/-- What `worker_routine` takes a message for; `none` where it reads a byte behind the message. -/
def decode (message : List UInt8) : Option Decoded :=
  -- `((char*)request.data())[0]` is read before anything is known of the size.
  message.head?.bind fun first =>
    if first = 33 then some .clean else (cString message).map .read

end Decoded

end CudaDb
