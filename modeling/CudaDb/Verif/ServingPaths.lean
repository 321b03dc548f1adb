import CudaDb.Model.Serving
import CudaDb.Verif.MogFiles

/-!
# Where the three direct reads agree

For a file whose bytes can be read, of any length, the three places use lengths from 0 to 64 MiB
and send the same reply. For any other path at least one of them passes -1 on. The steps of `Mog`
that read a file are two of the three places.
-/

namespace CudaDb

/-- What a request for the file should be answered with. -/
def FileState.served (file : FileState) : List UInt8 :=
  (file.contents.filter fun bytes => bytes.length ≤ maxFileLength).getD []

/-- The length, if it is used, is one of a file that is served. -/
def InRange (length : Option Int) : Prop :=
  ∀ used ∈ length, 0 ≤ used ∧ used ≤ maxFileLength

/-- The request gets this reply, and every length on the way is one of a file that is served. -/
structure Serving.Proper (serving : Serving) (bytes : List UInt8) : Prop where
  /-- The reply is sent. -/
  reply : serving.reply = some bytes
  /-- The length in `new char[length+1]`. -/
  allocated : InRange serving.allocated
  /-- The length in `memcpy`. -/
  copied : InRange serving.copied
  /-- The length of the message. -/
  replied : InRange serving.replied

/-- The three places answer a request for the file alike. -/
def PathsAgree (hasRoom : Bool) (file : FileState) (buffer value : ByteMemory) : Prop :=
  (serveReset file buffer).Proper file.served ∧
    (serveRead (readNotReady file buffer value)).Proper file.served ∧
      (serveRead (readUncached hasRoom file buffer value)).Proper file.served

/-! ## The copies -/

/-- The front of a buffer that the bytes were written to is these bytes. -/
theorem take_write (buffer : ByteMemory) (bytes : List UInt8) :
    (buffer.write bytes).take bytes.length = bytes :=
  (ByteMemory.startsWith_iff_take _ _).mp (ByteMemory.write_startsWith buffer bytes)

/-- A copy of just the bytes that were written is a write of them. -/
theorem copy_write (target buffer : ByteMemory) (bytes : List UInt8) :
    target.copy 0 (buffer.write bytes) bytes.length = target.write bytes := by
  funext position
  by_cases inside : position < bytes.length
  · rw [ByteMemory.copy_inside (Nat.zero_le _) (by omega), Nat.sub_zero,
      ByteMemory.write_startsWith buffer bytes position inside,
      ByteMemory.write_startsWith target bytes position inside]
  · rw [ByteMemory.copy_outside (Or.inr (by omega)), ByteMemory.write,
      List.getD_eq_default _ _ (by omega)]

/-- Reading a regular file to its end fills the front of the buffer with it. -/
theorem read_regular (buffer : ByteMemory) (bytes : List UInt8) :
    (FileState.regular bytes).read buffer bytes.length = buffer.write bytes := by
  rw [FileState.read, Int.toNat_natCast, List.take_length]

/-- A copy of a natural length succeeds. -/
theorem memcpy_nat (target source : ByteMemory) (length : Nat) :
    memcpy target source length = some (target.copy 0 source length) := by
  rw [memcpy, if_pos (Int.natCast_nonneg length), Int.toNat_natCast]

/-- A message of a natural length is sent. -/
theorem message_nat (memory : ByteMemory) (length : Nat) :
    message memory length = some (memory.take length) := by
  rw [message, if_pos (Int.natCast_nonneg length), Int.toNat_natCast]

/-- The length of a file is one that is served, unless the file is too long. -/
theorem inRange_length {length : Nat} (short : length ≤ maxFileLength) :
    InRange (some (length : Int)) := by
  intro used same
  obtain rfl := Option.mem_some_iff.mp same
  omega

/-- No length is used. -/
theorem inRange_none : InRange none := by
  intro used absent
  cases absent

section Regular

variable {bytes : List UInt8} {buffer value : ByteMemory}

/-- A regular file that is not too long is served. -/
theorem served_short (short : bytes.length ≤ maxFileLength) :
    (FileState.regular bytes).served = bytes := by
  rw [FileState.served, FileState.contents, Option.filter_some, if_pos (decide_eq_true short),
    Option.getD_some]

/-- A file that is too long is answered with nothing. -/
theorem served_long (long : maxFileLength < bytes.length) :
    (FileState.regular bytes).served = [] := by
  have refused : ¬ decide (bytes.length ≤ maxFileLength) = true := by simpa using long
  rw [FileState.served, FileState.contents, Option.filter_some, if_neg refused, Option.getD_none]

/-- The measured length of a short file is not over the limit. -/
theorem tellg_short (short : bytes.length ≤ maxFileLength) :
    ¬ (FileState.regular bytes).tellg > maxFileLength := by
  rw [FileState.tellg]
  omega

/-- The measured length of a file that is too long is over the limit. -/
theorem tellg_long (long : maxFileLength < bytes.length) :
    (FileState.regular bytes).tellg > maxFileLength := by
  rw [FileState.tellg]
  omega

/-! ## The three places -/

/-- While `reset_flag` is set a regular file is served. -/
theorem serveReset_regular :
    (serveReset (.regular bytes) buffer).Proper (FileState.regular bytes).served := by
  by_cases short : bytes.length ≤ maxFileLength
  · have limited : ¬ (FileState.regular bytes).tellg > maxFileLength := by
      rw [FileState.tellg]
      omega
    have used := inRange_length short
    have sent : message ((FileState.regular bytes).read buffer bytes.length) bytes.length =
        some bytes := by
      rw [read_regular, message_nat, take_write]
    unfold serveReset
    dsimp only
    rw [if_neg (tellg_short short), served_short short, FileState.tellg]
    exact ⟨sent, used, used, used⟩
  · have limited : (FileState.regular bytes).tellg > maxFileLength := by
      rw [FileState.tellg]
      omega
    have used : InRange (some (0 : Int)) := inRange_length (Nat.zero_le maxFileLength)
    have sent : message ((FileState.regular bytes).read buffer 0) 0 = some [] :=
      message_nat _ 0
    unfold serveReset
    dsimp only
    rw [if_pos (tellg_long (Nat.lt_of_not_le short)), served_long (Nat.lt_of_not_le short)]
    exact ⟨sent, used, used, used⟩

/-- A direct read inside `mog` that returns the bytes of a short file serves them. -/
theorem serveRead_short {read : FileRead} (short : bytes.length ≤ maxFileLength)
    (allocated : read.allocated = some (bytes.length : Int))
    (copied : read.copied = some (bytes.length : Int))
    (result : read.result = some ((bytes.length : Int), value.write bytes)) :
    (serveRead read).Proper bytes := by
  have used := inRange_length short
  have sent : message (value.write bytes) bytes.length = some bytes := by
    rw [message_nat, take_write]
  unfold serveRead
  rw [allocated, copied, result]
  exact ⟨sent, used, used, used⟩

/-- A direct read inside `mog` that returns 0 before it allocates serves nothing. -/
theorem serveRead_nothing {read : FileRead} (allocated : read.allocated = none)
    (copied : read.copied = none) (result : read.result = some (0, value)) :
    (serveRead read).Proper [] := by
  unfold serveRead
  rw [allocated, copied, result]
  exact ⟨message_nat value 0, inRange_none, inRange_none, inRange_length (Nat.zero_le _)⟩

/-- `read_file` copies a short file to the value buffer. -/
theorem readNotReady_short (short : bytes.length ≤ maxFileLength) :
    readNotReady (.regular bytes) buffer value =
      { allocated := some (bytes.length : Int)
        copied := some (bytes.length : Int)
        result := some ((bytes.length : Int), value.write bytes) } := by
  have opens : (FileState.regular bytes).isOpen = true := rfl
  unfold readNotReady
  dsimp only
  rw [if_pos opens, if_neg (tellg_short short), FileState.tellg, read_regular, memcpy_nat,
    copy_write,
    Option.map_some]

/-- `insert_file_with_copy` copies a short file to the value buffer, whether it writes it to the
store or not. -/
theorem insertFileWithCopy_short (hasRoom : Bool) (short : bytes.length ≤ maxFileLength) :
    insertFileWithCopy hasRoom (.regular bytes) buffer value =
      { allocated := some (bytes.length : Int)
        copied := some (bytes.length : Int)
        result := some ((bytes.length : Int), value.write bytes) } := by
  have opens : (FileState.regular bytes).isOpen = true := rfl
  unfold insertFileWithCopy
  dsimp only
  rw [if_pos opens, if_neg (tellg_short short), FileState.tellg, read_regular, memcpy_nat,
    memcpy_nat, copy_write,
    copy_write, Option.map_some]
  split <;> rfl

/-- Both return 0 for a file that is too long. -/
theorem read_long (hasRoom : Bool) (long : maxFileLength < bytes.length)
    (buffer value : ByteMemory) :
    readNotReady (.regular bytes) buffer value =
        { allocated := none, copied := none, result := some (0, value) } ∧
      insertFileWithCopy hasRoom (.regular bytes) buffer value =
        { allocated := none, copied := none, result := some (0, value) } := by
  have opens : (FileState.regular bytes).isOpen = true := rfl
  unfold readNotReady insertFileWithCopy
  dsimp only
  rw [if_pos opens, if_pos (tellg_long long), if_pos opens, if_pos (tellg_long long)]
  exact ⟨rfl, rfl⟩

/-- The test of the result leaves a length as it is. -/
theorem readUncached_short (hasRoom : Bool) (short : bytes.length ≤ maxFileLength) :
    readUncached hasRoom (.regular bytes) buffer value =
      { allocated := some (bytes.length : Int)
        copied := some (bytes.length : Int)
        result := some ((bytes.length : Int), value.write bytes) } := by
  have same : (if (bytes.length : Int) > 0 then (bytes.length : Int) else 0) = bytes.length := by
    split <;> omega
  unfold readUncached
  rw [insertFileWithCopy_short hasRoom short]
  dsimp only [Option.map_some]
  rw [same]

/-- A regular file is served in all three places. -/
theorem pathsAgree_regular (hasRoom : Bool) :
    PathsAgree hasRoom (.regular bytes) buffer value := by
  refine ⟨serveReset_regular, ?_⟩
  by_cases short : bytes.length ≤ maxFileLength
  · rw [served_short short, readNotReady_short short, readUncached_short hasRoom short]
    exact ⟨serveRead_short short rfl rfl rfl, serveRead_short short rfl rfl rfl⟩
  · have long := Nat.lt_of_not_le short
    obtain ⟨notReady, inserted⟩ := read_long hasRoom long buffer value
    rw [served_long long, notReady, readUncached, inserted]
    exact ⟨serveRead_nothing rfl rfl rfl, serveRead_nothing rfl rfl rfl⟩

end Regular

/-- While `reset_flag` is set, a path whose length cannot be obtained gets no reply, also where
there is no file. -/
theorem serveReset_unmeasured {file : FileState} (unmeasured : file.tellg = -1)
    (buffer : ByteMemory) : (serveReset file buffer).reply = none := by
  have limited : ¬ (-1 : Int) > maxFileLength := by omega
  unfold serveReset
  dsimp only
  rw [unmeasured, if_neg limited]
  rfl

/-- In every state of the mutable memory, the three places answer a request for the file alike, with
its bytes or with nothing if it is too long, exactly if its bytes can be read. -/
theorem paths_agree_iff (hasRoom : Bool) (file : FileState) (buffer value : ByteMemory) :
    PathsAgree hasRoom file buffer value ↔ ∃ bytes, file = .regular bytes := by
  constructor
  · rintro ⟨reset, -, -⟩
    cases file with
    | regular bytes => exact ⟨bytes, rfl⟩
    | missing | unsized =>
      have silent := reset.reply
      rw [serveReset_unmeasured rfl] at silent
      cases silent
  · rintro ⟨bytes, rfl⟩
    exact pathsAgree_regular hasRoom

/-- A path with no file behind it is answered with nothing by `read_file`, and not at all while
`reset_flag` is set. -/
theorem not_agree_missing :
    ¬ PathsAgree true .missing (fun _ => 0) (fun _ => 0) := by
  rintro ⟨reset, -, -⟩
  have silent := reset.reply
  rw [serveReset_unmeasured rfl] at silent
  cases silent

/-- The server has no wrong bytes for the file. -/
def ServerPlace.Right (place : ServerPlace) (file : FileState) : Prop :=
  ∀ stored, place = .cached stored → stored = file.served

/-- A file that cannot be opened is served with nothing, if it is served. -/
theorem serve_missing {place : ServerPlace} {buffer mogData : ByteMemory} {bytes : List UInt8}
    (right : place.Right .missing) (served : serve place .missing buffer mogData = some bytes) :
    bytes = [] := by
  cases place with
  | reset =>
    have silent : serve .reset .missing buffer mogData = none := serveReset_unmeasured rfl buffer
    rw [silent] at served
    cases served
  | notReady | uncached hasRoom =>
    exact (Option.some.inj served).symm
  | cached stored =>
    have nothing : stored = [] := right stored rfl
    rw [serve, message_nat, take_write] at served
    exact (Option.some.inj served).symm.trans nothing

/-- A server without wrong bytes that replies to a request for a regular or missing file replies
with what a direct read gives. -/
theorem serve_right {place : ServerPlace} {file : FileState} {buffer mogData : ByteMemory}
    {bytes : List UInt8} (right : place.Right file) (opens : file ≠ .unsized)
    (served : serve place file buffer mogData = some bytes) : bytes = file.served := by
  cases file with
  | unsized => exact absurd rfl opens
  | missing => exact serve_missing right served
  | regular contents =>
    have agree (hasRoom : Bool) : PathsAgree hasRoom (.regular contents) buffer mogData :=
      pathsAgree_regular hasRoom
    cases place with
    | reset => exact Option.some.inj (served.symm.trans (agree true).1.reply)
    | notReady => exact Option.some.inj (served.symm.trans (agree true).2.1.reply)
    | uncached hasRoom => exact Option.some.inj (served.symm.trans (agree hasRoom).2.2.reply)
    | cached stored =>
      rw [serve, message_nat, take_write] at served
      exact (Option.some.inj served).symm.trans (right stored rfl)

/-! ## The places in the steps of `Mog` -/

namespace Mog

variable {Db : Type*} {hash : String → UInt64} {leveldb : LevelDb Db} {config : MogConfig}
  {files : String → Option (List UInt8)} {paths : Set String} {mog next : Mog Db}
  {caller after : Caller}

/-- What `std::ifstream` meets where the files are all regular. -/
def stateOf (files : String → Option (List UInt8)) (path : String) : FileState :=
  match files path with
  | none => .missing
  | some bytes => .regular bytes

/-- The reply that should be sent is what a direct read gives. -/
theorem served_stateOf (path : String) : (stateOf files path).served = direct files path := by
  unfold stateOf direct readable FileState.served
  cases files path <;> rfl

/-- The direct read of a call is `readNotReady`. -/
theorem step_readDirect (path : String) (value buffer : ByteMemory) :
    mog.step hash leveldb config files { pc := .readDirect path, value } =
      (readNotReady (stateOf files path) buffer value).result.map fun (result, value) =>
        (mog, { pc := .done (.readFile path) result, value }) := by
  unfold step stateOf
  dsimp only
  cases found : files path with
  | none => rfl
  | some file =>
    dsimp only
    by_cases short : file.length ≤ maxFileLength
    · rw [if_neg (Nat.not_lt.mpr short), readNotReady_short short]
      rfl
    · have long := Nat.lt_of_not_le short
      rw [if_pos long, (read_long true long buffer value).1]
      rfl

/-- `readUncached` returns 0 for a file that is not served. -/
theorem readUncached_unread {path : String} (hasRoom : Bool)
    (unread : readable files path = none) (buffer value : ByteMemory) :
    (readUncached hasRoom (stateOf files path) buffer value).result = some (0, value) := by
  unfold stateOf
  cases found : files path with
  | none => rfl
  | some file =>
    have long : maxFileLength < file.length := by
      by_contra short
      rw [readable_eq_some found (Nat.le_of_not_lt short)] at unread
      cases unread
    dsimp only
    rw [readUncached, (read_long hasRoom long buffer value).2]
    rfl

/-- `readUncached` returns a file that is served. -/
theorem readUncached_read {path : String} {file : List UInt8} (hasRoom : Bool)
    (read : readable files path = some file) (buffer value : ByteMemory) :
    (readUncached hasRoom (stateOf files path) buffer value).result =
      some ((file.length : Int), value.write file) := by
  have found := files_of_readable read
  have short := short_of_readable read
  unfold stateOf
  rw [found]
  dsimp only
  rw [readUncached_short hasRoom short]

/-- A call that returns from `insert_file_with_copy` returns what `readUncached` does. -/
theorem step_insert_returns {path : String} {result : Int} (hasRoom : Bool) (buffer : ByteMemory)
    (filing : Filing hash paths files caller.pc) (no_read : caller.pc.reading = none)
    (not_direct : caller.pc ≠ .readDirect path)
    (stepped : mog.step hash leveldb config files caller = some (next, after))
    (returned : after.pc = .done (.readFile path) result) :
    (readUncached hasRoom (stateOf files path) buffer caller.value).result =
      some (result, after.value) := by
  obtain ⟨pc, value⟩ := caller
  cases step_access stepped with
  | directNothing other | directFile other =>
    obtain ⟨call, -⟩ := MogPc.done.inj returned
    have same : other = path := MogCall.readFile.inj call
    exact absurd (congrArg MogPc.readDirect same) not_direct
  | fileNothing other key unread =>
    obtain ⟨call, rfl⟩ := MogPc.done.inj returned
    obtain rfl := MogCall.readFile.inj call
    exact readUncached_unread hasRoom (readable_eq_none unread) buffer value
  | uncached other key file =>
    obtain ⟨call, rfl⟩ := MogPc.done.inj returned
    obtain rfl := MogCall.readFile.inj call
    exact readUncached_read hasRoom filing.2.2 buffer value
  | charged other file =>
    obtain ⟨call, rfl⟩ := MogPc.done.inj returned
    obtain rfl := MogCall.readFile.inj call
    exact readUncached_read hasRoom filing.2 buffer value
  | bufferReturned writer status =>
    obtain ⟨other, -, file, rfl, -⟩ := filing
    cases returned
  | bufferHit | itemCopied | indexMissed | itemInserted => cases no_read
  | synced => exact filing.elim
  | _ => cases returned

end Mog

end CudaDb
