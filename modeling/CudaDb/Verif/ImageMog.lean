import CudaDb.Verif.ImageCache
import CudaDb.Verif.ServingPaths

/-!
# Loading through the server

Both ways of compiling `ReadImageToCVMat` return the same image for a file that is cached, that is
missing, that is not longer than 64 MiB or that does not decode. A longer file is served with an
empty reply, which the client takes for a missing file.
-/

namespace CudaDb.ImageIo

variable {Image : Type*} {io : ImageIo Image} {cache : ImageCache Image} {call : ImageCall}
  {serverFiles : String → Option (List UInt8)} {place : ServerPlace} {buffer mogData : ByteMemory}

/-- What is documented of `cv::imdecode`: it returns an empty image for a buffer that is too short,
and for any other that it cannot decode. -/
structure Decodes (io : ImageIo Image) : Prop where
  /-- No image is decoded from no bytes. -/
  nothing : ∀ flag, io.imdecode [] flag = io.empty
  /-- An image without data is an empty image. -/
  failed : ∀ bytes flag, io.data (io.imdecode bytes flag) = false →
    io.imdecode bytes flag = io.empty

/-- The server sees at the resolved path the file that the client sees, has no wrong bytes for it,
and has sent the reply that `get` returns. A resolved path starts with '/', so the request is none
of those that start with '!'. -/
structure Served (io : ImageIo Image) (call : ImageCall)
    (serverFiles : String → Option (List UInt8)) (place : ServerPlace)
    (buffer mogData : ByteMemory) : Prop where
  /-- The files are the same. -/
  files : serverFiles (io.realpath call.filename) = io.files call.filename
  /-- The server has no wrong bytes. -/
  right : place.Right (Mog.stateOf serverFiles (io.realpath call.filename))
  /-- The reply. -/
  reply : serve place (Mog.stateOf serverFiles (io.realpath call.filename)) buffer mogData =
    some (io.get (io.realpath call.filename))

/-- The bytes that the client gets are those of a direct read. -/
theorem Served.get (served : io.Served call serverFiles place buffer mogData) :
    io.get (io.realpath call.filename) =
      ((io.files call.filename).filter fun bytes => bytes.length ≤ maxFileLength).getD [] := by
  have opens : Mog.stateOf serverFiles (io.realpath call.filename) ≠ .unsized := by
    unfold Mog.stateOf
    cases serverFiles (io.realpath call.filename) <;> intro same <;> cases same
  have bytes := serve_right served.right opens served.reply
  rw [bytes, Mog.served_stateOf, Mog.direct, Mog.readable, served.files]

/-- Without the server, the bytes of the file are decoded. -/
theorem decoded_direct {bytes : List UInt8} (found : io.files call.filename = some bytes) :
    io.decoded .direct call = io.imdecode bytes (cvReadFlag call.isColor) := by
  rw [decoded, found]

/-- The reply for a file that is too long is empty. -/
theorem decoded_long (served : io.Served call serverFiles place buffer mogData) {bytes : List UInt8}
    (found : io.files call.filename = some bytes) (long : maxFileLength < bytes.length) :
    io.decoded .mog call = io.empty := by
  have nothing : io.get (io.realpath call.filename) = [] := by
    have refused : ¬ decide (bytes.length ≤ maxFileLength) = true := by simpa using long
    rw [served.get, found, Option.filter_some, if_neg refused, Option.getD_none]
  rw [decoded, loadMog, nothing]
  rfl

/-- Both ways of loading decode the same image, unless the file is too long and decodes. -/
theorem decoded_eq (decodes : io.Decodes)
    (served : io.Served call serverFiles place buffer mogData)
    (usable : ∀ bytes, io.files call.filename = some bytes → bytes.length ≤ maxFileLength ∨
      io.data (io.imdecode bytes (cvReadFlag call.isColor)) = false) :
    io.decoded .mog call = io.decoded .direct call := by
  cases found : io.files call.filename with
  | none =>
    have nothing : io.get (io.realpath call.filename) = [] := by
      rw [served.get, found, Option.filter_none, Option.getD_none]
    rw [decoded, loadMog, nothing, decoded, found]
    rfl
  | some bytes =>
    by_cases short : bytes.length ≤ maxFileLength
    · have whole : io.get (io.realpath call.filename) = bytes := by
        rw [served.get, found, Option.filter_some, if_pos (decide_eq_true short), Option.getD_some]
      rw [decoded_direct found, decoded, loadMog, whole]
      by_cases blank : bytes.length = 0
      · rw [if_pos blank, List.eq_nil_of_length_eq_zero blank, decodes.nothing]
      · rw [if_neg blank]
    · have failed : io.data (io.imdecode bytes (cvReadFlag call.isColor)) = false :=
        (usable bytes found).resolve_left short
      rw [decoded_long served found (Nat.lt_of_not_le short), decoded_direct found]
      exact (decodes.failed bytes _ failed).symm

/-- In every state of the static variables and of the memory, and wherever the server replies from,
both ways of compiling `ReadImageToCVMat` return the same image for a file that is cached, missing,
at most 64 MiB long or that does not decode. For a longer file that is not cached the client
reports with an empty image that there is no such file. -/
theorem mog_eq_direct (reads : io.ReadsFiles) (decodes : io.Decodes)
    (served : io.Served call serverFiles place buffer mogData) (memory other : MemOccupy) :
    (call.filename ∈ cache.filecache ∨ (∀ bytes, io.files call.filename = some bytes →
        bytes.length ≤ maxFileLength ∨
          io.data (io.imdecode bytes (cvReadFlag call.isColor)) = false) →
      (io.readImageToCVMat .mog cache call memory).1 =
        (io.readImageToCVMat .direct cache call other).1) ∧
    ∀ bytes, call.filename ∉ cache.filecache → io.files call.filename = some bytes →
      maxFileLength < bytes.length → (io.readImageToCVMat .mog cache call memory).1 = io.empty := by
  cases found : cache.filecache.lookup call.filename with
  | some image =>
    have member : call.filename ∈ cache.filecache := Finmap.mem_of_lookup_eq_some found
    refine ⟨fun _ => ?_, fun _ absent => absurd member absent⟩
    rw [read_cached found, read_cached found]
  | none =>
    have absent : call.filename ∉ cache.filecache := Finmap.lookup_eq_none.mp found
    rw [(read_uncached reads found).1, (read_uncached reads found).1]
    constructor
    · intro usable
      rw [uncached, uncached, decoded_eq decodes served (usable.resolve_left absent)]
    · intro bytes _ present long
      rw [uncached, decoded_long served present long, io.empty_data]
      rfl

/-- Images that show the flag they were decoded with, from files that the server reads directly. -/
def flagMogIo (files : String → Option (List UInt8)) : ImageIo (Option Int) :=
  { ImageSession.flagIo files with get := Mog.direct files }

/-- No bytes, and no other bytes that cannot be decoded, give an image. -/
theorem flagMogIo_decodes (files : String → Option (List UInt8)) : (flagMogIo files).Decodes := by
  constructor
  · exact fun _ => rfl
  · intro bytes flag failed
    show (if bytes = [] then none else some flag) = none
    by_cases blank : bytes = []
    · rw [if_pos blank]
    · have shown : (if bytes = [] then none else some flag) = some flag := if_neg blank
      have without : (if bytes = [] then none else some flag).isSome = false := failed
      rw [shown] at without
      cases without

/-- A server that is not ready replies with what a direct read gives. -/
theorem flagMogIo_served {files : String → Option (List UInt8)} {bytes : List UInt8}
    {call : ImageCall} (found : files call.filename = some bytes) :
    (flagMogIo files).Served call files .notReady (fun _ => 0) (fun _ => 0) := by
  have state : Mog.stateOf files call.filename = .regular bytes := by rw [Mog.stateOf, found]
  have agree : PathsAgree true (.regular bytes) (fun _ => 0) (fun _ => 0) :=
    pathsAgree_regular true
  constructor
  · rfl
  · intro stored other
    cases other
  · show serve .notReady (Mog.stateOf files call.filename) _ _ =
      some (Mog.direct files call.filename)
    rw [← Mog.served_stateOf, state]
    exact agree.2.1.reply

/-- A short image file is loaded in both ways. -/
theorem mog_eq_direct_short :
    ((flagMogIo ImageSession.oneImage).readImageToCVMat .mog .initial ⟨"a", 0, 0, true⟩
        ImageSession.halfFree).1 =
      ((flagMogIo ImageSession.oneImage).readImageToCVMat .direct .initial ⟨"a", 0, 0, true⟩
        ImageSession.halfFree).1 := by
  have found : ImageSession.oneImage "a" = some [7] := rfl
  have short : ∀ bytes, ImageSession.oneImage "a" = some bytes →
      bytes.length ≤ maxFileLength := by
    intro bytes same
    obtain rfl := Option.some.inj (found.symm.trans same)
    decide
  have reads : (flagMogIo ImageSession.oneImage).ReadsFiles :=
    ImageSession.flagIo_readsFiles ImageSession.oneImage
  have served : (flagMogIo ImageSession.oneImage).Served ⟨"a", 0, 0, true⟩ ImageSession.oneImage
    .notReady (fun _ => 0) (fun _ => 0) := flagMogIo_served found
  exact (mog_eq_direct reads (flagMogIo_decodes ImageSession.oneImage) served ImageSession.halfFree
    ImageSession.halfFree).1 (Or.inr fun bytes same => Or.inl (short bytes same))

/-- One image file of 64 MiB and one byte. -/
def longImage (filename : String) : Option (List UInt8) :=
  if filename = "a" then some (List.replicate (maxFileLength + 1) 7) else none

/-- A file of 64 MiB and one byte is loaded directly, and not through the server. -/
theorem mog_ne_direct_long :
    (flagMogIo longImage).Served ⟨"a", 0, 0, true⟩ longImage .notReady (fun _ => 0) (fun _ => 0) ∧
      ((flagMogIo longImage).readImageToCVMat .mog .initial ⟨"a", 0, 0, true⟩
        ImageSession.halfFree).1 ≠
      ((flagMogIo longImage).readImageToCVMat .direct .initial ⟨"a", 0, 0, true⟩
        ImageSession.halfFree).1 := by
  have found : longImage "a" = some (List.replicate (maxFileLength + 1) 7) := rfl
  have served : (flagMogIo longImage).Served ⟨"a", 0, 0, true⟩ longImage .notReady (fun _ => 0)
    (fun _ => 0) := flagMogIo_served found
  have long : maxFileLength < (List.replicate (maxFileLength + 1) (7 : UInt8)).length := by
    rw [List.length_replicate]
    omega
  have reads : (flagMogIo longImage).ReadsFiles := ImageSession.flagIo_readsFiles longImage
  have absent : (ImageCache.initial : ImageCache (Option Int)).filecache.lookup "a" = none := rfl
  have blank : ¬ List.replicate (maxFileLength + 1) (7 : UInt8) = [] := by
    rw [List.replicate_succ]
    exact List.cons_ne_nil _ _
  have through : (flagMogIo longImage).decoded .mog ⟨"a", 0, 0, true⟩ = none :=
    decoded_long served found long
  have directly : (flagMogIo longImage).decoded .direct ⟨"a", 0, 0, true⟩ = some 1 :=
    (decoded_direct found).trans (if_neg blank)
  refine ⟨served, ?_⟩
  rw [(read_uncached reads absent).1, (read_uncached reads absent).1, uncached, uncached, through,
    directly]
  decide

end CudaDb.ImageIo
