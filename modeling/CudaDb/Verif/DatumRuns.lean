import CudaDb.Verif.DatumPlanes
import CudaDb.Verif.ImageCache

/-!
# Reading and decoding a `Datum`

Whatever is called on a `Datum`, it has either an image file or the pixels of an image, and in the
second case as many bytes as its three sizes say. The encoding makes no difference in the end: a
datum that was read with a lossless encoding and then decoded is the datum that is read without one,
also where `ReadImageToDatum` copies the file instead of encoding the image. The test of the
channels is what makes the copy safe, since a cached image may have been decoded in the other colour
mode.
-/

namespace CudaDb

variable {io : DatumIo} {build : Build}

/-! ## What a datum can be -/

/-- The datum has an image file, or the pixels of an image. -/
def Datum.Proper (datum : Datum) : Prop := datum.encoded = true ∨ ∃ cvImg, datum.Shows cvImg

/-- A datum that nothing was set in shows an image without pixels. -/
theorem Datum.blank_proper : Datum.blank.Proper := by
  refine Or.inr ⟨⟨0, 0, 0, 0, fun _ _ => 0⟩, rfl, rfl, rfl, rfl, rfl, rfl, ?_⟩
  intro channel row column inside
  exact absurd inside.row (Nat.not_lt_zero row)

/-- What a datum shows does not depend on its label. -/
theorem Datum.Shows.relabel {datum : Datum} {cvImg : Mat} (shown : datum.Shows cvImg)
    (label : Int) : { datum with label }.Shows cvImg :=
  ⟨shown.raw, shown.noFloats, shown.channels, shown.height, shown.width, shown.length, shown.bytes⟩

/-- `ReadFileToDatum` leaves the datum or puts a file into it. -/
theorem DatumIo.readFileToDatum_proper {filename : String} {label : Int} {datum : Datum}
    (proper : datum.Proper) : (io.readFileToDatum filename label datum).2.Proper := by
  unfold readFileToDatum
  cases io.image.files filename with
  | none => exact proper
  | some buffer => exact Or.inl rfl

/-- `DecodeDatum` leaves the datum or puts pixels into it. -/
theorem DatumIo.decodeWith_proper {flag : Int} {datum : Datum} {result : Bool × Datum}
    (proper : datum.Proper) (decoded : io.decodeWith flag datum = some result) :
    result.2.Proper := by
  unfold decodeWith at decoded
  by_cases encoded : datum.encoded = true
  · rw [if_pos encoded] at decoded
    obtain ⟨cvImg, -, made⟩ := Option.bind_eq_some_iff.mp decoded
    obtain ⟨filled, filling, rfl⟩ := Option.map_eq_some_iff.mp made
    exact Or.inr ⟨cvImg, (Datum.cvMatToDatum_shows filling).1⟩
  · rw [if_neg encoded] at decoded
    rw [← Option.some.inj decoded]
    exact proper

/-- `ReadImageToDatum` leaves the datum, or puts a file or pixels into it. -/
theorem DatumIo.readImageToDatum_proper {cache after : ImageCache Mat} {call : ImageCall}
    {memory : MemOccupy} {label : Int} {encoding : String} {datum : Datum}
    {result : Bool × Datum} (proper : datum.Proper)
    (done : io.readImageToDatum build cache call memory label encoding datum =
      some (result, after)) : result.2.Proper := by
  unfold readImageToDatum at done
  dsimp only at done
  split at done
  · split at done
    · split at done
      · obtain ⟨rfl, -⟩ := Prod.mk.inj (Option.some.inj done)
        exact readFileToDatum_proper proper
      · obtain ⟨rfl, -⟩ := Prod.mk.inj (Option.some.inj done)
        exact Or.inl rfl
    · obtain ⟨filled, filling, same⟩ := Option.map_eq_some_iff.mp done
      obtain ⟨rfl, -⟩ := Prod.mk.inj same
      exact Or.inr ⟨_, (Datum.cvMatToDatum_shows filling).1.relabel label⟩
  · obtain ⟨rfl, -⟩ := Prod.mk.inj (Option.some.inj done)
    exact proper

namespace DatumSession

/-- One call keeps the datum proper. -/
theorem step_proper {session next : DatumSession} {call : DatumCall}
    (proper : session.datum.Proper) (stepped : (machine io build).step session call = some next) :
    next.datum.Proper := by
  cases call with
  | readImage call memory label encoding =>
    obtain ⟨⟨result, cache⟩, done, rfl⟩ := Option.map_eq_some_iff.mp stepped
    exact DatumIo.readImageToDatum_proper proper done
  | readFile filename label =>
    obtain rfl := Option.some.inj stepped
    exact DatumIo.readFileToDatum_proper proper
  | decode isColor =>
    obtain ⟨result, decoded, rfl⟩ := Option.map_eq_some_iff.mp stepped
    exact DatumIo.decodeWith_proper proper decoded
  | decodeNative =>
    obtain ⟨result, decoded, rfl⟩ := Option.map_eq_some_iff.mp stepped
    exact DatumIo.decodeWith_proper proper decoded

/-! ## The images in the cache -/

/-- Every image in the cache was decoded for its file name, in one of the colour modes. -/
def Decoded (io : DatumIo) (build : Build) (cache : ImageCache Mat) : Prop :=
  ∀ filename image, cache.filecache.lookup filename = some image →
    ∃ earlier : ImageCall, earlier.filename = filename ∧
      image = io.image.decoded build earlier

/-- A call returns an image that was decoded for its file name, in its size if that has data, and
leaves such images in the cache. -/
theorem read_decoded (reads : io.image.ReadsFiles) {cache : ImageCache Mat}
    (kept : Decoded io build cache) (call : ImageCall) (memory : MemOccupy) :
    (∃ earlier : ImageCall, earlier.filename = call.filename ∧
      ((io.image.readImageToCVMat build cache call memory).1 = io.image.decoded build earlier ∨
        (io.image.readImageToCVMat build cache call memory).1 =
          io.image.sizeTo call (io.image.decoded build earlier))) ∧
      Decoded io build (io.image.readImageToCVMat build cache call memory).2 := by
  cases found : cache.filecache.lookup call.filename with
  | some image =>
    rw [ImageIo.read_cached found]
    obtain ⟨earlier, filename, rfl⟩ := kept _ _ found
    exact ⟨⟨earlier, filename, Or.inr rfl⟩, kept⟩
  | none =>
    have ⟨image, caches⟩ : (io.image.readImageToCVMat build cache call memory).1 = _ ∧ _ :=
      ImageIo.read_uncached reads found
    rw [image]
    constructor
    · refine ⟨call, rfl, ?_⟩
      unfold ImageIo.uncached
      by_cases decodes : io.image.data (io.image.decoded build call) = true
      · rw [if_pos decodes]
        exact Or.inr rfl
      · rw [if_neg decodes]
        exact Or.inl rfl
    · intro filename other cached
      rcases caches with same | ⟨inserted, -⟩
      · rw [same] at cached
        exact kept filename other cached
      · rw [inserted, Table.lookup_insert_if] at cached
        by_cases here : filename = call.filename
        · rw [if_pos here] at cached
          exact ⟨call, here.symm, (Option.some.inj cached).symm⟩
        · rw [if_neg here] at cached
          exact kept filename other cached

/-- The cache of every session has such images only. -/
theorem run_decoded (reads : io.image.ReadsFiles) {datum : Datum} {calls : List DatumCall}
    {session : DatumSession} (ran : (machine io build).run ⟨.initial, datum⟩ calls = some session) :
    Decoded io build session.cache := by
  have initially : Decoded io build (.initial : ImageCache Mat) := by
    intro filename image found
    cases found
  refine Machine.run_invariant (fun session => Decoded io build session.cache) ?_ initially ran
  intro before call after kept stepped
  cases call with
  | readImage call memory label encoding =>
    obtain ⟨⟨result, cache⟩, done, rfl⟩ := Option.map_eq_some_iff.mp stepped
    have left : cache = (io.image.readImageToCVMat build before.cache call memory).2 := by
      unfold DatumIo.readImageToDatum at done
      dsimp only at done
      split at done
      · split at done
        · split at done
          · exact (Prod.mk.inj (Option.some.inj done)).2.symm
          · exact (Prod.mk.inj (Option.some.inj done)).2.symm
        · obtain ⟨filled, -, same⟩ := Option.map_eq_some_iff.mp done
          exact (Prod.mk.inj same).2.symm
      · exact (Prod.mk.inj (Option.some.inj done)).2.symm
    show Decoded io build cache
    rw [left]
    exact (read_decoded reads kept call memory).2
  | readFile filename label =>
    obtain rfl := Option.some.inj stepped
    exact kept
  | decode isColor =>
    obtain ⟨result, -, rfl⟩ := Option.map_eq_some_iff.mp stepped
    exact kept
  | decodeNative =>
    obtain ⟨result, -, rfl⟩ := Option.map_eq_some_iff.mp stepped
    exact kept

/-- After any calls that pass their checks, on a datum in which nothing was set, the datum has an
image file, or the pixels of one image with as many bytes as its sizes say. -/
theorem run_proper {cache : ImageCache Mat} {calls : List DatumCall} {session : DatumSession}
    (ran : (machine io build).run ⟨cache, Datum.blank⟩ calls = some session) :
    session.datum.Proper :=
  Machine.run_invariant (fun session => session.datum.Proper)
    (fun _ _ _ => step_proper) Datum.blank_proper ran

/-! ## Encoding makes no difference -/

/-- The number of channels of a colour mode. -/
def modeChannels (isColor : Bool) : Nat := if isColor then 3 else 1

/-- The modes have different numbers of channels. -/
theorem modeChannels_inj {first second : Bool} (same : modeChannels first = modeChannels second) :
    first = second := by
  cases first <;> cases second <;> first | rfl | cases same

/-- What is documented of `cv::imdecode`: an image is decoded to the channels of the mode. -/
def DecodesMode (io : DatumIo) : Prop :=
  ∀ bytes isColor, io.image.data (io.image.imdecode bytes (cvReadFlag isColor)) = true →
    (io.image.imdecode bytes (cvReadFlag isColor)).channels = modeChannels isColor

/-- The encoding is lossless on images of unsigned bytes in the colour mode. -/
def Lossless (io : DatumIo) (encoding : String) (isColor : Bool) : Prop :=
  ∀ image, io.image.data image = true → image.depth = 0 → image.channels = modeChannels isColor →
    (io.image.imdecode (io.imencode ("." ++ encoding) image) (cvReadFlag isColor)).depth = 0 ∧
      image.Same (io.image.imdecode (io.imencode ("." ++ encoding) image) (cvReadFlag isColor))

/-- An image that takes the place of another in a datum. -/
theorem cvMatToDatum_same {first second : Mat} (same : first.Same second)
    (unsigned : first.depth = 0) (also : second.depth = 0) (sized : first.Sized)
    {datum other : Datum} :
    cvMatToDatum second other =
      (cvMatToDatum first datum).map fun filled => { filled with label := other.label } := by
  have otherSized : second.Sized := by
    unfold Mat.Sized at sized ⊢
    rw [← same.rows, ← same.cols, ← same.channels]
    exact sized
  rw [Datum.cvMatToDatum_eq also otherSized, Datum.cvMatToDatum_eq unsigned sized, Option.map_some,
    same.rows, same.cols, same.channels,
    (Mat.planarBytes_eq_iff same.rows same.cols same.channels).mpr same]

/-- Only images of unsigned bytes whose size fits are taken. -/
theorem cvMatToDatum_takes {image : Mat} {datum filled : Datum}
    (made : cvMatToDatum image datum = some filled) : image.depth = 0 ∧ image.Sized := by
  unfold cvMatToDatum at made
  by_cases unsigned : image.depth = 0
  · rw [if_pos unsigned] at made
    by_cases sized : image.Sized
    · exact ⟨unsigned, sized⟩
    · rw [if_neg sized] at made
      cases made
  · rw [if_neg unsigned] at made
    cases made

/-- An image that a call returns in its own size, in the mode of the call, is decoded from the bytes
of the file. -/
theorem image_of_file (reads : io.image.ReadsFiles) (modes : DecodesMode io)
    (sees : ∀ call, io.image.decoded build call = io.image.decoded .direct call)
    {cache : ImageCache Mat} (kept : Decoded io build cache) {call : ImageCall}
    {memory : MemOccupy} (whole : call.height = 0)
    (data : io.image.data (io.image.readImageToCVMat build cache call memory).1 = true)
    (mode : (io.image.readImageToCVMat build cache call memory).1.channels =
      modeChannels call.isColor) :
    ∃ bytes, io.image.files call.filename = some bytes ∧
      (io.image.readImageToCVMat build cache call memory).1 =
        io.image.imdecode bytes (cvReadFlag call.isColor) := by
  obtain ⟨⟨earlier, filename, either⟩, -⟩ := read_decoded reads kept call memory
  have unsized : ¬ call.sized = true := by
    unfold ImageCall.sized
    rw [whole]
    simp
  have image : (io.image.readImageToCVMat build cache call memory).1 =
      io.image.decoded .direct earlier := by
    rw [← sees]
    rcases either with plain | resized
    · exact plain
    · rw [resized, ImageIo.sizeTo, if_neg unsized]
  rw [image] at data mode ⊢
  unfold ImageIo.decoded at data mode ⊢
  rw [← filename]
  cases found : io.image.files earlier.filename with
  | none =>
    rw [found] at data
    rw [io.image.empty_data] at data
    cases data
  | some bytes =>
    rw [found] at data mode
    refine ⟨bytes, rfl, ?_⟩
    have same : earlier.isColor = call.isColor :=
      modeChannels_inj ((modes bytes earlier.isColor data).symm.trans mode)
    rw [same]

/-- After any calls, in any colour modes, for a file that `ReadImageToDatum` reads without an
encoding, into an image with the channels of the mode: reading it with a lossless encoding succeeds
too, leaves the same static variables, and `DecodeDatum` then makes the very datum that the reading
without an encoding makes. -/
theorem decode_read_encoded (reads : io.image.ReadsFiles) (modes : DecodesMode io)
    (sees : ∀ call, io.image.decoded build call = io.image.decoded .direct call)
    {encoding : String} (encodes : encoding ≠ "") {call : ImageCall}
    (lossless : Lossless io encoding call.isColor) {datum : Datum} {calls : List DatumCall}
    {session : DatumSession} (ran : (machine io build).run ⟨.initial, datum⟩ calls = some session)
    {memory : MemOccupy} {label : Int} {shown : Datum} {after : ImageCache Mat}
    (plain : io.readImageToDatum build session.cache call memory label "" session.datum =
      some ((true, shown), after))
    (mode : (io.image.readImageToCVMat build session.cache call memory).1.channels =
      modeChannels call.isColor) :
    ∃ stored, io.readImageToDatum build session.cache call memory label encoding session.datum =
        some ((true, stored), after) ∧ stored.encoded = true ∧
      io.decodeDatum call.isColor stored = some (true, shown) := by
  have kept := run_decoded reads ran
  unfold DatumIo.readImageToDatum at plain ⊢
  dsimp only at plain ⊢
  by_cases data : io.image.data (io.image.readImageToCVMat build session.cache call memory).1 = true
  swap
  · rw [if_neg data] at plain
    cases plain
  rw [if_pos data, if_neg (not_not.mpr rfl)] at plain
  rw [if_pos data, if_pos encodes]
  obtain ⟨filled, filling, same⟩ := Option.map_eq_some_iff.mp plain
  obtain ⟨both, rfl⟩ := Prod.mk.inj same
  obtain ⟨-, rfl⟩ := Prod.mk.inj both
  obtain ⟨unsigned, sized⟩ := cvMatToDatum_takes filling
  have decodes {stored : Datum} {image : Mat} (encoded : stored.encoded = true)
      (labelled : stored.label = label)
      (decoding : io.image.imdecode stored.data (cvReadFlag call.isColor) = image)
      (again : image.depth = 0)
      (pixels : (io.image.readImageToCVMat build session.cache call memory).1.Same image) :
      io.decodeDatum call.isColor stored = some (true, { filled with label }) := by
    unfold DatumIo.decodeDatum DatumIo.decodeWith DatumIo.decodeDatumToCVMat
    rw [if_pos encoded, if_pos encoded, Option.bind_some, decoding,
      cvMatToDatum_same pixels unsigned again sized, filling, labelled]
    rfl
  by_cases copies :
      (decide ((io.image.readImageToCVMat build session.cache call memory).1.channels = 3) =
          call.isColor ∧ call.height = 0 ∧ call.width = 0) ∧
        matchExt call.filename encoding = true
  · obtain ⟨bytes, found, image⟩ :=
      image_of_file reads modes sees kept copies.1.2.1 data mode
    rw [if_pos copies, DatumIo.readFileToDatum, found]
    exact ⟨_, rfl, rfl, decodes rfl rfl image.symm unsigned ⟨rfl, rfl, rfl, fun _ _ _ _ => rfl⟩⟩
  · rw [if_neg copies]
    obtain ⟨again, pixels⟩ := lossless _ data unsigned mode
    exact ⟨_, rfl, rfl, decodes rfl rfl rfl again pixels⟩

/-! ## A lossless encoding -/

/-- A number in unary, closed by 0. -/
def unary (number : Nat) : List UInt8 := List.replicate number 1 ++ [0]

/-- A number in unary at the front of some bytes, and what follows it. -/
def readUnary : List UInt8 → Nat × List UInt8
  | [] => (0, [])
  | first :: rest =>
    if first = 0 then (0, rest) else ((readUnary rest).1 + 1, (readUnary rest).2)

/-- A number in unary is read back. -/
theorem readUnary_unary (number : Nat) (rest : List UInt8) :
    readUnary (unary number ++ rest) = (number, rest) := by
  induction number with
  | zero => rfl
  | succ number ih =>
    have more : unary (number + 1) ++ rest = 1 :: (unary number ++ rest) := rfl
    rw [more, readUnary, if_neg (by decide), ih]

/-- An encoding of the two sides of an image and its bytes, row by row. -/
def encodeRows (_ext : String) (image : Mat) : List UInt8 :=
  unary image.rows ++ (unary image.cols ++
    (List.range (image.rows * (image.cols * image.channels))).map fun index =>
      image.ptr (index / (image.cols * image.channels)) (index % (image.cols * image.channels)))

/-- The image in an encoding, with the channels of the mode. -/
def decodeRows (bytes : List UInt8) (flag : Int) : Mat where
  rows := (readUnary bytes).1
  cols := (readUnary (readUnary bytes).2).1
  channels := if flag = 1 then 3 else 1
  depth := 0
  ptr row index := (readUnary (readUnary bytes).2).2.getD
    (row * ((readUnary (readUnary bytes).2).1 * if flag = 1 then 3 else 1) + index) 0

/-- One image file of a single pixel in grayscale. -/
def onePixelFile (filename : String) : Option (List UInt8) :=
  if filename = "a" then some [1, 0, 1, 0, 77] else none

/-- Images in that encoding. -/
def rowsIo : DatumIo where
  image :=
    { empty := ⟨0, 0, 1, 0, fun _ _ => 0⟩
      data := fun image => decide (image.rows ≠ 0)
      empty_data := rfl
      rows := fun image => image.rows
      cols := fun image => image.cols
      imdecode := decodeRows
      imread := fun filename flag => match onePixelFile filename with
        | none => ⟨0, 0, 1, 0, fun _ _ => 0⟩
        | some buffer => decodeRows buffer flag
      resize := fun image _ _ => image
      truncated := fun length => length
      scaled := fun length _ _ => length
      files := onePixelFile
      realpath := fun path => path
      get := fun _ => [] }
  imencode := encodeRows

/-- The flag of a colour mode gives its channels. -/
theorem channels_of_flag (isColor : Bool) :
    (if cvReadFlag isColor = 1 then 3 else 1) = modeChannels isColor := by
  cases isColor <;> rfl

/-- Images are decoded to the channels of the mode. -/
theorem rowsIo_modes : DecodesMode rowsIo := fun _ isColor _ => channels_of_flag isColor

/-- The encoding is lossless. -/
theorem rowsIo_lossless (encoding : String) (isColor : Bool) :
    Lossless rowsIo encoding isColor := by
  intro image data unsigned channels
  refine ⟨rfl, ?_⟩
  change image.Same (decodeRows (encodeRows ("." ++ encoding) image) (cvReadFlag isColor))
  unfold decodeRows encodeRows
  rw [readUnary_unary, readUnary_unary, channels_of_flag, ← channels]
  refine ⟨rfl, rfl, rfl, fun channel row column inside => ?_⟩
  have line : column * image.channels + channel < image.cols * image.channels := by
    calc column * image.channels + channel
        < column * image.channels + image.channels := Nat.add_lt_add_left inside.plane _
      _ = (column + 1) * image.channels := (Nat.succ_mul column image.channels).symm
      _ ≤ image.cols * image.channels := Nat.mul_le_mul_right _ inside.column
  have within : row * (image.cols * image.channels) + (column * image.channels + channel) <
      image.rows * (image.cols * image.channels) := by
    calc row * (image.cols * image.channels) + (column * image.channels + channel)
        < row * (image.cols * image.channels) + image.cols * image.channels :=
          Nat.add_lt_add_left line _
      _ = (row + 1) * (image.cols * image.channels) := (Nat.succ_mul row _).symm
      _ ≤ image.rows * (image.cols * image.channels) := Nat.mul_le_mul_right _ inside.row
  have quotient : (row * (image.cols * image.channels) + (column * image.channels + channel)) /
      (image.cols * image.channels) = row := by
    rw [Nat.add_comm, Nat.add_mul_div_right _ _ (Nat.zero_lt_of_lt line), Nat.div_eq_of_lt line,
      Nat.zero_add]
  unfold Mat.byte
  dsimp only
  rw [List.getD_eq_getElem?_getD, List.getElem?_map, List.getElem?_range within, Option.map_some,
    Option.getD_some, quotient, Nat.mul_add_mod_of_lt line]

/-- An image in grayscale is read with the encoding, after its file had been read, and decoded to
the datum that is read without the encoding. -/
theorem decode_read_encoded_one :
    ∃ session shown after stored,
      (machine rowsIo .direct).run ⟨.initial, Datum.blank⟩ [.readFile "a" 5] = some session ∧
      rowsIo.readImageToDatum .direct session.cache ⟨"a", 0, 0, false⟩ ⟨1, 2⟩ 7 "" session.datum =
        some ((true, shown), after) ∧ shown.data = [77] ∧
      rowsIo.readImageToDatum .direct session.cache ⟨"a", 0, 0, false⟩ ⟨1, 2⟩ 7 "png"
        session.datum = some ((true, stored), after) ∧ stored.encoded = true ∧
      rowsIo.decodeDatum false stored = some (true, shown) := by
  have reads : rowsIo.image.ReadsFiles := fun _ _ => rfl
  have executed : ∃ session shown after,
      (machine rowsIo .direct).run ⟨.initial, Datum.blank⟩ [.readFile "a" 5] = some session ∧
      rowsIo.readImageToDatum .direct session.cache ⟨"a", 0, 0, false⟩ ⟨1, 2⟩ 7 "" session.datum =
        some ((true, shown), after) ∧ shown.data = [77] ∧
      (rowsIo.image.readImageToCVMat .direct session.cache ⟨"a", 0, 0, false⟩ ⟨1, 2⟩).1.channels =
        modeChannels false := ⟨_, _, _, rfl, rfl, rfl, rfl⟩
  obtain ⟨session, shown, after, ran, plain, pixel, mode⟩ := executed
  obtain ⟨stored, again, encoded, decoded⟩ := decode_read_encoded reads rowsIo_modes
    (fun _ => rfl) (by decide) (rowsIo_lossless "png" false) ran plain mode
  exact ⟨session, shown, after, stored, ran, plain, pixel, again, encoded, decoded⟩

/-- An image file that is read and decoded leaves a datum of one byte. -/
theorem run_proper_one : ∃ session : DatumSession,
    (machine rowsIo .direct).run ⟨.initial, Datum.blank⟩ [.readFile "a" 5, .decode false] =
      some session ∧ session.datum.data = [77] ∧ session.datum.Proper := by
  have executed : ∃ session : DatumSession,
      (machine rowsIo .direct).run ⟨.initial, Datum.blank⟩ [.readFile "a" 5, .decode false] =
        some session ∧ session.datum.data = [77] := ⟨_, rfl, rfl⟩
  obtain ⟨session, ran, byte⟩ := executed
  exact ⟨session, ran, byte, run_proper ran⟩

end DatumSession

/-! ## When the file is copied -/

/-- From the last position of a letter on, a text starts with it. -/
theorem drop_rfind {letter : Char} {text : List Char} {position : Nat}
    (found : rfind letter text = some position) : ∃ rest, text.drop position = letter :: rest := by
  induction text generalizing position with
  | nil => cases found
  | cons first text ih =>
    unfold rfind at found
    cases later : rfind letter text with
    | some other =>
      rw [later] at found
      obtain rfl := Option.some.inj found
      exact ih later
    | none =>
      rw [later] at found
      dsimp only at found
      by_cases same : first = letter
      · rw [if_pos same] at found
        obtain rfl := Option.some.inj found
        exact ⟨text, by rw [List.drop_zero, same]⟩
      · rw [if_neg same] at found
        cases found

/-- A letter that a text has is found. -/
theorem rfind_isSome {letter : Char} {text : List Char} (member : letter ∈ text) :
    ∃ position, rfind letter text = some position := by
  induction text with
  | nil => exact absurd member List.not_mem_nil
  | cons first text ih =>
    unfold rfind
    cases later : rfind letter text with
    | some other => exact ⟨_, rfl⟩
    | none =>
      have here : first = letter := by
        rcases List.mem_cons.mp member with same | inside
        · exact same.symm
        · obtain ⟨position, found⟩ := ih inside
          rw [later] at found
          cases found
      exact ⟨0, if_pos here⟩

/-- `matchExt` keeps the dot of the extension, so a name with an extension matches no encoding that
does not start with a dot: `ReadImageToDatum` then always encodes the image itself. -/
theorem matchExt_dotted {fn en : String} (dotted : '.' ∈ fn.toList)
    (plain : ∀ rest, en.toList.map Char.toLower ≠ '.' :: rest) : matchExt fn en = false := by
  obtain ⟨position, found⟩ := rfind_isSome dotted
  obtain ⟨rest, extension⟩ := drop_rfind found
  unfold matchExt
  rw [found]
  dsimp only
  rw [extension, List.map_cons]
  have dot : Char.toLower '.' = '.' := rfl
  rw [dot]
  apply decide_eq_false
  rintro (same | ⟨-, other⟩)
  · exact plain _ same.symm
  · cases (List.cons.inj other).1

end CudaDb
