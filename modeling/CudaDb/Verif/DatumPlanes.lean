import CudaDb.Model.Datum

/-!
# The pixels in a `Datum`

`CVMatToDatum` copies the bytes of an image in the order of their rows, columns and channels, and
puts each to its place in its channel. The points that were copied before the next byte come first
in that order; this is what the three loops carry on. At the end every place of the buffer has been
written, once, so a datum tells its image.
-/

namespace CudaDb

open Grid

namespace Mat

variable {cvImg : Mat} {buffer : List UInt8} {channel row column : Nat}

/-- A point of the image. -/
def Has (cvImg : Mat) (channel row column : Nat) : Prop :=
  Inside cvImg.channels cvImg.rows cvImg.cols channel row column

/-- The byte of a channel of a pixel. -/
def byte (cvImg : Mat) (channel row column : Nat) : UInt8 :=
  cvImg.ptr row (column * cvImg.channels + channel)

/-- The point comes before this row, column and channel in the order of the loops. -/
def Before (row column channel c h w : Nat) : Prop :=
  h < row ∨ h = row ∧ (w < column ∨ w = column ∧ c < channel)

/-- The buffer has the bytes of all the points before this row, column and channel. -/
structure Copied (cvImg : Mat) (row column channel : Nat) (buffer : List UInt8) : Prop where
  /-- The buffer is as long as the image is large. -/
  length : buffer.length = cvImg.channels * cvImg.rows * cvImg.cols
  /-- The bytes that were copied are at their places. -/
  bytes : ∀ c h w, cvImg.Has c h w → Before row column channel c h w →
    buffer[place cvImg.rows cvImg.cols c h w]? = some (cvImg.byte c h w)

/-- Only the points before count. -/
theorem Copied.congr {otherRow otherColumn otherChannel : Nat}
    (copied : Copied cvImg row column channel buffer)
    (same : ∀ c h w, cvImg.Has c h w → Before otherRow otherColumn otherChannel c h w →
      Before row column channel c h w) :
    Copied cvImg otherRow otherColumn otherChannel buffer :=
  ⟨copied.length, fun c h w inside before => copied.bytes c h w inside (same c h w inside before)⟩

/-- One turn of the innermost loop copies one byte. -/
theorem copyByte_copied {imgIndex : Nat} (inside : cvImg.Has channel row column)
    (copied : Copied cvImg row column channel buffer)
    (index : imgIndex = column * cvImg.channels + channel) :
    Copied cvImg row column (channel + 1)
      (copyByte cvImg row column (buffer, imgIndex) channel).1 := by
  refine ⟨by rw [copyByte, List.length_set]; exact copied.length, ?_⟩
  intro c h w point before
  have within : place cvImg.rows cvImg.cols channel row column < buffer.length := by
    rw [copied.length]
    exact inside.place_lt
  change (buffer.set (place cvImg.rows cvImg.cols channel row column)
    (cvImg.ptr row imgIndex))[place cvImg.rows cvImg.cols c h w]? = _
  by_cases here : place cvImg.rows cvImg.cols channel row column =
      place cvImg.rows cvImg.cols c h w
  · obtain ⟨rfl, rfl, rfl⟩ := inside.place_inj point here
    rw [List.getElem?_set_self within, index]
    rfl
  · rw [List.getElem?_set_ne here]
    apply copied.bytes c h w point
    unfold Before at before ⊢
    have apart : ¬ (h = row ∧ w = column ∧ c = channel) := by
      rintro ⟨rfl, rfl, rfl⟩
      exact here rfl
    omega

/-- The loop over the channels copies one pixel. -/
theorem copyPixel_copied {imgIndex : Nat} (rows : row < cvImg.rows) (columns : column < cvImg.cols)
    (copied : Copied cvImg row column 0 buffer) (index : imgIndex = column * cvImg.channels) :
    Copied cvImg row (column + 1) 0 (copyPixel cvImg row (buffer, imgIndex) column).1 ∧
      (copyPixel cvImg row (buffer, imgIndex) column).2 = (column + 1) * cvImg.channels := by
  have turns : Copied cvImg row column cvImg.channels
        (copyPixel cvImg row (buffer, imgIndex) column).1 ∧
      (copyPixel cvImg row (buffer, imgIndex) column).2 =
        column * cvImg.channels + cvImg.channels := by
    apply CountedLoop.rule fun channel (state : List UInt8 × Nat) =>
      Copied cvImg row column channel state.1 ∧ state.2 = column * cvImg.channels + channel
    · exact ⟨copied, index⟩
    · intro channel below state held
      have moved := copyByte_copied ⟨below, rows, columns⟩ held.1 held.2
      refine ⟨moved, ?_⟩
      change state.2 + 1 = _
      rw [held.2, Nat.add_assoc]
  refine ⟨turns.1.congr ?_, ?_⟩
  · intro c h w inside before
    have few := inside.plane
    unfold Before at before ⊢
    omega
  · rw [turns.2, Nat.succ_mul]

/-- The loop over the columns copies one row. -/
theorem copyRow_copied (rows : row < cvImg.rows) (copied : Copied cvImg row 0 0 buffer) :
    Copied cvImg (row + 1) 0 0 (copyRow cvImg buffer row) := by
  have turns : Copied cvImg row cvImg.cols 0 (copyRow cvImg buffer row) ∧
      (CountedLoop.run cvImg.cols (copyPixel cvImg row) (buffer, 0)).2 =
        cvImg.cols * cvImg.channels := by
    apply CountedLoop.rule fun column (state : List UInt8 × Nat) =>
      Copied cvImg row column 0 state.1 ∧ state.2 = column * cvImg.channels
    · exact ⟨copied, (Nat.zero_mul _).symm⟩
    · intro column below state held
      exact copyPixel_copied rows below held.1 held.2
  apply turns.1.congr
  intro c h w inside before
  have few := inside.column
  unfold Before at before ⊢
  omega

/-- The loop over the rows copies the image. -/
theorem planarBytes_copied (cvImg : Mat) : Copied cvImg cvImg.rows 0 0 (planarBytes cvImg) := by
  apply CountedLoop.rule fun row buffer => Copied cvImg row 0 0 buffer
  · refine ⟨List.length_replicate, ?_⟩
    intro c h w inside before
    unfold Before at before
    omega
  · intro row below buffer copied
    exact copyRow_copied below copied

/-- The buffer is as long as the image is large. -/
theorem planarBytes_length (cvImg : Mat) :
    (planarBytes cvImg).length = cvImg.channels * cvImg.rows * cvImg.cols :=
  (planarBytes_copied cvImg).length

/-- Every byte of the image is at its place. -/
theorem planarBytes_get (inside : cvImg.Has channel row column) :
    (planarBytes cvImg)[place cvImg.rows cvImg.cols channel row column]? =
      some (cvImg.byte channel row column) :=
  (planarBytes_copied cvImg).bytes channel row column inside (Or.inl inside.row)

/-- Two images have the same size, channels and pixels. -/
structure Same (first second : Mat) : Prop where
  /-- `rows`. -/
  rows : first.rows = second.rows
  /-- `cols`. -/
  cols : first.cols = second.cols
  /-- `channels()`. -/
  channels : first.channels = second.channels
  /-- Every byte. -/
  bytes : ∀ channel row column, first.Has channel row column →
    first.byte channel row column = second.byte channel row column

/-- Images of one size have the same planes exactly if they have the same pixels. -/
theorem planarBytes_eq_iff {first second : Mat} (rows : first.rows = second.rows)
    (cols : first.cols = second.cols) (channels : first.channels = second.channels) :
    planarBytes first = planarBytes second ↔ first.Same second := by
  have points {channel row column : Nat} (inside : first.Has channel row column) :
      second.Has channel row column := by
    unfold Has at inside ⊢
    rw [← rows, ← cols, ← channels]
    exact inside
  constructor
  · intro same
    refine ⟨rows, cols, channels, fun channel row column inside => ?_⟩
    have there := planarBytes_get (points inside)
    rw [← rows, ← cols, ← same, planarBytes_get inside] at there
    exact Option.some.inj there
  · intro same
    apply List.ext_getElem?
    intro position
    by_cases within : position < first.channels * first.rows * first.cols
    · obtain ⟨channel, row, column, inside, rfl⟩ := exists_inside within
      have here : (planarBytes first)[place first.rows first.cols channel row column]? =
          some (first.byte channel row column) := planarBytes_get inside
      rw [here, same.bytes channel row column inside, rows, cols, planarBytes_get (points inside)]
    · have beyond : (planarBytes second).length ≤ position := by
        rw [planarBytes_length, ← rows, ← cols, ← channels]
        exact Nat.le_of_not_lt within
      rw [List.getElem?_eq_none beyond, List.getElem?_eq_none]
      rw [planarBytes_length]
      exact Nat.le_of_not_lt within

end Mat

namespace Datum

/-- The datum has the pixels of the image, channel by channel. -/
structure Shows (datum : Datum) (cvImg : Mat) : Prop where
  /-- The data are no image file. -/
  raw : datum.encoded = false
  /-- There are no data in `float`. -/
  noFloats : datum.floatData = []
  /-- `channels`. -/
  channels : datum.channels = cvImg.channels
  /-- `height`. -/
  height : datum.height = cvImg.rows
  /-- `width`. -/
  width : datum.width = cvImg.cols
  /-- There is one byte for every channel of every pixel. -/
  length : datum.data.length = datum.channels * datum.height * datum.width
  /-- Every byte is at its place. -/
  bytes : ∀ channel row column, cvImg.Has channel row column →
    datum.data[place datum.height datum.width channel row column]? =
      some (cvImg.byte channel row column)

variable {cvImg : Mat} {datum filled : Datum}

/-- What `CVMatToDatum` makes. -/
theorem cvMatToDatum_eq (unsigned : cvImg.depth = 0) (sized : cvImg.Sized) (datum : Datum) :
    cvMatToDatum cvImg datum = some { datum with
      channels := cvImg.channels
      height := cvImg.rows
      width := cvImg.cols
      floatData := []
      encoded := false
      data := planarBytes cvImg } := by
  rw [cvMatToDatum, if_pos unsigned, if_pos sized]

/-- What `CVMatToDatum` fills shows the image, and keeps its label. -/
theorem cvMatToDatum_shows (made : cvMatToDatum cvImg datum = some filled) :
    filled.Shows cvImg ∧ filled.label = datum.label := by
  unfold cvMatToDatum at made
  by_cases unsigned : cvImg.depth = 0
  · rw [if_pos unsigned] at made
    by_cases sized : cvImg.Sized
    · rw [if_pos sized] at made
      obtain rfl := Option.some.inj made
      exact ⟨⟨rfl, rfl, rfl, rfl, rfl, Mat.planarBytes_length cvImg,
        fun _ _ _ => Mat.planarBytes_get⟩, rfl⟩
    · rw [if_neg sized] at made
      cases made
  · rw [if_neg unsigned] at made
    cases made

/-- `CVMatToDatum` takes every image of unsigned bytes whose size fits
in an `int`. The datum then has each byte of the image at its place in its channel, and nothing
else; it keeps its label. Nothing is lost: another image of unsigned bytes gives the same datum
exactly if it has the same size, channels and pixels. -/
theorem cvMatToDatum_planes (unsigned : cvImg.depth = 0) (sized : cvImg.Sized) (datum : Datum) :
    ∃ filled, cvMatToDatum cvImg datum = some filled ∧ filled.Shows cvImg ∧
      filled.label = datum.label ∧
      ∀ other : Mat, other.depth = 0 →
        (cvMatToDatum other datum = some filled ↔ cvImg.Same other) := by
  have made := cvMatToDatum_eq unsigned sized datum
  obtain ⟨shows_it, label⟩ := cvMatToDatum_shows made
  refine ⟨_, made, shows_it, label, fun other also => ?_⟩
  constructor
  · intro equal
    have there := (cvMatToDatum_shows equal).1
    have rows : cvImg.rows = other.rows := there.height
    have cols : cvImg.cols = other.cols := there.width
    have channels : cvImg.channels = other.channels := there.channels
    have otherSized : other.Sized := by
      unfold Mat.Sized at sized ⊢
      rw [← rows, ← cols, ← channels]
      exact sized
    rw [cvMatToDatum_eq also otherSized] at equal
    have data : planarBytes other = planarBytes cvImg :=
      congrArg Datum.data (Option.some.inj equal)
    exact (Mat.planarBytes_eq_iff rows cols channels).mp data.symm
  · intro same
    have otherSized : other.Sized := by
      unfold Mat.Sized at sized ⊢
      rw [← same.rows, ← same.cols, ← same.channels]
      exact sized
    rw [cvMatToDatum_eq also otherSized, same.rows, same.cols, same.channels,
      (Mat.planarBytes_eq_iff same.rows same.cols same.channels).mpr same]

/-- Two pixels side by side in three channels. -/
def twoPixels : Mat where
  rows := 1
  cols := 2
  channels := 3
  depth := 0
  ptr _ index := UInt8.ofNat index

/-- A datum that nothing was set in. -/
def blank : Datum where
  channels := 0
  height := 0
  width := 0
  data := []
  label := 0
  floatData := []
  encoded := false

/-- The bytes 0 to 5 of two pixels go to three channels of two bytes. -/
theorem cvMatToDatum_two : ∃ filled, cvMatToDatum twoPixels blank = some filled ∧
    filled.data = [0, 3, 1, 4, 2, 5] ∧ filled.Shows twoPixels := by
  have unsigned : twoPixels.depth = 0 := rfl
  obtain ⟨filled, made, shows_it, -⟩ := cvMatToDatum_planes unsigned (by decide) blank
  refine ⟨filled, made, ?_, shows_it⟩
  rw [cvMatToDatum_eq rfl (by decide)] at made
  rw [← Option.some.inj made]
  decide

end Datum

end CudaDb
