import CudaDb.Lib.CountedLoop
import CudaDb.Model.ImageLoad

/-!
# Images in a `Datum`

`io.cpp` fills a `Datum` with the pixels of an image or with the bytes of an image file, and decodes
the latter into the former. A `cv::Mat` has its pixels row by row with the channels of a pixel side
by side; a `Datum` has them channel by channel. A failed `CHECK`, and a size that does not fit in an
`int`, are `none`. The codecs of OpenCV are parameters, and the fields of `Datum` are those that its
accessors set.
-/

namespace CudaDb

/-- A `cv::Mat` of two dimensions. -/
structure Mat where
  /-- `rows`. -/
  rows : Nat
  /-- `cols`. -/
  cols : Nat
  /-- `channels()`. -/
  channels : Nat
  /-- `depth()`, where `CV_8U` is 0. -/
  depth : Nat
  /-- The bytes behind `ptr<uchar>(h)`. -/
  ptr : Nat → Nat → UInt8

/-- A `Datum`. -/
structure Datum where
  /-- `channels`. -/
  channels : Nat
  /-- `height`. -/
  height : Nat
  /-- `width`. -/
  width : Nat
  /-- `data`. -/
  data : List UInt8
  /-- `label`. -/
  label : Int
  /-- `float_data`, by the bits of its numbers. -/
  floatData : List UInt32
  /-- `encoded`. -/
  encoded : Bool
  deriving DecidableEq

/-- What the functions on a `Datum` call. -/
structure DatumIo where
  /-- What `ReadImageToCVMat` calls. -/
  image : ImageIo Mat
  /-- `cv::imencode(ext, cv_img, buf)`, the bytes in `buf`. -/
  imencode : String → Mat → List UInt8

/-! ## File extensions -/

/-- `rfind` — the last position of a letter. -/
def rfind (letter : Char) : List Char → Option Nat
  | [] => none
  | first :: text =>
    match rfind letter text with
    | some position => some (position + 1)
    | none => if first = letter then some 0 else none

/-- `matchExt` — the extension has its dot, and a name without a dot is its own extension. -/
def matchExt (fn en : String) : Bool :=
  let ext := match rfind '.' fn.toList with
    | some position => fn.toList.drop position
    | none => fn.toList
  let ext := ext.map Char.toLower
  let en := en.toList.map Char.toLower
  ext = en ∨ (en = "jpg".toList ∧ ext = "jpeg".toList)

/-! ## Pixels -/

/-- The body of the innermost loop of `CVMatToDatum`: the next byte of the row goes to its place in
its channel. -/
def copyByte (cvImg : Mat) (row column : Nat) (state : List UInt8 × Nat) (channel : Nat) :
    List UInt8 × Nat :=
  (state.1.set ((channel * cvImg.rows + row) * cvImg.cols + column) (cvImg.ptr row state.2),
    state.2 + 1)

/-- The body of the loop over the columns. -/
def copyPixel (cvImg : Mat) (row : Nat) (state : List UInt8 × Nat) (column : Nat) :
    List UInt8 × Nat :=
  CountedLoop.run cvImg.channels (copyByte cvImg row column) state

/-- The body of the loop over the rows; `img_index` starts at 0. -/
def copyRow (cvImg : Mat) (buffer : List UInt8) (row : Nat) : List UInt8 :=
  (CountedLoop.run cvImg.cols (copyPixel cvImg row) (buffer, 0)).1

/-- The `buffer` that `CVMatToDatum` fills. -/
def planarBytes (cvImg : Mat) : List UInt8 :=
  CountedLoop.run cvImg.rows (copyRow cvImg)
    (List.replicate (cvImg.channels * cvImg.rows * cvImg.cols) 32)

/-- The products of `datum_size` fit in an `int`. -/
def Mat.Sized (cvImg : Mat) : Prop :=
  cvImg.channels * cvImg.rows < 2 ^ 31 ∧ cvImg.channels * cvImg.rows * cvImg.cols < 2 ^ 31

/-- The size can be checked. -/
instance (cvImg : Mat) : Decidable cvImg.Sized := inferInstanceAs (Decidable (_ ∧ _))

/-- `CVMatToDatum`. -/
def cvMatToDatum (cvImg : Mat) (datum : Datum) : Option Datum :=
  if cvImg.depth = 0 then
    if cvImg.Sized then
      some { datum with
        channels := cvImg.channels
        height := cvImg.rows
        width := cvImg.cols
        floatData := []
        encoded := false
        data := planarBytes cvImg }
    else none
  else none

namespace DatumIo

/-! ## Reading and decoding -/

/-- `ReadFileToDatum` — the returned flag and the datum. -/
def readFileToDatum (io : DatumIo) (filename : String) (label : Int) (datum : Datum) :
    Bool × Datum :=
  match io.image.files filename with
  | some buffer => (true, { datum with data := buffer, label, encoded := true })
  | none => (false, datum)

/-- `ReadImageToDatum` — the returned flag, the datum and the static variables of
`ReadImageToCVMat`. -/
def readImageToDatum (io : DatumIo) (build : Build) (cache : ImageCache Mat) (call : ImageCall)
    (memory : MemOccupy) (label : Int) (encoding : String) (datum : Datum) :
    Option ((Bool × Datum) × ImageCache Mat) :=
  let (cvImg, cache) := io.image.readImageToCVMat build cache call memory
  if io.image.data cvImg then
    if encoding ≠ "" then
      if (decide (cvImg.channels = 3) = call.isColor ∧ call.height = 0 ∧ call.width = 0) ∧
          matchExt call.filename encoding = true then
        some (io.readFileToDatum call.filename label datum, cache)
      else
        some ((true, { datum with
          data := io.imencode ("." ++ encoding) cvImg, label, encoded := true }), cache)
    else (cvMatToDatum cvImg datum).map fun filled => ((true, { filled with label }), cache)
  else some ((false, datum), cache)

/-- `DecodeDatumToCVMat`, and `DecodeDatumToCVMatNative` with the flag -1. -/
def decodeDatumToCVMat (io : DatumIo) (cvReadFlag : Int) (datum : Datum) : Option Mat :=
  if datum.encoded then some (io.image.imdecode datum.data cvReadFlag) else none

/-- `DecodeDatum` and `DecodeDatumNative` — the returned flag and the datum. -/
def decodeWith (io : DatumIo) (cvReadFlag : Int) (datum : Datum) : Option (Bool × Datum) :=
  if datum.encoded then
    (io.decodeDatumToCVMat cvReadFlag datum).bind fun cvImg =>
      (cvMatToDatum cvImg datum).map fun decoded => (true, decoded)
  else some (false, datum)

/-- `DecodeDatum`. -/
def decodeDatum (io : DatumIo) (isColor : Bool) (datum : Datum) : Option (Bool × Datum) :=
  io.decodeWith (cvReadFlag isColor) datum

/-- `DecodeDatumNative`. -/
def decodeDatumNative (io : DatumIo) (datum : Datum) : Option (Bool × Datum) :=
  io.decodeWith (-1) datum

end DatumIo

/-! ## Calls one after another -/

/-- One datum and the static variables. -/
structure DatumSession where
  /-- The static variables of `ReadImageToCVMat`. -/
  cache : ImageCache Mat
  /-- The datum. -/
  datum : Datum

/-- A call on the datum. -/
inductive DatumCall
  /-- `ReadImageToDatum`, with what `get_memoccupy` finds. -/
  | readImage (call : ImageCall) (memory : MemOccupy) (label : Int) (encoding : String)
  /-- `ReadFileToDatum`. -/
  | readFile (filename : String) (label : Int)
  /-- `DecodeDatum`. -/
  | decode (isColor : Bool)
  /-- `DecodeDatumNative`. -/
  | decodeNative

namespace DatumSession

/-- One call after another, refused where a `CHECK` fails. -/
def machine (io : DatumIo) (build : Build) : Machine DatumSession DatumCall where
  step session
    | .readImage call memory label encoding =>
      (io.readImageToDatum build session.cache call memory label encoding session.datum).map
        fun (result, cache) => { cache, datum := result.2 }
    | .readFile filename label =>
      some { session with datum := (io.readFileToDatum filename label session.datum).2 }
    | .decode isColor =>
      (io.decodeDatum isColor session.datum).map fun result => { session with datum := result.2 }
    | .decodeNative =>
      (io.decodeDatumNative session.datum).map fun result => { session with datum := result.2 }

end DatumSession

end CudaDb
