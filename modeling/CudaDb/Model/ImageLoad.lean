import CudaDb.Lib.Machine
import CudaDb.Lib.Table

/-!
# Loading images

`ReadImageToCVMat` keeps the images that it decoded in a static map, as long as a tenth of the
memory is free. It is compiled in two ways: without `USE_MOG` it reads the file itself, with
`USE_MOG` it asks the server for it. What it calls outside the repository (decoding, resizing, the
arithmetic of the new size in `float`) is a parameter. The definitions follow `io.cpp`.
-/

namespace CudaDb

/-- What `ReadImageToCVMat` calls. -/
structure ImageIo (Image : Type*) where
  /-- `cv::Mat()`. -/
  empty : Image
  /-- The image has data. -/
  data : Image → Bool
  /-- `cv::Mat()` has no data. -/
  empty_data : data empty = false
  /-- `rows`. -/
  rows : Image → Int
  /-- `cols`. -/
  cols : Image → Int
  /-- `cv::imdecode(vec_buf, cv_read_flag)`. -/
  imdecode : List UInt8 → Int → Image
  /-- `cv::imread(filename, cv_read_flag)`. -/
  imread : String → Int → Image
  /-- `cv::resize(image, cv_img, cv::Size(new_width, new_height))`. -/
  resize : Image → Int → Int → Image
  /-- `(float)length`, back in an integer. -/
  truncated : Int → Int
  /-- `length / side * other` in `float`, back in an integer. -/
  scaled : Int → Int → Int → Int
  /-- The files as the client opens them. -/
  files : String → Option (List UInt8)
  /-- `realpath(filename.c_str(), resolved_path)`. -/
  realpath : String → String
  /-- `st::mog::GetInstance().get(path, buffer)`, the bytes of the reply. -/
  get : String → List UInt8

/-- How `io.cpp` is compiled. -/
inductive Build
  /-- Without `USE_MOG`. -/
  | direct
  /-- With `USE_MOG`. -/
  | mog
  deriving DecidableEq

/-- `MEM_OCCUPY`, as far as it is used. -/
structure MemOccupy where
  /-- `free`. -/
  free : Nat
  /-- `total`. -/
  total : Nat

/-- `mem_free_per >= 0.1`. -/
def MemOccupy.plenty (memory : MemOccupy) : Bool := memory.total ≤ 10 * memory.free

/-- The static variables of `ReadImageToCVMat`. -/
structure ImageCache (Image : Type*) where
  /-- `filecache`. -/
  filecache : Table String Image
  /-- `mem_free_per`, by its two terms. -/
  memFree : MemOccupy

/-- The arguments of `ReadImageToCVMat`. -/
structure ImageCall where
  /-- `filename`. -/
  filename : String
  /-- `height`. -/
  height : Int
  /-- `width`. -/
  width : Int
  /-- `is_color`. -/
  isColor : Bool
  deriving DecidableEq

/-- The call asks for a size. -/
def ImageCall.sized (call : ImageCall) : Bool := call.height > 0 ∧ call.width > 0

/-- `cv_read_flag` — `CV_LOAD_IMAGE_COLOR` or `CV_LOAD_IMAGE_GRAYSCALE`. -/
def cvReadFlag (isColor : Bool) : Int := if isColor then 1 else 0

namespace ImageCache

variable {Image : Type*}

/-- Nothing is cached, and `mem_free_per` is 1.0. -/
def initial : ImageCache Image where
  filecache := ∅
  memFree := { free := 1, total := 1 }

end ImageCache

namespace ImageIo

variable {Image : Type*}

/-- The end of `ReadImageToCVMat` — the image in the size that was asked for. A side of 1 stands for
the length of the shorter side of the image. -/
def sizeTo (io : ImageIo Image) (call : ImageCall) (origin : Image) : Image :=
  if call.sized then
    if call.height = 1 ∨ call.width = 1 then
      let length := if call.height > call.width then call.height else call.width
      if io.rows origin < io.cols origin then
        io.resize origin (io.scaled length (io.rows origin) (io.cols origin)) (io.truncated length)
      else io.resize origin (io.truncated length)
        (io.scaled length (io.cols origin) (io.rows origin))
    else io.resize origin call.width call.height
  else origin

/-- The image of a file that is not cached, with `USE_MOG`: the image and whether it has data. -/
def loadMog (io : ImageIo Image) (call : ImageCall) : Image :=
  let buffer := io.get (io.realpath call.filename)
  if buffer.length = 0 then io.empty else io.imdecode buffer (cvReadFlag call.isColor)

/-- `ReadImageToCVMat` — the image and the static variables after the call. `memory` is what
`get_memoccupy` finds. -/
def readImageToCVMat (io : ImageIo Image) (build : Build) (cache : ImageCache Image)
    (call : ImageCall) (memory : MemOccupy) : Image × ImageCache Image :=
  match cache.filecache.lookup call.filename with
  | some origin => (io.sizeTo call origin, cache)
  | none =>
    if cache.memFree.plenty then
      match build with
      | .mog =>
        let origin := io.loadMog call
        if io.data origin then
          (io.sizeTo call origin,
            { filecache := cache.filecache.insert call.filename origin, memFree := memory })
        else (origin, cache)
      | .direct =>
        match io.files call.filename with
        | none => (io.empty, cache)
        | some buffer =>
          let origin := io.imdecode buffer (cvReadFlag call.isColor)
          -- The image is cached before the test of its data.
          let cached :=
            { filecache := cache.filecache.insert call.filename origin, memFree := memory }
          if io.data origin then (io.sizeTo call origin, cached) else (origin, cached)
    else
      let origin := match build with
        | .mog => io.loadMog call
        | .direct => io.imread call.filename (cvReadFlag call.isColor)
      if io.data origin then (io.sizeTo call origin, cache) else (origin, cache)

end ImageIo

/-! ## Calls one after another -/

/-- The static variables with the calls made so far and the images that they returned. -/
structure ImageSession (Image : Type*) where
  /-- The static variables. -/
  cache : ImageCache Image
  /-- The calls and their images, the last first. -/
  returned : List (ImageCall × Image)

namespace ImageSession

variable {Image : Type*}

/-- No call has been made. -/
def start : ImageSession Image where
  cache := .initial
  returned := []

/-- One call after another, with any evolution of the free memory. -/
def machine (io : ImageIo Image) (build : Build) :
    Machine (ImageSession Image) (ImageCall × MemOccupy) where
  step session := fun (call, memory) =>
    let (image, cache) := io.readImageToCVMat build session.cache call memory
    some { cache, returned := (call, image) :: session.returned }

/-- The history of the calls that put their image into `filecache`. -/
def noteCached (io : ImageIo Image) (build : Build) (calls : List ImageCall)
    (session : ImageSession Image) : ImageCall × MemOccupy → List ImageCall := fun (call, memory) =>
  let after := (io.readImageToCVMat build session.cache call memory).2
  if call.filename ∉ session.cache.filecache ∧ call.filename ∈ after.filecache then call :: calls
  else calls

end ImageSession

end CudaDb
