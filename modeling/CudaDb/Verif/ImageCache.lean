import CudaDb.Model.ImageLoad

/-!
# What the image cache changes

An image in `filecache` is the one that the call which cached it had decoded. A later call for the
same file name gets the image of a call on an empty cache if it has the colour mode of that call,
and if the image, should a size be asked for, has data.
-/

namespace CudaDb

namespace ImageIo

variable {Image : Type*} {io : ImageIo Image} {build : Build} {cache after : ImageCache Image}
  {call : ImageCall} {memory : MemOccupy} {image : Image}

/-- `cv::imread` decodes the bytes of the file, and returns an empty image if there is none. -/
def ReadsFiles (io : ImageIo Image) : Prop :=
  ∀ filename flag, io.imread filename flag =
    match io.files filename with
    | none => io.empty
    | some buffer => io.imdecode buffer flag

/-- The image that a call decodes when nothing is cached. -/
def decoded (io : ImageIo Image) (build : Build) (call : ImageCall) : Image :=
  match build with
  | .mog => io.loadMog call
  | .direct =>
    match io.files call.filename with
    | none => io.empty
    | some buffer => io.imdecode buffer (cvReadFlag call.isColor)

/-- The image that a call returns when nothing is cached. -/
def uncached (io : ImageIo Image) (build : Build) (call : ImageCall) : Image :=
  if io.data (io.decoded build call) then io.sizeTo call (io.decoded build call)
  else io.decoded build call

/-- Where the file name is not cached, both ways of loading give the same image, and the image is
cached or the cache is left as it is. -/
theorem read_uncached (reads : io.ReadsFiles)
    (absent : cache.filecache.lookup call.filename = none) :
    (io.readImageToCVMat build cache call memory).1 = io.uncached build call ∧
      ((io.readImageToCVMat build cache call memory).2.filecache = cache.filecache ∨
        ((io.readImageToCVMat build cache call memory).2.filecache =
          cache.filecache.insert call.filename (io.decoded build call) ∧
            (build = .mog → io.data (io.decoded build call) = true))) := by
  unfold readImageToCVMat uncached decoded
  rw [absent]
  dsimp only
  by_cases plenty : cache.memFree.plenty = true
  · rw [if_pos plenty]
    cases build with
    | mog =>
      dsimp only
      by_cases decodes : io.data (io.loadMog call) = true
      · rw [if_pos decodes, if_pos decodes]
        exact ⟨rfl, Or.inr ⟨rfl, fun _ => decodes⟩⟩
      · rw [if_neg decodes, if_neg decodes]
        exact ⟨rfl, Or.inl rfl⟩
    | direct =>
      dsimp only
      cases found : io.files call.filename with
      | none =>
        dsimp only
        rw [io.empty_data]
        exact ⟨rfl, Or.inl rfl⟩
      | some buffer =>
        dsimp only
        by_cases decodes : io.data (io.imdecode buffer (cvReadFlag call.isColor)) = true
        · rw [if_pos decodes, if_pos decodes]
          exact ⟨rfl, Or.inr ⟨rfl, fun other => (by cases other)⟩⟩
        · rw [if_neg decodes, if_neg decodes]
          exact ⟨rfl, Or.inr ⟨rfl, fun other => (by cases other)⟩⟩
  · rw [if_neg plenty]
    cases build with
    | mog =>
      dsimp only
      by_cases decodes : io.data (io.loadMog call) = true
      · rw [if_pos decodes, if_pos decodes]
        exact ⟨rfl, Or.inl rfl⟩
      · rw [if_neg decodes, if_neg decodes]
        exact ⟨rfl, Or.inl rfl⟩
    | direct =>
      dsimp only
      rw [← reads call.filename (cvReadFlag call.isColor)]
      by_cases decodes : io.data (io.imread call.filename (cvReadFlag call.isColor)) = true
      · rw [if_pos decodes, if_pos decodes]
        exact ⟨rfl, Or.inl rfl⟩
      · rw [if_neg decodes, if_neg decodes]
        exact ⟨rfl, Or.inl rfl⟩

/-- Where the file name is cached, its image is sized, and the cache is left as it is. -/
theorem read_cached (found : cache.filecache.lookup call.filename = some image) :
    io.readImageToCVMat build cache call memory = (io.sizeTo call image, cache) := by
  unfold readImageToCVMat
  rw [found]

end ImageIo

namespace ImageSession

variable {Image : Type*} {io : ImageIo Image} {build : Build}

/-- The image of a call on an empty `filecache`, whatever the memory was and is. -/
def Fresh (io : ImageIo Image) (build : Build) (call : ImageCall) (image : Image) : Prop :=
  ∀ memFree memory,
    image = (io.readImageToCVMat build { filecache := ∅, memFree } call memory).1

/-- The calls that cached the file name had the colour mode of this call. Without `USE_MOG`, where
also an image without data is cached, the image of this call has data if it asks for a size. -/
def Consistent (io : ImageIo Image) (build : Build) (both : ImageSession Image × List ImageCall)
    (event : ImageCall × MemOccupy) : Prop :=
  event.1.filename ∈ both.1.cache.filecache →
    (∀ earlier ∈ both.2, earlier.filename = event.1.filename →
      earlier.isColor = event.1.isColor) ∧
    (build = .direct → event.1.sized = true → io.data (io.decoded build event.1) = true)

/-- The condition can be checked along a concrete run. -/
instance decidableConsistent (both : ImageSession Image × List ImageCall)
    (event : ImageCall × MemOccupy) : Decidable (Consistent io build both event) := by
  unfold Consistent
  infer_instance

/-- The cached images are those of the calls that cached them, and the images returned are those of
calls on an empty cache. -/
structure Invisible (io : ImageIo Image) (build : Build)
    (both : ImageSession Image × List ImageCall) : Prop where
  /-- A cached image was decoded by a call for its file name. -/
  cached : ∀ filename image, both.1.cache.filecache.lookup filename = some image →
    ∃ earlier ∈ both.2, earlier.filename = filename ∧ image = io.decoded build earlier ∧
      (build = .mog → io.data image = true)
  /-- No call has seen the cache. -/
  returned : ∀ call image, (call, image) ∈ both.1.returned → Fresh io build call image

/-- The image that a call decodes depends on its file name and its colour mode. -/
theorem decoded_congr {first second : ImageCall} (filename : first.filename = second.filename)
    (isColor : first.isColor = second.isColor) :
    io.decoded build first = io.decoded build second := by
  cases build with
  | mog =>
    rw [ImageIo.decoded, ImageIo.decoded, ImageIo.loadMog, ImageIo.loadMog, filename, isColor]
  | direct => rw [ImageIo.decoded, ImageIo.decoded, filename, isColor]

/-- An image that the call could have decoded itself, and that has data if it is resized, comes out
as on an empty cache. -/
theorem sizeTo_decoded {call : ImageCall}
    (usable : call.sized = true → io.data (io.decoded build call) = true) :
    io.sizeTo call (io.decoded build call) = io.uncached build call := by
  unfold ImageIo.uncached
  by_cases decodes : io.data (io.decoded build call) = true
  · rw [if_pos decodes]
  · have unsized : ¬ call.sized = true := fun sized => decodes (usable sized)
    rw [if_neg decodes, ImageIo.sizeTo, if_neg unsized]

/-- The image of a call that found nothing cached is that of a call on an empty cache. -/
theorem fresh_uncached (reads : io.ReadsFiles) (call : ImageCall) :
    Fresh io build call (io.uncached build call) :=
  fun _ _ => (ImageIo.read_uncached reads rfl).1.symm

/-- A call that meets the condition returns the image of a call on an empty cache. -/
theorem step_invisible (reads : io.ReadsFiles)
    {both after : ImageSession Image × List ImageCall} {event : ImageCall × MemOccupy}
    (invisible : Invisible io build both) (consistent : Consistent io build both event)
    (stepped : ((machine io build).observed (noteCached io build)).step both event = some after) :
    Invisible io build after := by
  obtain ⟨session, history⟩ := both
  obtain ⟨next, noted⟩ := after
  obtain ⟨call, memory⟩ := event
  obtain ⟨taken, observed⟩ := Machine.observed_step.mp stepped
  have state : { cache := (io.readImageToCVMat build session.cache call memory).2
                 returned := (call, (io.readImageToCVMat build session.cache call memory).1) ::
                    session.returned } = next := Option.some.inj taken
  cases found : session.cache.filecache.lookup call.filename with
  | some image =>
    have read : io.readImageToCVMat build session.cache call memory =
        (io.sizeTo call image, session.cache) := ImageIo.read_cached found
    have member : call.filename ∈ session.cache.filecache := Finmap.mem_of_lookup_eq_some found
    obtain ⟨earlier, inside, filename, rfl, with_data⟩ := invisible.cached _ _ found
    obtain ⟨colours, usable⟩ := consistent member
    have same : io.decoded build earlier = io.decoded build call :=
      decoded_congr filename (colours earlier inside filename)
    have decodes : call.sized = true → io.data (io.decoded build call) = true := by
      cases build with
      | mog => exact fun _ => same ▸ with_data rfl
      | direct => exact usable rfl
    have unnoted : history = noted := by
      rw [← observed]
      unfold noteCached
      dsimp only
      rw [if_neg fun both => both.1 member]
    rw [read] at state
    subst unnoted state
    refine ⟨invisible.cached, ?_⟩
    intro other image given
    rcases List.mem_cons.mp given with newest | older
    · obtain ⟨rfl, rfl⟩ := Prod.mk.inj newest
      rw [same, sizeTo_decoded decodes]
      exact fresh_uncached reads other
    · exact invisible.returned other image older
  | none =>
    have ⟨image, cache⟩ : (io.readImageToCVMat build session.cache call memory).1 = _ ∧ _ :=
      ImageIo.read_uncached reads found
    have absent : call.filename ∉ session.cache.filecache := Finmap.lookup_eq_none.mp found
    unfold noteCached at observed
    dsimp only at observed state
    rw [image] at state
    subst state
    constructor
    case returned =>
      intro other image given
      rcases List.mem_cons.mp given with newest | older
      · obtain ⟨rfl, rfl⟩ := Prod.mk.inj newest
        exact fresh_uncached reads other
      · exact invisible.returned other image older
    case cached =>
      dsimp only
      rcases cache with same | ⟨inserted, with_data⟩
      · rw [same] at observed ⊢
        rw [if_neg fun both => both.1 both.2] at observed
        exact observed ▸ invisible.cached
      · have caches : call.filename ∈ session.cache.filecache.insert call.filename
            (io.decoded build call) := Finmap.mem_insert.mpr (Or.inl rfl)
        rw [inserted] at observed ⊢
        rw [if_pos ⟨absent, caches⟩] at observed
        subst observed
        intro filename image given
        rw [Table.lookup_insert_if] at given
        split at given
        · next same =>
          obtain rfl := Option.some.inj given
          exact ⟨call, List.mem_cons_self, same.symm, rfl, with_data⟩
        · obtain ⟨earlier, inside, rest⟩ := invisible.cached filename image given
          exact ⟨earlier, List.mem_cons_of_mem _ inside, rest⟩

/-- In every run of calls over unchanging files, with any evolution of the free memory, whose calls
all meet the condition, every call has returned the image of a call on an empty cache. -/
theorem cache_invisible_along (reads : io.ReadsFiles) {events : List (ImageCall × MemOccupy)}
    {session : ImageSession Image}
    (along : ((machine io build).observed (noteCached io build)).Along (Consistent io build)
      (start, []) events)
    (ran : (machine io build).run start events = some session) {call : ImageCall} {image : Image}
    (returned : (call, image) ∈ session.returned) : Fresh io build call image := by
  have initially : Invisible io build ((start : ImageSession Image), []) := by
    constructor
    · intro filename image found
      cases found
    · intro other image given
      cases given
  have ⟨history, observed⟩ : ∃ history, ((machine io build).observed (noteCached io build)).run
      (start, []) events = some (session, history) := Machine.observed_of_run ran []
  have invisible := Machine.run_invariant_along (Invisible io build)
    (fun _ _ _ before consistent stepped => step_invisible reads before consistent stepped)
    initially along observed
  exact invisible.returned call image returned

/-- Images that show the flag they were decoded with, and have no data if there were no bytes. -/
def flagIo (files : String → Option (List UInt8)) : ImageIo (Option Int) where
  empty := none
  data := Option.isSome
  empty_data := rfl
  rows _ := 1
  cols _ := 1
  imdecode buffer flag := if buffer = [] then none else some flag
  imread filename flag := (files filename).bind fun buffer => if buffer = [] then none else some flag
  resize image _ _ := image
  truncated length := length
  scaled length _ _ := length
  files
  realpath path := path
  get path := (files path).getD []

/-- Such images are read as they are decoded. -/
theorem flagIo_readsFiles (files : String → Option (List UInt8)) : (flagIo files).ReadsFiles := by
  intro filename flag
  show (files filename).bind _ = match files filename with
    | none => none
    | some buffer => if buffer = [] then none else some flag
  cases files filename <;> rfl

/-- One image file. -/
def oneImage (filename : String) : Option (List UInt8) := if filename = "a" then some [7] else none

/-- Memory half of which is free. -/
def halfFree : MemOccupy where
  free := 1
  total := 2

/-- Two calls for a file in colour, the second of which finds the image cached. -/
theorem cache_invisible_in_colour :
    ∃ session, (machine (flagIo oneImage) .direct).run start
        [(⟨"a", 0, 0, true⟩, halfFree), (⟨"a", 5, 5, true⟩, halfFree)] = some session ∧
      (⟨"a", 5, 5, true⟩, some 1) ∈ session.returned ∧
      Fresh (flagIo oneImage) .direct ⟨"a", 5, 5, true⟩ (some 1) := by
  have executed : ∃ session, (machine (flagIo oneImage) .direct).run start
        [(⟨"a", 0, 0, true⟩, halfFree), (⟨"a", 5, 5, true⟩, halfFree)] = some session ∧
      (⟨"a", 5, 5, true⟩, some 1) ∈ session.returned := ⟨_, rfl, by decide⟩
  obtain ⟨session, ran, returned⟩ := executed
  have along : ((machine (flagIo oneImage) .direct).observed
      (noteCached (flagIo oneImage) .direct)).Along (Consistent (flagIo oneImage) .direct)
        (start, []) [(⟨"a", 0, 0, true⟩, halfFree), (⟨"a", 5, 5, true⟩, halfFree)] := by
    decide +kernel
  exact ⟨session, ran, returned,
    cache_invisible_along (flagIo_readsFiles oneImage) along ran returned⟩

/-- A call in grayscale returns the colour image that an earlier call has cached. -/
theorem not_invisible_in_grayscale :
    ∃ session, (machine (flagIo oneImage) .direct).run start
        [(⟨"a", 0, 0, true⟩, halfFree), (⟨"a", 0, 0, false⟩, halfFree)] = some session ∧
      (⟨"a", 0, 0, false⟩, some 1) ∈ session.returned ∧
      ¬ Fresh (flagIo oneImage) .direct ⟨"a", 0, 0, false⟩ (some 1) := by
  refine ⟨_, rfl, by decide, ?_⟩
  intro fresh
  exact absurd (fresh halfFree halfFree) (by decide)

end ImageSession

end CudaDb
