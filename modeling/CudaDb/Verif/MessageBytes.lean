import CudaDb.Model.MessageBytes

/-!
# Which messages a worker decodes

The client ends each path with a NUL, and the worker relies on it: of a message without a NUL that
does not begin with '!' it reads on behind the end, and of an empty message it reads the first
byte. All other messages are decoded within their bounds, and those of the client as the request
that they were built for.
-/

namespace CudaDb.Decoded

variable {message fileName : List UInt8}

/-- A string is read within the bounds of a message that starts with it and a NUL. -/
theorem cString_append (unterminated : 0 ∉ fileName) (rest : List UInt8) :
    cString (fileName ++ 0 :: rest) = some fileName := by
  induction fileName with
  | nil => rfl
  | cons byte fileName ih =>
    rw [List.mem_cons, not_or] at unterminated
    have nonzero : byte ≠ 0 := fun same => unterminated.1 same.symm
    rw [List.cons_append, cString, if_neg nonzero, ih unterminated.2, Option.map_some]

/-- The string that a message holds is what stands before its first NUL. -/
theorem cString_eq_some_iff : cString message = some fileName ↔
    0 ∉ fileName ∧ ∃ rest, message = fileName ++ 0 :: rest := by
  constructor
  · intro read
    induction message generalizing fileName with
    | nil => cases read
    | cons byte message ih =>
      rw [cString] at read
      by_cases zero : byte = 0
      · rw [if_pos zero] at read
        obtain rfl := Option.some.inj read
        exact ⟨List.not_mem_nil, message, by rw [zero, List.nil_append]⟩
      · rw [if_neg zero] at read
        obtain ⟨string, tail, rfl⟩ := Option.map_eq_some_iff.mp read
        obtain ⟨unterminated, rest, rfl⟩ := ih tail
        refine ⟨?_, rest, rfl⟩
        rw [List.mem_cons, not_or]
        exact ⟨fun same => zero same.symm, unterminated⟩
  · rintro ⟨unterminated, rest, rfl⟩
    exact cString_append unterminated rest

/-- A string is read within the bounds of a message exactly if there is a NUL in it. -/
theorem cString_isSome : (cString message).isSome ↔ 0 ∈ message := by
  induction message with
  | nil => simp [cString]
  | cons byte message ih =>
    by_cases zero : byte = 0
    · simp [cString, zero]
    · have other : (0 : UInt8) ≠ byte := fun same => zero same.symm
      rw [cString, if_neg zero, Option.isSome_map, ih, List.mem_cons]
      exact (or_iff_right other).symm

/-- A message that begins with another byte than '!' is taken for a string. -/
theorem decode_string {first : UInt8} (other : first ≠ 33) (rest : List UInt8) :
    decode (first :: rest) = (cString (first :: rest)).map .read := by
  rw [decode, List.head?_cons, Option.bind_some, if_neg other]

/-- The messages that wipe the cache are those that begin with '!'. -/
theorem decode_eq_clean_iff : decode message = some .clean ↔ message.head? = some 33 := by
  cases message with
  | nil => simp [decode]
  | cons first rest =>
    by_cases command : first = 33
    · simp [decode, command]
    · rw [decode_string command]
      simp [command]

/-- The messages that request a file are those that begin with its name and a NUL, but for those
that begin with '!'. -/
theorem decode_eq_read_iff : decode message = some (.read fileName) ↔
    message.head? ≠ some 33 ∧ 0 ∉ fileName ∧ ∃ rest, message = fileName ++ 0 :: rest := by
  cases message with
  | nil => simp [decode]
  | cons first rest =>
    by_cases command : first = 33
    · simp [decode, command]
    · have string : (cString (first :: rest)).map read = some (.read fileName) ↔
          cString (first :: rest) = some fileName := by
        simp
      rw [decode_string command, string, cString_eq_some_iff]
      simp [command]

/-- A message is decoded within its bounds exactly if it begins with '!' or holds a NUL. -/
theorem decode_isSome_iff : (decode message).isSome ↔ message.head? = some 33 ∨ 0 ∈ message := by
  cases message with
  | nil => simp [decode]
  | cons first rest =>
    by_cases command : first = 33
    · simp [decode, command]
    · rw [decode_string command, Option.isSome_map, cString_isSome]
      simp [command]

/-- What a worker replies goes by what it decodes: "OK" to the command, and the bytes of the store
to a request. -/
theorem replyTo_decoded {decoded : Decoded} (known : decode message = some decoded)
    (data : List UInt8) : replyTo message data = if decoded = .clean then [79, 75] else data := by
  unfold replyTo
  cases decoded with
  | clean => rw [if_pos (decode_eq_clean_iff.mp known), if_pos rfl]
  | read fileName => rw [if_neg (decode_eq_read_iff.mp known).1, if_neg (by simp)]

/-- The message of the client for a file name is decoded as the request for it exactly if the name
holds no NUL and does not begin with '!'. -/
theorem decode_requestOf_iff : decode (requestOf fileName) = some (.read fileName) ↔
    0 ∉ fileName ∧ fileName.head? ≠ some 33 := by
  have begins : (requestOf fileName).head? = some 33 ↔ fileName.head? = some 33 := by
    cases fileName with
    | nil => simp [requestOf]
    | cons first rest => simp [requestOf]
  rw [decode_eq_read_iff, ne_eq, begins]
  constructor
  · rintro ⟨other, unterminated, -⟩
    exact ⟨unterminated, other⟩
  · rintro ⟨unterminated, other⟩
    exact ⟨other, unterminated, [], rfl⟩

/-- A worker stays within the bounds of the messages that begin with '!' or hold a NUL, and of no
others; and it decodes the message of the client, one byte longer than the file name, as the request
for the file exactly if the name holds no NUL and does not begin with '!'. -/
theorem decode_bounds_and_requests (message fileName : List UInt8) :
    ((decode message).isSome ↔ message.head? = some 33 ∨ 0 ∈ message) ∧
      (requestOf fileName).length = fileName.length + 1 ∧
      (decode (requestOf fileName) = some (.read fileName) ↔
        0 ∉ fileName ∧ fileName.head? ≠ some 33) :=
  ⟨decode_isSome_iff, List.length_append, decode_requestOf_iff⟩

/-- The empty message and a message without a NUL are read behind their ends. -/
theorem not_in_bounds_of_unterminated :
    ¬ (decode []).isSome ∧ ¬ (decode [97]).isSome := by
  decide

end CudaDb.Decoded
