import CudaDb.Model.Client

/-!
# What is on the way

A step of the server or of the transport moves a message on and changes no account: a socket has
as many outstanding requests as before, and a call as many requests with or without reply. The two
steps of a client socket change both accounts by one.
-/

namespace CudaDb

/-- A member of a multiset and the others. -/
theorem countP_erase_add {Message : Type*} [DecidableEq Message] (selects : Message → Prop)
    [DecidablePred selects] {messages : Multiset Message} {message : Message}
    (member : message ∈ messages) :
    (messages.erase message).countP selects + (if selects message then 1 else 0) =
      messages.countP selects := by
  rw [← Multiset.countP_cons, Multiset.cons_erase member]

namespace Wire

variable {Worker : Type*} {wire next : Wire Worker} {event : WireEvent Worker}

/-- The request is on its way to a worker, with one, or on its way back with a reply. -/
def Travels (wire : Wire Worker) (request : FileRequest) : Prop :=
  request ∈ wire.requests ∨ (∃ worker, (wire.workers worker).request = some request) ∨
    (∃ reply ∈ wire.replies, reply.request = request) ∨
      ∃ reply ∈ wire.arrived, reply.request = request

/-- Every reply on its way has been sent by a worker. -/
def Logged (wire : Wire Worker) : Prop :=
  (∀ reply ∈ wire.replies, reply ∈ wire.served) ∧ ∀ reply ∈ wire.arrived, reply ∈ wire.served

/-- The number of requests of a call, without a reply or with one. -/
def traces [Fintype Worker] (wire : Wire Worker) (call : Nat) : Nat :=
  wire.pending (fun request => request.call = call) +
    wire.served.countP fun reply => reply.request.call = call

/-- What a step of the server or of the transport keeps. -/
structure Kept [Fintype Worker] (wire next : Wire Worker) : Prop where
  /-- Every socket has as many outstanding requests. -/
  outstanding : ∀ slot, next.outstanding slot = wire.outstanding slot
  /-- Every call has as many requests. -/
  traces : ∀ call, next.traces call = wire.traces call
  /-- No request comes up. -/
  travels : ∀ request, next.Travels request → wire.Travels request
  /-- The replies on their way have been sent by workers. -/
  logged : wire.Logged → next.Logged
  /-- No reply that was sent is forgotten. -/
  served : ∀ reply ∈ wire.served, reply ∈ next.served

section Account

variable [Fintype Worker]

/-- Nothing is on its way at first. -/
theorem empty_pending (selects : FileRequest → Bool) :
    (empty : Wire Worker).pending selects = 0 := by
  have idle : Threads.total (held selects) (fun _ : Worker => ReplierPc.recv) = 0 :=
    Threads.total_eq_zero fun _ => rfl
  have none_waits : (empty : Wire Worker).requests.countP (fun request => selects request) = 0 :=
    Multiset.countP_zero _
  show (empty : Wire Worker).requests.countP (fun request => selects request) +
    Threads.total (held selects) (fun _ : Worker => ReplierPc.recv) = 0
  omega

/-- A request that waits or is with a worker is without reply. -/
theorem pending_pos {selects : FileRequest → Bool} {request : FileRequest}
    (selected : selects request = true)
    (waits : request ∈ wire.requests ∨ ∃ worker, (wire.workers worker).request = some request) :
    0 < wire.pending selects := by
  unfold pending
  rcases waits with member | ⟨worker, holds⟩
  · have counted : 0 < wire.requests.countP fun request => selects request :=
      Multiset.countP_pos.mpr ⟨request, member, selected⟩
    omega
  · have counted : held selects (wire.workers worker) = 1 := by
      unfold held
      simp [holds, selected]
    have single : held selects (wire.workers worker) ≤
        Threads.total (held selects) wire.workers :=
      Finset.single_le_sum (f := fun worker => held selects (wire.workers worker))
        (fun _ _ => Nat.zero_le _) (Finset.mem_univ worker)
    omega

/-- The request of a message on its way is outstanding. -/
theorem Travels.outstanding_pos {request : FileRequest} (travels : wire.Travels request) :
    0 < wire.outstanding request.slot := by
  have selected : decide (request.slot = request.slot) = true := decide_eq_true rfl
  unfold outstanding
  rcases travels with waits | waits | ⟨reply, member, same⟩ | ⟨reply, member, same⟩
  · have : 0 < wire.pending fun other => other.slot = request.slot :=
      pending_pos selected (Or.inl waits)
    omega
  · have : 0 < wire.pending fun other => other.slot = request.slot :=
      pending_pos selected (Or.inr waits)
    omega
  · have : 0 < wire.replies.countP fun other => other.request.slot = request.slot :=
      Multiset.countP_pos.mpr ⟨reply, member, by rw [same]⟩
    omega
  · have : 0 < wire.arrived.countP fun other => other.request.slot = request.slot :=
      Multiset.countP_pos.mpr ⟨reply, member, by rw [same]⟩
    omega

/-- A worker that changes from one statement to another changes what is pending by what it holds
before and after. -/
theorem pending_worker [DecidableEq Worker] (wire : Wire Worker) (selects : FileRequest → Bool)
    (worker : Worker) (pc : ReplierPc) :
    ({ wire with workers := Function.update wire.workers worker pc } : Wire Worker).pending selects +
        held selects (wire.workers worker) =
      wire.pending selects + held selects pc := by
  have total := Threads.total_update (held selects) wire.workers worker pc
  unfold pending
  dsimp only
  omega

omit [Fintype Worker] in
/-- Where the workers hold what they held, up to one of them, so do the requests that travel. -/
theorem holds_of_update [DecidableEq Worker] {worker holder : Worker} {pc : ReplierPc}
    {request : FileRequest}
    (holds : (Function.update wire.workers worker pc holder).request = some request) :
    pc.request = some request ∨ ∃ worker, (wire.workers worker).request = some request := by
  by_cases same : holder = worker
  · rw [same, Function.update_self] at holds
    exact Or.inl holds
  · rw [Function.update_of_ne same] at holds
    exact Or.inr ⟨holder, holds⟩

/-- A worker receives a request. -/
theorem kept_take [DecidableEq Worker] {worker : Worker} {request : FileRequest}
    (idle : wire.workers worker = .recv) (member : request ∈ wire.requests) :
    wire.Kept { wire with
      requests := wire.requests.erase request
      workers := Function.update wire.workers worker (.handle request) } := by
  have account (selects : FileRequest → Bool) :
      Wire.pending { wire with
        requests := wire.requests.erase request
        workers := Function.update wire.workers worker (.handle request) } selects =
        wire.pending selects := by
    have moved := pending_worker wire selects worker (.handle request)
    have taken := countP_erase_add (fun request => selects request = true) member
    have before : held selects (wire.workers worker) = 0 := by rw [idle]; rfl
    have after : held selects (.handle request) = if selects request then 1 else 0 := rfl
    unfold pending at moved ⊢
    dsimp only at moved ⊢
    omega
  constructor
  case outstanding =>
    intro slot
    unfold outstanding
    rw [account]
  case traces =>
    intro call
    unfold traces
    rw [account]
  case travels =>
    rintro other (waits | ⟨holder, holds⟩ | back)
    · exact Or.inl (Multiset.mem_of_mem_erase waits)
    · rcases holds_of_update holds with taken | held
      · obtain rfl := Option.some.inj taken
        exact Or.inl member
      · exact Or.inr (Or.inl held)
    · exact Or.inr (Or.inr back)
  case logged => exact id
  case served => exact fun _ sent => sent

/-- A worker handles its request. -/
theorem kept_handle [DecidableEq Worker] {worker : Worker} {request : FileRequest}
    {data : List UInt8} (busy : wire.workers worker = .handle request) :
    wire.Kept { wire with
      workers := Function.update wire.workers worker (.send request data) } := by
  have account (selects : FileRequest → Bool) :
      Wire.pending { wire with
        workers := Function.update wire.workers worker (.send request data) } selects =
        wire.pending selects := by
    have moved := pending_worker wire selects worker (.send request data)
    have same : held selects (wire.workers worker) = held selects (.send request data) := by
      rw [busy]
      rfl
    omega
  constructor
  case outstanding =>
    intro slot
    unfold outstanding
    rw [account]
  case traces =>
    intro call
    unfold traces
    rw [account]
  case travels =>
    rintro other (waits | ⟨holder, holds⟩ | back)
    · exact Or.inl waits
    · rcases holds_of_update holds with own | held
      · exact Or.inr (Or.inl ⟨worker, by rw [busy]; exact own⟩)
      · exact Or.inr (Or.inl held)
    · exact Or.inr (Or.inr back)
  case logged => exact id
  case served => exact fun _ sent => sent

/-- A worker sends its reply. -/
theorem kept_reply [DecidableEq Worker] {worker : Worker} {request : FileRequest}
    {data : List UInt8} (busy : wire.workers worker = .send request data) :
    wire.Kept { wire with
      workers := Function.update wire.workers worker .recv
      replies := { request, data } ::ₘ wire.replies
      served := { request, data } ::ₘ wire.served } := by
  have account (selects : FileRequest → Bool) :
      Wire.pending { wire with
        workers := Function.update wire.workers worker .recv
        replies := { request, data } ::ₘ wire.replies
        served := { request, data } ::ₘ wire.served } selects +
          (if selects request then 1 else 0) =
        wire.pending selects := by
    have moved := pending_worker wire selects worker .recv
    have before : held selects (wire.workers worker) = if selects request then 1 else 0 := by
      rw [busy]
      rfl
    have after : held selects .recv = 0 := rfl
    unfold pending at moved ⊢
    dsimp only at moved ⊢
    omega
  constructor
  case outstanding =>
    intro slot
    have moved := account fun other => other.slot = slot
    unfold outstanding
    rw [Multiset.countP_cons]
    dsimp only at moved ⊢
    simp only [decide_eq_true_eq] at moved
    omega
  case traces =>
    intro call
    have moved := account fun other => other.call = call
    unfold traces
    rw [Multiset.countP_cons]
    dsimp only at moved ⊢
    simp only [decide_eq_true_eq] at moved
    omega
  case travels =>
    have own : wire.Travels request := Or.inr (Or.inl ⟨worker, by rw [busy]; rfl⟩)
    rintro other (waits | ⟨holder, holds⟩ | ⟨reply, back, same⟩ | arrived)
    · exact Or.inl waits
    · rcases holds_of_update holds with none | held
      · cases none
      · exact Or.inr (Or.inl held)
    · rcases Multiset.mem_cons.mp back with rfl | back
      · exact same ▸ own
      · exact Or.inr (Or.inr (Or.inl ⟨reply, back, same⟩))
    · exact Or.inr (Or.inr (Or.inr arrived))
  case logged =>
    intro logged
    constructor
    · intro reply back
      rcases Multiset.mem_cons.mp back with rfl | back
      · exact Multiset.mem_cons_self _ _
      · exact Multiset.mem_cons_of_mem (logged.1 reply back)
    · exact fun reply back => Multiset.mem_cons_of_mem (logged.2 reply back)
  case served => exact fun _ sent => Multiset.mem_cons_of_mem sent

/-- A reply reaches its socket. -/
theorem kept_deliver {reply : FileReply} (member : reply ∈ wire.replies) :
    wire.Kept { wire with
      replies := wire.replies.erase reply
      arrived := reply ::ₘ wire.arrived } := by
  constructor
  case outstanding =>
    intro slot
    have moved := countP_erase_add (fun reply : FileReply => reply.request.slot = slot) member
    unfold outstanding pending
    dsimp only
    rw [Multiset.countP_cons]
    omega
  case traces => exact fun _ => rfl
  case travels =>
    rintro request (waits | held | ⟨other, back, same⟩ | ⟨other, arrived, same⟩)
    · exact Or.inl waits
    · exact Or.inr (Or.inl held)
    · exact Or.inr (Or.inr (Or.inl ⟨other, Multiset.mem_of_mem_erase back, same⟩))
    · rcases Multiset.mem_cons.mp arrived with rfl | arrived
      · exact Or.inr (Or.inr (Or.inl ⟨other, member, same⟩))
      · exact Or.inr (Or.inr (Or.inr ⟨other, arrived, same⟩))
  case logged =>
    intro logged
    constructor
    · exact fun other back => logged.1 other (Multiset.mem_of_mem_erase back)
    · intro other arrived
      rcases Multiset.mem_cons.mp arrived with rfl | arrived
      · exact logged.1 other member
      · exact logged.2 other arrived
  case served => exact fun _ sent => sent

/-- Every step of the server or of the transport keeps the accounts. -/
theorem step_kept [DecidableEq Worker] (stepped : wire.step event = some next) :
    wire.Kept next := by
  unfold step at stepped
  cases event with
  | take worker request =>
    dsimp only at stepped
    split at stepped
    · rename_i idle
      split at stepped
      · rename_i member
        obtain rfl := Option.some.inj stepped
        exact kept_take idle member
      · cases stepped
    · cases stepped
  | handle worker data =>
    dsimp only at stepped
    split at stepped
    · rename_i busy
      obtain rfl := Option.some.inj stepped
      exact kept_handle busy
    · cases stepped
  | reply worker =>
    dsimp only at stepped
    split at stepped
    · rename_i busy
      obtain rfl := Option.some.inj stepped
      exact kept_reply busy
    · cases stepped
  | deliver reply =>
    dsimp only at stepped
    split at stepped
    · rename_i member
      obtain rfl := Option.some.inj stepped
      exact kept_deliver member
    · cases stepped

/-! ## The steps of a client socket -/

/-- A request that is sent is outstanding at its socket. -/
theorem submit_outstanding (wire : Wire Worker) (request : FileRequest) (slot : Slot) :
    (wire.submit request).outstanding slot =
      wire.outstanding slot + if request.slot = slot then 1 else 0 := by
  unfold submit outstanding pending
  dsimp only
  rw [Multiset.countP_cons]
  simp only [decide_eq_true_eq]
  omega

/-- A request that is sent is one of its call. -/
theorem submit_traces (wire : Wire Worker) (request : FileRequest) (call : Nat) :
    (wire.submit request).traces call =
      wire.traces call + if request.call = call then 1 else 0 := by
  unfold submit traces pending
  dsimp only
  rw [Multiset.countP_cons]
  simp only [decide_eq_true_eq]
  omega

/-- A reply that is received is no longer outstanding. -/
theorem hand_outstanding {reply : FileReply} (member : reply ∈ wire.arrived) (slot : Slot) :
    (wire.hand reply).outstanding slot + (if reply.request.slot = slot then 1 else 0) =
      wire.outstanding slot := by
  have taken := countP_erase_add (fun reply : FileReply => reply.request.slot = slot) member
  unfold hand outstanding pending
  dsimp only
  omega

end Account

/-- What travels after a request was sent is that request or travelled before. -/
theorem submit_travels {request other : FileRequest}
    (travels : (wire.submit request).Travels other) :
    other = request ∨ wire.Travels other := by
  rcases travels with waits | rest
  · rcases Multiset.mem_cons.mp waits with same | waits
    · exact Or.inl same
    · exact Or.inr (Or.inl waits)
  · exact Or.inr (Or.inr rest)

/-- What travels after a reply was received travelled before. -/
theorem hand_travels {reply : FileReply} {request : FileRequest}
    (travels : (wire.hand reply).Travels request) : wire.Travels request := by
  rcases travels with waits | held | back | ⟨other, arrived, same⟩
  · exact Or.inl waits
  · exact Or.inr (Or.inl held)
  · exact Or.inr (Or.inr (Or.inl back))
  · exact Or.inr (Or.inr (Or.inr ⟨other, Multiset.mem_of_mem_erase arrived, same⟩))

/-- The replies that are left on their way have been sent by workers. -/
theorem hand_logged {reply : FileReply} (logged : wire.Logged) : (wire.hand reply).Logged :=
  ⟨logged.1, fun other arrived => logged.2 other (Multiset.mem_of_mem_erase arrived)⟩

end Wire

end CudaDb
