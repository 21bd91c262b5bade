import Dryer.ControlProtocol.RoundTrip
import Dryer.Library.Lists
import Dryer.Simulator.ControllerClock
import Dryer.Simulator.SimTransport
import Mathlib.Data.Prod.Lex

/-!
# The simulated clock link

A bounded endpoint for clock requests. A request is validated when it is handed over, and its
responses wait for the host to drive time forward. Loss and a link that is down are silent.
-/
namespace Dryer.Simulator
open Library ControlProtocol

/-- One direction of the link. -/
structure ClockLinkConfig where
  latencyTicks : Tick
  jitterTicks : Tick
  lossPerMille : UInt16
  dupPerMille : UInt16
  deriving DecidableEq

def ClockLinkConfig.default : ClockLinkConfig where
  latencyTicks := 200
  jitterTicks := 0
  lossPerMille := 0
  dupPerMille := 0

def ControllerClock.default : ControllerClock where
  hostEpoch := 0
  controllerEpoch := 0
  ratePpb := 0
  positiveRate := by decide

structure ClockTransportConfig where
  request : ClockLinkConfig
  response : ClockLinkConfig
  /-- Time between the receive and the send event of the controller. -/
  processingTicks : Tick
  maxPending : ℕ
  seed : UInt64
  controllerClock : ControllerClock
  deriving DecidableEq

def ClockTransportConfig.default : ClockTransportConfig where
  request := .default
  response := .default
  processingTicks := 0
  maxPending := 8
  seed := 0
  controllerClock := .default

inductive ClockTransportConfigError where
  | invalidLossRate (direction : String) (value : UInt16)
  | invalidDuplicationRate (direction : String) (value : UInt16)
  | zeroPendingCapacity
  deriving DecidableEq

inductive SimClockTransportError where
  | decode (error : DecodeError)
  | encode (error : EncodeError)
  | clock (error : ControllerClockError)
  | timeOverflow
  | queueFull (maximum : ℕ)
  deriving DecidableEq

/-- A response frame and the host tick at which it became due. -/
structure SimClockFrame where
  deliveredAt : Tick
  bytes : List UInt8
  deriving DecidableEq

structure ScheduledResponse where
  deliveredAt : Tick
  insertionOrder : UInt64
  bytes : List UInt8
  deriving DecidableEq

def ScheduledResponse.frame (response : ScheduledResponse) : SimClockFrame where
  deliveredAt := response.deliveredAt
  bytes := response.bytes

/-- By tick, equal ticks by insertion order. -/
def ScheduledResponse.before (a b : ScheduledResponse) : Prop :=
  a.deliveredAt < b.deliveredAt ∨
    (a.deliveredAt = b.deliveredAt ∧ a.insertionOrder < b.insertionOrder)

instance (a b : ScheduledResponse) : Decidable (a.before b) :=
  inferInstanceAs (Decidable (_ ∨ _))

theorem before_iff (a b : ScheduledResponse) :
    a.before b ↔ toLex (a.deliveredAt.toNat, a.insertionOrder.toNat) <
      toLex (b.deliveredAt.toNat, b.insertionOrder.toNat) := by
  rw [Prod.Lex.toLex_lt_toLex, ScheduledResponse.before, UInt64.lt_iff_toNat_lt,
    UInt64.lt_iff_toNat_lt, ← UInt64.toNat_inj]

/-- The frame carries a stamped response to the request of a sequence. -/
def SimClockFrame.Answers (frame : SimClockFrame) (clock : ControllerClock) (sequence : UInt32)
    (sentAt : Tick) : Prop :=
  ∃ response, frame.bytes = ClockResponseFrame.bytes ⟨sequence, response⟩ ∧
    clock.Stamped sentAt frame.deliveredAt response

structure SimClockTransport where
  cfg : ClockTransportConfig
  rng : UInt64
  nextInsertionOrder : UInt64
  pending : List ScheduledResponse
  linkUp : Bool
  deriving DecidableEq

def validateLink (direction : String) (link : ClockLinkConfig) :
    Except ClockTransportConfigError Unit := do
  Library.reject (link.lossPerMille > 1000) (.invalidLossRate direction link.lossPerMille)
  Library.reject (link.dupPerMille > 1000) (.invalidDuplicationRate direction link.dupPerMille)

namespace SimClockTransport

def new (cfg : ClockTransportConfig) : Except ClockTransportConfigError SimClockTransport := do
  validateLink "request" cfg.request
  validateLink "response" cfg.response
  Library.reject (cfg.maxPending = 0) .zeroPendingCapacity
  pure { cfg, rng := cfg.seed * 2 + 1, nextInsertionOrder := 0, pending := [], linkUp := true }

def nextRand (transport : SimClockTransport) : UInt64 × SimClockTransport :=
  let (value, rng) := lcg transport.rng
  (value, { transport with rng })

/-- Whether a roll stays below a rate. A rate of zero does not use the generator. -/
def roll (transport : SimClockTransport) (perMille : UInt16) : Bool × SimClockTransport :=
  if perMille > 0 then
    let (value, transport) := transport.nextRand
    (value % 1000 < perMille.toUInt64, transport)
  else (false, transport)

def jitter (transport : SimClockTransport) (link : ClockLinkConfig) :
    Except SimClockTransportError (Tick × SimClockTransport) :=
  if link.jitterTicks = 0 then pure (0, transport)
  else do
    let choices ← okOr (U64.checkedAdd link.jitterTicks 1) .timeOverflow
    let (value, transport) := transport.nextRand
    pure (value % choices, transport)

/-- The ticks at which what is sent over a link arrives: none, one or two. -/
def deliveries (transport : SimClockTransport) (sentAt : Tick) (link : ClockLinkConfig) :
    Except SimClockTransportError (List Tick × SimClockTransport) :=
  let (lost, transport) := transport.roll link.lossPerMille
  if lost then pure ([], transport)
  else do
    let (jitter, transport) ← transport.jitter link
    let tick ← okOr (U64.checkedAdd sentAt link.latencyTicks) .timeOverflow
    let deliveredAt ← okOr (U64.checkedAdd tick jitter) .timeOverflow
    let (duplicate, transport) := transport.roll link.dupPerMille
    if duplicate then do
      let again ← okOr (U64.checkedAdd deliveredAt 1) .timeOverflow
      pure ([deliveredAt, again], transport)
    else pure ([deliveredAt], transport)

/-- Copies of a response, numbered in order. -/
def inOrder (order : UInt64) (bytes : List UInt8) : List Tick → List ScheduledResponse
  | [] => []
  | deliveredAt :: rest =>
    { deliveredAt, insertionOrder := order, bytes } :: inOrder (order + 1) bytes rest

/-- The responses to one copy of a request. -/
def respond (transport : SimClockTransport) (sequence : UInt32) (arrivalHost : Tick) :
    Except SimClockTransportError (List ScheduledResponse × SimClockTransport) := do
  let clock := transport.cfg.controllerClock
  let sendHost ← okOr (U64.checkedAdd arrivalHost transport.cfg.processingTicks) .timeOverflow
  let controllerReceive ← (clock.at arrivalHost).mapError .clock
  let controllerSend ← (clock.at sendHost).mapError .clock
  let response : ClockResponseFrame :=
    { sequence, response := { controllerReceive, controllerSend } }
  let (encoded, bytes) := encodeClockResponse response (List.replicate clockResponseFrameLen 0)
  let _ ← encoded.mapError .encode
  let (ticks, transport) ← transport.deliveries sendHost transport.cfg.response
  pure (inOrder transport.nextInsertionOrder bytes ticks,
    { transport with
      nextInsertionOrder := transport.nextInsertionOrder + UInt64.ofNat ticks.length })

/-- The responses to all copies of a request. -/
def respondAll (transport : SimClockTransport) (sequence : UInt32) :
    List Tick → Except SimClockTransportError (List ScheduledResponse × SimClockTransport)
  | [] => pure ([], transport)
  | arrivalHost :: rest => do
    let (responses, transport) ← transport.respond sequence arrivalHost
    let (later, transport) ← transport.respondAll sequence rest
    pure (responses ++ later, transport)

def sendRequestMut (transport : SimClockTransport) (hostSend : Tick) (frame : List UInt8) :
    Except SimClockTransportError SimClockTransport := do
  let request ← (decodeClockRequest frame).mapError .decode
  if ¬ transport.linkUp then pure transport
  else
    let (arrivals, transport) ← transport.deliveries hostSend transport.cfg.request
    let (scheduled, transport) ← transport.respondAll request.sequence arrivals
    Library.reject (transport.pending.length + scheduled.length > transport.cfg.maxPending)
      (.queueFull transport.cfg.maxPending)
    pure { transport with pending := transport.pending ++ scheduled }

/-- Hand a request to the link. A request that fails changes nothing. -/
def sendRequest (transport : SimClockTransport) (hostSend : Tick) (frame : List UInt8) :
    Except SimClockTransportError Unit × SimClockTransport :=
  match transport.sendRequestMut hostSend frame with
  | .error e => (.error e, transport)
  | .ok next => (.ok (), next)

/-- The earliest response that is due. -/
def receiveDue (transport : SimClockTransport) (hostNow : Tick) :
    Option SimClockFrame × SimClockTransport :=
  match transport.pending.filter (·.deliveredAt ≤ hostNow) with
  | [] => (none, transport)
  | first :: rest =>
    let response := rest.foldl (fun best response =>
      if response.before best then response else best) first
    (some response.frame, { transport with pending := transport.pending.erase response })

/-- Responses in flight are lost with the link. -/
def dropLink (transport : SimClockTransport) : SimClockTransport :=
  { transport with linkUp := false, pending := [] }

def restoreLink (transport : SimClockTransport) : SimClockTransport :=
  { transport with linkUp := true }

/-! ## What a request leaves on the link -/

variable {transport next : SimClockTransport}

theorem new_eq_ok {cfg : ClockTransportConfig} (h : new cfg = .ok transport) :
    transport.cfg = cfg ∧ transport.pending = [] := by
  simp only [new, bind_eq_ok] at h
  obtain ⟨-, -, -, -, -, -, h⟩ := h
  cases h
  exact ⟨rfl, rfl⟩

theorem roll_eq {perMille : UInt16} {hit : Bool} (h : transport.roll perMille = (hit, next)) :
    ∃ rng, next = { transport with rng } := by
  unfold roll at h
  split at h
  · cases h
    exact ⟨_, rfl⟩
  · cases h
    exact ⟨transport.rng, rfl⟩

theorem jitter_eq_ok {link : ClockLinkConfig} {value : Tick}
    (h : transport.jitter link = .ok (value, next)) : ∃ rng, next = { transport with rng } := by
  unfold jitter at h
  split at h
  · cases h
    exact ⟨transport.rng, rfl⟩
  · simp only [bind_eq_ok, okOr_eq_ok] at h
    obtain ⟨choices, -, hnext⟩ := h
    cases hnext
    exact ⟨_, rfl⟩

/-- Nothing arrives before it was sent, and only the generator is used. -/
theorem deliveries_eq_ok {sentAt : Tick} {link : ClockLinkConfig} {ticks : List Tick}
    (h : transport.deliveries sentAt link = .ok (ticks, next)) :
    (∃ rng, next = { transport with rng }) ∧ ∀ tick ∈ ticks, sentAt ≤ tick := by
  unfold deliveries at h
  generalize hroll : transport.roll link.lossPerMille = rolled at h
  obtain ⟨lost, rolled⟩ := rolled
  obtain ⟨rng, rfl⟩ := roll_eq hroll
  simp only at h
  split at h
  · cases h
    exact ⟨⟨rng, rfl⟩, nofun⟩
  · simp only [bind_eq_ok, okOr_eq_ok, U64.checkedAdd_eq_some] at h
    obtain ⟨⟨jitter, jittered⟩, hjitter, tick, htick, deliveredAt, hdelivered, h⟩ := h
    obtain ⟨rng', rfl⟩ := jitter_eq_ok hjitter
    have hsent : sentAt ≤ deliveredAt := by
      rw [UInt64.le_iff_toNat_le]
      omega
    generalize hroll' : roll { transport with rng := rng' } link.dupPerMille = rolled at h
    obtain ⟨duplicate, rolled⟩ := rolled
    obtain ⟨rng'', rfl⟩ := roll_eq hroll'
    simp only at h
    split at h
    · simp only [bind_eq_ok, okOr_eq_ok, U64.checkedAdd_eq_some] at h
      obtain ⟨again, hlater, h⟩ := h
      cases h
      refine ⟨⟨rng'', rfl⟩, List.forall_mem_cons.mpr ⟨hsent, List.forall_mem_singleton.mpr ?_⟩⟩
      rw [UInt64.le_iff_toNat_le]
      omega
    · cases h
      exact ⟨⟨rng'', rfl⟩, List.forall_mem_singleton.mpr hsent⟩

theorem mem_inOrder {order : UInt64} {bytes : List UInt8} {ticks : List Tick}
    {response : ScheduledResponse} (h : response ∈ inOrder order bytes ticks) :
    response.deliveredAt ∈ ticks ∧ response.bytes = bytes := by
  induction ticks generalizing order with
  | nil => cases h
  | cons deliveredAt rest ih =>
    obtain rfl | hrest := List.mem_cons.mp h
    · exact ⟨.head _, rfl⟩
    · exact ⟨.tail _ (ih hrest).1, (ih hrest).2⟩

theorem encode_response (response : ClockResponseFrame) :
    encodeClockResponse response (List.replicate clockResponseFrameLen 0) =
      (.ok clockResponseFrameLen, response.bytes) := by
  have hlen : response.bytes.length = clockResponseFrameLen := response.length_bytes
  have hwrite := clockResponseFrame_codes.writes response (List.replicate clockResponseFrameLen 0)
    trivial (by rw [hlen, List.length_replicate])
  simpa [hlen] using hwrite

/-- The responses to one copy of a request are stamped, and the rest of the link is left
alone. -/
theorem respond_eq_ok {sequence : UInt32} {arrivalHost : Tick}
    {responses : List ScheduledResponse}
    (h : transport.respond sequence arrivalHost = .ok (responses, next)) :
    (∃ rng nextInsertionOrder, next = { transport with rng, nextInsertionOrder }) ∧
      ∀ response ∈ responses,
        response.frame.Answers transport.cfg.controllerClock sequence arrivalHost := by
  simp only [respond, bind_eq_ok, okOr_eq_ok, mapError_eq_ok, U64.checkedAdd_eq_some,
    encode_response] at h
  obtain ⟨sendHost, hsend, controllerReceive, hreceive, controllerSend, hsent, -, -,
    ⟨ticks, rolled⟩, hdeliveries, h⟩ := h
  obtain ⟨⟨rng, rfl⟩, hticks⟩ := deliveries_eq_ok hdeliveries
  cases h
  refine ⟨⟨rng, _, rfl⟩, fun response hresponse => ?_⟩
  obtain ⟨htick, hbytes⟩ := mem_inOrder hresponse
  have hlater : arrivalHost ≤ sendHost := by
    rw [UInt64.le_iff_toNat_le]
    omega
  exact ⟨_, hbytes, arrivalHost, sendHost, UInt64.le_refl _, hlater, hticks _ htick, hreceive,
    hsent⟩

theorem respondAll_eq_ok {sequence : UInt32} {sentAt : Tick} {arrivals : List Tick}
    (harrivals : ∀ arrivalHost ∈ arrivals, sentAt ≤ arrivalHost)
    {scheduled : List ScheduledResponse}
    (h : transport.respondAll sequence arrivals = .ok (scheduled, next)) :
    (∃ rng nextInsertionOrder, next = { transport with rng, nextInsertionOrder }) ∧
      ∀ response ∈ scheduled,
        response.frame.Answers transport.cfg.controllerClock sequence sentAt := by
  induction arrivals generalizing transport next scheduled with
  | nil =>
    cases h
    exact ⟨⟨_, _, rfl⟩, nofun⟩
  | cons arrivalHost rest ih =>
    simp only [respondAll, bind_eq_ok] at h
    obtain ⟨⟨responses, middle⟩, hrespond, ⟨later, last⟩, hlater, h⟩ := h
    obtain ⟨hhead, hrest⟩ := List.forall_mem_cons.mp harrivals
    obtain ⟨⟨rng, order, rfl⟩, hresponses⟩ := respond_eq_ok hrespond
    dsimp only at hlater
    obtain ⟨⟨rng', order', rfl⟩, hscheduled⟩ := ih hrest hlater
    cases h
    refine ⟨⟨rng', order', rfl⟩, List.forall_mem_append.mpr ⟨fun response hresponse => ?_,
      hscheduled⟩⟩
    obtain ⟨stamped, hbytes, arrival, departure, hle, hstamped⟩ := hresponses response hresponse
    exact ⟨stamped, hbytes, arrival, departure, UInt64.le_trans hhead hle, hstamped⟩

/-- A request adds stamped responses to the link, or nothing. -/
theorem sendRequest_snd (transport : SimClockTransport) (hostSend : Tick)
    (request : ClockRequestFrame) :
    ∃ rng nextInsertionOrder scheduled,
      (transport.sendRequest hostSend request.bytes).2 = { transport with
        rng, nextInsertionOrder, pending := transport.pending ++ scheduled } ∧
      ∀ response ∈ scheduled,
        response.frame.Answers transport.cfg.controllerClock request.sequence hostSend := by
  have hdecode : decodeClockRequest request.bytes = .ok request :=
    (clockRequestFrame_codes.decode_iff _ request).mpr ⟨trivial, rfl⟩
  have hsame : transport = { transport with pending := transport.pending ++ [] } := by
    rw [List.append_nil]
  unfold sendRequest
  split
  · exact ⟨_, _, [], hsame, nofun⟩
  · rename_i sent hsent
    simp only [sendRequestMut, bind_eq_ok, mapError_eq_ok, hdecode, Except.ok.injEq] at hsent
    obtain ⟨_, rfl, hsent⟩ := hsent
    split at hsent
    · cases hsent
      exact ⟨_, _, [], hsame, nofun⟩
    · simp only [bind_eq_ok, reject_eq_ok] at hsent
      obtain ⟨⟨arrivals, rolled⟩, hdeliveries, ⟨scheduled, responded⟩, hrespond, -, -, hsent⟩ :=
        hsent
      obtain ⟨⟨rng, rfl⟩, harrivals⟩ := deliveries_eq_ok hdeliveries
      obtain ⟨⟨rng', order, rfl⟩, hscheduled⟩ := respondAll_eq_ok harrivals hrespond
      cases hsent
      exact ⟨rng', order, scheduled, rfl, hscheduled⟩

theorem receiveDue_eq_none {hostNow : Tick}
    (h : transport.receiveDue hostNow = (none, next)) : next = transport := by
  unfold receiveDue at h
  split at h
  · cases h
    rfl
  · cases h

/-- The received response is the first one that is due, by tick and number. -/
theorem receiveDue_first {hostNow : Tick} {frame : SimClockFrame}
    (h : transport.receiveDue hostNow = (some frame, next)) :
    ∃ response ∈ transport.pending, response.frame = frame ∧ response.deliveredAt ≤ hostNow ∧
      (∀ other ∈ transport.pending, other.deliveredAt ≤ hostNow → ¬ other.before response) ∧
      next = { transport with pending := transport.pending.erase response } := by
  unfold receiveDue at h
  split at h
  · cases h
  · rename_i first rest hdue
    have hmem : rest.foldl (fun best response => if response.before best then response else best)
        first ∈ transport.pending.filter (·.deliveredAt ≤ hostNow) := by
      rw [hdue]
      exact foldl_mem_cons (fun best response => by split <;> simp) first rest
    have hleast := foldl_min_le before_iff first rest
    rw [← hdue] at hleast
    obtain ⟨hpending, harrived⟩ := List.mem_filter.mp hmem
    cases h
    refine ⟨_, hpending, rfl, of_decide_eq_true harrived, fun other hother hotherDue => ?_, rfl⟩
    rw [before_iff, not_lt]
    exact hleast other (List.mem_filter.mpr ⟨hother, decide_eq_true hotherDue⟩)

end SimClockTransport
end Dryer.Simulator
