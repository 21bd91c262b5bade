import Dryer.Library.Transactions
import Dryer.Simulator.ClockTransport

/-!
# The candidate of a request

A request that is handed over uses the generator and numbers responses before all checks are
made. It does so on a copy of the link.
-/
namespace Dryer.Simulator
open Library ControlProtocol

/-- What `sendRequestMut` does in place to a candidate. -/
abbrev ClockAction := InPlace SimClockTransport SimClockTransportError

namespace ClockAction

def nextRand : ClockAction UInt64 := modifyGet SimClockTransport.nextRand

def roll (perMille : UInt16) : ClockAction Bool :=
  if perMille > 0 then do
    let value ← nextRand
    pure (decide (value % 1000 < perMille.toUInt64))
  else pure false

def jitter (link : ClockLinkConfig) : ClockAction Tick :=
  if link.jitterTicks = 0 then pure 0
  else do
    let choices ← .check (okOr (U64.checkedAdd link.jitterTicks 1) .timeOverflow)
    let value ← nextRand
    pure (value % choices)

def deliveries (sentAt : Tick) (link : ClockLinkConfig) : ClockAction (List Tick) := do
  if ← roll link.lossPerMille then pure []
  else
    let jitter ← jitter link
    let tick ← .check (okOr (U64.checkedAdd sentAt link.latencyTicks) .timeOverflow)
    let deliveredAt ← .check (okOr (U64.checkedAdd tick jitter) .timeOverflow)
    if ← roll link.dupPerMille then
      let again ← .check (okOr (U64.checkedAdd deliveredAt 1) .timeOverflow)
      pure [deliveredAt, again]
    else pure [deliveredAt]

/-- Each copy of a response takes the next number. -/
def schedule (bytes : List UInt8) : List Tick → ClockAction (List ScheduledResponse)
  | [] => pure []
  | deliveredAt :: rest => do
    let insertionOrder ← modifyGet fun transport => (transport.nextInsertionOrder,
      { transport with nextInsertionOrder := transport.nextInsertionOrder + 1 })
    let later ← schedule bytes rest
    pure ({ deliveredAt, insertionOrder, bytes } :: later)

def respond (sequence : UInt32) (arrivalHost : Tick) :
    ClockAction (List ScheduledResponse) := do
  let transport ← get
  let clock := transport.cfg.controllerClock
  let sendHost ← .check
    (okOr (U64.checkedAdd arrivalHost transport.cfg.processingTicks) .timeOverflow)
  let controllerReceive ← .check ((clock.at arrivalHost).mapError .clock)
  let controllerSend ← .check ((clock.at sendHost).mapError .clock)
  let response : ClockResponseFrame :=
    { sequence, response := { controllerReceive, controllerSend } }
  let encoded := encodeClockResponse response (List.replicate clockResponseFrameLen 0)
  let _ ← .check (encoded.1.mapError .encode)
  let ticks ← deliveries sendHost transport.cfg.response
  schedule encoded.2 ticks

def respondAll (sequence : UInt32) : List Tick → ClockAction (List ScheduledResponse)
  | [] => pure []
  | arrivalHost :: rest => do
    let responses ← respond sequence arrivalHost
    let later ← respondAll sequence rest
    pure (responses ++ later)

def sendRequestMut (hostSend : Tick) (frame : List UInt8) : ClockAction Unit := do
  let request ← .check ((decodeClockRequest frame).mapError .decode)
  let transport ← get
  if ¬ transport.linkUp then pure ()
  else
    let arrivals ← deliveries hostSend transport.cfg.request
    let scheduled ← respondAll request.sequence arrivals
    let transport ← get
    .check (Library.reject
      (transport.pending.length + scheduled.length > transport.cfg.maxPending)
      (.queueFull transport.cfg.maxPending))
    modify fun transport => { transport with pending := transport.pending ++ scheduled }

/-! ## The functions that they compute -/

theorem roll_computes (perMille : UInt16) :
    (roll perMille).Computes fun transport => .ok (transport.roll perMille) := by
  unfold roll SimClockTransport.roll
  intro s
  by_cases h : perMille > 0
  · simp only [h, if_true]
    rfl
  · simp only [h, if_false]
    rfl

theorem jitter_computes (link : ClockLinkConfig) :
    (jitter link).Computes fun transport => transport.jitter link := by
  unfold jitter SimClockTransport.jitter
  exact .ite (fun _ => .pure 0) fun _ => .check_bind _ fun choices =>
    .modifyGet_bind _ fun value => .pure (value % choices)

theorem deliveries_computes (sentAt : Tick) (link : ClockLinkConfig) :
    (deliveries sentAt link).Computes fun transport => transport.deliveries sentAt link := by
  unfold deliveries SimClockTransport.deliveries
  exact (roll_computes _).bind fun lost =>
    .ite (fun _ => .pure []) fun _ =>
      (jitter_computes link).bind fun jitter =>
        .check_bind _ fun tick =>
          .check_bind _ fun deliveredAt =>
            (roll_computes _).bind fun duplicate =>
              .ite (fun _ => .check_bind _ fun again => .pure _) fun _ => .pure _

theorem schedule_computes (bytes : List UInt8) (ticks : List Tick) :
    (schedule bytes ticks).Computes fun transport =>
      .ok (SimClockTransport.inOrder transport.nextInsertionOrder bytes ticks, { transport with
        nextInsertionOrder := transport.nextInsertionOrder + UInt64.ofNat ticks.length }) := by
  induction ticks with
  | nil =>
    refine InPlace.Computes.congr (.pure []) fun transport => ?_
    simp [SimClockTransport.inOrder]
  | cons deliveredAt rest ih =>
    refine InPlace.Computes.congr (.modifyGet_bind _ fun insertionOrder =>
      ih.bind fun later => .pure _) fun transport => ?_
    have horder : transport.nextInsertionOrder + UInt64.ofNat (rest.length + 1) =
        transport.nextInsertionOrder + 1 + UInt64.ofNat rest.length := by
      rw [Nat.add_comm, UInt64.ofNat_add, UInt64.add_assoc]
      rfl
    rw [List.length_cons, horder]
    rfl

theorem respond_computes (sequence : UInt32) (arrivalHost : Tick) :
    (respond sequence arrivalHost).Computes fun transport =>
      transport.respond sequence arrivalHost := by
  unfold respond
  dsimp only
  refine .congr (.get_bind fun transport =>
    .check_bind _ fun sendHost =>
      .check_bind _ fun controllerReceive =>
        .check_bind _ fun controllerSend =>
          .check_bind _ fun _ =>
            (deliveries_computes _ _).bind fun ticks =>
              schedule_computes _ ticks) fun transport => ?_
  simp only [SimClockTransport.respond, SimClockTransport.encode_response]
  rfl

theorem respondAll_computes (sequence : UInt32) (arrivals : List Tick) :
    (respondAll sequence arrivals).Computes fun transport =>
      transport.respondAll sequence arrivals := by
  induction arrivals with
  | nil => exact .pure []
  | cons arrivalHost rest ih =>
    exact (respond_computes sequence arrivalHost).bind fun responses => ih.bind fun later => .pure _

theorem sendRequestMut_computes (hostSend : Tick) (frame : List UInt8) :
    (sendRequestMut hostSend frame).Computes fun transport =>
      (transport.sendRequestMut hostSend frame).map fun next => ((), next) := by
  unfold sendRequestMut
  refine .congr (.check_bind _ fun request =>
    .get_bind fun transport =>
      .ite (fun _ => .pure ()) fun _ =>
        (deliveries_computes _ _).bind fun arrivals =>
          (respondAll_computes _ arrivals).bind fun scheduled =>
            .get_bind fun responded =>
              .check_bind _ fun _ => .modifyGet _) fun transport => ?_
  unfold SimClockTransport.sendRequestMut
  change _ = (fun next => ((), next)) <$> _
  by_cases hup : transport.linkUp
  · simp only [hup, not_true, if_false, map_bind, map_pure]
    rfl
  · simp only [hup, Bool.false_eq_true, not_false_eq_true, if_true, map_bind, map_pure]
    rfl

end ClockAction

/-- A request is handed over to a copy of the link, which takes its place when it is accepted. -/
theorem SimClockTransport.sendRequest_eq_onCopy (transport : SimClockTransport) (hostSend : Tick)
    (frame : List UInt8) :
    transport.sendRequest hostSend frame =
      (ClockAction.sendRequestMut hostSend frame).onCopy transport := by
  rw [InPlace.onCopy_eq (ClockAction.sendRequestMut_computes hostSend frame)]
  unfold sendRequest
  cases transport.sendRequestMut hostSend frame <;> rfl

end Dryer.Simulator
