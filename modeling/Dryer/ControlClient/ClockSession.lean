import Dryer.Clock.Estimator
import Dryer.ControlProtocol.RoundTrip
import Std.Data.TreeMap

/-!
# Clock sessions

A session owns the timestamps and the correlation of one clock exchange at a time. Framing,
input and output, and the scheduling of timeouts remain with its caller.
-/
namespace Dryer.ControlClient
open Library Clock ControlProtocol

/-- Decode and validate one complete queue-status observation. -/
def decodeQueueStatusFrame (input : List UInt8) : Except DecodeError QueueStatusFrame :=
  decodeQueueStatus input

/-- Decode and validate one complete clock response. -/
def decodeClockResponseFrame (input : List UInt8) : Except DecodeError ClockResponseFrame :=
  decodeClockResponse input

/-- A synchronous destination for one complete frame. -/
structure FrameSink (σ ε : Type) where
  sendFrame : List UInt8 → σ → Except ε Unit × σ

structure HostClock (κ : Type) where
  now : κ → HostTick × κ

structure ClockRequestReceipt where
  sequence : UInt32
  frameLen : Nat
  deriving DecidableEq

structure ClockExchangeReceipt where
  sequence : UInt32
  sample : ClockSample
  estimate : Option ClockEstimate
  deriving DecidableEq

structure ClockTimeout where
  sequence : UInt32
  deriving DecidableEq

inductive ClockSessionError (ε : Type) where
  | busy (sequence : UInt32)
  | sequenceExhausted
  | encode (error : EncodeError)
  | transport (error : ε)
  | sync (error : ClockSyncError)
  | decode (error : DecodeError)
  | noPending
  | unexpectedSequence (expected received : UInt32)
  | timedOut (sequence : UInt32)
  deriving DecidableEq

structure PendingClockExchange where
  sequence : UInt32
  hostSend : HostTick
  deriving DecidableEq

structure ClockSession where
  sync : ClockSync
  nextSequence : UInt32
  exhausted : Bool
  timeoutTicks : UInt64
  pending : Option PendingClockExchange
  request : List UInt8
  requestLen : request.length = clockRequestFrameLen
  deriving DecidableEq

theorem length_encodeClockRequest (frame : ClockRequestFrame) (output : List UInt8) :
    (encodeClockRequest frame output).2.length = output.length :=
  clockRequestFrame_codes.length_output frame output

namespace ClockSession

def new (maxSlewPpb : I128) (timeoutTicks : UInt64) : Except ClockSyncError ClockSession := do
  let sync ← ClockSync.new maxSlewPpb
  pure {
    sync
    nextSequence := 0
    exhausted := false
    timeoutTicks
    pending := none
    request := List.replicate clockRequestFrameLen 0
    requestLen := List.length_replicate }

/-- The session after its request buffer was written for `frame`. -/
def withRequest (session : ClockSession) (frame : ClockRequestFrame) : ClockSession :=
  { session with
    request := (encodeClockRequest frame session.request).2
    requestLen := (length_encodeClockRequest frame session.request).trans session.requestLen }

/-- Hand the next request to the sink. A sequence is consumed even when the sink fails. -/
def begin {σ ε κ : Type} (session : ClockSession) (sink : FrameSink σ ε) (sinkState : σ)
    (clock : HostClock κ) (clockState : κ) :
    Except (ClockSessionError ε) ClockRequestReceipt × ClockSession × σ × κ :=
  match session.pending with
  | some pending => (.error (.busy pending.sequence), session, sinkState, clockState)
  | none =>
    if session.exhausted then (.error .sequenceExhausted, session, sinkState, clockState)
    else
      let sequence := session.nextSequence
      let written := session.withRequest { sequence }
      match (encodeClockRequest { sequence } session.request).1 with
      | .error e => (.error (.encode e), written, sinkState, clockState)
      | .ok frameLen =>
        let advanced := { written with
          exhausted := sequence == 0xffffffff
          nextSequence := sequence + 1 }
        let (hostSend, clockState) := clock.now clockState
        match sink.sendFrame (written.request.take frameLen) sinkState with
        | (.error e, sinkState) => (.error (.transport e), advanced, sinkState, clockState)
        | (.ok (), sinkState) =>
          (.ok { sequence, frameLen }, { advanced with pending := some { sequence, hostSend } },
            sinkState, clockState)

/-- The part of `acceptResponse` before the estimator: the exchange that a response completes,
with its sample. A matching response retires the exchange, in time or not. -/
def matchResponse (session : ClockSession) (bytes : List UInt8) (hostReceive : HostTick) :
    Except (ClockSessionError Empty) (PendingClockExchange × ClockSample) × ClockSession :=
  match decodeClockResponseFrame bytes with
  | .error e => (.error (.decode e), session)
  | .ok response =>
    match session.pending with
    | none => (.error .noPending, session)
    | some pending =>
      if response.sequence ≠ pending.sequence then
        (.error (.unexpectedSequence pending.sequence response.sequence), session)
      else if U64.saturatingSub hostReceive.ticks pending.hostSend.ticks ≥
          session.timeoutTicks then
        (.error (.timedOut pending.sequence), { session with pending := none })
      else
        (.ok (pending, {
          hostSend := pending.hostSend
          controllerReceive := ⟨response.response.controllerReceive⟩
          controllerSend := ⟨response.response.controllerSend⟩
          hostReceive }), { session with pending := none })

/-- Complete the pending exchange. It is retired even when the estimator rejects its sample. -/
def acceptResponse {κ : Type} (session : ClockSession) (bytes : List UInt8)
    (clock : HostClock κ) (clockState : κ) :
    Except (ClockSessionError Empty) ClockExchangeReceipt × ClockSession × κ :=
  let (hostReceive, clockState) := clock.now clockState
  match session.matchResponse bytes hostReceive with
  | (.error e, session) => (.error e, session, clockState)
  | (.ok (pending, sample), session) =>
    match session.sync.push sample with
    | (.error e, sync) => (.error (.sync e), { session with sync }, clockState)
    | (.ok estimate, sync) =>
      (.ok { sequence := pending.sequence, sample, estimate }, { session with sync }, clockState)

/-- Retire the pending exchange when its timeout has elapsed. -/
def expire (session : ClockSession) (now : HostTick) : Option ClockTimeout × ClockSession :=
  match session.pending with
  | none => (none, session)
  | some pending =>
    if U64.saturatingSub now.ticks pending.hostSend.ticks ≥ session.timeoutTicks then
      (some { sequence := pending.sequence }, { session with pending := none })
    else (none, session)

end ClockSession

/-- Independent sessions for the controllers of a cluster. -/
structure MultiControllerClockSync where
  sessions : Std.TreeMap String ClockSession
  maxSlewPpb : I128
  timeoutTicks : UInt64

namespace MultiControllerClockSync

def new (maxSlewPpb : I128) (timeoutTicks : UInt64) : MultiControllerClockSync :=
  { sessions := ∅, maxSlewPpb, timeoutTicks }

def addController (cluster : MultiControllerClockSync) (name : String) :
    Except ClockSyncError Unit × MultiControllerClockSync :=
  match ClockSession.new cluster.maxSlewPpb cluster.timeoutTicks with
  | .error e => (.error e, cluster)
  | .ok session => (.ok (), { cluster with sessions := cluster.sessions.insert name session })

def session (cluster : MultiControllerClockSync) (name : String) : Option ClockSession :=
  cluster.sessions.get? name

def isClusterSynchronized (cluster : MultiControllerClockSync) : Bool :=
  !cluster.sessions.isEmpty && cluster.sessions.values.all fun session =>
    session.sync.estimate.isSome

def controllerCount (cluster : MultiControllerClockSync) : Nat := cluster.sessions.size

end MultiControllerClockSync
end Dryer.ControlClient
