import Dryer.Daemon.ControllerDaemon
import Dryer.TransportAdapter.Resync

/-!
# Reading and dispatching frames

One call reads once from the transport, feeds the codec and drains it, decoding each frame by
its message type. A frame that does not decode ends the call where it stands.
-/
namespace Dryer.TransportAdapter
open Library ControlProtocol ControlClient Daemon

/-- A byte-stream transport, as far as it is read. -/
structure StreamTransport (τ ε : Type) where
  /-- Read into a buffer of the given length. -/
  readBytes : (space : Nat) → τ → Except ε { bytes : List UInt8 // bytes.length ≤ space } × τ

inductive DispatchedFrame where
  | queueStatus (frame : QueueStatusFrame)
  | clockRequest (frame : ClockRequestFrame)
  | clockResponse (frame : ClockResponseFrame)
  | command (frame : CommandFrame)
  | raw (messageType : UInt8) (bytes : List UInt8)
  deriving DecidableEq

inductive TransportAdapterError (ε : Type) where
  | transport (error : ε)
  | codec (error : FrameCodecError)
  | decode (error : DecodeError)
  | daemonUpdate (error : DecodeError)
  deriving DecidableEq

/-- A decoded frame, or the error of its decoder. -/
def decodedAs {α ε : Type} (event : α → DispatchedFrame) :
    Except DecodeError α → Except (TransportAdapterError ε) DispatchedFrame
  | .error e => .error (.decode e)
  | .ok frame => .ok (event frame)

/-- Dispatch a frame. A queue status reaches the daemon before it is decoded again. -/
def dispatchFrame {ε : Type} (frameBytes : List UInt8) (daemon : ControllerDaemon)
    (controllerId : String) (currentHostUs : UInt64) :
    Except (TransportAdapterError ε) DispatchedFrame × ControllerDaemon :=
  if frameBytes.length < headerLen then
    (.error (.decode (.truncated headerLen frameBytes.length)), daemon)
  else
    let messageType := byteAt frameBytes 3
    if messageType = queueStatusMessageType then
      match daemon.updateQueueStatus controllerId frameBytes currentHostUs with
      | (.error e, daemon) => (.error (.daemonUpdate e), daemon)
      | (.ok _, daemon) => (decodedAs .queueStatus (decodeQueueStatusFrame frameBytes), daemon)
    else if messageType = clockResponseMessageType then
      (decodedAs .clockResponse (decodeClockResponseFrame frameBytes), daemon)
    else if messageType = clockRequestMessageType then
      (decodedAs .clockRequest (decodeClockRequest frameBytes), daemon)
    else if messageType = commandMessageType then
      (decodedAs .command (decodeCommand frameBytes), daemon)
    else (.ok (.raw messageType frameBytes), daemon)

/-- Take frames from the codec and dispatch them until there is none, or one is rejected. -/
def dispatchFrames {ε : Type} (codec : FrameCodec) (daemon : ControllerDaemon)
    (controllerId : String) (currentHostUs : UInt64) (dispatched : List DispatchedFrame) :
    Except (TransportAdapterError ε) (List DispatchedFrame) × FrameCodec × ControllerDaemon :=
  match _h : codec.nextFrame with
  | (.error e, rest) => (.error (.codec e), rest, daemon)
  | (.ok none, rest) => (.ok dispatched, rest, daemon)
  | (.ok (some frameBytes), rest) =>
    match dispatchFrame frameBytes daemon controllerId currentHostUs with
    | (.error e, daemon) => (.error e, rest, daemon)
    | (.ok frame, daemon) =>
      dispatchFrames rest daemon controllerId currentHostUs (dispatched ++ [frame])
termination_by codec.buffer.length
decreasing_by exact FrameCodec.length_of_nextFrame _h

/-- The read buffer is empty between calls, so the codec is all that a reader keeps. -/
structure TransportStreamReader where
  codec : FrameCodec
  deriving DecidableEq

namespace TransportStreamReader

def readBufLen : Nat := maxFrameLen * 4

def withCodec (codec : FrameCodec) : TransportStreamReader := ⟨codec⟩

def new : TransportStreamReader := withCodec FrameCodec.new

/-- Read bytes from the transport, delimit frames, update the daemon, and return the frames. -/
def readAndDispatch {τ ε : Type} (reader : TransportStreamReader) (transport : StreamTransport τ ε)
    (transportState : τ) (daemon : ControllerDaemon) (controllerId : String)
    (currentHostUs : UInt64) :
    Except (TransportAdapterError ε) (List DispatchedFrame) ×
      TransportStreamReader × τ × ControllerDaemon :=
  match transport.readBytes readBufLen transportState with
  | (.error e, transportState) => (.error (.transport e), reader, transportState, daemon)
  | (.ok bytes, transportState) =>
    match if bytes.val.length > 0 then reader.codec.feed bytes.val else (.ok (), reader.codec) with
    | (.error e, codec) => (.error (.codec e), { codec }, transportState, daemon)
    | (.ok (), codec) =>
      let (result, codec, daemon) := dispatchFrames codec daemon controllerId currentHostUs []
      (result, { codec }, transportState, daemon)

end TransportStreamReader
end Dryer.TransportAdapter
