import Dryer.ControlProtocol.RoundTrip
import Dryer.Simulator.Controller

/-!
# Wire frames at the simulated controller

A command frame is accepted like any delivered command, a queue-status frame is answered with
the current status, and a clock request with the current tick.
-/
namespace Dryer.ControlProtocol

/-- The derived `Debug` text of a variant with named fields. -/
def debugFields (name : String) (fields : List (String × String)) : String :=
  name ++ " \x7b " ++ ", ".intercalate (fields.map fun field => field.1 ++ ": " ++ field.2) ++
    " \x7d"

def EncodeError.debug : EncodeError → String
  | .stringTooLong length maximum =>
    debugFields "StringTooLong" [("length", toString length), ("maximum", toString maximum)]
  | .payloadTooLong length maximum =>
    debugFields "PayloadTooLong" [("length", toString length), ("maximum", toString maximum)]
  | .bufferTooSmall needed available =>
    debugFields "BufferTooSmall" [("needed", toString needed), ("available", toString available)]

def DecodeError.debug : DecodeError → String
  | .truncated needed available =>
    debugFields "Truncated" [("needed", toString needed), ("available", toString available)]
  | .invalidMagic found => debugFields "InvalidMagic" [("found", toString found)]
  | .unsupportedVersion version =>
    debugFields "UnsupportedVersion" [("version", toString version)]
  | .unsupportedMessageType messageType =>
    debugFields "UnsupportedMessageType" [("message_type", toString messageType)]
  | .payloadTooLong length maximum =>
    debugFields "PayloadTooLong" [("length", toString length), ("maximum", toString maximum)]
  | .trailingFrameBytes count => debugFields "TrailingFrameBytes" [("count", toString count)]
  | .checksumMismatch encoded computed =>
    debugFields "ChecksumMismatch"
      [("encoded", toString encoded), ("computed", toString computed)]
  | .invalidPayloadLength expected actual =>
    debugFields "InvalidPayloadLength"
      [("expected", toString expected), ("actual", toString actual)]
  | .invalidFlags flags => debugFields "InvalidFlags" [("flags", toString flags)]
  | .invalidStateFlags flags => debugFields "InvalidStateFlags" [("flags", toString flags)]
  | .unknownCommandTag tag => debugFields "UnknownCommandTag" [("tag", toString tag)]
  | .stringTooLong length maximum =>
    debugFields "StringTooLong" [("length", toString length), ("maximum", toString maximum)]
  | .invalidUtf8 => "InvalidUtf8"
  | .trailingPayloadBytes count => debugFields "TrailingPayloadBytes" [("count", toString count)]

end Dryer.ControlProtocol

namespace Dryer.Simulator
open Library ControlProtocol

/-- The frame that an encoder wrote to a fresh buffer of its length. -/
def encoded (result : Except EncodeError Nat × List UInt8) (what : String) :
    Except String (Option (List UInt8)) :=
  match result with
  | (.error e, _) => .error (what ++ e.debug)
  | (.ok len, buffer) => .ok (some (buffer.take len))

namespace SimController

variable {θ : Type}

/-- The queue status as the protocol reports it. -/
def wireStatus (c : SimController θ) : ControlProtocol.QueueStatus where
  capacity := UInt16.ofNat c.queueStatus.capacity
  fill := UInt16.ofNat c.queueStatus.fillLevel
  earliestAccepted := c.queueStatus.earliestAcceptedTimestamp
  latestAccepted := c.queueStatus.latestAcceptedTimestamp
  underrun := c.latchedFault.isSome

/-- Process one incoming frame. Only a command changes the controller. -/
def processWireFrame (c : SimController θ) (frame : List UInt8) :
    Except String (Option (List UInt8)) × SimController θ :=
  if frame.length < 4 then (.error "frame header too short", c)
  else
    let messageType := byteAt frame 3
    if messageType = commandMessageType then
      match decodeCommand frame with
      | .error e => (.error ("decode command error: " ++ e.debug), c)
      | .ok command => (.ok none, c.accept command.envelope)
    else if messageType = queueStatusMessageType then
      match decodeQueueStatus frame with
      | .error e => (.error ("decode queue_status error: " ++ e.debug), c)
      | .ok request =>
        let response : QueueStatusFrame := { sequence := request.sequence, status := c.wireStatus }
        (encoded (encodeQueueStatus response (List.replicate queueStatusFrameLen 0))
          "encode queue_status error: ", c)
    else if messageType = clockRequestMessageType then
      match decodeClockRequest frame with
      | .error e => (.error ("decode clock_request error: " ++ e.debug), c)
      | .ok request =>
        let response : ClockResponseFrame :=
          { sequence := request.sequence
            response := { controllerReceive := c.now, controllerSend := c.now } }
        (encoded (encodeClockResponse response (List.replicate clockResponseFrameLen 0))
          "encode clock_response error: ", c)
    else (.error s!"unsupported message type {messageType}", c)

end SimController
end Dryer.Simulator
