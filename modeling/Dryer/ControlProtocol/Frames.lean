/-!
# Frames of the control protocol

A frame is `DR`, version, message type, sequence, payload length, payload, and CRC-32C.
Integers are little-endian. The checksum covers the version byte through the end of the
payload; the two magic bytes are excluded.
-/
namespace Dryer.ControlProtocol

/-- One microsecond of controller time. -/
abbrev Tick := UInt64

def magic : List UInt8 := [0x44, 0x52]
def protocolVersion : UInt8 := 1
def commandMessageType : UInt8 := 1
def queueStatusMessageType : UInt8 := 2
def clockRequestMessageType : UInt8 := 3
def clockResponseMessageType : UInt8 := 4
def headerLen : Nat := 10
def checksumLen : Nat := 4
def maxStringLen : Nat := 63
def maxPayloadLen : Nat := 128
def maxFrameLen : Nat := headerLen + maxPayloadLen + checksumLen
def queueStatusPayloadLen : Nat := 22
def queueStatusFrameLen : Nat := headerLen + queueStatusPayloadLen + checksumLen
def clockRequestPayloadLen : Nat := 1
def clockResponsePayloadLen : Nat := 17
def clockRequestFrameLen : Nat := headerLen + clockRequestPayloadLen + checksumLen
def clockResponseFrameLen : Nat := headerLen + clockResponsePayloadLen + checksumLen

def flagExecuteAt : UInt8 := (1 : UInt8) <<< 0
def knownFlags : UInt8 := flagExecuteAt
def queueStatusFlagUnderrun : UInt8 := (1 : UInt8) <<< 0

def tagHeartbeat : UInt8 := 0
def tagSetHeaterTarget : UInt8 := 1
def tagHome : UInt8 := 2
def tagMove : UInt8 := 3

inductive Command where
  | heartbeat
  | setHeaterTarget (heater : String) (targetMilliC : Int64)
  | home (axis : String) (rateUmS : UInt64)
  | move (axis : String) (distanceUm : Int64) (rateUmS : UInt64)
  deriving DecidableEq

structure CommandEnvelope where
  executeAt : Option Tick
  command : Command
  deriving DecidableEq

structure CommandFrame where
  sequence : UInt32
  envelope : CommandEnvelope
  deriving DecidableEq

structure QueueStatus where
  capacity : UInt16
  fill : UInt16
  earliestAccepted : Tick
  latestAccepted : Tick
  underrun : Bool
  deriving DecidableEq

structure QueueStatusFrame where
  sequence : UInt32
  status : QueueStatus
  deriving DecidableEq

structure ClockRequestFrame where
  sequence : UInt32
  deriving DecidableEq

structure ClockResponse where
  controllerReceive : Tick
  controllerSend : Tick
  deriving DecidableEq

structure ClockResponseFrame where
  sequence : UInt32
  response : ClockResponse
  deriving DecidableEq

inductive EncodeError where
  | stringTooLong (length maximum : Nat)
  | payloadTooLong (length maximum : Nat)
  | bufferTooSmall (needed available : Nat)
  deriving DecidableEq

inductive DecodeError where
  | truncated (needed available : Nat)
  | invalidMagic (found : List UInt8)
  | unsupportedVersion (version : UInt8)
  | unsupportedMessageType (messageType : UInt8)
  | payloadTooLong (length maximum : Nat)
  | trailingFrameBytes (count : Nat)
  | checksumMismatch (encoded computed : UInt32)
  | invalidPayloadLength (expected actual : Nat)
  | invalidFlags (flags : UInt8)
  | invalidStateFlags (flags : UInt8)
  | unknownCommandTag (tag : UInt8)
  | stringTooLong (length maximum : Nat)
  | invalidUtf8
  | trailingPayloadBytes (count : Nat)
  deriving DecidableEq

end Dryer.ControlProtocol
