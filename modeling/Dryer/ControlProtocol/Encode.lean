import Dryer.ControlProtocol.Wire

/-!
# Encoding frames

Validation is deterministic: semantic field bounds, payload bounds, then output-buffer
capacity are checked before any byte is written. The four encoders write one frame shape,
`encodeFrame`, and differ in the checks before it and in the payload.
-/
namespace Dryer.ControlProtocol
open Library

def encodedStringLen (value : String) : Except EncodeError Nat := do
  let length := (asBytes value).length
  reject (length > maxStringLen) (.stringTooLong length maxStringLen)
  pure (1 + length)

def encodedPayloadLen (envelope : CommandEnvelope) : Except EncodeError Nat := do
  let scheduleLen := if envelope.executeAt.isSome then 8 else 0
  let commandLen ← match envelope.command with
    | .heartbeat => pure 1
    | .setHeaterTarget heater _ => do pure (1 + (← encodedStringLen heater) + 8)
    | .home axis _ => do pure (1 + (← encodedStringLen axis) + 8)
    | .move axis _ _ => do pure (1 + (← encodedStringLen axis) + 8 + 8)
  pure (1 + scheduleLen + commandLen)

def writeCommand : Command → WriterM Unit
  | .heartbeat => Writer.writeU8 tagHeartbeat
  | .setHeaterTarget heater targetMilliC => do
    Writer.writeU8 tagSetHeaterTarget
    Writer.writeString heater
    Writer.write (LittleEndian.encode 8 targetMilliC.toUInt64.toNat)
  | .home axis rateUmS => do
    Writer.writeU8 tagHome
    Writer.writeString axis
    Writer.write (LittleEndian.encode 8 rateUmS.toNat)
  | .move axis distanceUm rateUmS => do
    Writer.writeU8 tagMove
    Writer.writeString axis
    Writer.write (LittleEndian.encode 8 distanceUm.toUInt64.toNat)
    Writer.write (LittleEndian.encode 8 rateUmS.toNat)

def encodePayload (envelope : CommandEnvelope) : WriterM Unit := do
  let flags := if envelope.executeAt.isSome then flagExecuteAt else 0
  Writer.writeU8 flags
  match envelope.executeAt with
  | some executeAt => Writer.write (LittleEndian.encode 8 executeAt.toNat)
  | none => pure ()
  writeCommand envelope.command

/-- Header, payload and checksum of one frame. `unreadable` is the error of a checksum
range that does not exist. -/
def encodeFrame (messageType : UInt8) (sequence : UInt32) (payloadLen : Nat)
    (payload : WriterM Unit) (unreadable : EncodeError) : WriterM Nat := do
  Writer.write magic
  Writer.writeU8 protocolVersion
  Writer.writeU8 messageType
  Writer.write (LittleEndian.encode 4 sequence.toNat)
  Writer.write (LittleEndian.encode 2 (UInt16.ofNat payloadLen).toNat)
  payload
  let payloadEnd ← Writer.currentPosition
  let checksumInput ← Writer.bufferGet 2 payloadEnd unreadable
  let checksum := crc32c checksumInput
  Writer.write (LittleEndian.encode 4 checksum.toNat)
  Writer.currentPosition

/-- Run a writer over the caller's buffer. -/
def onBuffer (output : List UInt8) (writer : WriterM Nat) : Except EncodeError Nat × List UInt8 :=
  let (result, final) := writer.run.run (Writer.new output)
  (result, final.output)

/-- Encode one command frame. The second component is the buffer afterwards. -/
def encodeCommand (frame : CommandFrame) (output : List UInt8) :
    Except EncodeError Nat × List UInt8 :=
  match encodedPayloadLen frame.envelope with
  | .error e => (.error e, output)
  | .ok payloadLen =>
    if payloadLen > maxPayloadLen then (.error (.payloadTooLong payloadLen maxPayloadLen), output)
    else
      let frameLen := headerLen + payloadLen + checksumLen
      if output.length < frameLen then (.error (.bufferTooSmall frameLen output.length), output)
      else onBuffer output
        (encodeFrame commandMessageType frame.sequence payloadLen (encodePayload frame.envelope)
          (.bufferTooSmall frameLen frameLen))

/-- The encoders of fixed-width payloads check the buffer and nothing else. -/
def encodeFixed (messageType : UInt8) (sequence : UInt32) (payloadLen : Nat)
    (payload : WriterM Unit) (unreadable : EncodeError) (output : List UInt8) :
    Except EncodeError Nat × List UInt8 :=
  let frameLen := headerLen + payloadLen + checksumLen
  if output.length < frameLen then (.error (.bufferTooSmall frameLen output.length), output)
  else onBuffer output (encodeFrame messageType sequence payloadLen payload unreadable)

def encodeQueueStatus (frame : QueueStatusFrame) (output : List UInt8) :
    Except EncodeError Nat × List UInt8 :=
  encodeFixed queueStatusMessageType frame.sequence queueStatusPayloadLen
    (do Writer.writeU8 0
        Writer.write (LittleEndian.encode 2 frame.status.capacity.toNat)
        Writer.write (LittleEndian.encode 2 frame.status.fill.toNat)
        Writer.write (LittleEndian.encode 8 frame.status.earliestAccepted.toNat)
        Writer.write (LittleEndian.encode 8 frame.status.latestAccepted.toNat)
        let stateFlags := if frame.status.underrun then queueStatusFlagUnderrun else 0
        Writer.writeU8 stateFlags)
    (.bufferTooSmall queueStatusFrameLen queueStatusFrameLen) output

def encodeClockRequest (frame : ClockRequestFrame) (output : List UInt8) :
    Except EncodeError Nat × List UInt8 :=
  encodeFixed clockRequestMessageType frame.sequence clockRequestPayloadLen
    (Writer.writeU8 0)
    (.bufferTooSmall clockRequestFrameLen output.length) output

def encodeClockResponse (frame : ClockResponseFrame) (output : List UInt8) :
    Except EncodeError Nat × List UInt8 :=
  encodeFixed clockResponseMessageType frame.sequence clockResponsePayloadLen
    (do Writer.writeU8 0
        Writer.write (LittleEndian.encode 8 frame.response.controllerReceive.toNat)
        Writer.write (LittleEndian.encode 8 frame.response.controllerSend.toNat))
    (.bufferTooSmall clockResponseFrameLen output.length) output

end Dryer.ControlProtocol
