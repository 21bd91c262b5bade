import Dryer.ControlProtocol.Wire

/-!
# Decoding frames

Validation order is fixed: magic prefix, complete header, version and type, payload bound,
exact frame length, checksum, then payload semantics. The four decoders share the header
walk, `decodeFrame`; the fixed-width ones also check the payload length, after the checksum.
-/
namespace Dryer.ControlProtocol
open Library

def requireLen (input : List UInt8) (needed : Nat) : Except DecodeError Unit :=
  reject (input.length < needed) (.truncated needed input.length)

/-- A byte whose presence a length check has established. -/
def byteAt (input : List UInt8) (index : Nat) : UInt8 := input.getD index 0

theorem byteAt_append {xs : List UInt8} (ys : List UInt8) {i : Nat} (h : i < xs.length) :
    byteAt (xs ++ ys) i = byteAt xs i := by
  simp [byteAt, List.getD_eq_getElem?_getD, List.getElem?_append_left h]

def readU32At (input : List UInt8) (offset : Nat) : Except DecodeError UInt32 := do
  let last := offset + 4
  let bytes ← okOr (sliceGet input offset last) (.truncated last input.length)
  pure (UInt32.ofNat (LittleEndian.decode bytes))

/-- The payload length a fixed-width message type asks for. -/
def requirePayloadLen (expectedPayload : Option Nat) (payloadLen : Nat) :
    Except DecodeError Unit :=
  match expectedPayload with
  | some expected => reject (payloadLen ≠ expected) (.invalidPayloadLength expected payloadLen)
  | none => pure ()

/-- Validate a frame of one message type up to its checksum, and return its sequence and
payload. -/
def decodeFrame (input : List UInt8) (expectedType : UInt8) (expectedPayload : Option Nat) :
    Except DecodeError (UInt32 × List UInt8) := do
  requireLen input 2
  let found := [byteAt input 0, byteAt input 1]
  reject (found ≠ magic) (.invalidMagic found)
  requireLen input headerLen
  let version := byteAt input 2
  reject (version ≠ protocolVersion) (.unsupportedVersion version)
  let messageType := byteAt input 3
  reject (messageType ≠ expectedType) (.unsupportedMessageType messageType)
  let sequence := UInt32.ofNat (LittleEndian.decode
    [byteAt input 4, byteAt input 5, byteAt input 6, byteAt input 7])
  let payloadLen := LittleEndian.decode [byteAt input 8, byteAt input 9]
  reject (payloadLen > maxPayloadLen) (.payloadTooLong payloadLen maxPayloadLen)
  let frameLen := headerLen + payloadLen + checksumLen
  requireLen input frameLen
  reject (input.length > frameLen) (.trailingFrameBytes (input.length - frameLen))
  let payloadEnd := headerLen + payloadLen
  let encodedChecksum ← readU32At input payloadEnd
  let checksumInput ← okOr (sliceGet input 2 payloadEnd) (.truncated payloadEnd input.length)
  let computedChecksum := crc32c checksumInput
  reject (encodedChecksum ≠ computedChecksum) (.checksumMismatch encodedChecksum computedChecksum)
  requirePayloadLen expectedPayload payloadLen
  let payload ← okOr (sliceGet input headerLen payloadEnd) (.truncated payloadEnd input.length)
  pure (sequence, payload)

def decodeFixedHeader (input : List UInt8) (expectedType : UInt8) (expectedPayload : Nat) :
    Except DecodeError (UInt32 × List UInt8) :=
  decodeFrame input expectedType (some expectedPayload)

def readCommand (tag : UInt8) : ReaderM Command :=
  if tag = tagHeartbeat then pure .heartbeat
  else if tag = tagSetHeaterTarget then do
    pure (.setHeaterTarget (← Reader.readString) (← Reader.readI64))
  else if tag = tagHome then do
    pure (.home (← Reader.readString) (← Reader.readU64))
  else if tag = tagMove then do
    pure (.move (← Reader.readString) (← Reader.readI64) (← Reader.readU64))
  else throw (.unknownCommandTag tag)

def readEnvelope : ReaderM CommandEnvelope := do
  let flags ← Reader.readU8
  if flags &&& ~~~knownFlags ≠ 0 then throw (.invalidFlags flags)
  else
    let executeAt ← if flags &&& flagExecuteAt ≠ 0 then some <$> Reader.readU64 else pure none
    let tag ← Reader.readU8
    let command ← readCommand tag
    pure { executeAt, command }

def decodePayload (payload : List UInt8) : Except DecodeError CommandEnvelope := do
  let (envelope, reader) ← readEnvelope.run (Reader.new payload)
  reject (reader.remaining ≠ 0) (.trailingPayloadBytes reader.remaining)
  pure envelope

/-- Decode exactly one command frame. -/
def decodeCommand (input : List UInt8) : Except DecodeError CommandFrame := do
  let (sequence, payload) ← decodeFrame input commandMessageType none
  let envelope ← decodePayload payload
  pure { sequence, envelope }

def readQueueStatus : ReaderM QueueStatus := do
  let flags ← Reader.readU8
  if flags ≠ 0 then throw (.invalidFlags flags)
  else
    let capacity ← Reader.readU16
    let fill ← Reader.readU16
    let earliestAccepted ← Reader.readU64
    let latestAccepted ← Reader.readU64
    let stateFlags ← Reader.readU8
    if stateFlags &&& ~~~queueStatusFlagUnderrun ≠ 0 then throw (.invalidStateFlags stateFlags)
    else pure {
      capacity, fill, earliestAccepted, latestAccepted
      underrun := stateFlags &&& queueStatusFlagUnderrun ≠ 0 }

/-- Decode exactly one queue-status frame. -/
def decodeQueueStatus (input : List UInt8) : Except DecodeError QueueStatusFrame := do
  let (sequence, payload) ←
    decodeFrame input queueStatusMessageType (some queueStatusPayloadLen)
  let (status, _) ← readQueueStatus.run (Reader.new payload)
  pure { sequence, status }

def readClockRequest : ReaderM Unit := do
  let flags ← Reader.readU8
  if flags ≠ 0 then throw (.invalidFlags flags) else pure ()

def decodeClockRequest (input : List UInt8) : Except DecodeError ClockRequestFrame := do
  let (sequence, payload) ←
    decodeFixedHeader input clockRequestMessageType clockRequestPayloadLen
  let _ ← readClockRequest.run (Reader.new payload)
  pure { sequence }

def readClockResponse : ReaderM ClockResponse := do
  let flags ← Reader.readU8
  if flags ≠ 0 then throw (.invalidFlags flags)
  else
    let controllerReceive ← Reader.readU64
    let controllerSend ← Reader.readU64
    pure { controllerReceive, controllerSend }

def decodeClockResponse (input : List UInt8) : Except DecodeError ClockResponseFrame := do
  let (sequence, payload) ←
    decodeFixedHeader input clockResponseMessageType clockResponsePayloadLen
  let (response, _) ← readClockResponse.run (Reader.new payload)
  pure { sequence, response }

end Dryer.ControlProtocol
