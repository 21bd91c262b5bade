import Dryer.ControlProtocol.Decode

/-!
# Errors of a payload

Behind the header walk a decoder only reads the payload, and no reader of a payload reports
an error about the frame around it.
-/
namespace Dryer.ControlProtocol
open Library

/-- The error is about the frame, not about what its payload says. -/
def DecodeError.Framing : DecodeError → Prop
  | .invalidMagic _ | .unsupportedVersion _ | .unsupportedMessageType _ | .payloadTooLong _ _
  | .trailingFrameBytes _ | .checksumMismatch _ _ => True
  | _ => False

namespace Reader

theorem read_failsOnly (length : Nat) : FailsOnly (¬ DecodeError.Framing ·) (read length) := by
  intro reader e h
  simp only [StateT.run, read] at h
  split at h
  · cases h
  · cases h
    exact id

theorem readU8_failsOnly : FailsOnly (¬ DecodeError.Framing ·) readU8 :=
  (read_failsOnly 1).bind fun _ => FailsOnly.pure _

theorem readU16_failsOnly : FailsOnly (¬ DecodeError.Framing ·) readU16 :=
  (read_failsOnly 2).bind fun _ => FailsOnly.pure _

theorem readU64_failsOnly : FailsOnly (¬ DecodeError.Framing ·) readU64 :=
  (read_failsOnly 8).bind fun _ => FailsOnly.pure _

theorem readI64_failsOnly : FailsOnly (¬ DecodeError.Framing ·) readI64 :=
  (read_failsOnly 8).bind fun _ => FailsOnly.pure _

theorem readString_failsOnly : FailsOnly (¬ DecodeError.Framing ·) readString := by
  apply readU8_failsOnly.bind
  intro length
  dsimp only
  split
  · exact FailsOnly.throw id
  · apply (read_failsOnly _).bind
    intro bytes
    split
    · exact FailsOnly.throw id
    · exact FailsOnly.pure _

end Reader

open Reader

theorem readCommand_failsOnly (tag : UInt8) :
    FailsOnly (¬ DecodeError.Framing ·) (readCommand tag) := by
  unfold readCommand
  split_ifs
  · exact FailsOnly.pure _
  · exact readString_failsOnly.bind fun _ => readI64_failsOnly.bind fun _ => FailsOnly.pure _
  · exact readString_failsOnly.bind fun _ => readU64_failsOnly.bind fun _ => FailsOnly.pure _
  · exact readString_failsOnly.bind fun _ => readI64_failsOnly.bind fun _ =>
      readU64_failsOnly.bind fun _ => FailsOnly.pure _
  · exact FailsOnly.throw id

theorem readEnvelope_failsOnly : FailsOnly (¬ DecodeError.Framing ·) readEnvelope := by
  apply readU8_failsOnly.bind
  intro flags
  dsimp only
  split
  · exact FailsOnly.throw id
  · have hcommand (executeAt : Option Tick) : FailsOnly (¬ DecodeError.Framing ·) (do
        let tag ← readU8
        let command ← readCommand tag
        pure ({ executeAt, command } : CommandEnvelope)) :=
      readU8_failsOnly.bind fun tag => (readCommand_failsOnly tag).bind fun _ => FailsOnly.pure _
    split_ifs
    · exact (readU64_failsOnly.map some).bind hcommand
    · exact (FailsOnly.pure none).bind hcommand

theorem readQueueStatus_failsOnly : FailsOnly (¬ DecodeError.Framing ·) readQueueStatus := by
  apply readU8_failsOnly.bind
  intro flags
  split
  · exact FailsOnly.throw id
  · apply readU16_failsOnly.bind
    intro capacity
    apply readU16_failsOnly.bind
    intro fill
    apply readU64_failsOnly.bind
    intro earliestAccepted
    apply readU64_failsOnly.bind
    intro latestAccepted
    apply readU8_failsOnly.bind
    intro stateFlags
    split
    · exact FailsOnly.throw id
    · exact FailsOnly.pure _

theorem readClockRequest_failsOnly : FailsOnly (¬ DecodeError.Framing ·) readClockRequest := by
  apply readU8_failsOnly.bind
  intro flags
  split
  · exact FailsOnly.throw id
  · exact FailsOnly.pure _

theorem readClockResponse_failsOnly : FailsOnly (¬ DecodeError.Framing ·) readClockResponse := by
  apply readU8_failsOnly.bind
  intro flags
  split
  · exact FailsOnly.throw id
  · exact readU64_failsOnly.bind fun _ => readU64_failsOnly.bind fun _ => FailsOnly.pure _

/-- What is left of decoding a whole frame: the payload on its own. -/
def readPayloadAs (messageType : UInt8) (payload : List UInt8) : Except DecodeError Unit :=
  if messageType = commandMessageType then do
    let _ ← decodePayload payload
    pure ()
  else if messageType = queueStatusMessageType then do
    requirePayloadLen (some queueStatusPayloadLen) payload.length
    let _ ← readQueueStatus.run (Reader.new payload)
    pure ()
  else if messageType = clockRequestMessageType then do
    requirePayloadLen (some clockRequestPayloadLen) payload.length
    let _ ← readClockRequest.run (Reader.new payload)
    pure ()
  else do
    requirePayloadLen (some clockResponsePayloadLen) payload.length
    let _ ← readClockResponse.run (Reader.new payload)
    pure ()

theorem requirePayloadLen_eq_error {expectedPayload : Option Nat} {payloadLen : Nat}
    {e : DecodeError} (h : requirePayloadLen expectedPayload payloadLen = .error e) :
    ¬ e.Framing := by
  unfold requirePayloadLen reject at h
  repeat' split at h
  all_goals cases h
  exact id

theorem decodePayload_eq_error {payload : List UInt8} {e : DecodeError}
    (h : decodePayload payload = .error e) : ¬ e.Framing := by
  rcases bind_eq_error.mp h with henvelope | ⟨⟨envelope, reader⟩, -, hrest⟩
  · exact readEnvelope_failsOnly _ _ henvelope
  · dsimp only [reject] at hrest
    split at hrest
    · cases hrest
      exact id
    · cases hrest

/-- A fixed-width payload fails for its width or for what it says. -/
theorem fixedPayload_eq_error {α γ : Type} {readPayload : ReaderM α}
    (hreads : FailsOnly (¬ DecodeError.Framing ·) readPayload) {payloadLen : Nat}
    {payload : List UInt8} {finish : α × Reader → γ} {e : DecodeError}
    (h : (do requirePayloadLen (some payloadLen) payload.length
             let result ← readPayload.run (Reader.new payload)
             pure (finish result) : Except DecodeError γ) = .error e) : ¬ e.Framing := by
  rcases bind_eq_error.mp h with hwidth | ⟨_, -, hrest⟩
  · exact requirePayloadLen_eq_error hwidth
  · rcases bind_eq_error.mp hrest with hread | ⟨result, -, hresult⟩
    · exact hreads _ _ hread
    · cases hresult

/-- Reading a payload fails for the payload. -/
theorem readPayloadAs_eq_error {messageType : UInt8} {payload : List UInt8} {e : DecodeError}
    (h : readPayloadAs messageType payload = .error e) : ¬ e.Framing := by
  unfold readPayloadAs at h
  split_ifs at h
  · rcases bind_eq_error.mp h with hpayload | ⟨_, -, hresult⟩
    · exact decodePayload_eq_error hpayload
    · cases hresult
  · exact fixedPayload_eq_error readQueueStatus_failsOnly h
  · exact fixedPayload_eq_error readClockRequest_failsOnly h
  · exact fixedPayload_eq_error readClockResponse_failsOnly h

end Dryer.ControlProtocol
