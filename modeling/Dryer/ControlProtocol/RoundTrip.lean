import Dryer.ControlProtocol.Payloads
import Dryer.Library.BufferCodec

/-!
# Round trips of the four frames

Each encoder writes, and each decoder accepts, exactly the `frameBytes` of its payload.
-/
namespace Dryer.ControlProtocol
open Library BufferCodec

def CommandFrame.bytes (frame : CommandFrame) : List UInt8 :=
  frameBytes commandMessageType frame.sequence (envelopeBytes frame.envelope)

def QueueStatusFrame.bytes (frame : QueueStatusFrame) : List UInt8 :=
  frameBytes queueStatusMessageType frame.sequence (queueStatusBytes frame.status)

def ClockRequestFrame.bytes (frame : ClockRequestFrame) : List UInt8 :=
  frameBytes clockRequestMessageType frame.sequence clockRequestBytes

def ClockResponseFrame.bytes (frame : ClockResponseFrame) : List UInt8 :=
  frameBytes clockResponseMessageType frame.sequence (clockResponseBytes frame.response)

def CommandFrame.StringsFit (frame : CommandFrame) : Prop := frame.envelope.command.StringsFit

def Command.encodedLen : Command → Nat
  | .heartbeat => 1
  | .setHeaterTarget heater _ => 1 + (1 + (asBytes heater).length) + 8
  | .home axis _ => 1 + (1 + (asBytes axis).length) + 8
  | .move axis _ _ => 1 + (1 + (asBytes axis).length) + 8 + 8

def CommandFrame.encodedLen (frame : CommandFrame) : Nat :=
  headerLen + (1 + (if frame.envelope.executeAt.isSome then 8 else 0) +
    frame.envelope.command.encodedLen) + checksumLen

theorem CommandFrame.length_bytes (frame : CommandFrame) :
    frame.bytes.length = frame.encodedLen := by
  obtain ⟨sequence, executeAt, command⟩ := frame
  simp only [bytes, encodedLen, length_frameBytes]
  cases executeAt <;> cases command <;>
    simp [envelopeBytes, commandBytes, Command.encodedLen] <;> omega

theorem CommandFrame.length_bytes_le {frame : CommandFrame} (h : frame.StringsFit) :
    frame.bytes.length ≤ maxFrameLen := by
  have hsmall := length_envelopeBytes_le h
  simp only [CommandFrame.bytes, length_frameBytes, maxFrameLen]
  omega

theorem commandFrame_codes :
    Codes encodeCommand decodeCommand CommandFrame.StringsFit CommandFrame.bytes where
  writes := by
    intro frame output hfits hroom
    have hsmall := length_envelopeBytes_le hfits
    have hwrites := encodePayload_writes frame.envelope
    have hlength := length_frameBytes commandMessageType frame.sequence
      (envelopeBytes frame.envelope)
    simp only [CommandFrame.bytes] at hroom ⊢
    simp only [encodeCommand, encodedPayloadLen_of_fits hfits]
    rw [if_neg (by omega), if_neg (by omega)]
    exact encodeFrame_writes _ _ _ hwrites hsmall hroom
  refuses := by
    intro frame output hnot
    by_cases hfits : frame.StringsFit
    · have hsmall := length_envelopeBytes_le hfits
      have hlength := length_frameBytes commandMessageType frame.sequence
        (envelopeBytes frame.envelope)
      simp only [CommandFrame.bytes] at hnot
      have hshort : output.length <
          headerLen + (envelopeBytes frame.envelope).length + checksumLen := by
        by_contra hlong
        exact hnot ⟨hfits, by omega⟩
      simp only [encodeCommand, encodedPayloadLen_of_fits hfits]
      rw [if_neg (by omega), if_pos hshort]
      exact ⟨_, rfl⟩
    · obtain ⟨value, -, herror⟩ := encodedPayloadLen_of_not_fits hfits
      simp only [encodeCommand, herror]
      exact ⟨_, rfl⟩
  decode_iff := by
    intro b frame
    simp only [decodeCommand, bind_eq_ok, Prod.exists, decodeFrame_eq_ok, decodePayload_eq_ok,
      pure, Except.pure, Except.ok.injEq]
    constructor
    · intro ⟨sequence, payload, ⟨_, _, hinput⟩, envelope, ⟨hfits, hpayload⟩, hframe⟩
      subst hframe hpayload
      exact ⟨hfits, hinput⟩
    · intro ⟨hfits, hinput⟩
      exact ⟨frame.sequence, envelopeBytes frame.envelope,
        ⟨length_envelopeBytes_le hfits, by simp, hinput⟩, frame.envelope, ⟨hfits, rfl⟩, rfl⟩

/-- The encoders of fixed-width payloads, for any payload of the width they announce. -/
theorem encodeFixed_codes {α : Type} {decode : Decoder UInt8 DecodeError α}
    {messageType : UInt8} {payloadLen : Nat} {sequence : α → UInt32} {payload : α → List UInt8}
    {payloadWriter : α → WriterM Unit} {unreadable : List UInt8 → EncodeError}
    (hsmall : payloadLen ≤ maxPayloadLen) (hwidth : ∀ frame, (payload frame).length = payloadLen)
    (hwrites : ∀ frame, Writes Writer.written Writer.free (payloadWriter frame) () (payload frame))
    (hdecode : ∀ b frame, decode b = .ok frame ↔
      decodeFrame b messageType (some payloadLen) = .ok (sequence frame, payload frame)) :
    Codes (fun frame output => encodeFixed messageType (sequence frame) payloadLen
        (payloadWriter frame) (unreadable output) output)
      decode (fun _ => True)
      (fun frame => frameBytes messageType (sequence frame) (payload frame)) where
  writes := by
    intro frame output _ hroom
    have hlength := length_frameBytes messageType (sequence frame) (payload frame)
    rw [hwidth] at hlength
    rw [encodeFixed, if_neg (by omega), ← hwidth frame]
    exact encodeFrame_writes _ _ _ (hwrites frame) (by rw [hwidth]; exact hsmall) hroom
  refuses := by
    intro frame output hnot
    have hlength := length_frameBytes messageType (sequence frame) (payload frame)
    rw [hwidth] at hlength
    have hshort : output.length < headerLen + payloadLen + checksumLen := by
      by_contra hlong
      exact hnot ⟨trivial, by omega⟩
    exact ⟨_, if_pos hshort⟩
  decode_iff := by
    intro b frame
    simp [hdecode, decodeFrame_eq_ok, hwidth, hsmall]

/-- Reading a fixed-width payload after the header walk. -/
theorem decodeFixed_eq_ok {α γ : Type} {readPayload : ReaderM α} {payload : α → List UInt8}
    {payloadLen : Nat} (frame : UInt32 → α → γ) (b : List UInt8) (messageType : UInt8)
    (hreads : Reads Reader.unread readPayload (Grammar.exact payload))
    (hwidth : ∀ value, (payload value).length = payloadLen) (result : γ) :
    (do let (sequence, bytes) ← decodeFrame b messageType (some payloadLen)
        let (value, _) ← readPayload.run (Reader.new bytes)
        pure (frame sequence value) : Except DecodeError γ) = .ok result ↔
      ∃ sequence value, decodeFrame b messageType (some payloadLen) =
        .ok (sequence, payload value) ∧ frame sequence value = result := by
  simp only [bind_eq_ok, Prod.exists, pure, Except.pure, Except.ok.injEq]
  constructor
  · intro ⟨sequence, bytes, hframe, value, reader, hrun, hresult⟩
    have hlen := ((decodeFrame_eq_ok _ _ _ _ _).mp hframe).2.1 payloadLen rfl
    have hbytes := (hreads.fixed_iff hwidth (s := Reader.new bytes)
      (by rw [Reader.unread_new, hlen])).mp ⟨reader, hrun⟩
    rw [Reader.unread_new] at hbytes
    exact ⟨sequence, value, hbytes ▸ hframe, hresult⟩
  · intro ⟨sequence, value, hframe, hresult⟩
    obtain ⟨reader, hrun⟩ := (hreads.fixed_iff hwidth (s := Reader.new (payload value))
      (by rw [Reader.unread_new, hwidth])).mpr (Reader.unread_new _)
    exact ⟨sequence, payload value, hframe, value, reader, hrun, hresult⟩

theorem queueStatusFrame_codes :
    Codes encodeQueueStatus decodeQueueStatus (fun _ => True) QueueStatusFrame.bytes := by
  refine encodeFixed_codes (by decide) (fun frame => length_queueStatusBytes frame.status)
    (fun frame => encodeQueueStatus_payload_writes frame.status) fun b frame => ?_
  refine (decodeFixed_eq_ok QueueStatusFrame.mk b _ readQueueStatus_reads
    length_queueStatusBytes frame).trans ?_
  exact ⟨fun ⟨_, _, h, hframe⟩ => hframe ▸ h, fun h => ⟨_, _, h, rfl⟩⟩

theorem ClockRequestFrame.length_bytes (frame : ClockRequestFrame) :
    frame.bytes.length = clockRequestFrameLen := by
  simp [ClockRequestFrame.bytes, clockRequestFrameLen, clockRequestBytes, clockRequestPayloadLen]

theorem clockRequestFrame_codes :
    Codes encodeClockRequest decodeClockRequest (fun _ => True) ClockRequestFrame.bytes := by
  refine encodeFixed_codes (by decide) (fun _ => rfl)
    (fun _ => Writer.writeU8_writes 0) fun b frame => ?_
  have hwidth (_ : Unit) : clockRequestBytes.length = clockRequestPayloadLen := rfl
  refine (decodeFixed_eq_ok (fun sequence _ => ClockRequestFrame.mk sequence) b _
    readClockRequest_reads hwidth frame).trans ?_
  exact ⟨fun ⟨_, _, h, hframe⟩ => hframe ▸ h, fun h => ⟨_, (), h, rfl⟩⟩

theorem ClockResponseFrame.length_bytes (frame : ClockResponseFrame) :
    frame.bytes.length = clockResponseFrameLen := by
  simp [ClockResponseFrame.bytes, clockResponseFrameLen]

theorem clockResponseFrame_codes :
    Codes encodeClockResponse decodeClockResponse (fun _ => True) ClockResponseFrame.bytes := by
  refine encodeFixed_codes (by decide) (fun frame => length_clockResponseBytes frame.response)
    (fun frame => encodeClockResponse_payload_writes frame.response) fun b frame => ?_
  refine (decodeFixed_eq_ok ClockResponseFrame.mk b _ readClockResponse_reads
    length_clockResponseBytes frame).trans ?_
  exact ⟨fun ⟨_, _, h, hframe⟩ => hframe ▸ h, fun h => ⟨_, _, h, rfl⟩⟩

/-- Every frame whose strings fit comes back from any buffer that holds it, and an encoder
that refuses leaves the buffer as it was. -/
theorem codec_round_trips :
    RoundTrips encodeCommand decodeCommand CommandFrame.StringsFit CommandFrame.encodedLen
        maxFrameLen ∧
      RoundTrips encodeQueueStatus decodeQueueStatus (fun _ => True)
        (fun _ => queueStatusFrameLen) maxFrameLen ∧
      RoundTrips encodeClockRequest decodeClockRequest (fun _ => True)
        (fun _ => clockRequestFrameLen) maxFrameLen ∧
      RoundTrips encodeClockResponse decodeClockResponse (fun _ => True)
        (fun _ => clockResponseFrameLen) maxFrameLen := by
  refine ⟨?_, ?_, ?_, ?_⟩
  · apply commandFrame_codes.roundTrips CommandFrame.length_bytes
    intro frame hfits
    exact CommandFrame.length_bytes_le hfits
  · have hlen (frame : QueueStatusFrame) : frame.bytes.length = queueStatusFrameLen := by
      simp [QueueStatusFrame.bytes, queueStatusFrameLen]
    exact queueStatusFrame_codes.roundTrips hlen fun frame _ => by rw [hlen]; decide
  · exact clockRequestFrame_codes.roundTrips ClockRequestFrame.length_bytes fun frame _ => by
      rw [frame.length_bytes]
      decide
  · exact clockResponseFrame_codes.roundTrips ClockResponseFrame.length_bytes fun frame _ => by
      rw [frame.length_bytes]
      decide

/-- No frame has a second spelling: every accepted input is what its encoder writes. -/
theorem decoding_is_canonical :
    Canonical encodeCommand decodeCommand ∧ Canonical encodeQueueStatus decodeQueueStatus ∧
      Canonical encodeClockRequest decodeClockRequest ∧
      Canonical encodeClockResponse decodeClockResponse :=
  ⟨commandFrame_codes.canonical, queueStatusFrame_codes.canonical,
    clockRequestFrame_codes.canonical, clockResponseFrame_codes.canonical⟩

end Dryer.ControlProtocol
