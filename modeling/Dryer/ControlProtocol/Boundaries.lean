import Dryer.ControlProtocol.RoundTrip

/-!
# Where a frame ends

The header says how long the frame is, and the walk compares the input with that length
before it looks at anything behind the header. A frame that is cut short asks for more, and
one with bytes behind it counts them.
-/
namespace Dryer.ControlProtocol
open Library BufferCodec

/-- The header at the front of an input announces a payload the walk takes. -/
structure Announces (input : List UInt8) (messageType : UInt8) (payloadLen : Nat) : Prop where
  complete : headerLen ≤ input.length
  begins : [byteAt input 0, byteAt input 1] = magic
  version : byteAt input 2 = protocolVersion
  typed : byteAt input 3 = messageType
  announced : LittleEndian.decode [byteAt input 8, byteAt input 9] = payloadLen
  bounded : payloadLen ≤ maxPayloadLen

namespace Announces

variable {input rest : List UInt8} {messageType : UInt8} {payloadLen : Nat}

theorem append_iff (h : headerLen ≤ input.length) :
    Announces (input ++ rest) messageType payloadLen ↔ Announces input messageType payloadLen := by
  have hbyte (i : Nat) (hi : i < headerLen) : byteAt (input ++ rest) i = byteAt input i :=
    byteAt_append rest (by omega)
  have hlength : headerLen ≤ (input ++ rest).length := by
    rw [List.length_append]
    omega
  constructor
  · intro ⟨_, hmagic, hversion, htype, hlen, hbounded⟩
    rw [hbyte _ (by decide), hbyte _ (by decide)] at hmagic hlen
    rw [hbyte _ (by decide)] at hversion htype
    exact ⟨h, hmagic, hversion, htype, hlen, hbounded⟩
  · intro ⟨_, hmagic, hversion, htype, hlen, hbounded⟩
    rw [← hbyte _ (by decide), ← hbyte _ (by decide)] at hmagic hlen
    rw [← hbyte _ (by decide)] at hversion htype
    exact ⟨hlength, hmagic, hversion, htype, hlen, hbounded⟩

variable (h : Announces input messageType payloadLen) (expectedPayload : Option Nat)
include h

/-- An input shorter than its announced frame. -/
theorem decodeFrame_short (hshort : input.length < headerLen + payloadLen + checksumLen) :
    decodeFrame input messageType expectedPayload =
      .error (.truncated (headerLen + payloadLen + checksumLen) input.length) := by
  obtain ⟨hcomplete, hmagic, hversion, rfl, rfl, hbounded⟩ := h
  have htwo : ¬ input.length < 2 := by
    unfold headerLen at hcomplete
    omega
  have hten := Nat.not_lt.mpr hcomplete
  have hfits := Nat.not_lt.mpr hbounded
  simp [decodeFrame, requireLen, reject, htwo, hten, hmagic, hversion, hfits, hshort, bind,
    Except.bind]

/-- An input longer than its announced frame. -/
theorem decodeFrame_long (hlong : headerLen + payloadLen + checksumLen < input.length) :
    decodeFrame input messageType expectedPayload =
      .error (.trailingFrameBytes (input.length - (headerLen + payloadLen + checksumLen))) := by
  obtain ⟨hcomplete, hmagic, hversion, rfl, rfl, hbounded⟩ := h
  have htwo : ¬ input.length < 2 := by
    unfold headerLen at hcomplete
    omega
  have hten := Nat.not_lt.mpr hcomplete
  have hfits := Nat.not_lt.mpr hbounded
  have hwhole := Nat.not_lt.mpr hlong.le
  simp [decodeFrame, requireLen, reject, htwo, hten, hmagic, hversion, hfits, hlong, hwhole,
    bind, Except.bind]

end Announces

/-- The header of a frame announces its payload. -/
theorem announces_frameBytes (messageType : UInt8) (sequence : UInt32) {payload : List UInt8}
    (hsmall : payload.length ≤ maxPayloadLen) :
    Announces (frameBytes messageType sequence payload) messageType payload.length := by
  have hlen := length_frameBytes messageType sequence payload
  refine ⟨by omega, rfl, rfl, rfl, ?_, hsmall⟩
  unfold maxPayloadLen at hsmall
  have hlt : payload.length < 256 ^ 2 := by omega
  exact LittleEndian.decode_encode_of_lt hlt

theorem frameBytes_append (messageType : UInt8) (sequence : UInt32) {payload : List UInt8}
    (hsmall : payload.length ≤ maxPayloadLen) (expectedPayload : Option Nat)
    {suffix : List UInt8} (hsuffix : suffix ≠ []) :
    decodeFrame (frameBytes messageType sequence payload ++ suffix) messageType expectedPayload =
      .error (.trailingFrameBytes suffix.length) := by
  have hlen := length_frameBytes messageType sequence payload
  have hpos := List.length_pos_iff.mpr hsuffix
  have hannounces : Announces (frameBytes messageType sequence payload ++ suffix) messageType
      payload.length :=
    (Announces.append_iff (by omega)).mpr (announces_frameBytes messageType sequence hsmall)
  rw [hannounces.decodeFrame_long expectedPayload (by rw [List.length_append]; omega),
    List.length_append, hlen, Nat.add_sub_cancel_left]

/-- Wherever a frame is cut, the walk asks for more than it was given. -/
theorem frameBytes_take (messageType : UInt8) (sequence : UInt32) {payload : List UInt8}
    (hsmall : payload.length ≤ maxPayloadLen) (expectedPayload : Option Nat) {k : Nat}
    (hk : k < (frameBytes messageType sequence payload).length) :
    ∃ needed, k < needed ∧
      decodeFrame ((frameBytes messageType sequence payload).take k) messageType
        expectedPayload = .error (.truncated needed k) := by
  have hlen := length_frameBytes messageType sequence payload
  have hannounces := announces_frameBytes messageType sequence hsmall
  set front := (frameBytes messageType sequence payload).take k with hfront
  have hcut : front.length = k := List.length_take_of_le hk.le
  have hsplit := List.take_append_drop k (frameBytes messageType sequence payload)
  rw [← hfront] at hsplit
  by_cases htwo : k < 2
  · refine ⟨2, htwo, ?_⟩
    simp [decodeFrame, requireLen, reject, hcut, htwo, bind, Except.bind]
  by_cases hten : k < headerLen
  · refine ⟨headerLen, hten, ?_⟩
    have hmagic : [byteAt front 0, byteAt front 1] = magic := by
      rw [← hannounces.begins, ← hsplit, byteAt_append _ (by omega), byteAt_append _ (by omega)]
    simp [decodeFrame, requireLen, reject, hcut, htwo, hten, hmagic, bind, Except.bind]
  · refine ⟨headerLen + payload.length + checksumLen, by omega, ?_⟩
    rw [← hsplit, Announces.append_iff (by omega)] at hannounces
    rw [hannounces.decodeFrame_short expectedPayload (by omega), hcut]

/-- Of a whole frame, only the width of the payload is left to check. -/
theorem decodeFrame_frameBytes_eq (messageType : UInt8) (expectedPayload : Option Nat)
    (sequence : UInt32) {payload : List UInt8} (hsmall : payload.length ≤ maxPayloadLen) :
    decodeFrame (frameBytes messageType sequence payload) messageType expectedPayload =
      (do requirePayloadLen expectedPayload payload.length
          pure (sequence, payload)) := by
  have hopen : decodeFrame (frameBytes messageType sequence payload) messageType none =
      .ok (sequence, payload) := decodeFrame_frameBytes messageType sequence hsmall (by simp)
  -- the walk up to the width of the payload is that of a decoder that asks for none
  simp only [decodeFrame, bind_eq_ok, requireLen, reject_eq_ok, okOr_eq_ok] at hopen
  obtain ⟨_, htwo, _, hmagic, _, hten, _, hversion, _, htype, _, hfits, _, hshort, _, hlong,
    encoded, hencoded, covered, hcovered, _, hchecksum, _, -, body, hbody, hresult⟩ := hopen
  have hannounced := (announces_frameBytes messageType sequence hsmall).announced
  simp only [decodeFrame, requireLen, reject, htwo, hmagic, hten, hversion, htype, hfits, hshort,
    hlong, hencoded, hcovered, hchecksum, hbody, okOr, if_false, bind, Except.bind]
  rw [hannounced, hresult]
  rfl
/-! ## The four decoders -/

/-- A decoder finds the end of a word by itself. -/
structure SelfDelimiting {α : Type} (decode : Decoder UInt8 DecodeError α) (b : List UInt8) :
    Prop where
  truncated : ∀ k < b.length, ∃ needed, k < needed ∧
    decode (b.take k) = .error (.truncated needed k)
  trailing : ∀ suffix, suffix ≠ [] →
    decode (b ++ suffix) = .error (.trailingFrameBytes suffix.length)

theorem selfDelimiting_frameBytes {α : Type} (messageType : UInt8) (sequence : UInt32)
    {payload : List UInt8} (hsmall : payload.length ≤ maxPayloadLen)
    (expectedPayload : Option Nat) (readPayload : UInt32 × List UInt8 → Except DecodeError α) :
    SelfDelimiting (fun input => decodeFrame input messageType expectedPayload >>= readPayload)
      (frameBytes messageType sequence payload) where
  truncated := by
    intro k hk
    obtain ⟨needed, hneeded, hcut⟩ :=
      frameBytes_take messageType sequence hsmall expectedPayload hk
    refine ⟨needed, hneeded, ?_⟩
    rw [hcut]
    rfl
  trailing := by
    intro suffix hsuffix
    rw [frameBytes_append messageType sequence hsmall expectedPayload hsuffix]
    rfl

/-- Every encoded frame is self-delimiting for its decoder. -/
theorem frames_are_selfDelimiting :
    (∀ frame output n buffer, encodeCommand frame output = (.ok n, buffer) →
      SelfDelimiting decodeCommand (buffer.take n)) ∧
    (∀ frame output n buffer, encodeQueueStatus frame output = (.ok n, buffer) →
      SelfDelimiting decodeQueueStatus (buffer.take n)) ∧
    (∀ frame output n buffer, encodeClockRequest frame output = (.ok n, buffer) →
      SelfDelimiting decodeClockRequest (buffer.take n)) ∧
    ∀ frame output n buffer, encodeClockResponse frame output = (.ok n, buffer) →
      SelfDelimiting decodeClockResponse (buffer.take n) := by
  refine ⟨?_, ?_, ?_, ?_⟩
  · intro frame output n buffer hencode
    obtain ⟨hfits, hbytes⟩ := commandFrame_codes.of_encode_eq_ok hencode
    rw [hbytes]
    exact selfDelimiting_frameBytes _ _ (length_envelopeBytes_le hfits) _ _
  · intro frame output n buffer hencode
    obtain ⟨-, hbytes⟩ := queueStatusFrame_codes.of_encode_eq_ok hencode
    rw [hbytes]
    apply selfDelimiting_frameBytes
    rw [length_queueStatusBytes]
    decide
  · intro frame output n buffer hencode
    obtain ⟨-, hbytes⟩ := clockRequestFrame_codes.of_encode_eq_ok hencode
    rw [hbytes]
    apply selfDelimiting_frameBytes
    decide
  · intro frame output n buffer hencode
    obtain ⟨-, hbytes⟩ := clockResponseFrame_codes.of_encode_eq_ok hencode
    rw [hbytes]
    apply selfDelimiting_frameBytes
    rw [length_clockResponseBytes]
    decide

theorem frames_are_selfDelimiting_clockRequest :
    ∃ buffer, encodeClockRequest ⟨7⟩ (List.replicate 16 0) = (.ok 15, buffer) ∧
      SelfDelimiting decodeClockRequest (buffer.take 15) := by
  have hlength : (ClockRequestFrame.mk 7).bytes.length = 15 := ClockRequestFrame.length_bytes _
  have hencode := clockRequestFrame_codes.writes ⟨7⟩ (List.replicate 16 0) trivial
    (by rw [hlength]; simp)
  rw [hlength] at hencode
  exact ⟨_, hencode, frames_are_selfDelimiting.2.2.1 _ _ _ _ hencode⟩

end Dryer.ControlProtocol
