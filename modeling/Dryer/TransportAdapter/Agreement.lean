import Dryer.ControlProtocol.Boundaries
import Dryer.ControlProtocol.PayloadErrors
import Dryer.TransportAdapter.Dispatch

/-!
# The codec and the decoders agree

The codec delimits frames with a header walk and a checksum of its own. It takes exactly the
byte strings that the header walk of the decoders takes for one of the four message types, so
that a frame that comes out of the codec can only be refused for its payload.
-/
namespace Dryer.TransportAdapter
open Library ControlProtocol ControlClient Daemon

/-! ## One layout -/

/-- A byte string of the length its header announces, taken apart. -/
theorem exists_parts {frame : List UInt8} (h : frame.length = payloadEnd frame + 4) :
    ∃ m0 m1 v t s0 s1 s2 s3 l0 l1 payload c0 c1 c2 c3,
      frame = [m0, m1, v, t, s0, s1, s2, s3, l0, l1] ++ payload ++ [c0, c1, c2, c3] ∧
        LittleEndian.decode [l0, l1] = payload.length := by
  have hheader := headerLen_le_payloadEnd frame
  obtain ⟨m0, m1, v, t, s0, s1, s2, s3, l0, l1, rest, rfl⟩ :=
    exists_header (show headerLen ≤ frame.length by omega)
  have hrest : rest.length = LittleEndian.decode [l0, l1] + 4 := by
    simp only [payloadEnd, byteAt, headerLen, List.length_append, List.length_cons,
      List.length_nil] at h
    simp at h
    omega
  have hpayload : (rest.take (LittleEndian.decode [l0, l1])).length =
      LittleEndian.decode [l0, l1] := List.length_take_of_le (by omega)
  have htrailer : (rest.drop (LittleEndian.decode [l0, l1])).length = 4 := by
    rw [List.length_drop]
    omega
  obtain ⟨c0, c1, c2, c3, hchecksum⟩ := List.length_eq_four.mp htrailer
  refine ⟨m0, m1, v, t, s0, s1, s2, s3, l0, l1, _, c0, c1, c2, c3, ?_, hpayload.symm⟩
  rw [List.append_assoc, ← hchecksum, List.take_append_drop]

/-- What the codec asks of such a string. -/
theorem wellFramed_parts {m0 m1 v t s0 s1 s2 s3 l0 l1 c0 c1 c2 c3 : UInt8}
    {payload : List UInt8} (hlen : LittleEndian.decode [l0, l1] = payload.length) :
    WellFramed ([m0, m1, v, t, s0, s1, s2, s3, l0, l1] ++ payload ++ [c0, c1, c2, c3]) ↔
      [m0, m1] = magic ∧ v = protocolVersion ∧ (1 ≤ t ∧ t ≤ 4) ∧
        payload.length ≤ maxPayloadLen ∧
        UInt32.ofNat (LittleEndian.decode [c0, c1, c2, c3]) =
          ControlProtocol.crc32c ([v, t, s0, s1, s2, s3, l0, l1] ++ payload) := by
  set frame := [m0, m1, v, t, s0, s1, s2, s3, l0, l1] ++ payload ++ [c0, c1, c2, c3] with hframe
  have hend : payloadEnd frame = 10 + payload.length := congrArg (headerLen + ·) hlen
  have hlength : frame.length = payloadEnd frame + 4 := by
    rw [hend, hframe]
    simp
    omega
  have hcovered : (frame.take (payloadEnd frame)).drop 2 =
      [v, t, s0, s1, s2, s3, l0, l1] ++ payload := by
    rw [hend, hframe, List.take_left' (by simp; omega)]
    rfl
  have htrailer (i : Nat) : byteAt frame (payloadEnd frame + i) = [c0, c1, c2, c3].getD i 0 := by
    rw [hend, hframe, byteAt, List.getD_append_right _ _ _ _ (by simp; omega)]
    congr 1
    simp
    omega
  have hchecksum : ChecksumOk frame ↔ UInt32.ofNat (LittleEndian.decode [c0, c1, c2, c3]) =
      ControlProtocol.crc32c ([v, t, s0, s1, s2, s3, l0, l1] ++ payload) := by
    rw [ChecksumOk, hcovered, htrailer 1, htrailer 2, htrailer 3, ← Nat.add_zero (payloadEnd frame),
      htrailer 0]
    rfl
  constructor
  · rintro ⟨hmagic, ⟨hversion, htype, hsmall⟩, _, hcheck⟩
    refine ⟨hmagic, hversion, htype, ?_, hchecksum.mp hcheck⟩
    rw [← hlen]
    exact hsmall
  · rintro ⟨hmagic, hversion, htype, hsmall, hcheck⟩
    rw [← hlen] at hsmall
    exact ⟨hmagic, ⟨hversion, htype, hsmall⟩, hlength, hchecksum.mpr hcheck⟩

/-- The codec takes exactly the frames that the header walk takes for some message type. -/
theorem wellFramed_iff_decodeFrame {frame : List UInt8} :
    WellFramed frame ↔ (1 ≤ byteAt frame 3 ∧ byteAt frame 3 ≤ 4) ∧
      ∃ accepted, decodeFrame frame (byteAt frame 3) none = .ok accepted := by
  constructor
  · intro hframed
    obtain ⟨m0, m1, v, t, s0, s1, s2, s3, l0, l1, payload, c0, c1, c2, c3, rfl, hlen⟩ :=
      exists_parts hframed.length
    obtain ⟨hmagic, hversion, htype, hsmall, hchecksum⟩ := (wellFramed_parts hlen).mp hframed
    refine ⟨htype, ⟨UInt32.ofNat (LittleEndian.decode [s0, s1, s2, s3]), payload⟩, ?_⟩
    apply (decodeFrame_parts t none _ _ hlen rfl).mpr
    exact ⟨hmagic, hversion, rfl, hsmall, hchecksum, by simp, rfl, rfl⟩
  · rintro ⟨htype, accepted, haccepted⟩
    obtain ⟨m0, m1, v, t, s0, s1, s2, s3, l0, l1, payload, c0, c1, c2, c3, rfl, hlen⟩ :=
      exists_parts (length_of_decodeFrame haccepted)
    obtain ⟨hmagic, hversion, -, hsmall, hchecksum, -⟩ :=
      (decodeFrame_parts t none _ _ hlen rfl).mp haccepted
    exact (wellFramed_parts hlen).mpr ⟨hmagic, hversion, htype, hsmall, hchecksum⟩

theorem wellFramed_frameBytes {messageType : UInt8} (htype : 1 ≤ messageType ∧ messageType ≤ 4)
    (sequence : UInt32) {payload : List UInt8} (hsmall : payload.length ≤ maxPayloadLen) :
    WellFramed (frameBytes messageType sequence payload) :=
  wellFramed_iff_decodeFrame.mpr
    ⟨htype, _, decodeFrame_frameBytes messageType sequence hsmall (by simp)⟩

/-- What comes out of the codec is a frame of one of the four types. -/
theorem eq_frameBytes_of_wellFramed {frame : List UInt8} (h : WellFramed frame) :
    ∃ sequence payload, payload.length ≤ maxPayloadLen ∧
      frame = frameBytes (byteAt frame 3) sequence payload := by
  obtain ⟨-, ⟨sequence, payload⟩, haccepted⟩ := wellFramed_iff_decodeFrame.mp h
  obtain ⟨hsmall, -, hframe⟩ := eq_frameBytes_of_decodeFrame haccepted
  exact ⟨sequence, payload, hsmall, hframe⟩

/-! ## Into the codec -/

/-- A frame fed to an empty codec with room for it comes out again, and nothing is left. -/
theorem feed_wellFramed {frame : List UInt8} (h : WellFramed frame) {maxCapacity : Nat}
    (hroom : frame.length ≤ maxCapacity) :
    ∃ fed rest, (FrameCodec.withCapacity maxCapacity).feed frame = (.ok (), fed) ∧
      fed.nextFrame = (.ok (some frame), rest) ∧ rest.buffer = [] := by
  obtain ⟨fed, hfed⟩ := FrameCodec.exists_feed (FrameCodec.withCapacity maxCapacity) frame
    (by simpa [FrameCodec.withCapacity] using hroom)
  have hbuffer : fed.buffer = frame := (FrameCodec.feed_eq_ok.mp hfed).1
  obtain ⟨hresult, hrest, -⟩ := nextFrame_eq fed
  rw [hbuffer, Delimiter.next_of_accept (wellFramed_iff.mp h)] at hresult hrest
  refine ⟨fed, fed.nextFrame.2, hfed, ?_, ?_⟩
  · rw [List.take_length] at hresult
    exact Prod.ext hresult rfl
  · rw [hrest, List.drop_length]

/-- One of the four decoders takes the byte string. -/
def Decodes (b : List UInt8) : Prop :=
  (∃ frame, decodeCommand b = .ok frame) ∨ (∃ frame, decodeQueueStatus b = .ok frame) ∨
    (∃ frame, decodeClockRequest b = .ok frame) ∨ ∃ frame, decodeClockResponse b = .ok frame

theorem wellFramed_of_decodeFrame {b : List UInt8} {messageType : UInt8}
    (htype : 1 ≤ messageType ∧ messageType ≤ 4) {expectedPayload : Option Nat}
    {accepted : UInt32 × List UInt8}
    (h : decodeFrame b messageType expectedPayload = .ok accepted) : WellFramed b := by
  obtain ⟨hsmall, -, rfl⟩ := eq_frameBytes_of_decodeFrame h
  exact wellFramed_frameBytes htype accepted.1 hsmall

theorem Decodes.wellFramed {b : List UInt8} (h : Decodes b) : WellFramed b := by
  rcases h with ⟨frame, h⟩ | ⟨frame, h⟩ | ⟨frame, h⟩ | ⟨frame, h⟩ <;>
    obtain ⟨accepted, haccepted, -⟩ := bind_eq_ok.mp h
  · exact wellFramed_of_decodeFrame (by decide) haccepted
  · exact wellFramed_of_decodeFrame (by decide) haccepted
  · exact wellFramed_of_decodeFrame (by decide) haccepted
  · exact wellFramed_of_decodeFrame (by decide) haccepted

theorem WellFramed.length_le {frame : List UInt8} (h : WellFramed frame) :
    frame.length ≤ maxFrameLen := by
  have hsmall := h.header.2.2
  rw [h.length, payloadEnd, maxFrameLen, checksumLen]
  omega

/-! ## Out of the codec -/

/-- A frame is dispatched as its typed decoder decodes it, or refused for its payload. -/
def RefusedOnlyForPayload {ε : Type} (frame : List UInt8)
    (result : Except (TransportAdapterError ε) DispatchedFrame) : Prop :=
  match result with
  | .ok dispatched => typedDecode frame = some dispatched ∧ ∀ t bytes, dispatched ≠ .raw t bytes
  | .error e => ∃ d, (e = .decode d ∨ e = .daemonUpdate d) ∧ ¬ d.Framing ∧
      ∃ sequence payload, frame = frameBytes (byteAt frame 3) sequence payload ∧
        readPayloadAs (byteAt frame 3) payload = .error d

section Outcome

variable {sequence : UInt32} {payload : List UInt8} (hsmall : payload.length ≤ maxPayloadLen)
include hsmall

theorem decodeCommand_outcome :
    (decodeCommand (frameBytes commandMessageType sequence payload)).map (fun _ => ()) =
      readPayloadAs commandMessageType payload := by
  rw [decodeCommand, decodeFrame_frameBytes_eq _ _ _ hsmall]
  change Except.map _ (decodePayload payload >>= _) = decodePayload payload >>= _
  cases decodePayload payload <;> rfl

theorem decodeFixed_outcome {α γ : Type} {messageType : UInt8} {payloadLen : Nat}
    {readPayload : ReaderM α} (finish : UInt32 → α × Reader → γ) :
    (do let (sequence, bytes) ←
          decodeFrame (frameBytes messageType sequence payload) messageType (some payloadLen)
        let result ← readPayload.run (Reader.new bytes)
        pure (finish sequence result) : Except DecodeError γ).map (fun _ => ()) =
      (do requirePayloadLen (some payloadLen) payload.length
          let _ ← readPayload.run (Reader.new payload)
          pure ()) := by
  rw [decodeFrame_frameBytes_eq _ _ _ hsmall]
  cases requirePayloadLen (some payloadLen) payload.length with
  | error e => rfl
  | ok u =>
    change Except.map _ (readPayload.run (Reader.new payload) >>= _) =
      readPayload.run (Reader.new payload) >>= _
    cases readPayload.run (Reader.new payload) <;> rfl

theorem decodeQueueStatus_outcome :
    (decodeQueueStatus (frameBytes queueStatusMessageType sequence payload)).map (fun _ => ()) =
      readPayloadAs queueStatusMessageType payload :=
  decodeFixed_outcome hsmall fun sequence result => QueueStatusFrame.mk sequence result.1

theorem decodeClockRequest_outcome :
    (decodeClockRequest (frameBytes clockRequestMessageType sequence payload)).map (fun _ => ()) =
      readPayloadAs clockRequestMessageType payload :=
  decodeFixed_outcome hsmall fun sequence _ => ClockRequestFrame.mk sequence

theorem decodeClockResponse_outcome :
    (decodeClockResponse (frameBytes clockResponseMessageType sequence payload)).map
        (fun _ => ()) = readPayloadAs clockResponseMessageType payload :=
  decodeFixed_outcome hsmall fun sequence result => ClockResponseFrame.mk sequence result.1

end Outcome

section Refusals

variable {ε : Type} {frame payload : List UInt8} {sequence : UInt32}
  (hframe : frame = frameBytes (byteAt frame 3) sequence payload)
include hframe

/-- A refusal of the typed decoder, under either of the adapter's names for it. -/
theorem refused_of_outcome {α : Type} {result : Except DecodeError α} {d : DecodeError}
    (houtcome : result.map (fun _ => ()) = readPayloadAs (byteAt frame 3) payload)
    (h : result = .error d) {e : TransportAdapterError ε}
    (he : e = .decode d ∨ e = .daemonUpdate d) : RefusedOnlyForPayload frame (.error e) := by
  rw [h] at houtcome
  exact ⟨d, he, readPayloadAs_eq_error houtcome.symm, sequence, payload, hframe, houtcome.symm⟩

theorem refusedOnlyForPayload_decodedAs {α : Type} {event : α → DispatchedFrame}
    (hevent : ∀ a t bytes, event a ≠ .raw t bytes) {result : Except DecodeError α}
    (houtcome : result.map (fun _ => ()) = readPayloadAs (byteAt frame 3) payload)
    (htyped : typedDecode frame = (result.map event).toOption) :
    @RefusedOnlyForPayload ε frame (decodedAs event result) := by
  cases result with
  | error d => exact refused_of_outcome hframe houtcome rfl (Or.inl rfl)
  | ok value => exact ⟨htyped, hevent value⟩

end Refusals

/-- Dispatching a frame of the codec never fails for its framing. -/
theorem refusedOnlyForPayload_dispatchFrame {ε : Type} {frame : List UInt8} (h : WellFramed frame)
    (daemon : ControllerDaemon) (controllerId : String) (currentHostUs : UInt64) :
    RefusedOnlyForPayload frame
      (@dispatchFrame ε frame daemon controllerId currentHostUs).1 := by
  obtain ⟨sequence, payload, hsmall, hframe⟩ := eq_frameBytes_of_wellFramed h
  have hlength : ¬ frame.length < headerLen := by
    rw [h.length, payloadEnd]
    omega
  rw [dispatchFrame, if_neg hlength]
  dsimp only
  split_ifs with hstatus hresponse hrequest hcommand
  · have houtcome := @decodeQueueStatus_outcome sequence payload hsmall
    rw [← hstatus, ← hframe] at houtcome
    have hupdate := daemon.updateQueueStatus_result controllerId frame currentHostUs
    rcases hresult : daemon.updateQueueStatus controllerId frame currentHostUs with
      ⟨d | status, next⟩
    · rw [hresult] at hupdate
      rcases hdecode : decodeQueueStatusFrame frame with d' | status
      · rw [hdecode] at hupdate
        cases hupdate
        exact refused_of_outcome hframe houtcome hdecode (Or.inr rfl)
      · rw [hdecode] at hupdate
        cases hupdate
    · exact refusedOnlyForPayload_decodedAs hframe (by simp) houtcome
        (by rw [typedDecode, if_pos hstatus])
  · have houtcome := @decodeClockResponse_outcome sequence payload hsmall
    rw [← hresponse, ← hframe] at houtcome
    exact refusedOnlyForPayload_decodedAs hframe (by simp) houtcome
      (by rw [typedDecode, if_neg hstatus, if_pos hresponse])
  · have houtcome := @decodeClockRequest_outcome sequence payload hsmall
    rw [← hrequest, ← hframe] at houtcome
    exact refusedOnlyForPayload_decodedAs hframe (by simp) houtcome
      (by rw [typedDecode, if_neg hstatus, if_neg hresponse, if_pos hrequest])
  · have houtcome := @decodeCommand_outcome sequence payload hsmall
    rw [← hcommand, ← hframe] at houtcome
    exact refusedOnlyForPayload_decodedAs hframe (by simp) houtcome
      (by rw [typedDecode, if_neg hstatus, if_neg hresponse, if_neg hrequest, if_pos hcommand])
  · -- the codec lets no other type through
    obtain ⟨hlow, hhigh⟩ := h.header.2.1
    have hone := UInt8.le_iff_toNat_le.mp hlow
    have hfour := UInt8.le_iff_toNat_le.mp hhigh
    rw [← UInt8.toNat_inj] at hstatus hresponse hrequest hcommand
    change ¬ _ = 2 at hstatus
    change ¬ _ = 4 at hresponse
    change ¬ _ = 3 at hrequest
    change ¬ _ = 1 at hcommand
    change 1 ≤ _ at hone
    change _ ≤ 4 at hfour
    omega

/-- The codec returns what the decoders take, and the decoders take what the codec returns,
but for its payload. -/
theorem codec_and_decoders_agree {ε : Type} :
    (∀ b, Decodes b → ∃ fed rest, FrameCodec.new.feed b = (.ok (), fed) ∧
      fed.nextFrame = (.ok (some b), rest) ∧ rest.buffer = []) ∧
    ∀ codec frame rest, FrameCodec.nextFrame codec = (.ok (some frame), rest) →
      ∀ daemon controllerId currentHostUs, RefusedOnlyForPayload frame
        (@dispatchFrame ε frame daemon controllerId currentHostUs).1 := by
  constructor
  · intro b hb
    exact feed_wellFramed hb.wellFramed (hb.wellFramed.length_le.trans (by decide))
  · intro codec frame rest hnext daemon controllerId currentHostUs
    have hword := (Delimiter.verdict_of_next_some (FrameCodec.next_of_nextFrame hnext)).1
    exact refusedOnlyForPayload_dispatchFrame (wellFramed_iff.mpr hword) daemon controllerId
      currentHostUs

/-- The response of a clock exchange, through the codec and to the dispatcher. -/
theorem codec_and_decoders_agree_clockResponse :
    let frame : ClockResponseFrame := ⟨7, 100, 105⟩
    (∃ fed rest, FrameCodec.new.feed frame.bytes = (.ok (), fed) ∧
      fed.nextFrame = (.ok (some frame.bytes), rest) ∧ rest.buffer = []) ∧
    ∃ codec rest, FrameCodec.nextFrame codec = (.ok (some frame.bytes), rest) ∧
      RefusedOnlyForPayload frame.bytes
        (@dispatchFrame Unit frame.bytes .new "axis" 0).1 := by
  intro frame
  have hdecodes : Decodes frame.bytes :=
    Or.inr (Or.inr (Or.inr ⟨frame, (clockResponseFrame_codes.decode_iff _ _).mpr ⟨trivial, rfl⟩⟩))
  obtain ⟨fed, rest, hfed, hnext, hempty⟩ := (@codec_and_decoders_agree Unit).1 _ hdecodes
  exact ⟨⟨fed, rest, hfed, hnext, hempty⟩, fed, rest, hnext,
    codec_and_decoders_agree.2 _ _ _ hnext _ _ _⟩

end Dryer.TransportAdapter
