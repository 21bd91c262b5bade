import Dryer.ControlProtocol.Decode
import Dryer.ControlProtocol.Encode

/-!
# The layout of a frame

`frameBytes` says where everything in a frame is. The encoders write exactly these bytes
and the header walk of the decoders accepts exactly these bytes, so every property of
frames on the wire is a property of `frameBytes`.
-/
namespace Dryer.ControlProtocol
open Library

/-- What the checksum covers: the version byte through the end of the payload. -/
def frameBody (messageType : UInt8) (sequence : UInt32) (payload : List UInt8) : List UInt8 :=
  protocolVersion :: messageType :: LittleEndian.encode 4 sequence.toNat ++
    LittleEndian.encode 2 payload.length ++ payload

/-- The bytes of one frame. -/
def frameBytes (messageType : UInt8) (sequence : UInt32) (payload : List UInt8) : List UInt8 :=
  magic ++ frameBody messageType sequence payload ++
    LittleEndian.encode 4 (crc32c (frameBody messageType sequence payload)).toNat

theorem length_frameBody (messageType : UInt8) (sequence : UInt32) (payload : List UInt8) :
    (frameBody messageType sequence payload).length = 8 + payload.length := by
  simp [frameBody]
  omega

@[simp] theorem length_frameBytes (messageType : UInt8) (sequence : UInt32)
    (payload : List UInt8) :
    (frameBytes messageType sequence payload).length =
      headerLen + payload.length + checksumLen := by
  simp [frameBytes, length_frameBody, magic, headerLen, checksumLen]
  omega

/-! ## Encoding -/

/-- Everything before the checksum. -/
theorem frameStart_writes (messageType : UInt8) (sequence : UInt32)
    {payloadWriter : WriterM Unit} {payload : List UInt8}
    (hwrites : Writes Writer.written Writer.free payloadWriter () payload)
    (hlen : payload.length ≤ maxPayloadLen) :
    Writes Writer.written Writer.free
      (do Writer.write magic
          Writer.writeU8 protocolVersion
          Writer.writeU8 messageType
          Writer.write (LittleEndian.encode 4 sequence.toNat)
          Writer.write (LittleEndian.encode 2 (UInt16.ofNat payload.length).toNat)
          payloadWriter)
      () (magic ++ frameBody messageType sequence payload) := by
  have hsmall : (UInt16.ofNat payload.length).toNat = payload.length := by
    unfold maxPayloadLen at hlen
    exact UInt16.toNat_ofNat_of_lt' (by simp [UInt16.size]; omega)
  have hword : magic ++ frameBody messageType sequence payload =
      magic ++ ([protocolVersion] ++ ([messageType] ++ (LittleEndian.encode 4 sequence.toNat ++
        (LittleEndian.encode 2 (UInt16.ofNat payload.length).toNat ++ payload)))) := by
    simp [frameBody, hsmall]
  rw [hword]
  apply (Writer.write_writes _).bind
  apply (Writer.writeU8_writes _).bind
  apply (Writer.writeU8_writes _).bind
  apply (Writer.write_writes _).bind
  exact (Writer.write_writes _).bind hwrites

/-- The frame, written over the front of the buffer, and nothing behind it. -/
theorem encodeFrame_writes (messageType : UInt8) (sequence : UInt32) (unreadable : EncodeError)
    {payloadWriter : WriterM Unit} {payload : List UInt8} {output : List UInt8}
    (hwrites : Writes Writer.written Writer.free payloadWriter () payload)
    (hlen : payload.length ≤ maxPayloadLen)
    (hroom : (frameBytes messageType sequence payload).length ≤ output.length) :
    onBuffer output (encodeFrame messageType sequence payload.length payloadWriter unreadable) =
      (.ok (frameBytes messageType sequence payload).length,
        frameBytes messageType sequence payload ++
          output.drop (frameBytes messageType sequence payload).length) := by
  set body := frameBody messageType sequence payload with hbody
  have hframe : frameBytes messageType sequence payload =
      magic ++ body ++ LittleEndian.encode 4 (crc32c body).toNat := rfl
  have hmagic : magic.length = 2 := rfl
  simp only [hframe, List.length_append, LittleEndian.length_encode] at hroom
  -- the checksum is computed from the buffer, so the state the payload leaves is needed
  obtain ⟨u, hu, hwritten, hfree⟩ :=
    (frameStart_writes messageType sequence hwrites hlen).run_bind
      (fun _ => do
        let payloadEnd ← Writer.currentPosition
        let checksumInput ← Writer.bufferGet 2 payloadEnd unreadable
        Writer.write (LittleEndian.encode 4 (crc32c checksumInput).toNat)
        Writer.currentPosition)
      (s := Writer.new output) (by
        simp only [← hbody, List.length_append, Writer.free_new]
        omega)
  simp only [← hbody, Writer.written_new, Writer.free_new, List.nil_append] at hwritten hfree
  have hposition : u.position = 2 + body.length := by
    rw [← Writer.length_written, hwritten, List.length_append, hmagic]
  have hcovered : (Writer.bufferGet 2 u.position unreadable).run.run u = (.ok body, u) := by
    have hget : sliceGet u.output 2 u.position = some body :=
      sliceGet_middle magic u.free (by rw [← hwritten, u.written_append_free]) hmagic
        hposition.symm
    exact Prod.ext (okOr_eq_ok.mpr hget) rfl
  obtain ⟨v, hv, hwritten', hfree'⟩ :=
    (Writer.write_writes (LittleEndian.encode 4 (crc32c body).toNat)).run_bind
      (fun _ => Writer.currentPosition) (s := u) (by
        simp only [LittleEndian.length_encode, hfree, List.length_drop, List.length_append]
        omega)
  rw [hwritten, ← hframe] at hwritten'
  rw [hfree, List.drop_drop, ← List.length_append, ← hframe] at hfree'
  have hend : v.position = (frameBytes messageType sequence payload).length := by
    rw [← Writer.length_written, hwritten']
  have hrun : (encodeFrame messageType sequence payload.length payloadWriter
      unreadable).run.run (Writer.new output) = (.ok v.position, v) := by
    calc (encodeFrame messageType sequence payload.length payloadWriter
          unreadable).run.run (Writer.new output)
        = _ := by simp [encodeFrame]
      _ = _ := hu
      _ = (Writer.write (LittleEndian.encode 4 (crc32c body).toNat) >>= fun _ =>
            Writer.currentPosition).run.run u :=
        (run_bind_of_ok _ (Writer.currentPosition_run u)).trans (run_bind_of_ok _ hcovered)
      _ = _ := hv
  simp only [onBuffer, hrun]
  rw [← v.written_append_free, hwritten', hfree', hend]

/-! ## Decoding -/

@[simp] theorem requirePayloadLen_eq_ok {expectedPayload : Option Nat} {payloadLen : Nat}
    {u : Unit} :
    requirePayloadLen expectedPayload payloadLen = .ok u ↔
      ∀ expected ∈ expectedPayload, payloadLen = expected := by
  cases expectedPayload <;> simp [requirePayloadLen, pure, Except.pure]

theorem encode_ofNat_decode {bytes : List UInt8} (h : bytes.length = 4) :
    LittleEndian.encode 4 (UInt32.ofNat (LittleEndian.decode bytes)).toNat = bytes := by
  have hlt := LittleEndian.decode_lt bytes
  rw [h] at hlt
  rw [UInt32.toNat_ofNat_of_lt' hlt, LittleEndian.encode_decode_of_length h]

theorem ofNat_decode_encode (value : UInt32) :
    UInt32.ofNat (LittleEndian.decode (LittleEndian.encode 4 value.toNat)) = value := by
  rw [LittleEndian.decode_encode_of_lt value.toNat_lt, UInt32.ofNat_toNat]

/-- An input that holds a header, taken apart. -/
theorem exists_header {input : List UInt8} (h : headerLen ≤ input.length) :
    ∃ m0 m1 v t s0 s1 s2 s3 l0 l1 rest,
      input = [m0, m1, v, t, s0, s1, s2, s3, l0, l1] ++ rest := by
  unfold headerLen at h
  rcases input with _ | ⟨m0, _ | ⟨m1, _ | ⟨v, _ | ⟨t, _ | ⟨s0, _ | ⟨s1, _ | ⟨s2, _ | ⟨s3, _ |
    ⟨l0, _ | ⟨l1, rest⟩⟩⟩⟩⟩⟩⟩⟩⟩⟩
  all_goals first | exact ⟨_, _, _, _, _, _, _, _, _, _, _, rfl⟩ | simp at h

/-- The header walk of an input that has a header, payload and checksum of the lengths it
announces. -/
theorem decodeFrame_parts {m0 m1 v t s0 s1 s2 s3 l0 l1 : UInt8} {payload trailer : List UInt8}
    (expectedType : UInt8) (expectedPayload : Option Nat) (sequence : UInt32) (body : List UInt8)
    (hlen : LittleEndian.decode [l0, l1] = payload.length)
    (htrailer : trailer.length = checksumLen) :
    decodeFrame ([m0, m1, v, t, s0, s1, s2, s3, l0, l1] ++ payload ++ trailer) expectedType
        expectedPayload = .ok (sequence, body) ↔
      [m0, m1] = magic ∧ v = protocolVersion ∧ t = expectedType ∧
        payload.length ≤ maxPayloadLen ∧
        UInt32.ofNat (LittleEndian.decode trailer) =
          crc32c ([v, t, s0, s1, s2, s3, l0, l1] ++ payload) ∧
        (∀ expected ∈ expectedPayload, payload.length = expected) ∧
        UInt32.ofNat (LittleEndian.decode [s0, s1, s2, s3]) = sequence ∧ payload = body := by
  have hcovered : sliceGet (m0 :: m1 :: v :: t :: s0 :: s1 :: s2 :: s3 :: l0 :: l1 ::
      (payload ++ trailer)) 2 (10 + payload.length) =
      some ([v, t, s0, s1, s2, s3, l0, l1] ++ payload) :=
    sliceGet_middle [m0, m1] trailer (by simp) rfl (by simp; omega)
  have hpayload : sliceGet (m0 :: m1 :: v :: t :: s0 :: s1 :: s2 :: s3 :: l0 :: l1 ::
      (payload ++ trailer)) 10 (10 + payload.length) = some payload :=
    sliceGet_middle [m0, m1, v, t, s0, s1, s2, s3, l0, l1] trailer (by simp) rfl rfl
  have hchecksum : sliceGet (m0 :: m1 :: v :: t :: s0 :: s1 :: s2 :: s3 :: l0 :: l1 ::
      (payload ++ trailer)) (10 + payload.length) (10 + payload.length + 4) = some trailer :=
    sliceGet_middle ([m0, m1, v, t, s0, s1, s2, s3, l0, l1] ++ payload) [] (by simp)
      (by simp; omega) (by rw [htrailer]; rfl)
  unfold checksumLen at htrailer
  simp [decodeFrame, requireLen, readU32At, bind_eq_ok, byteAt, hlen, htrailer, headerLen,
    checksumLen, hcovered, hpayload, hchecksum, okOr]
  intro _ _ _ _
  -- the two checks of the length hold of the parts as they are
  grind

theorem length_of_decodeFrame {input : List UInt8} {expectedType : UInt8}
    {expectedPayload : Option Nat} {result : UInt32 × List UInt8}
    (h : decodeFrame input expectedType expectedPayload = .ok result) :
    input.length = headerLen + LittleEndian.decode [byteAt input 8, byteAt input 9] +
      checksumLen := by
  simp only [decodeFrame, requireLen, bind_eq_ok, reject_eq_ok] at h
  obtain ⟨-, -, -, -, -, -, -, -, -, -, -, -, -, hshort, -, hlong, -⟩ := h
  omega

/-- What is accepted is the frame that its parts make up. -/
theorem eq_frameBytes_of_decodeFrame {input : List UInt8} {expectedType : UInt8}
    {expectedPayload : Option Nat} {sequence : UInt32} {payload : List UInt8}
    (h : decodeFrame input expectedType expectedPayload = .ok (sequence, payload)) :
    payload.length ≤ maxPayloadLen ∧ (∀ expected ∈ expectedPayload, payload.length = expected) ∧
      input = frameBytes expectedType sequence payload := by
  have hinput := length_of_decodeFrame h
  obtain ⟨m0, m1, v, t, s0, s1, s2, s3, l0, l1, rest, rfl⟩ :=
    exists_header (show headerLen ≤ input.length by omega)
  have hrest : rest.length = LittleEndian.decode [l0, l1] + checksumLen := by
    simp only [byteAt, List.length_append, List.length_cons, List.length_nil] at hinput
    simp [headerLen] at hinput
    omega
  have hpayload : (rest.take (LittleEndian.decode [l0, l1])).length =
      LittleEndian.decode [l0, l1] := by
    simp
    omega
  have htrailer : (rest.drop (LittleEndian.decode [l0, l1])).length = checksumLen := by
    simp
    omega
  rw [← List.take_append_drop (LittleEndian.decode [l0, l1]) rest, ← List.append_assoc] at h ⊢
  generalize rest.drop (LittleEndian.decode [l0, l1]) = trailer at *
  generalize rest.take (LittleEndian.decode [l0, l1]) = body at *
  rw [decodeFrame_parts _ _ _ _ hpayload.symm htrailer] at h
  obtain ⟨hmagic, rfl, rfl, hsmall, hchecksum, hexpected, rfl, rfl⟩ := h
  refine ⟨hsmall, hexpected, ?_⟩
  have hseq := encode_ofNat_decode (show [s0, s1, s2, s3].length = 4 from rfl)
  have hannounced := LittleEndian.encode_decode_of_length (show [l0, l1].length = 2 from rfl)
  have hbody : frameBody t (UInt32.ofNat (LittleEndian.decode [s0, s1, s2, s3])) body =
      [protocolVersion, t, s0, s1, s2, s3, l0, l1] ++ body := by
    rw [frameBody, hseq, hpayload, hannounced]
    rfl
  rw [frameBytes, hbody, ← hchecksum, encode_ofNat_decode htrailer, ← hmagic]
  simp

/-- A frame is accepted with the parts it was made of. -/
theorem decodeFrame_frameBytes (expectedType : UInt8) {expectedPayload : Option Nat}
    (sequence : UInt32) {payload : List UInt8} (hsmall : payload.length ≤ maxPayloadLen)
    (hexpected : ∀ expected ∈ expectedPayload, payload.length = expected) :
    decodeFrame (frameBytes expectedType sequence payload) expectedType expectedPayload =
      .ok (sequence, payload) := by
  obtain ⟨s0, s1, s2, s3, hs⟩ :
      ∃ s0 s1 s2 s3, LittleEndian.encode 4 sequence.toNat = [s0, s1, s2, s3] := ⟨_, _, _, _, rfl⟩
  obtain ⟨l0, l1, hl⟩ : ∃ l0 l1, LittleEndian.encode 2 payload.length = [l0, l1] := ⟨_, _, rfl⟩
  have hbody : frameBody expectedType sequence payload =
      [protocolVersion, expectedType, s0, s1, s2, s3, l0, l1] ++ payload := by
    rw [frameBody, hs, hl]
    rfl
  have hlen : LittleEndian.decode [l0, l1] = payload.length := by
    rw [← hl, LittleEndian.decode_encode_of_lt]
    unfold maxPayloadLen at hsmall
    omega
  have hframe : frameBytes expectedType sequence payload =
      [0x44, 0x52, protocolVersion, expectedType, s0, s1, s2, s3, l0, l1] ++ payload ++
        LittleEndian.encode 4 (crc32c (frameBody expectedType sequence payload)).toNat := by
    rw [frameBytes, hbody]
    rfl
  rw [hframe]
  apply (decodeFrame_parts _ _ _ _ hlen (by simp [checksumLen])).mpr
  refine ⟨rfl, rfl, rfl, hsmall, ?_, hexpected, ?_, rfl⟩
  · rw [ofNat_decode_encode, hbody]
  · rw [← hs, ofNat_decode_encode]

theorem decodeFrame_eq_ok (input : List UInt8) (expectedType : UInt8)
    (expectedPayload : Option Nat) (sequence : UInt32) (payload : List UInt8) :
    decodeFrame input expectedType expectedPayload = .ok (sequence, payload) ↔
      payload.length ≤ maxPayloadLen ∧ (∀ expected ∈ expectedPayload, payload.length = expected) ∧
        input = frameBytes expectedType sequence payload := by
  constructor
  · exact eq_frameBytes_of_decodeFrame
  · rintro ⟨hsmall, hexpected, rfl⟩
    exact decodeFrame_frameBytes expectedType sequence hsmall hexpected

end Dryer.ControlProtocol
