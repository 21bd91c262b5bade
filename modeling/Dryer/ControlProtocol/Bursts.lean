import Mathlib.Data.Finset.Basic
import Dryer.ControlProtocol.RoundTrip

/-!
# Burst errors

Two frames of one length that differ within 32 consecutive bits differ in what the checksum
covers or in the checksum, and no two such strings carry their own checksum.
-/
namespace Dryer.ControlProtocol
open Library

/-- The bits of one byte that are in the set; bit `8 * index` is the lowest bit of byte
`index`. -/
def flipMask (positions : Finset Nat) (index : Nat) : UInt8 :=
  UInt8.ofNat (Nat.ofBits fun bit : Fin 8 => decide (8 * index + bit ∈ positions))

/-- The byte string with the bits at these positions flipped. -/
def flipBits (positions : Finset Nat) (input : List UInt8) : List UInt8 :=
  input.mapIdx fun index byte => byte ^^^ flipMask positions index

/-- A non-empty set of bit positions of the input, within 32 consecutive ones. -/
structure Burst (input : List UInt8) (positions : Finset Nat) : Prop where
  nonempty : positions.Nonempty
  inside : ∀ position ∈ positions, position < 8 * input.length
  window : ∃ first, ∀ position ∈ positions, first ≤ position ∧ position < first + 32

@[simp] theorem length_flipBits (positions : Finset Nat) (input : List UInt8) :
    (flipBits positions input).length = input.length := List.length_mapIdx

theorem testBit_flipMask (positions : Finset Nat) (index : Nat) {bit : Nat} (h : bit < 8) :
    (flipMask positions index).toNat.testBit bit = decide (8 * index + bit ∈ positions) := by
  have hlt := Nat.ofBits_lt_two_pow fun bit : Fin 8 => decide (8 * index + bit ∈ positions)
  rw [flipMask, UInt8.toNat_ofNat_of_lt' hlt, Nat.testBit_ofBits_lt _ _ h]

theorem bits_getElem? (bytes : List UInt8) (i : Nat) :
    (Crc.bits bytes)[i]? = bytes[i / 8]?.map fun byte => byte.toNat.testBit (i % 8) := by
  induction bytes generalizing i with
  | nil => simp [Crc.bits]
  | cons byte bytes ih =>
    have hlength : (Crc.byteBits byte).length = 8 := by simp [Crc.byteBits]
    rw [Crc.bits, List.flatMap_cons, ← Crc.bits, List.getElem?_append, hlength]
    by_cases hfirst : i < 8
    · have hindex : i / 8 = 0 := by omega
      have hbit : i % 8 = i := by omega
      simp [hfirst, hindex, hbit, Crc.byteBits]
    · have hindex : i / 8 = (i - 8) / 8 + 1 := by omega
      have hbit : (i - 8) % 8 = i % 8 := by omega
      rw [if_neg hfirst, ih, hindex, List.getElem?_cons_succ, hbit]

/-- The flipped string differs at the positions of the set. -/
theorem bits_flipBits (positions : Finset Nat) (input : List UInt8) (i : Nat) :
    (Crc.bits (flipBits positions input))[i]? =
      (Crc.bits input)[i]?.map fun bit => bit ^^ decide (i ∈ positions) := by
  have hi : 8 * (i / 8) + i % 8 = i := Nat.div_add_mod i 8
  have hmask := testBit_flipMask positions (i / 8) (Nat.mod_lt i (by decide))
  rw [hi] at hmask
  rw [bits_getElem?, bits_getElem?, flipBits, List.getElem?_mapIdx, Option.map_map, Option.map_map]
  congr 1
  funext byte
  simp [hmask]

theorem flipBits_ne {input : List UInt8} {positions : Finset Nat} (h : Burst input positions) :
    flipBits positions input ≠ input := by
  intro heq
  obtain ⟨position, hmem⟩ := h.nonempty
  have hlt : position < (Crc.bits input).length := by
    rw [Crc.length_bits]
    exact h.inside position hmem
  have hbit := bits_flipBits positions input position
  rw [heq, List.getElem?_eq_getElem hlt] at hbit
  simp [hmem] at hbit

/-- Behind the magic prefix, too, the difference is within 32 consecutive bits. -/
theorem within_flipBits {input : List UInt8} {positions : Finset Nat}
    (h : Burst input positions) :
    Crc.Within 32 (List.zipWith xor (Crc.bits (input.drop 2))
      (Crc.bits ((flipBits positions input).drop 2))) := by
  obtain ⟨first, hfirst⟩ := h.window
  refine ⟨first - 16, fun i hi => ?_⟩
  have hdrop (bytes : List UInt8) : (Crc.bits (bytes.drop 2))[i]? = (Crc.bits bytes)[16 + i]? := by
    have hindex : (16 + i) / 8 = 2 + i / 8 := by omega
    have hbit : (16 + i) % 8 = i % 8 := by omega
    rw [bits_getElem?, bits_getElem?, List.getElem?_drop, hindex, hbit]
  rw [List.getElem?_zipWith, hdrop, hdrop, bits_flipBits] at hi
  have hmem : 16 + i ∈ positions := by
    cases hbit : (Crc.bits input)[16 + i]? with
    | none => simp [hbit] at hi
    | some bit => simpa [hbit] using hi
  have := hfirst _ hmem
  omega

/-- What follows the magic prefix of a frame ends in its own check value. -/
theorem sealed_frameBytes (messageType : UInt8) (sequence : UInt32) (payload : List UInt8) :
    Crc.Sealed 0x82f63b78 ((frameBytes messageType sequence payload).drop 2) :=
  ⟨frameBody messageType sequence payload, rfl⟩

/-- The header walk takes at most one of an input and the input after a burst. -/
theorem decodeFrame_flipBits {input : List UInt8} {positions : Finset Nat}
    (hburst : Burst input positions) {expectedType : UInt8} {expectedPayload : Option Nat}
    {accepted : UInt32 × List UInt8}
    (h : decodeFrame input expectedType expectedPayload = .ok accepted) :
    ∃ e, decodeFrame (flipBits positions input) expectedType expectedPayload = .error e := by
  rcases hflipped : decodeFrame (flipBits positions input) expectedType expectedPayload with
    e | altered
  · exact ⟨e, rfl⟩
  obtain ⟨-, -, hinput⟩ := eq_frameBytes_of_decodeFrame h
  obtain ⟨-, -, haltered⟩ := eq_frameBytes_of_decodeFrame hflipped
  have hwithin := within_flipBits hburst
  have hsealed := sealed_frameBytes expectedType accepted.1 accepted.2
  have hsealed' := sealed_frameBytes expectedType altered.1 altered.2
  rw [← hinput] at hsealed
  rw [← haltered] at hsealed'
  have hlength : (input.drop 2).length = ((flipBits positions input).drop 2).length := by simp
  have hrest := Crc.eq_of_sealed (by decide) hsealed hsealed' hlength hwithin
  have hprefix : input.take 2 = (flipBits positions input).take 2 := by
    rw [haltered, hinput]
    rfl
  refine absurd ?_ (flipBits_ne hburst)
  rw [← List.take_append_drop 2 (flipBits positions input), ← hprefix, ← hrest,
    List.take_append_drop]

/-- Whatever a decoder does behind the header walk, it does not take both. -/
theorem rejects_flipBits {α : Type} {input : List UInt8} {positions : Finset Nat}
    (hburst : Burst input positions) {expectedType : UInt8} {expectedPayload : Option Nat}
    {readPayload : UInt32 × List UInt8 → Except DecodeError α} {frame : α}
    (h : decodeFrame input expectedType expectedPayload >>= readPayload = .ok frame) :
    ∃ e, decodeFrame (flipBits positions input) expectedType expectedPayload >>= readPayload =
      .error e := by
  obtain ⟨accepted, haccepted, -⟩ := bind_eq_ok.mp h
  obtain ⟨e, he⟩ := decodeFrame_flipBits hburst haccepted
  exact ⟨e, by rw [he]; rfl⟩

/-- No decoder takes a frame it would take before the bits of a burst were flipped. -/
theorem bursts_are_detected (input : List UInt8) (positions : Finset Nat)
    (hburst : Burst input positions) :
    (∀ frame, decodeCommand input = .ok frame →
      ∃ e, decodeCommand (flipBits positions input) = .error e) ∧
    (∀ frame, decodeQueueStatus input = .ok frame →
      ∃ e, decodeQueueStatus (flipBits positions input) = .error e) ∧
    (∀ frame, decodeClockRequest input = .ok frame →
      ∃ e, decodeClockRequest (flipBits positions input) = .error e) ∧
    ∀ frame, decodeClockResponse input = .ok frame →
      ∃ e, decodeClockResponse (flipBits positions input) = .error e := by
  refine ⟨?_, ?_, ?_, ?_⟩
  · intro frame h
    exact rejects_flipBits hburst h
  · intro frame h
    exact rejects_flipBits hburst h
  · intro frame h
    exact rejects_flipBits hburst h
  · intro frame h
    exact rejects_flipBits hburst h

/-- A clock request with the outermost bits of its sequence flipped. -/
theorem bursts_are_detected_clockRequest :
    decodeClockRequest (ClockRequestFrame.mk 7).bytes = .ok ⟨7⟩ ∧
      ∃ e, decodeClockRequest (flipBits {32, 63} (ClockRequestFrame.mk 7).bytes) = .error e := by
  have haccepted : decodeClockRequest (ClockRequestFrame.mk 7).bytes = .ok ⟨7⟩ :=
    (clockRequestFrame_codes.decode_iff _ _).mpr ⟨trivial, rfl⟩
  have hburst : Burst (ClockRequestFrame.mk 7).bytes {32, 63} := by
    refine ⟨⟨32, by simp⟩, ?_, ⟨32, by simp⟩⟩
    intro position hmem
    simp only [Finset.mem_insert, Finset.mem_singleton] at hmem
    rw [ClockRequestFrame.length_bytes]
    simp only [clockRequestFrameLen, headerLen, clockRequestPayloadLen, checksumLen]
    omega
  exact ⟨haccepted, (bursts_are_detected _ _ hburst).2.2.1 _ haccepted⟩

end Dryer.ControlProtocol
