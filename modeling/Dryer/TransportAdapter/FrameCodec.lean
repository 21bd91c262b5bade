import Dryer.ControlProtocol.Decode

/-!
# Frame delimitation

`FrameCodec` collects bytes and extracts complete frames whose checksum is right. It drops
one byte of a candidate it rejects, so that the next candidate may start inside it, and it
never drops a byte that may still belong to a frame.
-/
namespace Dryer.TransportAdapter
open Library ControlProtocol

/-- The checksum of `dryer-control-protocol`, computed again by the adapter. -/
def crc32c (bytes : List UInt8) : UInt32 := Crc.checksum 0x82f63b78 bytes

inductive FrameCodecError where
  | bufferOverflow (capacity : Nat)
  deriving DecidableEq

def defaultCodecCapacity : Nat := 4096

@[ext] structure FrameCodec where
  buffer : List UInt8
  maxCapacity : Nat
  bounded : buffer.length ≤ maxCapacity
  deriving DecidableEq

namespace FrameCodec

def withCapacity (maxCapacity : Nat) : FrameCodec := ⟨[], maxCapacity, Nat.zero_le _⟩

def new : FrameCodec := withCapacity defaultCodecCapacity

def bufferedLen (codec : FrameCodec) : Nat := codec.buffer.length

def clear (codec : FrameCodec) : FrameCodec := { codec with buffer := [], bounded := Nat.zero_le _ }

/-- Remove the first `count` bytes of the buffer. -/
def discard (codec : FrameCodec) (count : Nat) : FrameCodec :=
  { codec with
    buffer := codec.buffer.drop count
    bounded := by
      have := codec.bounded
      rw [List.length_drop]
      omega }

/-- Feed incoming bytes into the codec buffer. -/
def feed (codec : FrameCodec) (data : List UInt8) : Except FrameCodecError Unit × FrameCodec :=
  if h : codec.buffer.length + data.length > codec.maxCapacity then
    (.error (.bufferOverflow codec.maxCapacity), codec)
  else (.ok (), {
    codec with
    buffer := codec.buffer ++ data
    bounded := by
      rw [List.length_append]
      omega })

/-- The first position of the magic bytes. -/
def magicPosition (buffer : List UInt8) : Option Nat :=
  (buffer.zip buffer.tail).findIdx? fun win => [win.1, win.2] == magic

theorem ne_nil_of_magicPosition {buffer : List UInt8} {position : Nat}
    (h : magicPosition buffer = some position) : buffer ≠ [] := by
  intro hnil
  simp [hnil, magicPosition] at h

/-- Extract the next complete frame with the right checksum, if one is available. -/
def nextFrame (codec : FrameCodec) : Except FrameCodecError (Option (List UInt8)) × FrameCodec :=
  match h : magicPosition codec.buffer with
  | none =>
    -- the last byte may be the first half of a magic
    if codec.buffer.getLast? = some 0x44 then
      (.ok none, codec.discard (codec.buffer.length - 1))
    else (.ok none, codec.clear)
  | some (position + 1) => nextFrame (codec.discard (position + 1))
  | some 0 =>
    if codec.buffer.length < headerLen then (.ok none, codec)
    else
      let version := byteAt codec.buffer 2
      let messageType := byteAt codec.buffer 3
      let payloadLen := LittleEndian.decode [byteAt codec.buffer 8, byteAt codec.buffer 9]
      if ¬ (version = protocolVersion ∧ (1 ≤ messageType ∧ messageType ≤ 4) ∧
          payloadLen ≤ maxPayloadLen) then
        nextFrame (codec.discard 1)
      else
        let frameLen := headerLen + payloadLen + 4
        if frameLen > maxFrameLen then nextFrame (codec.discard 1)
        else if codec.buffer.length < frameLen then (.ok none, codec)
        else
          let payloadEnd := headerLen + payloadLen
          let encodedChecksum := UInt32.ofNat (LittleEndian.decode
            [byteAt codec.buffer payloadEnd, byteAt codec.buffer (payloadEnd + 1),
              byteAt codec.buffer (payloadEnd + 2), byteAt codec.buffer (payloadEnd + 3)])
          let computedChecksum := crc32c ((codec.buffer.take payloadEnd).drop 2)
          if encodedChecksum ≠ computedChecksum then nextFrame (codec.discard 1)
          else (.ok (some (codec.buffer.take frameLen)), codec.discard frameLen)
termination_by codec.buffer.length
decreasing_by
  all_goals
    have := List.length_pos_iff.mpr (ne_nil_of_magicPosition h)
    simp only [discard, List.length_drop]
    omega

end FrameCodec
end Dryer.TransportAdapter
