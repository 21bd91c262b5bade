import Dryer.ControlProtocol.Frames
import Dryer.Library.Crc
import Dryer.Library.Grammar
import Dryer.Library.LittleEndian
import Dryer.Library.Result

/-!
# Bounded cursors over the wire

`Reader` and `Writer` are the two cursors of the codec. Both carry the fact that their
position lies inside the slice, so no read or write ever starts past its end. A `Writer`
keeps what it wrote when it fails: the buffer is the caller's, and an error does not
restore it.
-/
namespace Dryer.ControlProtocol
open Library

def crc32c (bytes : List UInt8) : UInt32 := Crc.checksum 0x82f63b78 bytes

/-- The UTF-8 bytes of a string. -/
def asBytes (value : String) : List UInt8 := value.toByteArray.data.toList

/-- The string a byte string is the UTF-8 encoding of, when it is one. -/
def fromUtf8 (bytes : List UInt8) : Option String := String.fromUTF8? ⟨bytes.toArray⟩

@[simp] theorem fromUtf8_asBytes (value : String) : fromUtf8 (asBytes value) = some value := by
  have hvalid : (⟨(asBytes value).toArray⟩ : ByteArray).IsValidUTF8 := by
    simpa [asBytes] using value.isValidUTF8
  simp only [fromUtf8, String.fromUTF8?, hvalid, ↓reduceDIte]
  congr 1

theorem asBytes_of_fromUtf8 {bytes : List UInt8} {value : String}
    (h : fromUtf8 bytes = some value) : asBytes value = bytes := by
  unfold fromUtf8 String.fromUTF8? at h
  split at h
  · cases h
    simp [asBytes, String.fromUTF8]
  · cases h

theorem fromUtf8_iff {bytes : List UInt8} {value : String} :
    fromUtf8 bytes = some value ↔ bytes = asBytes value :=
  ⟨fun h => (asBytes_of_fromUtf8 h).symm, fun h => h ▸ fromUtf8_asBytes value⟩

/-- The bytes of a slice from `start` up to `last`, when they lie inside it. -/
def sliceGet (slice : List UInt8) (start last : Nat) : Option (List UInt8) :=
  if start ≤ last ∧ last ≤ slice.length then some ((slice.drop start).take (last - start))
  else none

/-- The bytes between a prefix and a suffix. -/
theorem sliceGet_middle {slice middle : List UInt8} {start last : Nat}
    (before after : List UInt8) (h : slice = before ++ middle ++ after)
    (hstart : before.length = start) (hlast : start + middle.length = last) :
    sliceGet slice start last = some middle := by
  subst h hstart hlast
  simp [sliceGet]

/-! ## Writer -/

structure Writer where
  output : List UInt8
  position : Nat
  inBounds : position ≤ output.length

abbrev WriterM := ExceptT EncodeError (StateM Writer)

namespace Writer

def new (output : List UInt8) : Writer := ⟨output, 0, Nat.zero_le _⟩

/-- Copy `bytes` over the buffer at the position and move past them. -/
def write (bytes : List UInt8) : WriterM Unit := fun writer =>
  let last := writer.position + bytes.length
  if h : last ≤ writer.output.length then
    (.ok (), {
      output := writer.output.take writer.position ++ bytes ++ writer.output.drop last
      position := last
      inBounds := by simp; omega })
  else (.error (.bufferTooSmall last writer.output.length), writer)

def writeU8 (value : UInt8) : WriterM Unit := write [value]

def writeString (value : String) : WriterM Unit := do
  writeU8 (UInt8.ofNat (asBytes value).length)
  write (asBytes value)

/-- The position, as a value of the running writer. -/
def currentPosition : WriterM Nat := fun writer => (.ok writer.position, writer)

/-- The part of the buffer from `start` up to `last`, or `e` when it does not exist. -/
def bufferGet (start last : Nat) (e : EncodeError) : WriterM (List UInt8) := fun writer =>
  (okOr (sliceGet writer.output start last) e, writer)

def written (writer : Writer) : List UInt8 := writer.output.take writer.position
def free (writer : Writer) : List UInt8 := writer.output.drop writer.position

@[simp] theorem written_new (output : List UInt8) : (new output).written = [] := by
  simp [written, new]

@[simp] theorem free_new (output : List UInt8) : (new output).free = output := by
  simp [free, new]

@[simp] theorem length_written (writer : Writer) : writer.written.length = writer.position := by
  simpa [written] using writer.inBounds

theorem written_append_free (writer : Writer) : writer.written ++ writer.free = writer.output :=
  List.take_append_drop _ _

theorem write_writes (bytes : List UInt8) : Writes written free (write bytes) () bytes := by
  intro writer hroom
  have hin := writer.inBounds
  have hlast : writer.position + bytes.length ≤ writer.output.length := by
    simp only [free, List.length_drop] at hroom
    omega
  have hlen : (writer.output.take writer.position ++ bytes).length =
      writer.position + bytes.length := by simp [hin]
  refine ⟨{
    output := writer.output.take writer.position ++ bytes ++
      writer.output.drop (writer.position + bytes.length)
    position := writer.position + bytes.length
    inBounds := by simp; omega }, ?_, ?_, ?_⟩
  · simp [write, hlast, ExceptT.run, StateT.run]
  · simp only [written]
    rw [← hlen, List.take_left]
  · simp only [free, List.drop_drop]
    rw [← hlen, List.drop_left, hlen]

theorem currentPosition_run (writer : Writer) :
    currentPosition.run.run writer = (.ok writer.position, writer) := rfl

theorem writeU8_writes (value : UInt8) : Writes written free (writeU8 value) () [value] :=
  write_writes [value]

theorem writeString_writes (value : String) :
    Writes written free (writeString value) ()
      (UInt8.ofNat (asBytes value).length :: asBytes value) :=
  (writeU8_writes _).bind (write_writes _)

end Writer

/-! ## Reader -/

structure Reader where
  input : List UInt8
  position : Nat
  inBounds : position ≤ input.length

abbrev ReaderM := StateT Reader (Except DecodeError)

namespace Reader

def new (input : List UInt8) : Reader := ⟨input, 0, Nat.zero_le _⟩

def remaining (reader : Reader) : Nat := reader.input.length - reader.position

def read (length : Nat) : ReaderM (List UInt8) := fun reader =>
  if h : reader.position + length ≤ reader.input.length then
    .ok ((reader.input.drop reader.position).take length,
      { reader with position := reader.position + length, inBounds := h })
  else .error (.truncated (reader.position + length) reader.input.length)

def readU8 : ReaderM UInt8 := do
  let bytes ← read 1
  pure (bytes.headD 0)

def readU16 : ReaderM UInt16 := do
  let bytes ← read 2
  pure (UInt16.ofNat (LittleEndian.decode bytes))

def readU64 : ReaderM UInt64 := do
  let bytes ← read 8
  pure (UInt64.ofNat (LittleEndian.decode bytes))

def readI64 : ReaderM Int64 := do
  let bytes ← read 8
  pure (UInt64.ofNat (LittleEndian.decode bytes)).toInt64

def readString : ReaderM String := do
  let length := (← readU8).toNat
  if length > maxStringLen then
    throw (.stringTooLong length maxStringLen)
  else
    let bytes ← read length
    match fromUtf8 bytes with
    | none => throw .invalidUtf8
    | some value => pure value

/-- The bytes still to be read. -/
def unread (reader : Reader) : List UInt8 := reader.input.drop reader.position

@[simp] theorem unread_new (input : List UInt8) : (new input).unread = input := by
  simp [unread, new]

theorem length_unread (reader : Reader) : reader.unread.length = reader.remaining := by
  simp [unread, remaining]

theorem read_reads (length : Nat) :
    Reads unread (read length) (Grammar.fitting (fun bytes => bytes.length = length) id) where
  sound := by
    intro reader bytes reader' h
    simp only [read, StateT.run] at h
    split at h
    · rename_i hlast
      obtain ⟨rfl, rfl⟩ := Prod.mk.inj (Except.ok.inj h)
      refine ⟨_, ⟨by simp; omega, rfl⟩, ?_⟩
      simp only [unread, id_eq]
      rw [← List.drop_drop, List.take_append_drop]
    · cases h
  complete := by
    rintro reader bytes word rest ⟨rfl, hword⟩ hview
    rw [hword] at hview
    have hlength := congrArg List.length hview
    simp only [length_unread, remaining, id_eq, List.length_append] at hlength
    have hin := reader.inBounds
    have hlast : reader.position + bytes.length ≤ reader.input.length := by omega
    refine ⟨{ reader with position := reader.position + bytes.length, inBounds := hlast }, ?_, ?_⟩
    · simp only [unread, id_eq] at hview
      simp [read, StateT.run, hlast, hview]
    · simp only [unread, id_eq] at hview ⊢
      rw [← List.drop_drop, hview, List.drop_left]

theorem readU8_reads : Reads unread readU8 (Grammar.exact fun value => [value]) := by
  apply ((read_reads 1).bind fun bytes => Reads.pure _).congr
  intro value word
  simp only [Grammar.fitting_bind_iff, Grammar.value_iff, Grammar.exact_iff]
  constructor
  · rintro ⟨bytes, _, hlength, ⟨rfl, rfl⟩, rfl⟩
    obtain ⟨byte, rfl⟩ := List.length_eq_one_iff.mp hlength
    rfl
  · rintro rfl
    exact ⟨[value], [], rfl, ⟨rfl, rfl⟩, rfl⟩

/-- A fixed-width integer is read from exactly its little-endian bytes. -/
theorem readInt_reads {α : Type} (width : Nat) (ofNat : Nat → α) (toNat : α → Nat)
    (hlt : ∀ value, toNat value < 256 ^ width) (hof : ∀ value, ofNat (toNat value) = value)
    (hto : ∀ n, n < 256 ^ width → toNat (ofNat n) = n) :
    Reads unread (do let bytes ← read width; pure (ofNat (LittleEndian.decode bytes)))
      (Grammar.exact fun value => LittleEndian.encode width (toNat value)) := by
  apply ((read_reads width).bind fun bytes => Reads.pure _).congr
  intro value word
  simp only [Grammar.fitting_bind_iff, Grammar.value_iff, Grammar.exact_iff]
  constructor
  · rintro ⟨bytes, _, hlength, ⟨rfl, rfl⟩, rfl⟩
    rw [hto _ (hlength ▸ LittleEndian.decode_lt bytes),
      LittleEndian.encode_decode_of_length hlength]
    simp
  · rintro rfl
    refine ⟨LittleEndian.encode width (toNat value), [], by simp, ⟨?_, rfl⟩, by simp⟩
    rw [LittleEndian.decode_encode_of_lt (hlt value), hof]

theorem readU16_reads :
    Reads unread readU16 (Grammar.exact fun value => LittleEndian.encode 2 value.toNat) :=
  readInt_reads 2 UInt16.ofNat UInt16.toNat UInt16.toNat_lt (fun _ => UInt16.ofNat_toNat)
    fun _ h => UInt16.toNat_ofNat_of_lt' h

theorem readU64_reads :
    Reads unread readU64 (Grammar.exact fun value => LittleEndian.encode 8 value.toNat) :=
  readInt_reads 8 UInt64.ofNat UInt64.toNat UInt64.toNat_lt (fun _ => UInt64.ofNat_toNat)
    fun _ h => UInt64.toNat_ofNat_of_lt' h

theorem readI64_reads :
    Reads unread readI64 (Grammar.exact fun value => LittleEndian.encode 8 value.toUInt64.toNat) :=
  readInt_reads 8 (fun n => (UInt64.ofNat n).toInt64) (fun value => value.toUInt64.toNat)
    (fun value => value.toUInt64.toNat_lt) (fun value => by simp)
    fun _ h => by simpa using UInt64.toNat_ofNat_of_lt' h

/-- A string is read from exactly its length byte followed by its UTF-8 bytes. -/
theorem readString_reads :
    Reads unread readString (Grammar.fitting (fun value => (asBytes value).length ≤ maxStringLen)
      fun value => UInt8.ofNat (asBytes value).length :: asBytes value) := by
  have hbody (length : Nat) : Reads unread
      (do let bytes ← read length
          match fromUtf8 bytes with
          | none => throw .invalidUtf8
          | some value => pure value)
      (Grammar.fitting (fun value => (asBytes value).length = length) asBytes) := by
    refine ((read_reads length).bind (H := fun bytes value word =>
      fromUtf8 bytes = some value ∧ word = []) fun bytes => ?_).congr fun value word => ?_
    · cases hutf : fromUtf8 bytes with
      | none => exact (Reads.throw _).congr (by simp)
      | some value => exact (Reads.pure value).congr (by simp [eq_comm])
    · simp only [Grammar.fitting_bind_iff, Grammar.fitting_iff, fromUtf8_iff]
      constructor
      · rintro ⟨bytes, _, hlength, ⟨rfl, rfl⟩, rfl⟩
        exact ⟨hlength, by simp⟩
      · rintro ⟨hlength, rfl⟩
        exact ⟨asBytes value, [], hlength, ⟨rfl, rfl⟩, by simp⟩
  refine (readU8_reads.bind fun byte => Reads.ite (Reads.throw _) (hbody byte.toNat)).congr
    fun value word => ?_
  simp only [Grammar.exact_bind_iff, Grammar.fitting_iff]
  constructor
  · rintro ⟨byte, back, h, rfl⟩
    split at h
    · exact h.elim
    · rename_i hshort
      obtain ⟨hlength, rfl⟩ := h
      exact ⟨by omega, by rw [hlength, UInt8.ofNat_toNat]; rfl⟩
  · rintro ⟨hfits, rfl⟩
    have hbyte : (UInt8.ofNat (asBytes value).length).toNat = (asBytes value).length := by
      rw [UInt8.toNat_ofNat', Nat.mod_eq_of_lt]
      unfold maxStringLen at hfits
      omega
    refine ⟨UInt8.ofNat (asBytes value).length, asBytes value, ?_, rfl⟩
    rw [hbyte, if_neg (by omega)]
    exact ⟨rfl, rfl⟩

end Reader
end Dryer.ControlProtocol
