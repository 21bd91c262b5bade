import Mathlib.Tactic.Ring
import Mathlib.Tactic.Linarith

/-!
# Little-endian integers

A number is written as a fixed count of bytes, least significant first. The two
directions are inverse: every number below `256 ^ width` is read back, and every
byte string of that width is the one written for the number it denotes.
-/
namespace Dryer.Library.LittleEndian

/-- The `width` low bytes of `value`, least significant first. -/
def encode : (width value : Nat) → List UInt8
  | 0, _ => []
  | width + 1, value => UInt8.ofNat value :: encode width (value / 256)

/-- The number a byte string denotes, least significant byte first. -/
def decode : List UInt8 → Nat
  | [] => 0
  | byte :: bytes => byte.toNat + 256 * decode bytes

@[simp] theorem length_encode (width value : Nat) : (encode width value).length = width := by
  induction width generalizing value with
  | zero => rfl
  | succ width ih => simp [encode, ih]

theorem decode_lt (bytes : List UInt8) : decode bytes < 256 ^ bytes.length := by
  induction bytes with
  | nil => simp [decode]
  | cons byte bytes ih =>
    have hbyte : byte.toNat < 256 := byte.toNat_lt
    simp only [decode, List.length_cons, pow_succ]
    omega

theorem decode_encode (width value : Nat) : decode (encode width value) = value % 256 ^ width := by
  induction width generalizing value with
  | zero => simp [encode, decode, Nat.mod_one]
  | succ width ih =>
    have hbyte : (UInt8.ofNat value).toNat = value % 256 := UInt8.toNat_ofNat'
    rw [encode, decode, hbyte, ih, pow_succ, Nat.mul_comm (256 ^ width), Nat.mod_mul]

/-- Every number that fits is read back. -/
theorem decode_encode_of_lt {width value : Nat} (h : value < 256 ^ width) :
    decode (encode width value) = value := by
  rw [decode_encode, Nat.mod_eq_of_lt h]

/-- Every byte string is the encoding of the number it denotes. -/
theorem encode_decode (bytes : List UInt8) : encode bytes.length (decode bytes) = bytes := by
  induction bytes with
  | nil => rfl
  | cons byte bytes ih =>
    have hbyte : byte.toNat < 256 := byte.toNat_lt
    have hdiv : (byte.toNat + 256 * decode bytes) / 256 = decode bytes := by omega
    have hmod : UInt8.ofNat (byte.toNat + 256 * decode bytes) = byte := by
      apply UInt8.toNat_inj.mp
      rw [UInt8.toNat_ofNat']
      omega
    simp only [List.length_cons, decode, encode, hdiv, hmod, ih]

theorem encode_decode_of_length {bytes : List UInt8} {width : Nat} (h : bytes.length = width) :
    encode width (decode bytes) = bytes := by
  rw [← h, encode_decode]

end Dryer.Library.LittleEndian
