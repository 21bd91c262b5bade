import Mathlib.Data.Nat.Bitwise
import Dryer.Library.LittleEndian

/-!
# Reflected 32-bit cyclic redundancy checks

The bit-serial form: the register is shifted right once for each message bit, least
significant bit of each byte first, and the reflected polynomial is added when a one
leaves it. The register starts and ends complemented.

A shift is linear in exclusive or and, when the top bit of the polynomial is set, loses
nothing. Two strings that both end in their own check value therefore differ in a pattern
that leaves the register at zero, and no pattern within 32 consecutive bits does.
-/
namespace Dryer.Library.Crc

/-- One shift of the register. -/
def shift (polynomial crc : UInt32) : UInt32 :=
  let mask := 0 - (crc &&& 1)
  (crc >>> 1) ^^^ (polynomial &&& mask)

/-- The register after one more message byte. -/
def absorb (polynomial crc : UInt32) (byte : UInt8) : UInt32 :=
  Nat.repeat (shift polynomial) 8 (crc ^^^ byte.toUInt32)

/-- The check value of a byte string. -/
def checksum (polynomial : UInt32) (bytes : List UInt8) : UInt32 :=
  ~~~ bytes.foldl (absorb polynomial) (~~~ 0)

/-! ## The shift -/

section Shift

variable (p : UInt32)

theorem mask_of_even {c : UInt32} (h : c.toNat % 2 = 0) : 0 - (c &&& 1) = 0 := by
  have hlow : c &&& 1 = 0 := by
    apply UInt32.toNat_inj.mp
    simp [Nat.and_one_is_mod, h]
  rw [hlow]
  rfl

theorem mask_of_odd {c : UInt32} (h : c.toNat % 2 = 1) : 0 - (c &&& 1) = ~~~ 0 := by
  have hlow : c &&& 1 = 1 := by
    apply UInt32.toNat_inj.mp
    simp [Nat.and_one_is_mod, h]
  rw [hlow]
  rfl

/-- The shift as arithmetic on the number in the register. -/
theorem toNat_shift (c : UInt32) :
    (shift p c).toNat = c.toNat / 2 ^^^ (if c.toNat % 2 = 1 then p.toNat else 0) := by
  rcases Nat.mod_two_eq_zero_or_one c.toNat with heven | hodd
  · simp [shift, mask_of_even heven, heven, Nat.shiftRight_eq_div_pow]
  · simp [shift, mask_of_odd hodd, hodd, Nat.shiftRight_eq_div_pow]

theorem shift_xor (a b : UInt32) : shift p (a ^^^ b) = shift p a ^^^ shift p b := by
  apply UInt32.toNat_inj.mp
  simp only [toNat_shift, UInt32.toNat_xor, Nat.xor_div_two, Nat.xor_mod_two_eq_one]
  by_cases ha : a.toNat % 2 = 1 <;> by_cases hb : b.toNat % 2 = 1 <;>
    simp [ha, hb, Nat.xor_assoc, Nat.xor_comm, Nat.xor_left_comm]

theorem shift_zero : shift p 0 = 0 := by
  apply UInt32.toNat_inj.mp
  simp [toNat_shift]

/-- The top bit of the polynomial tells whether a one has left the register. -/
theorem shift_eq_zero {p c : UInt32} (hp : 2 ^ 31 ≤ p.toNat) : shift p c = 0 ↔ c = 0 := by
  constructor
  · intro h
    have hzero : (shift p c).toNat = 0 := by rw [h]; rfl
    have hsmall := c.toNat_lt
    rw [toNat_shift] at hzero
    apply UInt32.toNat_inj.mp
    by_cases hodd : c.toNat % 2 = 1
    · rw [if_pos hodd, Nat.xor_eq_zero_iff] at hzero
      omega
    · rw [if_neg hodd, Nat.xor_zero] at hzero
      change c.toNat = 0
      omega
  · rintro rfl
    exact shift_zero p

/-- Several shifts. -/
def shifts (count : Nat) (c : UInt32) : UInt32 := Nat.repeat (shift p) count c

theorem shifts_succ (count : Nat) (c : UInt32) :
    shifts p (count + 1) c = shifts p count (shift p c) := by
  induction count with
  | zero => rfl
  | succ count ih => exact congrArg (shift p) ih

theorem shifts_zero (count : Nat) : shifts p count 0 = 0 := by
  induction count with
  | zero => rfl
  | succ count ih => rw [shifts_succ, shift_zero, ih]

theorem shifts_eq_zero {p : UInt32} (hp : 2 ^ 31 ≤ p.toNat) (count : Nat) (c : UInt32) :
    shifts p count c = 0 ↔ c = 0 := by
  induction count generalizing c with
  | zero => rfl
  | succ count ih => rw [shifts_succ, ih, shift_eq_zero hp]

end Shift

/-! ## Bit strings -/

/-- The number a bit string denotes, least significant bit first. -/
def number : List Bool → Nat
  | [] => 0
  | bit :: bits => bit.toNat + 2 * number bits

/-- The bits of a byte, least significant first. -/
def byteBits (byte : UInt8) : List Bool := (List.range 8).map byte.toNat.testBit

/-- The bits of a byte string, bytes in order. -/
def bits (bytes : List UInt8) : List Bool := bytes.flatMap byteBits

theorem number_lt (word : List Bool) : number word < 2 ^ word.length := by
  induction word with
  | nil => exact Nat.one_pos
  | cons bit word ih =>
    have hbit := bit.toNat_lt
    simp only [number, List.length_cons, pow_succ]
    omega

theorem number_eq_zero {word : List Bool} : number word = 0 ↔ ∀ bit ∈ word, bit = false := by
  induction word with
  | nil => simp [number]
  | cons bit word ih => simp [number, ih]

theorem number_testBit (width value : Nat) :
    number ((List.range width).map value.testBit) = value % 2 ^ width := by
  induction width generalizing value with
  | zero => simp [number, Nat.mod_one]
  | succ width ih =>
    have htail : value.testBit ∘ Nat.succ = (value / 2).testBit := by
      funext i
      exact Nat.testBit_succ value i
    rw [List.range_succ_eq_map, List.map_cons, List.map_map, htail, number, ih, pow_succ',
      Nat.mod_mul, Nat.toNat_testBit, Nat.pow_zero, Nat.div_one]

theorem number_byteBits (byte : UInt8) : number (byteBits byte) = byte.toNat := by
  rw [byteBits, number_testBit, Nat.mod_eq_of_lt byte.toNat_lt]

/-- The register after one more message bit. -/
def absorbBit (p c : UInt32) (bit : Bool) : UInt32 := shift p (c ^^^ bit.toUInt32)

/-- A word that fits the register may as well be added to it at once. -/
theorem foldl_absorbBit (p c : UInt32) {word : List Bool} (h : word.length ≤ 32) :
    word.foldl (absorbBit p) c = shifts p word.length (c ^^^ UInt32.ofNat (number word)) := by
  induction word generalizing c with
  | nil => simp [number, shifts, Nat.repeat]
  | cons bit word ih =>
    have hsmall := number_lt word
    rw [List.length_cons] at h
    have hlt : number word < 2 ^ 31 :=
      hsmall.trans_le (Nat.pow_le_pow_right (by decide) (by omega))
    have hsize : UInt32.size = 2 ^ 32 := rfl
    have hshift : shift p (UInt32.ofNat (2 * number word)) = UInt32.ofNat (number word) := by
      apply UInt32.toNat_inj.mp
      rw [toNat_shift, UInt32.toNat_ofNat_of_lt' (by omega), UInt32.toNat_ofNat_of_lt' (by omega)]
      simp
    have hsplit : UInt32.ofNat (bit.toNat + 2 * number word) =
        bit.toUInt32 ^^^ UInt32.ofNat (2 * number word) := by
      have hbit := bit.toNat_lt
      apply UInt32.toNat_inj.mp
      rw [UInt32.toNat_xor, UInt32.toNat_ofNat_of_lt' (by omega),
        UInt32.toNat_ofNat_of_lt' (by omega)]
      cases bit
      · change 0 + 2 * number word = 0 ^^^ 2 * number word
        rw [Nat.zero_add, Nat.zero_xor]
      · have heven : 2 * number word ^^^ 1 = 2 * number word + 1 :=
          Nat.xor_one_of_even (even_two_mul _)
        change 1 + 2 * number word = 1 ^^^ 2 * number word
        rw [Nat.xor_comm, heven, Nat.add_comm]
    rw [List.foldl_cons, ih _ (by omega), List.length_cons, shifts_succ, number, hsplit,
      ← UInt32.xor_assoc, shift_xor, hshift, absorbBit]

theorem absorb_eq_foldl (p c : UInt32) (byte : UInt8) :
    absorb p c byte = (byteBits byte).foldl (absorbBit p) c := by
  have hlength : (byteBits byte).length = 8 := by simp [byteBits]
  have hbyte : UInt32.ofNat byte.toNat = byte.toUInt32 := by
    apply UInt32.toNat_inj.mp
    simp
  rw [foldl_absorbBit _ _ (by omega), number_byteBits, hlength, hbyte]
  rfl

/-- Absorbing bytes is absorbing their bits. -/
theorem foldl_absorb (p c : UInt32) (bytes : List UInt8) :
    bytes.foldl (absorb p) c = (bits bytes).foldl (absorbBit p) c := by
  induction bytes generalizing c with
  | nil => rfl
  | cons byte bytes ih =>
    rw [List.foldl_cons, ih, absorb_eq_foldl, bits, bits, List.flatMap_cons, List.foldl_append]

/-- The register of two strings added together. -/
theorem foldl_absorbBit_xor (p a b : UInt32) {xs ys : List Bool} (h : xs.length = ys.length) :
    (List.zipWith xor xs ys).foldl (absorbBit p) (a ^^^ b) =
      xs.foldl (absorbBit p) a ^^^ ys.foldl (absorbBit p) b := by
  induction xs generalizing ys a b with
  | nil =>
    obtain rfl := List.length_eq_zero_iff.mp h.symm
    rfl
  | cons x xs ih =>
    obtain _ | ⟨y, ys⟩ := ys
    · cases h
    have hstep : absorbBit p (a ^^^ b) (xor x y) = absorbBit p a x ^^^ absorbBit p b y := by
      have hbits : (xor x y).toUInt32 = x.toUInt32 ^^^ y.toUInt32 := by
        cases x <;> cases y <;> rfl
      rw [absorbBit, absorbBit, absorbBit, hbits, ← shift_xor]
      congr 1
      ac_rfl
    rw [List.zipWith_cons_cons, List.foldl_cons, hstep, ih _ _ (Nat.succ.inj h)]
    rfl

/-! ## Bursts -/

/-- All the ones of a bit string lie within `width` consecutive positions. -/
def Within (width : Nat) (word : List Bool) : Prop :=
  ∃ first, ∀ i, word[i]? = some true → first ≤ i ∧ i < first + width

theorem foldl_absorbBit_false (p c : UInt32) {word : List Bool} (h : ∀ bit ∈ word, bit = false) :
    word.foldl (absorbBit p) c = shifts p word.length c := by
  induction word generalizing c with
  | nil => rfl
  | cons bit word ih =>
    obtain ⟨rfl, hword⟩ := List.forall_mem_cons.mp h
    have hstep : absorbBit p c false = shift p c := by
      rw [absorbBit]
      exact congrArg (shift p) UInt32.xor_zero
    rw [List.foldl_cons, hstep, ih _ hword, List.length_cons, shifts_succ]

/-- A pattern within 32 bits that leaves the empty register empty has no ones. -/
theorem eq_false_of_foldl_absorbBit {p : UInt32} (hp : 2 ^ 31 ≤ p.toNat) {word : List Bool}
    (hwithin : Within 32 word) (hzero : word.foldl (absorbBit p) 0 = 0) :
    ∀ bit ∈ word, bit = false := by
  obtain ⟨first, hfirst⟩ := hwithin
  have hbefore : ∀ bit ∈ word.take first, bit = false := by
    intro bit hbit
    obtain ⟨i, hi⟩ := List.mem_iff_getElem?.mp hbit
    cases bit
    · rfl
    · rw [List.getElem?_take] at hi
      split_ifs at hi with hlt
      have := hfirst i hi
      omega
  have hafter : ∀ bit ∈ (word.drop first).drop 32, bit = false := by
    intro bit hbit
    obtain ⟨i, hi⟩ := List.mem_iff_getElem?.mp hbit
    cases bit
    · rfl
    · rw [List.drop_drop, List.getElem?_drop] at hi
      have := hfirst _ hi
      omega
  set burst := (word.drop first).take 32 with hburst
  have hshort : burst.length ≤ 32 := List.length_take_le ..
  have hsplit : word = word.take first ++ (burst ++ (word.drop first).drop 32) := by
    rw [hburst, List.take_append_drop, List.take_append_drop]
  have hempty : number burst = 0 := by
    have hlt : number burst < UInt32.size :=
      (number_lt burst).trans_le (Nat.pow_le_pow_right (by decide) hshort)
    rw [hsplit, List.foldl_append, List.foldl_append, foldl_absorbBit_false _ _ hbefore,
      shifts_zero, foldl_absorbBit _ _ hshort, foldl_absorbBit_false _ _ hafter,
      shifts_eq_zero hp, shifts_eq_zero hp, UInt32.zero_xor] at hzero
    rw [← UInt32.toNat_ofNat_of_lt' hlt, hzero]
    rfl
  intro bit hbit
  rw [hsplit, List.mem_append, List.mem_append] at hbit
  rcases hbit with hbit | hbit | hbit
  · exact hbefore bit hbit
  · exact number_eq_zero.mp hempty bit hbit
  · exact hafter bit hbit

/-! ## Sealed strings -/

/-- The string ends in the check value of what comes before. -/
def Sealed (p : UInt32) (bytes : List UInt8) : Prop :=
  ∃ body, bytes = body ++ LittleEndian.encode 4 (checksum p body).toNat

theorem bits_append (xs ys : List UInt8) : bits (xs ++ ys) = bits xs ++ bits ys :=
  List.flatMap_append

@[simp] theorem length_bits (bytes : List UInt8) : (bits bytes).length = 8 * bytes.length := by
  induction bytes with
  | nil => rfl
  | cons byte bytes ih =>
    rw [bits, List.flatMap_cons, List.length_append, ← bits, ih, byteBits]
    simp
    omega

theorem number_append (xs ys : List Bool) :
    number (xs ++ ys) = number xs + 2 ^ xs.length * number ys := by
  induction xs with
  | nil => simp [number]
  | cons x xs ih =>
    simp only [List.cons_append, number, ih, List.length_cons, pow_succ]
    ring

theorem number_bits (bytes : List UInt8) : number (bits bytes) = LittleEndian.decode bytes := by
  induction bytes with
  | nil => rfl
  | cons byte bytes ih =>
    have hlength : (byteBits byte).length = 8 := by simp [byteBits]
    rw [bits, List.flatMap_cons, number_append, ← bits, ih, number_byteBits, hlength]
    rfl

theorem bits_injective {xs ys : List UInt8} (hlength : xs.length = ys.length)
    (h : bits xs = bits ys) : xs = ys := by
  rw [← LittleEndian.encode_decode xs, ← LittleEndian.encode_decode ys, ← number_bits,
    ← number_bits, h, hlength]

/-- Every sealed string leaves the register at the same value. -/
theorem foldl_of_sealed {p : UInt32} {bytes : List UInt8} (h : Sealed p bytes) :
    (bits bytes).foldl (absorbBit p) (~~~ 0) = shifts p 32 (~~~ 0) := by
  obtain ⟨body, rfl⟩ := h
  set register := body.foldl (absorb p) (~~~ 0) with hregister
  have hchecksum : checksum p body = ~~~ register := rfl
  have htrailer : UInt32.ofNat (number (bits (LittleEndian.encode 4 (checksum p body).toNat))) =
      ~~~ register := by
    rw [number_bits, LittleEndian.decode_encode_of_lt (checksum p body).toNat_lt,
      UInt32.ofNat_toNat, hchecksum]
  have hlength : (bits (LittleEndian.encode 4 (checksum p body).toNat)).length = 32 := by simp
  rw [bits_append, List.foldl_append, ← foldl_absorb p _ body, ← hregister,
    foldl_absorbBit _ _ hlength.le, hlength, htrailer, UInt32.xor_comm, UInt32.not_xor,
    UInt32.xor_self]

theorem eq_of_zipWith_xor {xs ys : List Bool} (hlength : xs.length = ys.length)
    (h : ∀ bit ∈ List.zipWith xor xs ys, bit = false) : xs = ys := by
  apply List.ext_getElem hlength
  intro i hx hy
  have hmem : xor xs[i] ys[i] ∈ List.zipWith xor xs ys := by
    rw [List.mem_iff_getElem]
    exact ⟨i, by simp [hx, hy], by simp⟩
  simpa using h _ hmem

/-- Two sealed strings of one length that differ within 32 consecutive bits are equal. -/
theorem eq_of_sealed {p : UInt32} (hp : 2 ^ 31 ≤ p.toNat) {xs ys : List UInt8}
    (hxs : Sealed p xs) (hys : Sealed p ys) (hlength : xs.length = ys.length)
    (hwithin : Within 32 (List.zipWith xor (bits xs) (bits ys))) : xs = ys := by
  have hbits : (bits xs).length = (bits ys).length := by simp [hlength]
  have hzero := foldl_absorbBit_xor p (~~~ 0) (~~~ 0) hbits
  rw [foldl_of_sealed hxs, foldl_of_sealed hys, UInt32.xor_self, UInt32.xor_self] at hzero
  have hfalse := eq_false_of_foldl_absorbBit hp hwithin hzero
  exact bits_injective hlength (eq_of_zipWith_xor hbits hfalse)

end Dryer.Library.Crc
