import Mathlib.Algebra.Order.Ring.Int
import Mathlib.Data.Int.Order.Basic

/-!
# Bounded integers with checked arithmetic

A fixed-width signed integer is an integer with a proof that it is in range. A checked
operation computes the exact result and fails when it is out of range, so every success is
a statement about integers.
-/
namespace Dryer.Library

@[ext] structure BoundedInt (lo hi : Int) where
  val : Int
  lower : lo ≤ val
  upper : val ≤ hi
  deriving DecidableEq

namespace BoundedInt

variable {lo hi : Int}

def ofInt? (z : Int) : Option (BoundedInt lo hi) :=
  if h : lo ≤ z ∧ z ≤ hi then some ⟨z, h.1, h.2⟩ else none

def checkedAdd (a b : BoundedInt lo hi) : Option (BoundedInt lo hi) := ofInt? (a.val + b.val)

def checkedSub (a b : BoundedInt lo hi) : Option (BoundedInt lo hi) := ofInt? (a.val - b.val)

def checkedMul (a b : BoundedInt lo hi) : Option (BoundedInt lo hi) := ofInt? (a.val * b.val)

def checkedNeg (a : BoundedInt lo hi) : Option (BoundedInt lo hi) := ofInt? (-a.val)

def checkedAbs (a : BoundedInt lo hi) : Option (BoundedInt lo hi) := ofInt? a.val.natAbs

/-- The quotient, rounded towards zero. -/
def checkedDiv (a b : BoundedInt lo hi) : Option (BoundedInt lo hi) :=
  if b.val = 0 then none else ofInt? (a.val.tdiv b.val)

/-- The remainder of `checkedDiv`, where that does not overflow. -/
def checkedRem (a b : BoundedInt lo hi) : Option (BoundedInt lo hi) := do
  let _ ← checkedDiv a b
  ofInt? (a.val.tmod b.val)

def min (a b : BoundedInt lo hi) : BoundedInt lo hi := if b.val < a.val then b else a

def max (a b : BoundedInt lo hi) : BoundedInt lo hi := if b.val < a.val then a else b

@[simp, grind =] theorem ofInt?_eq_some {z : Int} {b : BoundedInt lo hi} :
    ofInt? z = some b ↔ b.val = z := by
  unfold ofInt?
  split
  · rename_i h
    constructor
    · intro hb
      cases hb
      rfl
    · intro hb
      exact congrArg some (BoundedInt.ext hb.symm)
  · rename_i h
    constructor
    · intro hb
      cases hb
    · intro hb
      exact absurd ⟨hb ▸ b.lower, hb ▸ b.upper⟩ h

theorem exists_ofInt? {z : Int} (hlo : lo ≤ z) (hhi : z ≤ hi) :
    ∃ b : BoundedInt lo hi, ofInt? z = some b ∧ b.val = z :=
  ⟨⟨z, hlo, hhi⟩, ofInt?_eq_some.mpr rfl, rfl⟩

@[simp, grind =] theorem checkedAdd_eq_some {a b c : BoundedInt lo hi} :
    a.checkedAdd b = some c ↔ c.val = a.val + b.val := ofInt?_eq_some

@[simp, grind =] theorem checkedSub_eq_some {a b c : BoundedInt lo hi} :
    a.checkedSub b = some c ↔ c.val = a.val - b.val := ofInt?_eq_some

@[simp, grind =] theorem checkedMul_eq_some {a b c : BoundedInt lo hi} :
    a.checkedMul b = some c ↔ c.val = a.val * b.val := ofInt?_eq_some

@[simp, grind =] theorem checkedNeg_eq_some {a c : BoundedInt lo hi} :
    a.checkedNeg = some c ↔ c.val = -a.val := ofInt?_eq_some

theorem checkedDiv_eq_some {a b c : BoundedInt lo hi} (hb : 0 < b.val) :
    a.checkedDiv b = some c ↔ c.val = a.val.tdiv b.val := by
  rw [checkedDiv, if_neg (by omega), ofInt?_eq_some]

theorem checkedRem_eq_some {a b c : BoundedInt lo hi} :
    a.checkedRem b = some c ↔
      (∃ q, a.checkedDiv b = some q) ∧ c.val = a.val.tmod b.val := by
  simp only [checkedRem, Option.bind_eq_bind, Option.bind_eq_some_iff, ofInt?_eq_some]
  grind

@[simp] theorem min_val (a b : BoundedInt lo hi) : (a.min b).val = Min.min a.val b.val := by
  unfold min
  split <;> omega

@[simp] theorem max_val (a b : BoundedInt lo hi) : (a.max b).val = Max.max a.val b.val := by
  unfold max
  split <;> omega

end BoundedInt

/-- The signed integers of 128 bits. -/
abbrev I128 := BoundedInt (-2 ^ 127) (2 ^ 127 - 1)

namespace I128

def one : I128 := ⟨1, by decide, by decide⟩

def two : I128 := ⟨2, by decide, by decide⟩

def ofUInt64 (value : UInt64) : I128 :=
  ⟨value.toNat, by omega, by have := value.toNat_lt; omega⟩

def ofInt64 (value : Int64) : I128 :=
  ⟨value.toInt, by have := value.le_toInt; omega, by have := value.toInt_lt; omega⟩

/-- The quotient by a constant, rounded towards zero; it never overflows. -/
def quot (a : I128) (d : Nat) : I128 :=
  ⟨a.val.tdiv d, by
    have := a.lower
    rcases Int.le_total 0 a.val with hsign | hsign
    · have := Int.tdiv_nonneg hsign (Int.natCast_nonneg d)
      omega
    · have := Int.tdiv_le_self (d : Int) (Int.neg_nonneg_of_nonpos hsign)
      rw [Int.neg_tdiv] at this
      omega, by
    have := a.upper
    rcases Int.le_total 0 a.val with hsign | hsign
    · have := Int.tdiv_le_self (d : Int) hsign
      omega
    · have := Int.tdiv_nonneg (Int.neg_nonneg_of_nonpos hsign) (Int.natCast_nonneg d)
      rw [Int.neg_tdiv] at this
      omega⟩

/-- The unsigned 64-bit integer of the same value, if there is one. -/
def toUInt64? (a : I128) : Option UInt64 :=
  if 0 ≤ a.val ∧ a.val < 2 ^ 64 then some (UInt64.ofNat a.val.toNat) else none

@[simp] theorem one_val : one.val = 1 := rfl

@[simp, grind =] theorem ofUInt64_val (value : UInt64) : (ofUInt64 value).val = value.toNat := rfl

@[simp, grind =] theorem ofInt64_val (value : Int64) : (ofInt64 value).val = value.toInt := rfl

@[simp] theorem quot_val (a : I128) (d : Nat) : (a.quot d).val = a.val.tdiv d := rfl

@[simp, grind =] theorem toUInt64?_eq_some {a : I128} {value : UInt64} :
    a.toUInt64? = some value ↔ a.val = value.toNat := by
  have hlt := value.toNat_lt
  unfold toUInt64?
  split
  · rename_i h
    rw [Option.some.injEq, ← UInt64.toNat_inj, UInt64.toNat_ofNat_of_lt' (by simp; omega)]
    omega
  · rename_i h
    simp only [reduceCtorEq, false_iff]
    omega

end I128

/-! ## Unsigned 64-bit integers -/

namespace U64

def checkedAdd (a b : UInt64) : Option UInt64 :=
  if a.toNat + b.toNat < 2 ^ 64 then some (a + b) else none

def checkedSub (a b : UInt64) : Option UInt64 := if a < b then none else some (a - b)

def saturatingSub (a b : UInt64) : UInt64 := if a < b then 0 else a - b

def saturatingAdd (a b : UInt64) : UInt64 :=
  if a.toNat + b.toNat < 2 ^ 64 then a + b else 0xffffffffffffffff

@[simp, grind =] theorem checkedAdd_eq_some {a b c : UInt64} :
    checkedAdd a b = some c ↔ c.toNat = a.toNat + b.toNat := by
  have hlt := c.toNat_lt
  unfold checkedAdd
  split
  · rename_i h
    rw [Option.some.injEq, ← UInt64.toNat_inj, UInt64.toNat_add, Nat.mod_eq_of_lt h]
    omega
  · simp only [reduceCtorEq, false_iff]
    omega

@[simp, grind =] theorem checkedSub_eq_some {a b c : UInt64} :
    checkedSub a b = some c ↔ a.toNat = c.toNat + b.toNat := by
  unfold checkedSub
  split
  · rename_i h
    rw [UInt64.lt_iff_toNat_lt] at h
    simp only [reduceCtorEq, false_iff]
    omega
  · rename_i h
    have hle : b ≤ a := UInt64.not_lt.mp h
    have hle' : b.toNat ≤ a.toNat := UInt64.le_iff_toNat_le.mp hle
    rw [Option.some.injEq, ← UInt64.toNat_inj, UInt64.toNat_sub_of_le _ _ hle]
    omega

@[simp, grind =] theorem toNat_saturatingAdd (a b : UInt64) :
    (saturatingAdd a b).toNat = min (a.toNat + b.toNat) (2 ^ 64 - 1) := by
  unfold saturatingAdd
  split
  · rename_i h
    rw [UInt64.toNat_add, Nat.mod_eq_of_lt h]
    omega
  · rename_i h
    have hmax : (0xffffffffffffffff : UInt64).toNat = 2 ^ 64 - 1 := rfl
    rw [hmax]
    omega

@[simp, grind =] theorem toNat_saturatingSub (a b : UInt64) :
    (saturatingSub a b).toNat = a.toNat - b.toNat := by
  unfold saturatingSub
  split
  · rename_i h
    rw [UInt64.lt_iff_toNat_lt] at h
    rw [UInt64.toNat_zero]
    omega
  · rename_i h
    rw [UInt64.toNat_sub_of_le _ _ (UInt64.not_lt.mp h)]

@[simp, grind =] theorem toNat_max (a b : UInt64) : (max a b).toNat = max a.toNat b.toNat := by
  have hmax : max a b = if a ≤ b then b else a := rfl
  rw [hmax]
  split <;> rename_i hle <;> rw [UInt64.le_iff_toNat_le] at hle <;> omega

@[simp, grind =] theorem toNat_min (a b : UInt64) : (min a b).toNat = min a.toNat b.toNat := by
  have hmin : min a b = if a ≤ b then a else b := rfl
  rw [hmin]
  split <;> rename_i hle <;> rw [UInt64.le_iff_toNat_le] at hle <;> omega

end U64

@[simp] theorem U16.toNat_min (a b : UInt16) : (min a b).toNat = min a.toNat b.toNat := by
  have hmin : min a b = if a ≤ b then a else b := rfl
  rw [hmin]
  split <;> rename_i hle <;> rw [UInt16.le_iff_toNat_le] at hle <;> omega

def I64.saturatingAdd (a b : Int64) : Int64 :=
  Int64.ofInt (max (-2 ^ 63) (min (a.toInt + b.toInt) (2 ^ 63 - 1)))

namespace I64

/-- The integer is that of a signed 64-bit integer. -/
def InRange (z : Int) : Prop := -2 ^ 63 ≤ z ∧ z < 2 ^ 63

instance (z : Int) : Decidable (InRange z) := inferInstanceAs (Decidable (_ ∧ _))

/-- The signed 64-bit integer of the same value, if there is one. -/
def ofInt? (z : Int) : Option Int64 := if InRange z then some (Int64.ofInt z) else none

def checkedAdd (a b : Int64) : Option Int64 := ofInt? (a.toInt + b.toInt)

def checkedSub (a b : Int64) : Option Int64 := ofInt? (a.toInt - b.toInt)

def checkedMul (a b : Int64) : Option Int64 := ofInt? (a.toInt * b.toInt)

def checkedNeg (a : Int64) : Option Int64 := ofInt? (-a.toInt)

def checkedAbs (a : Int64) : Option Int64 := ofInt? |a.toInt|

@[simp, grind =] theorem ofInt?_eq_some {z : Int} {c : Int64} :
    ofInt? z = some c ↔ c.toInt = z := by
  have hlo := c.le_toInt
  have hhi := c.toInt_lt
  by_cases h : InRange z
  · rw [ofInt?, if_pos h, Option.some.injEq, ← Int64.toInt_inj, Int64.toInt_ofInt_of_le h.1 h.2,
      eq_comm]
  · rw [ofInt?, if_neg h]
    simp only [reduceCtorEq, false_iff]
    rintro rfl
    exact h ⟨hlo, hhi⟩

@[simp] theorem isSome_ofInt? {z : Int} : (ofInt? z).isSome ↔ InRange z := by
  by_cases h : InRange z
  · simp [ofInt?, h]
  · simp [ofInt?, h]

theorem exists_of_inRange {z : Int} (h : InRange z) : ∃ c, ofInt? z = some c ∧ c.toInt = z := by
  obtain ⟨c, hc⟩ := Option.isSome_iff_exists.mp (isSome_ofInt?.mpr h)
  exact ⟨c, hc, ofInt?_eq_some.mp hc⟩

theorem toInt_of_checkedAbs {a c : Int64} (h : checkedAbs a = some c) :
    c.toInt = a.toInt.natAbs := by
  rw [ofInt?_eq_some.mp h, Int.abs_eq_natAbs]

/-- Only the least integer has no magnitude. -/
theorem exists_checkedAbs {a : Int64} (h : a.toInt ≠ -2 ^ 63) : ∃ c, checkedAbs a = some c := by
  have hlo := a.le_toInt
  have hhi := a.toInt_lt
  have hrange : InRange |a.toInt| := by
    rw [Int.abs_eq_natAbs]
    constructor <;> omega
  obtain ⟨c, hc, -⟩ := exists_of_inRange hrange
  exact ⟨c, hc⟩

theorem eq_of_checkedAdd {a b c : Int64} (h : checkedAdd a b = some c) : a + b = c := by
  have hlo := c.le_toInt
  have hhi := c.toInt_lt
  rw [checkedAdd, ofInt?_eq_some] at h
  rw [← Int64.toInt_inj, Int64.toInt_add, ← h, Int.bmod_eq_of_le (by omega) (by omega)]

theorem eq_of_checkedSub {a b c : Int64} (h : checkedSub a b = some c) : a - b = c := by
  have hlo := c.le_toInt
  have hhi := c.toInt_lt
  rw [checkedSub, ofInt?_eq_some] at h
  rw [← Int64.toInt_inj, Int64.toInt_sub, ← h, Int.bmod_eq_of_le (by omega) (by omega)]

theorem eq_of_checkedMul {a b c : Int64} (h : checkedMul a b = some c) : a * b = c := by
  have hlo := c.le_toInt
  have hhi := c.toInt_lt
  rw [checkedMul, ofInt?_eq_some] at h
  rw [← Int64.toInt_inj, Int64.toInt_mul, ← h, Int.bmod_eq_of_le (by omega) (by omega)]

theorem eq_of_checkedNeg {a c : Int64} (h : checkedNeg a = some c) : -a = c := by
  have hlo := c.le_toInt
  have hhi := c.toInt_lt
  rw [checkedNeg, ofInt?_eq_some] at h
  rw [← Int64.toInt_inj, Int64.toInt_neg, ← h, Int.bmod_eq_of_le (by omega) (by omega)]

/-- A sum in range is not cut off. -/
theorem saturatingAdd_eq {a b c : Int64} (h : c.toInt = a.toInt + b.toInt) :
    saturatingAdd a b = c := by
  have hlo := c.le_toInt
  have hhi := c.toInt_lt
  rw [saturatingAdd, ← h, min_eq_left (by omega), max_eq_right (by omega), Int64.ofInt_toInt]

end I64

theorem U64.toInt_toInt64 {value : UInt64} (h : value.toNat < 2 ^ 63) :
    value.toInt64.toInt = value.toNat := by
  have hbits : value.toInt64.toInt = value.toBitVec.toInt := rfl
  have hnat : value.toBitVec.toNat = value.toNat := rfl
  rw [hbits, BitVec.toInt_eq_toNat_of_lt (by omega), hnat]

/-- The absolute value of the least value is that value. -/
theorem I64.toInt_abs (x : Int64) :
    x.abs.toInt = if x.toInt = -2 ^ 63 then -2 ^ 63 else |x.toInt| := by
  have habs : x.abs.toInt = x.toBitVec.abs.toInt := rfl
  have hx : x.toInt = x.toBitVec.toInt := rfl
  rw [habs, hx, BitVec.toInt_abs_eq_natAbs]
  by_cases hmin : x.toBitVec = BitVec.intMin 64
  · rw [if_pos hmin, hmin]; decide
  · have hne : x.toBitVec.toInt ≠ -2 ^ 63 := by
      intro h
      exact hmin (BitVec.eq_of_toInt_eq (h.trans (by decide)))
    rw [if_neg hmin, if_neg hne, Int.natCast_natAbs]

theorem I64.eq_of_checkedAbs {a c : Int64} (h : checkedAbs a = some c) : a.abs = c := by
  have hhi := c.toInt_lt
  rw [checkedAbs, ofInt?_eq_some] at h
  rw [← Int64.toInt_inj, I64.toInt_abs, h, if_neg]
  intro hmin
  have hlarge : |a.toInt| = 2 ^ 63 := by rw [hmin]; rfl
  omega

/-- The signed integer of the same bits. -/
theorem U64.toInt_toInt64_eq (value : UInt64) : value.toInt64.toInt =
    if value.toNat < 2 ^ 63 then (value.toNat : ℤ) else value.toNat - 2 ^ 64 := by
  have hbits : value.toInt64.toInt = value.toBitVec.toInt := rfl
  have hnat : value.toBitVec.toNat = value.toNat := rfl
  rw [hbits, BitVec.toInt_eq_toNat_cond, hnat]
  split <;> split <;> omega

end Dryer.Library
