import Mathlib.Algebra.Order.Ring.Int
import Mathlib.Tactic.Linarith
import Mathlib.Tactic.Ring

/-!
# Clocks of bounded slew

A whole-tick clock read against a reference clock. Its offset between two reference ticks
may change by what a rate difference of at most `slew` parts in `unit` explains, rounded
outwards. An affine clock that is rounded down has this property, and interval estimates of
an offset, and their projection to other ticks, need no other.
-/
namespace Dryer.Library

/-- The quotient rounded up. -/
def ceilDiv (n d : ℤ) : ℤ := -(-n / d)

theorem ceilDiv_le_iff {n d k : ℤ} (hd : 0 < d) : ceilDiv n d ≤ k ↔ n ≤ k * d := by
  have hfloor := Int.le_ediv_iff_mul_le hd (a := -k) (b := -n)
  unfold ceilDiv
  grind

theorem le_ceilDiv_mul (n : ℤ) {d : ℤ} (hd : 0 < d) : n ≤ ceilDiv n d * d :=
  (ceilDiv_le_iff hd).mp (le_refl _)

theorem le_ceilDiv_iff {n d k : ℤ} (hd : 0 < d) : k ≤ ceilDiv n d ↔ (k - 1) * d < n := by
  have hle := ceilDiv_le_iff hd (n := n) (k := k - 1)
  grind

theorem ceilDiv_mono {m n d : ℤ} (hd : 0 < d) (h : m ≤ n) : ceilDiv m d ≤ ceilDiv n d :=
  (ceilDiv_le_iff hd).mpr (h.trans (le_ceilDiv_mul n hd))

/-- Rounding down twice loses at most what rounding the difference loses. -/
theorem ediv_sub_le (x y : ℤ) {d : ℤ} (hd : 0 < d) : (x - y) / d ≤ x / d - y / d := by
  have h := Int.ediv_add_ediv_le_add_ediv hd (x := x - y) (y := y)
  rw [sub_add_cancel] at h
  linarith

theorem sub_le_ceilDiv (x y : ℤ) {d : ℤ} (hd : 0 < d) : x / d - y / d ≤ ceilDiv (x - y) d := by
  have h := ediv_sub_le y x hd
  unfold ceilDiv
  rw [neg_sub]
  linarith

/-- What the clock shows beyond the reference. -/
def offset (clock : ℤ → ℤ) (tick : ℤ) : ℤ := clock tick - tick

structure SlewBounded (unit slew : ℤ) (clock : ℤ → ℤ) : Prop where
  lower : ∀ x y, x ≤ y → -(slew * (y - x)) / unit ≤ offset clock y - offset clock x
  upper : ∀ x y, x ≤ y → offset clock y - offset clock x ≤ ceilDiv (slew * (y - x)) unit

/-- A clock of constant rate, rounded down. -/
def affineClock (unit rate epoch start : ℤ) (tick : ℤ) : ℤ :=
  start + (tick - epoch) * (unit + rate) / unit

namespace SlewBounded

variable {unit slew : ℤ} {clock : ℤ → ℤ}

theorem offset_affineClock {unit : ℤ} (hunit : 0 < unit) (rate epoch start tick : ℤ) :
    offset (affineClock unit rate epoch start) tick =
      start - epoch + (tick - epoch) * rate / unit := by
  have hsplit : (tick - epoch) * (unit + rate) = (tick - epoch) * rate + (tick - epoch) * unit := by
    ring
  rw [offset, affineClock, hsplit, Int.add_mul_ediv_right _ _ hunit.ne']
  ring

/-- The whole ticks an affine clock gains on the reference depend on the fraction of a tick
that it had reached. -/
theorem offset_affineClock_sub {unit : ℤ} (hunit : 0 < unit) (rate epoch start x y : ℤ) :
    offset (affineClock unit rate epoch start) y - offset (affineClock unit rate epoch start) x =
      ((x - epoch) * (unit + rate) % unit + rate * (y - x)) / unit := by
  have hfraction : (x - epoch) * (unit + rate) % unit = (x - epoch) * rate % unit := by
    rw [mul_add, Int.add_emod, Int.mul_emod_left]
    simp
  have hsplit : (y - epoch) * rate =
      ((x - epoch) * rate % unit + rate * (y - x)) + (x - epoch) * rate / unit * unit := by
    have := Int.emod_add_ediv_mul ((x - epoch) * rate) unit
    linarith
  rw [offset_affineClock hunit, offset_affineClock hunit, hfraction, hsplit,
    Int.add_mul_ediv_right _ _ hunit.ne']
  ring

theorem affine (hunit : 0 < unit) {rate : ℤ} (hlow : -slew ≤ rate) (hhigh : rate ≤ slew)
    (epoch start : ℤ) : SlewBounded unit slew (affineClock unit rate epoch start) where
  lower := by
    intro x y hxy
    rw [offset_affineClock hunit, offset_affineClock hunit]
    have hfloor := ediv_sub_le ((y - epoch) * rate) ((x - epoch) * rate) hunit
    have hslew : -(slew * (y - x)) ≤ (y - epoch) * rate - (x - epoch) * rate := by
      nlinarith
    have := Int.ediv_le_ediv hunit hslew
    linarith
  upper := by
    intro x y hxy
    rw [offset_affineClock hunit, offset_affineClock hunit]
    have hceil := sub_le_ceilDiv ((y - epoch) * rate) ((x - epoch) * rate) hunit
    have hslew : (y - epoch) * rate - (x - epoch) * rate ≤ slew * (y - x) := by
      nlinarith
    have := ceilDiv_mono hunit hslew
    linarith

/-! ## Projection -/

/-- Forwards, the offset changes within any bounds that contain the slew. -/
theorem forward (h : SlewBounded unit slew clock) (hunit : 0 < unit) {low high : ℤ}
    (hlow : low ≤ -slew) (hhigh : slew ≤ high) {x y : ℤ} (hxy : x ≤ y) :
    (y - x) * low / unit ≤ offset clock y - offset clock x ∧
      offset clock y - offset clock x ≤ ceilDiv ((y - x) * high) unit := by
  constructor
  · have hbound : (y - x) * low ≤ -(slew * (y - x)) := by nlinarith
    exact (Int.ediv_le_ediv hunit hbound).trans (h.lower x y hxy)
  · have hbound : slew * (y - x) ≤ (y - x) * high := by nlinarith
    exact (h.upper x y hxy).trans (ceilDiv_mono hunit hbound)

/-- Backwards, the two bounds change places. -/
theorem backward (h : SlewBounded unit slew clock) (hunit : 0 < unit) {low high : ℤ}
    (hlow : low ≤ -slew) (hhigh : slew ≤ high) {x y : ℤ} (hyx : y ≤ x) :
    (y - x) * high / unit ≤ offset clock y - offset clock x ∧
      offset clock y - offset clock x ≤ ceilDiv ((y - x) * low) unit := by
  constructor
  · have hbound : (y - x) * high ≤ -(slew * (x - y)) := by nlinarith
    have hupper := h.upper y x hyx
    have hfloor := Int.ediv_le_ediv hunit hbound
    unfold ceilDiv at hupper
    linarith
  · have hbound : slew * (x - y) ≤ (y - x) * low := by nlinarith
    have hlower := h.lower y x hyx
    have hceil := ceilDiv_mono hunit hbound
    unfold ceilDiv at hceil ⊢
    linarith

/-! ## One exchange -/

/-- A clock that never slews by more than its rate does not run backwards. -/
theorem monotone (h : SlewBounded unit slew clock) (hunit : 0 < unit) (hslew : slew ≤ unit)
    {x y : ℤ} (hxy : x ≤ y) : clock x ≤ clock y := by
  have hlower := h.lower x y hxy
  have hbound : -(y - x) ≤ -(slew * (y - x)) / unit := by
    rw [Int.le_ediv_iff_mul_le hunit]
    nlinarith
  unfold offset at hlower
  linarith

section Exchange

variable {t0 a b t3 : ℤ}

/-- What the clocks may slew in half of a span. -/
def allowance (unit slew span : ℤ) : ℤ := ceilDiv (span * slew) (2 * unit)

theorem span_le_allowance (hunit : 0 < unit) (slew span : ℤ) :
    span * slew ≤ allowance unit slew span * (2 * unit) :=
  le_ceilDiv_mul _ (by linarith)

theorem allowance_nonneg (hunit : 0 < unit) (hnonneg : 0 ≤ slew) {span : ℤ} (hspan : 0 ≤ span) :
    0 ≤ allowance unit slew span := by
  have hcover := span_le_allowance hunit slew span
  nlinarith

/-- A clock that is at most one unit off per unit slews no more than the span. -/
theorem allowance_le (hunit : 0 < unit) (hslew : slew ≤ unit) {span : ℤ} (hspan : 0 ≤ span) :
    allowance unit slew span ≤ span := by
  apply (ceilDiv_le_iff (by linarith)).mpr
  nlinarith

theorem advance_le (h : SlewBounded unit slew clock) (hunit : 0 < unit) (hnonneg : 0 ≤ slew)
    {x y span : ℤ} (hxy : x ≤ y) (hhalf : 2 * (y - x) ≤ span) :
    clock y - clock x ≤ y - x + allowance unit slew span := by
  have hupper := h.upper x y hxy
  have hallow : ceilDiv (slew * (y - x)) unit ≤ allowance unit slew span := by
    rw [ceilDiv_le_iff hunit]
    have hcover := span_le_allowance hunit slew span
    nlinarith
  unfold offset at hupper
  linarith

/-- The clock does not advance more over the whole exchange than its two halves allow. -/
theorem width_nonneg (h : SlewBounded unit slew clock) (hunit : 0 < unit) (hnonneg : 0 ≤ slew)
    (hab : a ≤ b) (h0 : t0 ≤ a) (h3 : b ≤ t3) :
    clock b - t3 - allowance unit slew (t3 - t0) ≤
      clock a - t0 + allowance unit slew (t3 - t0) := by
  have hupper := h.upper a b hab
  have hallow : ceilDiv (slew * (b - a)) unit ≤ 2 * allowance unit slew (t3 - t0) := by
    rw [ceilDiv_le_iff hunit]
    have hcover := span_le_allowance hunit slew (t3 - t0)
    nlinarith
  unfold offset at hupper
  linarith

/-- The first half of an exchange, rounded down, is always covered. -/
theorem offset_le_high (h : SlewBounded unit slew clock) (hunit : 0 < unit)
    (hnonneg : 0 ≤ slew) (hslew : slew ≤ unit) (h0 : t0 ≤ a) {m : ℤ}
    (hm : t0 ≤ m) (hhalf : 2 * (m - t0) ≤ t3 - t0) :
    offset clock m ≤ clock a - t0 + allowance unit slew (t3 - t0) := by
  have hallow := allowance_nonneg hunit hnonneg (show 0 ≤ t3 - t0 by linarith)
  rcases le_total a m with ham | ham
  · have hadvance := h.advance_le hunit hnonneg ham (show 2 * (m - a) ≤ t3 - t0 by linarith)
    unfold offset
    linarith
  · have hmono := h.monotone hunit hslew ham
    unfold offset
    linarith

/-- The second half is covered where it is no longer than half the exchange. -/
theorem low_le_offset (h : SlewBounded unit slew clock) (hunit : 0 < unit)
    (hnonneg : 0 ≤ slew) (hslew : slew ≤ unit) {m : ℤ} (h3 : b ≤ t3) (hm : m ≤ t3)
    (hspan : t0 ≤ t3) (hhalf : 2 * (b - m) ≤ t3 - t0) :
    clock b - t3 - allowance unit slew (t3 - t0) ≤ offset clock m := by
  have hallow := allowance_nonneg hunit hnonneg (show 0 ≤ t3 - t0 by linarith)
  rcases le_total m b with hmb | hmb
  · have hadvance := h.advance_le hunit hnonneg hmb hhalf
    unfold offset
    linarith
  · have hmono := h.monotone hunit hslew hmb
    unfold offset
    linarith

end Exchange

end SlewBounded

end Dryer.Library
