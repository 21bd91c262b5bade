import Dryer.Clock.Estimator
import Dryer.Library.SlewBounded

/-!
# What the checked arithmetic computes

Each fallible step of the estimator, read as a statement about integers. The later proofs
use these lemmas and do not look at the steps again.
-/
namespace Dryer.Clock
open Library

@[simp] theorem checked_eq_ok {α : Type} {result : Option α} {a : α} :
    checked result = .ok a ↔ result = some a := okOr_eq_ok

@[simp] theorem toU64_eq_ok {value : I128} {ticks : UInt64} :
    toU64 value = .ok ticks ↔ value.val = ticks.toNat := by
  rw [toU64, checked_eq_ok, I128.toUInt64?_eq_some]

/-! ## Division -/

/-- The quotient rounded down, from the one rounded towards zero. -/
theorem ediv_eq_tdiv (n : ℤ) {d : ℤ} (hd : 0 < d) :
    n / d = if n.tmod d < 0 then n.tdiv d - 1 else n.tdiv d := by
  have hsplit := Int.tmod_def n d
  have hlow := Int.lt_tmod_of_pos n hd
  have hhigh := Int.tmod_lt_of_pos n hd
  split
  · rw [Int.ediv_eq_iff_of_pos hd]
    constructor <;> linarith
  · rw [Int.ediv_eq_iff_of_pos hd]
    constructor <;> linarith

/-- The quotient rounded up, from the one rounded towards zero. -/
theorem ceilDiv_eq_tdiv (n : ℤ) {d : ℤ} (hd : 0 < d) :
    ceilDiv n d = if 0 < n.tmod d then n.tdiv d + 1 else n.tdiv d := by
  unfold ceilDiv
  rw [ediv_eq_tdiv (-n) hd, Int.neg_tmod, Int.neg_tdiv]
  grind

section Division

variable {numerator denominator quotient : I128}

theorem exists_checkedDiv (numerator : I128) (hd : 0 < denominator.val) :
    ∃ q r, numerator.checkedDiv denominator = some q ∧ numerator.checkedRem denominator = some r ∧
      q.val = numerator.val.tdiv denominator.val ∧ r.val = numerator.val.tmod denominator.val := by
  have hlow := Int.lt_tmod_of_pos numerator.val hd
  have hhigh := Int.tmod_lt_of_pos numerator.val hd
  have hmax := denominator.upper
  have hq : (I128.quot numerator denominator.val.toNat).val =
      numerator.val.tdiv denominator.val := by
    rw [I128.quot_val, Int.toNat_of_nonneg hd.le]
  have hdiv := (BoundedInt.checkedDiv_eq_some hd).mpr hq
  obtain ⟨r, -, hr⟩ : ∃ r : I128, BoundedInt.ofInt? (numerator.val.tmod denominator.val) = some r ∧
      r.val = numerator.val.tmod denominator.val :=
    BoundedInt.exists_ofInt? (by omega) (by omega)
  exact ⟨_, r, hdiv, BoundedInt.checkedRem_eq_some.mpr ⟨⟨_, hdiv⟩, hr⟩, hq, hr⟩

theorem divFloor_eq_ok (hd : 0 < denominator.val) :
    divFloor numerator denominator = .ok quotient ↔
      quotient.val = numerator.val / denominator.val := by
  obtain ⟨q, r, hq, hr, hqval, hrval⟩ := exists_checkedDiv numerator hd
  rw [ediv_eq_tdiv _ hd, ← hqval, ← hrval]
  have hrun : divFloor numerator denominator =
      if r.val < 0 then checked (q.checkedSub I128.one) else pure q := by
    simp [divFloor, hq, hr, checked, okOr]
    rfl
  rw [hrun]
  split
  · rw [checked_eq_ok, BoundedInt.checkedSub_eq_some, I128.one_val]
  · exact ⟨fun h => by cases h; rfl, fun h => congrArg Except.ok (BoundedInt.ext h.symm)⟩

theorem divCeil_eq_ok (hd : 0 < denominator.val) :
    divCeil numerator denominator = .ok quotient ↔
      quotient.val = ceilDiv numerator.val denominator.val := by
  obtain ⟨q, r, hq, hr, hqval, hrval⟩ := exists_checkedDiv numerator hd
  rw [ceilDiv_eq_tdiv _ hd, ← hqval, ← hrval]
  have hrun : divCeil numerator denominator =
      if 0 < r.val then checked (q.checkedAdd I128.one) else pure q := by
    simp [divCeil, hq, hr, checked, okOr]
    rfl
  rw [hrun]
  split
  · rw [checked_eq_ok, BoundedInt.checkedAdd_eq_some, I128.one_val]
  · exact ⟨fun h => by cases h; rfl, fun h => congrArg Except.ok (BoundedInt.ext h.symm)⟩

end Division

/-! ## Observations -/

/-- The allowance of an exchange, by its span and the bound on the slew. -/
abbrev allowance (slewPpb span : ℤ) : ℤ := SlewBounded.allowance partsPerBillion.val slewPpb span

/-- What a bounded observation says about its sample. -/
structure Observes (sample : ClockSample) (slewPpb : ℤ) (observation : OffsetObservation) :
    Prop where
  controller : sample.controllerReceive.ticks ≤ sample.controllerSend.ticks
  span : sample.hostReceive.ticks.toNat =
    observation.roundTripTicks.toNat + sample.hostSend.ticks.toNat
  reference : observation.referenceHost.ticks.toNat =
    sample.hostSend.ticks.toNat + observation.roundTripTicks.toNat / 2
  low : observation.offsetMinTicks.val =
    sample.controllerSend.ticks.toNat - sample.hostReceive.ticks.toNat -
      allowance slewPpb observation.roundTripTicks.toNat
  high : observation.offsetMaxTicks.val =
    sample.controllerReceive.ticks.toNat - sample.hostSend.ticks.toNat +
      allowance slewPpb observation.roundTripTicks.toNat
  ordered : observation.offsetMinTicks.val ≤ observation.offsetMaxTicks.val
  midpoint : observation.offsetTicks.val = observation.offsetMinTicks.val +
    (observation.offsetMaxTicks.val - observation.offsetMinTicks.val) / 2

theorem half_toNat (value : UInt64) : (value / 2).toNat = value.toNat / 2 := UInt64.toNat_div _ _

theorem ceilDiv_denominator (span : ℕ) (slewPpb : ℤ) :
    ceilDiv (span * slewPpb) midpointSlewDenominator.val = allowance slewPpb span := rfl

theorem observeBounded_observes {sample : ClockSample} {maxSlewPpb : I128}
    {observation : OffsetObservation} (h : observeBounded sample maxSlewPpb = .ok observation) :
    Observes sample maxSlewPpb.val observation := by
  simp only [observeBounded, bind_eq_ok, checked_eq_ok, okOr_eq_ok, reject_eq_ok,
    divCeil_eq_ok (show 0 < midpointSlewDenominator.val by decide),
    BoundedInt.checkedAdd_eq_some, BoundedInt.checkedSub_eq_some, BoundedInt.checkedMul_eq_some,
    I128.ofUInt64_val, U64.checkedSub_eq_some, U64.checkedAdd_eq_some] at h
  obtain ⟨span, hspan, -, hcontroller, product, hproduct, allow, hallow, nominalLow, hnominalLow,
    nominalHigh, hnominalHigh, low, hlow, high, hhigh, width, hwidth, -, hordered, midpoint,
    hmidpoint, reference, hreference, hresult⟩ := h
  cases hresult
  rw [hproduct, ceilDiv_denominator] at hallow
  have hhalf : (I128.quot width 2).val = (high.val - low.val) / 2 := by
    rw [I128.quot_val, ← hwidth, Int.tdiv_eq_ediv_of_nonneg (Int.not_lt.mp hordered)]
    rfl
  exact {
    controller := UInt64.not_lt.mp hcontroller
    span := hspan
    reference := by rw [hreference, half_toNat]
    low := by simp only; omega
    high := by simp only; omega
    ordered := by simp only; omega
    midpoint := by simp only; omega }

/-- A sample whose interval is not empty is accepted, for every slew bound up to the rate of
the clocks. -/
theorem exists_observeBounded {sample : ClockSample} {maxSlewPpb : I128} (span : UInt64)
    (hnonneg : 0 ≤ maxSlewPpb.val) (hslew : maxSlewPpb.val ≤ partsPerBillion.val)
    (hspan : sample.hostReceive.ticks.toNat = span.toNat + sample.hostSend.ticks.toNat)
    (hcontroller : sample.controllerReceive.ticks ≤ sample.controllerSend.ticks)
    (hwidth : (sample.controllerSend.ticks.toNat : ℤ) - sample.hostReceive.ticks.toNat -
        allowance maxSlewPpb.val span.toNat ≤
      sample.controllerReceive.ticks.toNat - sample.hostSend.ticks.toNat +
        allowance maxSlewPpb.val span.toNat) :
    ∃ observation, observeBounded sample maxSlewPpb = .ok observation := by
  have hsend := sample.hostSend.ticks.toNat_lt
  have hreceive := sample.hostReceive.ticks.toNat_lt
  have hcsend := sample.controllerSend.ticks.toNat_lt
  have hcreceive := sample.controllerReceive.ticks.toNat_lt
  have hspanlt := span.toNat_lt
  have hunit : 0 < partsPerBillion.val := by decide
  have hspannonneg : 0 ≤ (span.toNat : ℤ) := Int.natCast_nonneg _
  have hproduct : 0 ≤ (span.toNat : ℤ) * maxSlewPpb.val ∧
      (span.toNat : ℤ) * maxSlewPpb.val ≤ 2 ^ 64 * 1000000000 := by
    refine ⟨mul_nonneg hspannonneg hnonneg, ?_⟩
    exact mul_le_mul (by omega) hslew hnonneg (by norm_num)
  have hallow : 0 ≤ allowance maxSlewPpb.val span.toNat ∧
      allowance maxSlewPpb.val span.toNat ≤ span.toNat :=
    ⟨SlewBounded.allowance_nonneg hunit hnonneg hspannonneg,
      SlewBounded.allowance_le hunit hslew hspannonneg⟩
  obtain ⟨reference, hreference⟩ :
      ∃ r : UInt64, r.toNat = sample.hostSend.ticks.toNat + (span / 2).toNat := by
    refine ⟨UInt64.ofNat (sample.hostSend.ticks.toNat + (span / 2).toNat), ?_⟩
    rw [half_toNat]
    exact UInt64.toNat_ofNat_of_lt' (by simp [UInt64.size]; omega)
  generalize hA : allowance maxSlewPpb.val span.toNat = A at *
  simp only [observeBounded, bind_eq_ok, checked_eq_ok, okOr_eq_ok, reject_eq_ok,
    divCeil_eq_ok (show 0 < midpointSlewDenominator.val by decide),
    BoundedInt.checkedAdd_eq_some, BoundedInt.checkedSub_eq_some, BoundedInt.checkedMul_eq_some,
    I128.ofUInt64_val, U64.checkedSub_eq_some, U64.checkedAdd_eq_some]
  set low := (sample.controllerSend.ticks.toNat : ℤ) - sample.hostReceive.ticks.toNat - A
    with hlow
  set high := (sample.controllerReceive.ticks.toNat : ℤ) - sample.hostSend.ticks.toNat + A
    with hhigh
  have hmiddle : low + (high - low).tdiv 2 = low + (high - low) / 2 := by
    rw [Int.tdiv_eq_ediv_of_nonneg (by omega)]
  refine ⟨_, span, hspan, (), UInt64.not_lt.mpr hcontroller,
    ⟨_, by omega, by omega⟩, rfl, ⟨A, by omega, by omega⟩, hA.symm,
    ⟨sample.controllerSend.ticks.toNat - sample.hostReceive.ticks.toNat, by omega, by omega⟩, rfl,
    ⟨sample.controllerReceive.ticks.toNat - sample.hostSend.ticks.toNat, by omega, by omega⟩, rfl,
    ⟨low, by omega, by omega⟩, rfl, ⟨high, by omega, by omega⟩, rfl,
    ⟨high - low, by omega, by omega⟩, rfl, (), Int.not_lt.mpr (show 0 ≤ high - low by omega),
    ⟨low + (high - low).tdiv 2, by omega, by omega⟩, rfl, reference, hreference, rfl⟩

end Dryer.Clock
