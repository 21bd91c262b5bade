import Dryer.Clock.Soundness

/-!
# Accepted samples

The samples of a controller clock within the slew bound are accepted by the estimator, one
after the other, when each exchange begins after the last one has ended.
-/
namespace Dryer.Clock
open Library Simulator

/-! ## Division -/

section Division

variable (numerator : I128) {denominator : I128}

/-- A quotient by a positive number is in range, however it is rounded. -/
theorem exists_divFloor (hd : 0 < denominator.val) :
    ∃ quotient, divFloor numerator denominator = .ok quotient := by
  have hlow := numerator.lower
  have hhigh := numerator.upper
  have hle : -2 ^ 127 ≤ numerator.val / denominator.val := by
    rw [Int.le_ediv_iff_mul_le hd]
    nlinarith
  have hlt : numerator.val / denominator.val < 2 ^ 127 := by
    rw [Int.ediv_lt_iff_lt_mul hd]
    nlinarith
  exact ⟨⟨_, hle, Int.le_sub_one_of_lt hlt⟩, (divFloor_eq_ok hd).mpr rfl⟩

theorem exists_divCeil (hd : 0 < denominator.val) :
    ∃ quotient, divCeil numerator denominator = .ok quotient := by
  have hlow := numerator.lower
  have hhigh := numerator.upper
  have hle : -2 ^ 127 ≤ ceilDiv numerator.val denominator.val := by
    rw [le_ceilDiv_iff hd]
    nlinarith
  have hlt : ceilDiv numerator.val denominator.val ≤ 2 ^ 127 - 1 := by
    rw [ceilDiv_le_iff hd]
    nlinarith
  exact ⟨⟨_, hle, hlt⟩, (divCeil_eq_ok hd).mpr rfl⟩

theorem exists_divRoundNearestTiesAway (hd : 0 < denominator.val)
    (hsmall : denominator.val < 2 ^ 64) (hn : numerator.val.natAbs ≤ 2 ^ 126) :
    ∃ quotient, divRoundNearestTiesAway numerator denominator = .ok quotient := by
  obtain ⟨q, r, hq, hr, hqval, hrval⟩ := exists_checkedDiv numerator hd
  have hquotient : q.val.natAbs ≤ 2 ^ 126 := by
    rw [hqval]
    exact (Int.natAbs_tdiv_le_natAbs _ _).trans hn
  have hlow := Int.lt_tmod_of_pos numerator.val hd
  have hhigh := Int.tmod_lt_of_pos numerator.val hd
  rw [← hrval] at hlow hhigh
  obtain ⟨magnitude, hmagnitude⟩ : ∃ magnitude : I128,
      (do (← r.checkedAbs).checkedMul I128.two) = some magnitude := by
    have habs : r.checkedAbs = some ⟨r.val.natAbs, by omega, by omega⟩ :=
      BoundedInt.ofInt?_eq_some.mpr rfl
    refine ⟨⟨r.val.natAbs * 2, by omega, by omega⟩, ?_⟩
    rw [habs]
    exact BoundedInt.checkedMul_eq_some.mpr rfl
  obtain ⟨quotient, hquotient⟩ : ∃ quotient, (if magnitude.val < denominator.val then pure q
      else if numerator.val < 0 then checked (q.checkedSub I128.one)
      else checked (q.checkedAdd I128.one)) = .ok quotient := by
    split
    · exact ⟨q, rfl⟩
    split
    · exact ⟨⟨q.val - 1, by omega, by omega⟩,
        checked_eq_ok.mpr (BoundedInt.checkedSub_eq_some.mpr rfl)⟩
    · exact ⟨⟨q.val + 1, by omega, by omega⟩,
        checked_eq_ok.mpr (BoundedInt.checkedAdd_eq_some.mpr rfl)⟩
  simp only [divRoundNearestTiesAway, bind_eq_ok, checked_eq_ok]
  exact ⟨quotient, q, hq, r, hr, magnitude, hmagnitude, hquotient⟩

end Division

/-! ## Drift -/

/-- The offsets of an observation are far from the bounds of the arithmetic. -/
structure Moderate (observation : OffsetObservation) : Prop where
  offset : observation.offsetTicks.val.natAbs ≤ 2 ^ 65
  low : observation.offsetMinTicks.val.natAbs ≤ 2 ^ 65
  high : observation.offsetMaxTicks.val.natAbs ≤ 2 ^ 65

theorem Observes.moderate {sample : ClockSample} {slewPpb : ℤ} {observation : OffsetObservation}
    (h : Observes sample slewPpb observation) (hnonneg : 0 ≤ slewPpb)
    (hslew : slewPpb ≤ partsPerBillion.val) : Moderate observation := by
  have hunit : 0 < partsPerBillion.val := by decide
  have hspan : 0 ≤ (observation.roundTripTicks.toNat : ℤ) := Int.natCast_nonneg _
  have hallow : 0 ≤ allowance slewPpb observation.roundTripTicks.toNat ∧
      allowance slewPpb observation.roundTripTicks.toNat ≤ observation.roundTripTicks.toNat :=
    ⟨SlewBounded.allowance_nonneg hunit hnonneg hspan, SlewBounded.allowance_le hunit hslew hspan⟩
  have hlow := h.low
  have hhigh := h.high
  have hordered := h.ordered
  have hmidpoint := h.midpoint
  have hrtt := observation.roundTripTicks.toNat_lt
  have hsend := sample.hostSend.ticks.toNat_lt
  have hreceive := sample.hostReceive.ticks.toNat_lt
  have hcsend := sample.controllerSend.ticks.toNat_lt
  have hcreceive := sample.controllerReceive.ticks.toNat_lt
  generalize allowance slewPpb observation.roundTripTicks.toNat = A at *
  constructor <;> omega

theorem exists_estimateDrift {previous current : OffsetObservation} (hprevious : Moderate previous)
    (hcurrent : Moderate current)
    (hlater : previous.referenceHost.ticks < current.referenceHost.ticks) :
    ∃ drift, estimateDrift previous current = .ok drift := by
  obtain ⟨hoffset, hlow, hhigh⟩ := hprevious
  obtain ⟨hoffset', hlow', hhigh'⟩ := hcurrent
  have hlt := UInt64.lt_iff_toNat_lt.mp hlater
  have hmax := current.referenceHost.ticks.toNat_lt
  obtain ⟨baseline, hbaseline⟩ : ∃ baseline,
      U64.checkedSub current.referenceHost.ticks previous.referenceHost.ticks = some baseline :=
    ⟨_, if_neg (UInt64.not_lt.mpr (UInt64.le_of_lt hlater))⟩
  have hsum := U64.checkedSub_eq_some.mp hbaseline
  have hd : 0 < (I128.ofUInt64 baseline).val := by
    rw [I128.ofUInt64_val]
    omega
  have hnonzero : baseline ≠ 0 := by
    rintro rfl
    exact absurd hd (by decide)
  obtain ⟨point, hpoint⟩ : ∃ delta : I128,
      delta.val = current.offsetTicks.val - previous.offsetTicks.val :=
    ⟨⟨_, by omega, by omega⟩, rfl⟩
  obtain ⟨minimum, hminimum⟩ : ∃ delta : I128,
      delta.val = current.offsetMinTicks.val - previous.offsetMaxTicks.val :=
    ⟨⟨_, by omega, by omega⟩, rfl⟩
  obtain ⟨maximum, hmaximum⟩ : ∃ delta : I128,
      delta.val = current.offsetMaxTicks.val - previous.offsetMinTicks.val :=
    ⟨⟨_, by omega, by omega⟩, rfl⟩
  have hscaled (delta : I128) (hsmall : delta.val.natAbs ≤ 2 ^ 66) : ∃ scaled : I128,
      scaled.val = delta.val * partsPerBillion.val ∧ scaled.val.natAbs ≤ 2 ^ 126 :=
    ⟨⟨delta.val * 1000000000, by omega, by omega⟩, rfl, by simp only; omega⟩
  obtain ⟨pointScaled, hpointScaled, hpointSmall⟩ := hscaled point (by omega)
  obtain ⟨minimumScaled, hminimumScaled, -⟩ := hscaled minimum (by omega)
  obtain ⟨maximumScaled, hmaximumScaled, -⟩ := hscaled maximum (by omega)
  obtain ⟨ppb, hppb⟩ := exists_divRoundNearestTiesAway pointScaled hd
    (by rw [I128.ofUInt64_val]; omega) hpointSmall
  obtain ⟨minPpb, hminPpb⟩ := exists_divFloor minimumScaled hd
  obtain ⟨maxPpb, hmaxPpb⟩ := exists_divCeil maximumScaled hd
  simp only [estimateDrift, bind_eq_ok, checked_eq_ok, okOr_eq_ok, BoundedInt.checkedSub_eq_some,
    BoundedInt.checkedMul_eq_some]
  exact ⟨_, baseline, by simp [hbaseline, hnonzero], point, hpoint, minimum, hminimum, maximum,
    hmaximum, pointScaled, hpointScaled, ppb, hppb, minimumScaled, hminimumScaled, minPpb,
    hminPpb, maximumScaled, hmaximumScaled, maxPpb, hmaxPpb, rfl⟩

/-! ## Samples -/

/-- The exchange of the sample was stamped by the clock. -/
def ClockSample.StampedBy (sample : ClockSample) (clock : ControllerClock) : Prop :=
  clock.Stamped sample.hostSend.ticks sample.hostReceive.ticks
    ⟨sample.controllerReceive.ticks, sample.controllerSend.ticks⟩

/-- The estimator holds the last sample of a clock and its observation. -/
structure Anchored (clock : ControllerClock) (sync : ClockSync) : Prop where
  last : ∀ last, sync.lastRaw = some last → last.StampedBy clock
  previous : ∀ previous, sync.previous = some previous →
    ∃ last, sync.lastRaw = some last ∧ Observes last sync.maxSlewPpb.val previous

theorem anchored_of_new {maxSlewPpb : I128} {sync : ClockSync}
    (h : ClockSync.new maxSlewPpb = .ok sync) (clock : ControllerClock) : Anchored clock sync := by
  unfold ClockSync.new at h
  split at h
  · cases h
  · cases h
    constructor
    · intro last hlast
      cases hlast
    · intro previous hprevious
      cases hprevious

section Accepting

variable {clock : ControllerClock} {slewPpb : ℤ}

theorem at_monotone (hslew : slewPpb ≤ 1000000000) (hrate : |clock.ratePpb.toInt| ≤ slewPpb)
    {x y readingX readingY : UInt64} (hxy : x ≤ y) (hx : clock.at x = .ok readingX)
    (hy : clock.at y = .ok readingY) : readingX ≤ readingY := by
  rw [UInt64.le_iff_toNat_le] at hxy ⊢
  have hmono : clock.model x.toNat ≤ clock.model y.toNat :=
    (clock.model_slewBounded hrate).monotone (by decide) hslew (by omega)
  rw [← ControllerClock.at_eq_ok hx, ← ControllerClock.at_eq_ok hy] at hmono
  omega

/-- A sample that begins after the last one has ended is not before it on either clock. -/
theorem requireOrdered_stamped (hslew : slewPpb ≤ 1000000000)
    (hrate : |clock.ratePpb.toInt| ≤ slewPpb) {last sample : ClockSample}
    (hlast : last.StampedBy clock) (hsample : sample.StampedBy clock)
    (hlater : last.hostReceive.ticks < sample.hostSend.ticks) :
    ClockSync.requireOrdered last sample = .ok () := by
  obtain ⟨a, b, ha, hab, hb, hreceive, hsend⟩ := hlast
  obtain ⟨a', b', ha', hab', hb', hreceive', hsend'⟩ := hsample
  have hbefore : b ≤ a' :=
    UInt64.le_trans hb (UInt64.le_trans (UInt64.le_of_lt hlater) ha')
  have hreceives := at_monotone hslew hrate (UInt64.le_trans hab hbefore) hreceive hreceive'
  have hsends := at_monotone hslew hrate (UInt64.le_trans hbefore hab') hsend hsend'
  rw [UInt64.le_iff_toNat_le] at *
  rw [UInt64.lt_iff_toNat_lt] at hlater
  simp only [ClockSync.requireOrdered, bind_eq_ok, reject_eq_ok, not_or, UInt64.not_lt,
    UInt64.le_iff_toNat_le]
  exact ⟨(), ⟨by omega, by omega⟩, hreceives, hsends⟩

/-- The reference of a later exchange is later. -/
theorem reference_lt {last sample : ClockSample} {previous observation : OffsetObservation}
    (hprevious : Observes last slewPpb previous) (hobserves : Observes sample slewPpb observation)
    (hlater : last.hostReceive.ticks < sample.hostSend.ticks) :
    previous.referenceHost.ticks < observation.referenceHost.ticks := by
  have hspan := hprevious.span
  have hreference := hprevious.reference
  have hreference' := hobserves.reference
  rw [UInt64.lt_iff_toNat_lt] at hlater ⊢
  omega

/-- A stamped sample that begins after the last one has ended passes every check. -/
theorem check_stamped {sync : ClockSync} (hslew : sync.maxSlewPpb.val ≤ 1000000000)
    (hrate : |clock.ratePpb.toInt| ≤ sync.maxSlewPpb.val) (hanchored : Anchored clock sync)
    {sample : ClockSample} (hsample : sample.StampedBy clock)
    (hlater : ∀ last, sync.lastRaw = some last →
      last.hostReceive.ticks < sample.hostSend.ticks) :
    ∃ observation estimate, sync.check sample = .ok (observation, estimate) ∧
      Observes sample sync.maxSlewPpb.val observation := by
  obtain ⟨a, b, ha, hab, hb, hreceive, hsend⟩ := hsample
  obtain ⟨observation, hobserve⟩ : ∃ observation,
      observeBounded sample sync.maxSlewPpb = .ok observation :=
    exists_observation sync.slewNonneg hslew hrate ha hab hb hreceive hsend
  have hobserves := observeBounded_observes hobserve
  have hordered : ∀ last, sync.lastRaw = some last →
      ClockSync.requireOrdered last sample = .ok () := fun last hlast =>
    requireOrdered_stamped hslew hrate (hanchored.last last hlast)
      ⟨a, b, ha, hab, hb, hreceive, hsend⟩ (hlater last hlast)
  cases hprevious : sync.previous with
  | none =>
    refine ⟨observation, none, ?_, hobserves⟩
    cases hlast : sync.lastRaw with
    | none =>
      simp only [ClockSync.check, hlast, hprevious, bind_eq_ok]
      exact ⟨observation, hobserve, rfl⟩
    | some last =>
      simp only [ClockSync.check, hlast, hprevious, bind_eq_ok]
      exact ⟨observation, hobserve, (), hordered last hlast, rfl⟩
  | some previous =>
    obtain ⟨last, hlast, hprevObserves⟩ := hanchored.previous previous hprevious
    have hreference := reference_lt hprevObserves hobserves (hlater last hlast)
    obtain ⟨drift, hdrift⟩ := exists_estimateDrift
      (hprevObserves.moderate sync.slewNonneg hslew) (hobserves.moderate sync.slewNonneg hslew)
      hreference
    refine ⟨observation, some ⟨observation, drift, sample.hostReceive⟩, ?_, hobserves⟩
    simp only [ClockSync.check, hlast, hprevious, bind_eq_ok, reject_eq_ok, UInt64.not_le]
    exact ⟨observation, hobserve, (), hordered last hlast, (), hreference, drift, hdrift, rfl⟩

/-- The estimator accepts a stamped sample that begins after the last one has ended, and then
holds it. -/
theorem push_stamped {sync : ClockSync} (hslew : sync.maxSlewPpb.val ≤ 1000000000)
    (hrate : |clock.ratePpb.toInt| ≤ sync.maxSlewPpb.val) (hanchored : Anchored clock sync)
    {sample : ClockSample} (hsample : sample.StampedBy clock)
    (hlater : ∀ last, sync.lastRaw = some last →
      last.hostReceive.ticks < sample.hostSend.ticks) :
    (∃ estimate, (sync.push sample).1 = .ok estimate) ∧ Anchored clock (sync.push sample).2 ∧
      (sync.push sample).2.lastRaw = some sample := by
  obtain ⟨observation, estimate, hcheck, hobserves⟩ :=
    check_stamped hslew hrate hanchored hsample hlater
  unfold ClockSync.push
  rw [hcheck]
  refine ⟨⟨_, rfl⟩, ⟨?_, ?_⟩, rfl⟩
  · intro last hlast
    obtain rfl := Option.some.inj hlast
    exact hsample
  · intro previous hprevious
    obtain rfl := Option.some.inj hprevious
    exact ⟨sample, rfl, hobserves⟩

end Accepting

end Dryer.Clock
