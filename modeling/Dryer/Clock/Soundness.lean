import Dryer.Clock.Arithmetic
import Dryer.Simulator.ControllerClock

/-!
# Soundness of observations and projections

The intervals of the estimator, compared with a controller clock whose rate is within the
slew bound.
-/
namespace Dryer.Clock
open Library Simulator

/-! ## One exchange -/

/-- The whole ticks that a controller clock gains on the host from one host tick to another. -/
def gain (clock : ControllerClock) (first last : ℤ) : ℤ :=
  ((first - clock.hostEpoch.toNat) * (1000000000 + clock.ratePpb.toInt) % 1000000000 +
    clock.ratePpb.toInt * (last - first)) / 1000000000

/-- The exchange has two equal halves, or the response was sent before the last tick, or the
late half is not long enough to gain a tick beyond what half the span allows. -/
def LateHalfCovered (slewPpb : ℤ) (clock : ControllerClock) (hostSend responded hostReceive : ℤ) :
    Prop :=
  (hostReceive - hostSend) % 2 = 0 ∨ responded < hostReceive ∨
    (gain clock (hostSend + (hostReceive - hostSend) / 2) hostReceive - 1) * 2000000000 <
      (hostReceive - hostSend) * slewPpb

theorem gain_eq (clock : ControllerClock) (first last : ℤ) :
    gain clock first last = offset clock.model last - offset clock.model first := by
  rw [ControllerClock.model, SlewBounded.offset_affineClock_sub (by decide)]
  rfl

/-- Over the late half the clock gains no more than the allowance exactly when that half is
covered. -/
theorem low_le_offset_iff {clock : ControllerClock} {slewPpb : ℤ} (hnonneg : 0 ≤ slewPpb)
    (hslew : slewPpb ≤ 1000000000) (hrate : |clock.ratePpb.toInt| ≤ slewPpb) {t0 b t3 : ℤ}
    (h0 : t0 ≤ b) (h3 : b ≤ t3) :
    clock.model b - t3 - allowance slewPpb (t3 - t0) ≤
        offset clock.model (t0 + (t3 - t0) / 2) ↔
      LateHalfCovered slewPpb clock t0 b t3 := by
  have hmodel := clock.model_slewBounded hrate
  unfold LateHalfCovered
  by_cases hshort : (t3 - t0) % 2 = 0 ∨ b < t3
  · have hlow : clock.model b - t3 - allowance slewPpb (t3 - t0) ≤
        offset clock.model (t0 + (t3 - t0) / 2) :=
      hmodel.low_le_offset (by decide) hnonneg hslew h3 (by omega) (by omega) (by omega)
    exact iff_of_true hlow (hshort.elim Or.inl fun hb => Or.inr (Or.inl hb))
  · obtain ⟨hodd, hlast⟩ := not_or.mp hshort
    have hb : b = t3 := by omega
    subst hb
    have hallow := le_ceilDiv_iff (n := (b - t0) * slewPpb)
      (k := gain clock (t0 + (b - t0) / 2) b) (show 0 < 2 * partsPerBillion.val by decide)
    have hunits : 2 * partsPerBillion.val = 2000000000 := rfl
    rw [hunits] at hallow
    simp only [hodd, lt_irrefl, false_or]
    rw [← hallow, gain_eq]
    unfold allowance SlewBounded.allowance offset
    rw [hunits]
    constructor <;> intro h <;> linarith

/-- An exchange with a clock within the slew bound is always accepted. -/
theorem exists_observation {maxSlewPpb : I128} (hnonneg : 0 ≤ maxSlewPpb.val)
    (hslew : maxSlewPpb.val ≤ 1000000000) {clock : ControllerClock}
    (hrate : |clock.ratePpb.toInt| ≤ maxSlewPpb.val) {t0 a b t3 : UInt64} (h0 : t0 ≤ a)
    (hab : a ≤ b) (h3 : b ≤ t3) {receive send : UInt64} (ha : clock.at a = .ok receive)
    (hb : clock.at b = .ok send) :
    ∃ observation,
      observeBounded ⟨⟨t0⟩, ⟨receive⟩, ⟨send⟩, ⟨t3⟩⟩ maxSlewPpb = .ok observation := by
  have hmodel := clock.model_slewBounded hrate
  rw [UInt64.le_iff_toNat_le] at h0 hab h3
  have hspan : (t3 - t0).toNat = t3.toNat - t0.toNat :=
    UInt64.toNat_sub_of_le _ _ (UInt64.le_iff_toNat_le.mpr (by omega))
  have hspanval : ((t3 - t0).toNat : ℤ) = t3.toNat - t0.toNat := by omega
  have hreceive := ControllerClock.at_eq_ok ha
  have hsend := ControllerClock.at_eq_ok hb
  have hordered : receive ≤ send := by
    have hmono : clock.model a.toNat ≤ clock.model b.toNat :=
      hmodel.monotone (by decide) hslew (by omega)
    rw [UInt64.le_iff_toNat_le]
    omega
  have hwidth : clock.model b.toNat - t3.toNat - allowance maxSlewPpb.val (t3.toNat - t0.toNat) ≤
      clock.model a.toNat - t0.toNat + allowance maxSlewPpb.val (t3.toNat - t0.toNat) :=
    hmodel.width_nonneg (by decide) hnonneg (by omega) (by omega) (by omega)
  rw [← hreceive, ← hsend, ← hspanval] at hwidth
  exact exists_observeBounded (t3 - t0) hnonneg hslew (by simp only; omega) hordered hwidth

/-- The reference of an observation is the midpoint of its exchange, rounded down. -/
theorem referenceHost_eq {t0 receive send t3 : UInt64} (h : t0 ≤ t3) {slewPpb : ℤ}
    {observation : OffsetObservation}
    (hobs : Observes ⟨⟨t0⟩, ⟨receive⟩, ⟨send⟩, ⟨t3⟩⟩ slewPpb observation) :
    observation.referenceHost = ⟨t0 + (t3 - t0) / 2⟩ := by
  have hspan : (t3 - t0).toNat = t3.toNat - t0.toNat := UInt64.toNat_sub_of_le _ _ h
  have hrtt := hobs.span
  have hreference := hobs.reference
  have hlt := t3.toNat_lt
  rw [UInt64.le_iff_toNat_le] at h
  apply congrArg HostTick.mk
  apply UInt64.toNat_inj.mp
  simp only at hrtt hreference
  rw [hreference, UInt64.toNat_add, half_toNat, hspan, Nat.mod_eq_of_lt] <;> omega

/-- An exchange with a clock within the slew bound is always accepted, and its interval
contains the offset at the midpoint exactly when the late half of the exchange is covered. -/
theorem observation_sound_iff {maxSlewPpb : I128} (hnonneg : 0 ≤ maxSlewPpb.val)
    (hslew : maxSlewPpb.val ≤ 1000000000) {clock : ControllerClock}
    (hrate : |clock.ratePpb.toInt| ≤ maxSlewPpb.val) {t0 a b t3 : UInt64} (h0 : t0 ≤ a)
    (hab : a ≤ b) (h3 : b ≤ t3) {receive send : UInt64} (ha : clock.at a = .ok receive)
    (hb : clock.at b = .ok send) :
    ∃ observation, observeBounded ⟨⟨t0⟩, ⟨receive⟩, ⟨send⟩, ⟨t3⟩⟩ maxSlewPpb = .ok observation ∧
      observation.referenceHost = ⟨t0 + (t3 - t0) / 2⟩ ∧
      ∀ reading, clock.at observation.referenceHost.ticks = .ok reading →
        ((observation.offsetMinTicks.val ≤
              (reading.toNat : ℤ) - observation.referenceHost.ticks.toNat ∧
            (reading.toNat : ℤ) - observation.referenceHost.ticks.toNat ≤
              observation.offsetMaxTicks.val) ↔
          LateHalfCovered maxSlewPpb.val clock t0.toNat b.toNat t3.toNat) := by
  have hmodel := clock.model_slewBounded hrate
  obtain ⟨observation, hobserve⟩ := exists_observation hnonneg hslew hrate h0 hab h3 ha hb
  have hobs := observeBounded_observes hobserve
  have hrtt := hobs.span
  have hreference := hobs.reference
  have hlow := hobs.low
  have hhigh := hobs.high
  refine ⟨observation, hobserve,
    referenceHost_eq (UInt64.le_trans h0 (UInt64.le_trans hab h3)) hobs, fun reading hreading => ?_⟩
  rw [UInt64.le_iff_toNat_le] at h0 hab h3
  simp only at hrtt hreference hlow hhigh
  have hrttval : (observation.roundTripTicks.toNat : ℤ) = t3.toNat - t0.toNat := by omega
  have hmid : (observation.referenceHost.ticks.toNat : ℤ) =
      t0.toNat + ((t3.toNat : ℤ) - t0.toNat) / 2 := by omega
  have hhalf : offset clock.model (t0.toNat + ((t3.toNat : ℤ) - t0.toNat) / 2) ≤
      clock.model a.toNat - t0.toNat + allowance maxSlewPpb.val (t3.toNat - t0.toNat) :=
    hmodel.offset_le_high (by decide) hnonneg hslew (by omega) (by omega) (by omega)
  have hiff := low_le_offset_iff hnonneg hslew hrate
    (show (t0.toNat : ℤ) ≤ b.toNat by omega) (show (b.toNat : ℤ) ≤ t3.toNat by omega)
  rw [ControllerClock.at_eq_ok hreading, hlow, hhigh, hrttval, ControllerClock.at_eq_ok ha,
    ControllerClock.at_eq_ok hb, hmid]
  exact (and_iff_left hhalf).trans hiff

/-- A response sent one tick before the host receives it. -/
theorem observation_sound_early_response :
    ∃ observation, observeBounded ⟨⟨2⟩, ⟨3⟩, ⟨6⟩, ⟨5⟩⟩ ⟨600000000, by decide, by decide⟩ =
        .ok observation ∧
      observation.offsetMinTicks.val ≤ 4 - 3 ∧ 4 - 3 ≤ observation.offsetMaxTicks.val := by
  obtain ⟨observation, hobserve, hreference, hiff⟩ :=
    @observation_sound_iff ⟨600000000, by decide, by decide⟩ (by decide) (by decide)
      ⟨0, 0, 600000000, by decide⟩ (by decide) 2 2 4 5 (by decide) (by decide) (by decide) 3 6
      (by decide +kernel) (by decide +kernel)
  have hcontains := (hiff 4 (by rw [hreference]; decide +kernel)).mpr (Or.inr (Or.inl (by decide)))
  rw [hreference] at hcontains
  exact ⟨observation, hobserve, hcontains⟩

/-- An exchange over three ticks whose response is sent at its last tick: the clock gains two
ticks over the late half, and the allowance for half of three ticks is one. -/
theorem observation_misses_offset :
    (ControllerClock.mk 0 0 600000000 (by decide)).at 2 = .ok 3 ∧
      (ControllerClock.mk 0 0 600000000 (by decide)).at 5 = .ok 8 ∧
      (ControllerClock.mk 0 0 600000000 (by decide)).at 3 = .ok 4 ∧
      observeBounded ⟨⟨2⟩, ⟨3⟩, ⟨8⟩, ⟨5⟩⟩ ⟨600000000, by decide, by decide⟩ =
        .ok ⟨⟨3⟩, ⟨2, by decide, by decide⟩, ⟨2, by decide, by decide⟩,
          ⟨2, by decide, by decide⟩, 3⟩ ∧
      ¬ ((2 : ℤ) ≤ 4 - 3) := by
  refine ⟨?_, ?_, ?_, ?_, ?_⟩ <;> decide +kernel

/-! ## Projection -/

namespace ClockSync

/-- What the projection of a host tick says about the estimate. -/
structure Projects (sync : ClockSync) (estimate : ClockEstimate) (elapsed low high : ℤ) :
    Prop where
  forward : 0 ≤ elapsed →
    low = estimate.anchor.offsetMinTicks.val +
      elapsed * min estimate.drift.minPpb.val (-sync.maxSlewPpb.val) / partsPerBillion.val ∧
    high = estimate.anchor.offsetMaxTicks.val +
      ceilDiv (elapsed * max estimate.drift.maxPpb.val sync.maxSlewPpb.val) partsPerBillion.val
  backward : elapsed < 0 →
    low = estimate.anchor.offsetMinTicks.val +
      elapsed * max estimate.drift.maxPpb.val sync.maxSlewPpb.val / partsPerBillion.val ∧
    high = estimate.anchor.offsetMaxTicks.val +
      ceilDiv (elapsed * min estimate.drift.minPpb.val (-sync.maxSlewPpb.val)) partsPerBillion.val

theorem project_projects {sync : ClockSync} {host : HostTick} {low midpoint high : I128}
    (h : sync.project host = .ok (low, midpoint, high)) :
    ∃ estimate, sync.estimate = some estimate ∧
      sync.Projects estimate (host.ticks.toNat - estimate.anchor.referenceHost.ticks.toNat)
        (low.val - host.ticks.toNat) (high.val - host.ticks.toNat) := by
  simp only [project, bind_eq_ok, checked_eq_ok, okOr_eq_ok, reject_eq_ok,
    BoundedInt.checkedAdd_eq_some, BoundedInt.checkedSub_eq_some, BoundedInt.checkedMul_eq_some,
    BoundedInt.checkedNeg_eq_some, I128.ofUInt64_val] at h
  obtain ⟨estimate, hestimate, start, hstart, -, hsession, elapsed, helapsed, physicalMin,
    hphysicalMin, h⟩ := h
  have hunit : 0 < partsPerBillion.val := by decide
  refine ⟨estimate, hestimate, ?_⟩
  by_cases hsign : elapsed.val < 0
  · simp only [hsign, if_true, divFloor_eq_ok hunit, divCeil_eq_ok hunit] at h
    obtain ⟨lowProduct, hlowProduct, lowDrift, hlowDrift, highProduct, hhighProduct, highDrift,
      hhighDrift, offsetLow, hoffsetLow, offsetHigh, hoffsetHigh, controllerLow, hcontrollerLow,
      controllerHigh, hcontrollerHigh, width, hwidth, middle, hmiddle, hresult⟩ := h
    cases hresult
    rw [hlowProduct, BoundedInt.max_val] at hlowDrift
    rw [hhighProduct, BoundedInt.min_val, hphysicalMin] at hhighDrift
    rw [← helapsed]
    refine ⟨fun hforward => absurd hforward (by omega), fun _ => ⟨?_, ?_⟩⟩ <;> omega
  · simp only [hsign, if_false, divFloor_eq_ok hunit, divCeil_eq_ok hunit] at h
    obtain ⟨lowProduct, hlowProduct, lowDrift, hlowDrift, highProduct, hhighProduct, highDrift,
      hhighDrift, offsetLow, hoffsetLow, offsetHigh, hoffsetHigh, controllerLow, hcontrollerLow,
      controllerHigh, hcontrollerHigh, width, hwidth, middle, hmiddle, hresult⟩ := h
    cases hresult
    rw [hlowProduct, BoundedInt.min_val, hphysicalMin] at hlowDrift
    rw [hhighProduct, BoundedInt.max_val] at hhighDrift
    rw [← helapsed]
    refine ⟨fun _ => ⟨?_, ?_⟩, fun hbackward => absurd hbackward hsign⟩ <;> omega

/-- The window contains every clock of bounded slew that agrees with the anchor. -/
theorem window_contains {sync : ClockSync} {estimate : ClockEstimate} {host : HostTick}
    {window : ControllerWindow} {clock : ℤ → ℤ}
    (hslew : SlewBounded partsPerBillion.val sync.maxSlewPpb.val clock)
    (hestimate : sync.estimate = some estimate)
    (hmin : estimate.anchor.offsetMinTicks.val ≤
      offset clock estimate.anchor.referenceHost.ticks.toNat)
    (hmax : offset clock estimate.anchor.referenceHost.ticks.toNat ≤
      estimate.anchor.offsetMaxTicks.val)
    (h : sync.controllerWindow host = .ok window) :
    (window.earliest.ticks.toNat : ℤ) ≤ clock host.ticks.toNat ∧
      clock host.ticks.toNat ≤ window.latest.ticks.toNat := by
  have hunit : 0 < partsPerBillion.val := by decide
  simp only [controllerWindow, bind_eq_ok, toU64_eq_ok] at h
  obtain ⟨⟨low, midpoint, high⟩, hproject, earliest, hearliest, middle, -, latest, hlatest,
    hwindow⟩ := h
  cases hwindow
  obtain ⟨estimate', hestimate', hforward, hbackward⟩ := project_projects hproject
  rw [hestimate] at hestimate'
  cases hestimate'
  have hlow := min_le_right estimate.drift.minPpb.val (-sync.maxSlewPpb.val)
  have hhigh := le_max_right estimate.drift.maxPpb.val sync.maxSlewPpb.val
  rcases le_or_gt 0 ((host.ticks.toNat : ℤ) - estimate.anchor.referenceHost.ticks.toNat)
    with helapsed | helapsed
  · obtain ⟨hlowval, hhighval⟩ := hforward helapsed
    obtain ⟨hlower, hupper⟩ := hslew.forward hunit hlow hhigh (sub_nonneg.mp helapsed)
    unfold offset at *
    constructor <;> linarith
  · obtain ⟨hlowval, hhighval⟩ := hbackward helapsed
    obtain ⟨hlower, hupper⟩ := hslew.backward hunit hlow hhigh (sub_neg.mp helapsed).le
    unfold offset at *
    constructor <;> linarith

/-- Push samples in turn, whether or not they are accepted. -/
def pushAll (sync : ClockSync) (samples : List ClockSample) : ClockSync :=
  samples.foldl (fun sync sample => (sync.push sample).2) sync

theorem push_maxSlewPpb (sync : ClockSync) (sample : ClockSample) :
    (sync.push sample).2.maxSlewPpb = sync.maxSlewPpb := by
  unfold push
  split <;> rfl

theorem pushAll_maxSlewPpb (sync : ClockSync) (samples : List ClockSample) :
    (sync.pushAll samples).maxSlewPpb = sync.maxSlewPpb := by
  induction samples generalizing sync with
  | nil => rfl
  | cons sample samples ih => exact (ih (sync.push sample).2).trans (push_maxSlewPpb sync sample)

theorem maxSlewPpb_of_new {maxSlewPpb : I128} {sync : ClockSync}
    (h : new maxSlewPpb = .ok sync) : sync.maxSlewPpb = maxSlewPpb := by
  unfold new at h
  split at h
  · cases h
  · cases h
    rfl

/-- In every session the window of a host tick contains the reading of every controller clock
within the slew bound that agrees with the anchor, before and after the anchor. -/
theorem controllerWindow_sound {maxSlewPpb : I128} {start : ClockSync}
    (hnew : new maxSlewPpb = .ok start) (samples : List ClockSample) {estimate : ClockEstimate}
    (hestimate : (start.pushAll samples).estimate = some estimate) {clock : ControllerClock}
    (hrate : |clock.ratePpb.toInt| ≤ maxSlewPpb.val) {anchor : UInt64}
    (hanchor : clock.at estimate.anchor.referenceHost.ticks = .ok anchor)
    (hmin : estimate.anchor.offsetMinTicks.val ≤
      (anchor.toNat : ℤ) - estimate.anchor.referenceHost.ticks.toNat)
    (hmax : (anchor.toNat : ℤ) - estimate.anchor.referenceHost.ticks.toNat ≤
      estimate.anchor.offsetMaxTicks.val)
    {host : HostTick} {reading : UInt64} (hhost : clock.at host.ticks = .ok reading)
    {window : ControllerWindow}
    (hwindow : (start.pushAll samples).controllerWindow host = .ok window) :
    window.earliest.ticks ≤ reading ∧ reading ≤ window.latest.ticks := by
  have hslew := clock.model_slewBounded hrate
  rw [← maxSlewPpb_of_new hnew, ← pushAll_maxSlewPpb start samples] at hslew
  rw [ControllerClock.at_eq_ok hanchor] at hmin hmax
  obtain ⟨hlow, hhigh⟩ := window_contains hslew hestimate hmin hmax hwindow
  rw [← ControllerClock.at_eq_ok hhost] at hlow hhigh
  rw [UInt64.le_iff_toNat_le, UInt64.le_iff_toNat_le]
  omega

/-- Two exchanges with a clock that runs a thousandth fast. -/
theorem controllerWindow_sound_fast_clock :
    ∃ start window, new ⟨1000000, by decide, by decide⟩ = .ok start ∧
      (start.pushAll [⟨⟨10⟩, ⟨11⟩, ⟨11⟩, ⟨10⟩⟩, ⟨⟨2000⟩, ⟨2003⟩, ⟨2003⟩, ⟨2000⟩⟩]).controllerWindow
        ⟨5000⟩ = .ok window ∧
      window.earliest.ticks ≤ 5006 ∧ 5006 ≤ window.latest.ticks :=
  ⟨⟨⟨1000000, by decide, by decide⟩, none, none, none, none, by decide⟩,
    ⟨⟨5000⟩, ⟨5003⟩, ⟨5007⟩⟩, rfl, by decide +kernel,
    @controllerWindow_sound ⟨1000000, by decide, by decide⟩
      ⟨⟨1000000, by decide, by decide⟩, none, none, none, none, by decide⟩ rfl
      [⟨⟨10⟩, ⟨11⟩, ⟨11⟩, ⟨10⟩⟩, ⟨⟨2000⟩, ⟨2003⟩, ⟨2003⟩, ⟨2000⟩⟩]
      ⟨⟨⟨2000⟩, ⟨3, by decide, by decide⟩, ⟨3, by decide, by decide⟩, ⟨3, by decide, by decide⟩, 0⟩,
        ⟨⟨1005025, by decide, by decide⟩, ⟨1005025, by decide, by decide⟩,
          ⟨1005026, by decide, by decide⟩, 1990⟩, ⟨2000⟩⟩ (by decide +kernel)
      ⟨0, 1, 1000000, by decide⟩ (by decide) 2003 (by decide +kernel) (by decide) (by decide)
      ⟨5000⟩ 5006 (by decide +kernel) ⟨⟨5000⟩, ⟨5003⟩, ⟨5007⟩⟩ (by decide +kernel)⟩

end ClockSync

end Dryer.Clock
