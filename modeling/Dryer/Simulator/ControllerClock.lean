import Dryer.Clock.Estimator
import Dryer.ControlProtocol.Frames
import Dryer.Library.SlewBounded

/-!
# The simulated controller clock

An integer clock anchored to one tick of the host clock, whose rate differs from the host's
by a signed number of parts per billion. A reading is rounded down to a whole tick.
-/
namespace Dryer.Simulator
open Library ControlProtocol

/-- The simulator repeats the estimator's constant. -/
def partsPerBillion : I128 := Clock.partsPerBillion

inductive ControllerClockError where
  | nonPositiveRate (ratePpb : Int64)
  | hostBeforeEpoch (hostTick hostEpoch : Tick)
  | arithmeticOverflow
  deriving DecidableEq

structure ControllerClock where
  hostEpoch : Tick
  controllerEpoch : Tick
  ratePpb : Int64
  positiveRate : -partsPerBillion.val < ratePpb.toInt
  deriving DecidableEq

namespace ControllerClock

def new (hostEpoch controllerEpoch : Tick) (ratePpb : Int64) :
    Except ControllerClockError ControllerClock :=
  if h : (I128.ofInt64 ratePpb).val ≤ -partsPerBillion.val then .error (.nonPositiveRate ratePpb)
  else .ok { hostEpoch, controllerEpoch, ratePpb, positiveRate := Int.not_le.mp h }

/-- The controller tick at a host tick. -/
def «at» (clock : ControllerClock) (hostTick : Tick) : Except ControllerClockError Tick := do
  let elapsed ← okOr (U64.checkedSub hostTick clock.hostEpoch)
    (.hostBeforeEpoch hostTick clock.hostEpoch)
  let rate ← okOr (partsPerBillion.checkedAdd (I128.ofInt64 clock.ratePpb)) .arithmeticOverflow
  let product ← okOr ((I128.ofUInt64 elapsed).checkedMul rate) .arithmeticOverflow
  let scaled ← okOr (I128.toUInt64? (I128.quot product 1000000000)) .arithmeticOverflow
  okOr (U64.checkedAdd clock.controllerEpoch scaled) .arithmeticOverflow

/-- The affine clock that a reading of this clock belongs to. -/
def model (clock : ControllerClock) : ℤ → ℤ :=
  affineClock partsPerBillion.val clock.ratePpb.toInt clock.hostEpoch.toNat
    clock.controllerEpoch.toNat

theorem at_eq_ok {clock : ControllerClock} {hostTick reading : Tick}
    (h : clock.at hostTick = .ok reading) : (reading.toNat : ℤ) = clock.model hostTick.toNat := by
  simp only [«at», bind_eq_ok, okOr_eq_ok, BoundedInt.checkedAdd_eq_some,
    BoundedInt.checkedMul_eq_some, I128.ofUInt64_val, I128.ofInt64_val, I128.toUInt64?_eq_some,
    U64.checkedSub_eq_some, U64.checkedAdd_eq_some] at h
  obtain ⟨elapsed, helapsed, rate, hrate, product, hproduct, scaled, hscaled, hreading⟩ := h
  have hpositive := clock.positiveRate
  have hnonneg : 0 ≤ product.val := by
    rw [hproduct]
    have : 0 ≤ rate.val := by omega
    positivity
  rw [I128.quot_val, Int.tdiv_eq_ediv_of_nonneg hnonneg, hproduct, hrate] at hscaled
  have hticks : (hostTick.toNat : ℤ) - clock.hostEpoch.toNat = elapsed.toNat := by omega
  rw [model, affineClock, hticks]
  have hunit : partsPerBillion.val = ((1000000000 : ℕ) : ℤ) := rfl
  rw [hunit] at hscaled ⊢
  omega

/-- A clock whose rate is within a bound slews within that bound. -/
theorem model_slewBounded (clock : ControllerClock) {slewPpb : ℤ}
    (hrate : |clock.ratePpb.toInt| ≤ slewPpb) :
    SlewBounded partsPerBillion.val slewPpb clock.model := by
  obtain ⟨hlow, hhigh⟩ := abs_le.mp hrate
  exact SlewBounded.affine (by decide) hlow hhigh _ _

/-- A response that the controller stamped on its way: its request was sent at one host tick, and
it is delivered at another. -/
def Stamped (clock : ControllerClock) (sentAt deliveredAt : Tick) (response : ClockResponse) :
    Prop :=
  ∃ arrival departure, sentAt ≤ arrival ∧ arrival ≤ departure ∧ departure ≤ deliveredAt ∧
    clock.at arrival = .ok response.controllerReceive ∧
    clock.at departure = .ok response.controllerSend

end ControllerClock
end Dryer.Simulator
