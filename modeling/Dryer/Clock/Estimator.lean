import Dryer.Library.BoundedInt
import Dryer.Library.Result

/-!
# Host/controller clock estimation

A sample contains the four timestamps of one exchange. The estimator keeps a conservative
offset interval, derives signed drift bounds from consecutive samples, combines them with an
explicit bound on the slew, and projects those bounds with checked integer arithmetic only.
-/
namespace Dryer.Clock
open Library

def partsPerBillion : I128 := ⟨1000000000, by decide, by decide⟩
def midpointSlewDenominator : I128 := ⟨2000000000, by decide, by decide⟩

/-- A tick of the host clock. -/
structure HostTick where
  ticks : UInt64
  deriving DecidableEq

/-- A tick of one controller's clock, of the same duration as a `HostTick`. -/
structure ControllerTick where
  ticks : UInt64
  deriving DecidableEq

structure ClockSample where
  hostSend : HostTick
  controllerReceive : ControllerTick
  controllerSend : ControllerTick
  hostReceive : HostTick
  deriving DecidableEq

/-- The interval of controller minus host that one sample establishes at one host tick. -/
structure OffsetObservation where
  referenceHost : HostTick
  offsetTicks : I128
  offsetMinTicks : I128
  offsetMaxTicks : I128
  roundTripTicks : UInt64
  deriving DecidableEq

structure DriftEstimate where
  ppb : I128
  minPpb : I128
  maxPpb : I128
  baselineTicks : UInt64
  deriving DecidableEq

structure ClockEstimate where
  anchor : OffsetObservation
  drift : DriftEstimate
  sampledAt : HostTick
  deriving DecidableEq

structure ControllerWindow where
  earliest : ControllerTick
  estimate : ControllerTick
  latest : ControllerTick
  deriving DecidableEq

inductive ClockSyncError where
  | invalidSlewBound
  | hostRegressed
  | controllerRegressed
  | controllerProcessingExceedsRoundTrip
  | insufficientSeparation
  | arithmeticOverflow
  | estimateUnavailable
  | hostTickBeforeSession
  deriving DecidableEq

/-- The value of a checked operation. -/
def checked {α : Type} (result : Option α) : Except ClockSyncError α :=
  okOr result .arithmeticOverflow

def divFloor (numerator denominator : I128) : Except ClockSyncError I128 := do
  let quotient ← checked (numerator.checkedDiv denominator)
  let remainder ← checked (numerator.checkedRem denominator)
  if remainder.val < 0 then checked (quotient.checkedSub I128.one)
  else pure quotient

def divCeil (numerator denominator : I128) : Except ClockSyncError I128 := do
  let quotient ← checked (numerator.checkedDiv denominator)
  let remainder ← checked (numerator.checkedRem denominator)
  if 0 < remainder.val then checked (quotient.checkedAdd I128.one)
  else pure quotient

def divRoundNearestTiesAway (numerator denominator : I128) : Except ClockSyncError I128 := do
  let quotient ← checked (numerator.checkedDiv denominator)
  let remainder ← checked (numerator.checkedRem denominator)
  let magnitude ← checked do (← remainder.checkedAbs).checkedMul I128.two
  if magnitude.val < denominator.val then pure quotient
  else if numerator.val < 0 then checked (quotient.checkedSub I128.one)
  else checked (quotient.checkedAdd I128.one)

def toU64 (value : I128) : Except ClockSyncError UInt64 := checked value.toUInt64?

/-- The nominal interval of a sample, which assumes that the clocks do not slew during the
exchange. -/
def observe (sample : ClockSample) : Except ClockSyncError OffsetObservation := do
  let hostElapsed ←
    okOr (U64.checkedSub sample.hostReceive.ticks sample.hostSend.ticks) .hostRegressed
  let controllerProcessing ←
    okOr (U64.checkedSub sample.controllerSend.ticks sample.controllerReceive.ticks)
      .controllerRegressed
  let roundTripTicks ← okOr (U64.checkedSub hostElapsed controllerProcessing)
    .controllerProcessingExceedsRoundTrip
  let low ← checked ((I128.ofUInt64 sample.controllerSend.ticks).checkedSub
    (I128.ofUInt64 sample.hostReceive.ticks))
  let high ← checked ((I128.ofUInt64 sample.controllerReceive.ticks).checkedSub
    (I128.ofUInt64 sample.hostSend.ticks))
  let width ← checked (high.checkedSub low)
  let midpoint ← checked (low.checkedAdd (I128.quot width 2))
  let referenceHost ← checked (U64.checkedAdd sample.hostSend.ticks (hostElapsed / 2))
  pure {
    referenceHost := ⟨referenceHost⟩
    offsetTicks := midpoint
    offsetMinTicks := low
    offsetMaxTicks := high
    roundTripTicks }

/-- The interval of a sample, widened by what the clocks may slew in half the exchange. -/
def observeBounded (sample : ClockSample) (maxSlewPpb : I128) :
    Except ClockSyncError OffsetObservation := do
  let hostElapsed ←
    okOr (U64.checkedSub sample.hostReceive.ticks sample.hostSend.ticks) .hostRegressed
  reject (sample.controllerSend.ticks < sample.controllerReceive.ticks) .controllerRegressed
  let product ← checked ((I128.ofUInt64 hostElapsed).checkedMul maxSlewPpb)
  let allowance ← divCeil product midpointSlewDenominator
  let nominalLow ← checked ((I128.ofUInt64 sample.controllerSend.ticks).checkedSub
    (I128.ofUInt64 sample.hostReceive.ticks))
  let nominalHigh ← checked ((I128.ofUInt64 sample.controllerReceive.ticks).checkedSub
    (I128.ofUInt64 sample.hostSend.ticks))
  let low ← checked (nominalLow.checkedSub allowance)
  let high ← checked (nominalHigh.checkedAdd allowance)
  let width ← checked (high.checkedSub low)
  reject (width.val < 0) .controllerProcessingExceedsRoundTrip
  let midpoint ← checked (low.checkedAdd (I128.quot width 2))
  let referenceHost ← checked (U64.checkedAdd sample.hostSend.ticks (hostElapsed / 2))
  pure {
    referenceHost := ⟨referenceHost⟩
    offsetTicks := midpoint
    offsetMinTicks := low
    offsetMaxTicks := high
    roundTripTicks := hostElapsed }

def estimateDrift (previous current : OffsetObservation) :
    Except ClockSyncError DriftEstimate := do
  let baselineTicks ← okOr
    ((U64.checkedSub current.referenceHost.ticks previous.referenceHost.ticks).filter (· ≠ 0))
    .insufficientSeparation
  let denominator := I128.ofUInt64 baselineTicks
  let pointDelta ← checked (current.offsetTicks.checkedSub previous.offsetTicks)
  let minimumDelta ← checked (current.offsetMinTicks.checkedSub previous.offsetMaxTicks)
  let maximumDelta ← checked (current.offsetMaxTicks.checkedSub previous.offsetMinTicks)
  let pointScaled ← checked (pointDelta.checkedMul partsPerBillion)
  let ppb ← divRoundNearestTiesAway pointScaled denominator
  let minimumScaled ← checked (minimumDelta.checkedMul partsPerBillion)
  let minPpb ← divFloor minimumScaled denominator
  let maximumScaled ← checked (maximumDelta.checkedMul partsPerBillion)
  let maxPpb ← divCeil maximumScaled denominator
  pure { ppb, minPpb, maxPpb, baselineTicks }

/-- State of one host/controller clock session. -/
structure ClockSync where
  maxSlewPpb : I128
  sessionStart : Option HostTick
  previous : Option OffsetObservation
  estimate : Option ClockEstimate
  lastRaw : Option ClockSample
  slewNonneg : 0 ≤ maxSlewPpb.val
  deriving DecidableEq

namespace ClockSync

/-- Start a session with a bound on the absolute slew, in parts per billion. -/
def new (maxSlewPpb : I128) : Except ClockSyncError ClockSync :=
  if h : maxSlewPpb.val < 0 then .error .invalidSlewBound
  else .ok {
    maxSlewPpb
    sessionStart := none
    previous := none
    estimate := none
    lastRaw := none
    slewNonneg := Int.not_lt.mp h }

/-- A sample may not lie before the last accepted one. -/
def requireOrdered (last sample : ClockSample) : Except ClockSyncError Unit := do
  reject (sample.hostSend.ticks < last.hostSend.ticks ∨
    sample.hostReceive.ticks < last.hostReceive.ticks) .hostRegressed
  reject (sample.controllerReceive.ticks < last.controllerReceive.ticks ∨
    sample.controllerSend.ticks < last.controllerSend.ticks) .controllerRegressed

/-- Everything `push` computes before it changes the state. -/
def check (sync : ClockSync) (sample : ClockSample) :
    Except ClockSyncError (OffsetObservation × Option ClockEstimate) := do
  let observation ← observeBounded sample sync.maxSlewPpb
  match sync.lastRaw with
  | some last => requireOrdered last sample
  | none => pure ()
  match sync.previous with
  | some previous =>
    reject (observation.referenceHost.ticks ≤ previous.referenceHost.ticks)
      .insufficientSeparation
    let drift ← estimateDrift previous observation
    pure (observation,
      some { anchor := observation, drift, sampledAt := sample.hostReceive })
  | none => pure (observation, none)

/-- Add one sample. The first accepted one establishes an anchor, every later one an
estimate. A sample that is not accepted changes nothing. -/
def push (sync : ClockSync) (sample : ClockSample) :
    Except ClockSyncError (Option ClockEstimate) × ClockSync :=
  match sync.check sample with
  | .error e => (.error e, sync)
  | .ok (observation, nextEstimate) =>
    let next := { sync with
      sessionStart := sync.sessionStart <|> some observation.referenceHost
      previous := some observation
      lastRaw := some sample
      estimate := nextEstimate <|> sync.estimate }
    (.ok next.estimate, next)

/-- The bounds and the midpoint of the controller time at a host tick. -/
def project (sync : ClockSync) (host : HostTick) : Except ClockSyncError (I128 × I128 × I128) := do
  let estimate ← okOr sync.estimate .estimateUnavailable
  let sessionStart ← okOr sync.sessionStart .estimateUnavailable
  reject (host.ticks < sessionStart.ticks) .hostTickBeforeSession
  let elapsed ← checked ((I128.ofUInt64 host.ticks).checkedSub
    (I128.ofUInt64 estimate.anchor.referenceHost.ticks))
  let physicalMinPpb ← checked sync.maxSlewPpb.checkedNeg
  let minimumPpb := estimate.drift.minPpb.min physicalMinPpb
  let maximumPpb := estimate.drift.maxPpb.max sync.maxSlewPpb
  let (lowPpb, highPpb) :=
    if elapsed.val < 0 then (maximumPpb, minimumPpb) else (minimumPpb, maximumPpb)
  let lowProduct ← checked (elapsed.checkedMul lowPpb)
  let lowDrift ← divFloor lowProduct partsPerBillion
  let highProduct ← checked (elapsed.checkedMul highPpb)
  let highDrift ← divCeil highProduct partsPerBillion
  let offsetLow ← checked (estimate.anchor.offsetMinTicks.checkedAdd lowDrift)
  let offsetHigh ← checked (estimate.anchor.offsetMaxTicks.checkedAdd highDrift)
  let host := I128.ofUInt64 host.ticks
  let controllerLow ← checked (host.checkedAdd offsetLow)
  let controllerHigh ← checked (host.checkedAdd offsetHigh)
  let width ← checked (controllerHigh.checkedSub controllerLow)
  let midpoint ← checked (controllerLow.checkedAdd (I128.quot width 2))
  pure (controllerLow, midpoint, controllerHigh)

/-- The controller ticks that a host tick may correspond to. -/
def controllerWindow (sync : ClockSync) (host : HostTick) :
    Except ClockSyncError ControllerWindow := do
  let (low, midpoint, high) ← sync.project host
  let earliest ← toU64 low
  let estimate ← toU64 midpoint
  let latest ← toU64 high
  pure { earliest := ⟨earliest⟩, estimate := ⟨estimate⟩, latest := ⟨latest⟩ }

/-- The half-width of the window, rounded up. -/
def uncertaintyAt (sync : ClockSync) (host : HostTick) : Except ClockSyncError UInt64 := do
  let (low, midpoint, high) ← sync.project host
  let _ ← toU64 low
  let _ ← toU64 midpoint
  let _ ← toU64 high
  let below ← checked (midpoint.checkedSub low)
  let above ← checked (high.checkedSub midpoint)
  toU64 (below.max above)

/-- Whether an exchange is needed. A tick before the latest sample is not elapsed time. -/
def resyncDue (sync : ClockSync) (hostNow : HostTick) (intervalTicks : UInt64) : Bool :=
  match sync.estimate with
  | none => true
  | some estimate =>
    match U64.checkedSub hostNow.ticks estimate.sampledAt.ticks with
    | none => false
    | some elapsed => intervalTicks ≤ elapsed

end ClockSync
end Dryer.Clock
