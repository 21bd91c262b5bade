import Dryer.ControlProtocol.Decode
import Dryer.ControlProtocol.Encode
import Dryer.Library.Lists
import Dryer.Simulator.SimTransport

/-!
# The simulated controller

One tick is a microsecond of virtual time, and plants, motions and scheduled commands advance
in steps of a millisecond. Integers wrap as in release builds. The thermal plant computes in
binary64, of which the model only knows the operations that the plant applies.
-/
namespace Dryer.Simulator
open Library ControlProtocol

def ticksPerMs : Tick := 1000
def stepTicks : Tick := ticksPerMs

/-- The operations of `f64` that the thermal plant uses. -/
class F64 (θ : Type) extends Add θ, Sub θ, Mul θ, Div θ where
  ofI64 : Int64 → θ
  ofU64 : UInt64 → θ
  /-- Towards zero, saturating. -/
  toI64 : θ → Int64
  round : θ → θ

/-- Whole numbers, where these operations are exact as long as the quotients are whole. -/
instance : F64 ℤ where
  ofI64 value := value.toInt
  ofU64 value := value.toNat
  toI64 value := Int64.ofInt (max (-2 ^ 63) (min value (2 ^ 63 - 1)))
  round value := value

/-- The sign of an integer as an integer. -/
def I64.signum (value : Int64) : Int64 := if value = 0 then 0 else if value < 0 then -1 else 1

inductive Event where
  | accepted (tick : Tick) (what : String)
  | rejected (tick : Tick) (what reason : String)
  | executed (tick : Tick) (what : String)
  | tempSample (tick : Tick) (heater : String) (milliC : Int64)
  | endstop (tick : Tick) (axis : String)
  | safeState (tick : Tick) (output state cause : String)
  | faultLatched (tick : Tick) (code : String)
  | reset (tick : Tick)
  deriving DecidableEq

/-- Safety policy of one output. -/
structure HeaterCfg where
  name : String
  gainMilliC : Int64
  tauMs : UInt64
  safeState : String
  heartbeatTimeout : Option Tick
  deriving DecidableEq

structure AxisCfg where
  name : String
  startPositionUm : Int64
  deriving DecidableEq

structure HeaterState (θ : Type) where
  cfg : HeaterCfg
  milliC : θ
  targetMilliC : Int64
  dutyOn : Bool
  forcedSafe : Bool

/-- Homing runs to the endstop, a move until nothing remains. -/
structure Motion where
  what : String
  perMsUm : Int64
  remainingUm : Int64
  homing : Bool
  deriving DecidableEq

structure AxisState where
  cfg : AxisCfg
  positionUm : Int64
  motion : Option Motion
  deriving DecidableEq

structure QueueWindow where
  minLeadTicks : Tick
  maxHorizonTicks : Tick
  ordered : minLeadTicks ≤ maxHorizonTicks
  deriving DecidableEq

structure QueueWindowError where
  minLeadTicks : Tick
  maxHorizonTicks : Tick
  deriving DecidableEq

namespace QueueWindow

def new (minLeadTicks maxHorizonTicks : Tick) : Except QueueWindowError QueueWindow :=
  if h : maxHorizonTicks < minLeadTicks then .error { minLeadTicks, maxHorizonTicks }
  else .ok { minLeadTicks, maxHorizonTicks, ordered := UInt64.not_lt.mp h }

def default : QueueWindow where
  minLeadTicks := 100 * ticksPerMs
  maxHorizonTicks := 1000 * ticksPerMs
  ordered := by decide

end QueueWindow

structure QueueStatus where
  capacity : Nat
  fillLevel : Nat
  earliestAcceptedTimestamp : Tick
  latestAcceptedTimestamp : Tick
  deriving DecidableEq

structure QueuedCommand where
  executeAt : Tick
  command : Command
  deriving DecidableEq

structure SimController (θ : Type) where
  now : Tick
  ambientMilliC : Int64
  heaters : List (HeaterState θ)
  axes : List AxisState
  queue : List QueuedCommand
  queueCapacity : Nat
  queueWindow : QueueWindow
  lastHeartbeat : Tick
  latchedFault : Option String
  tempSampleEvery : Tick
  nextTempSample : Tick
  trace : List Event

def summarize : Command → String
  | .heartbeat => "heartbeat"
  | .setHeaterTarget heater targetMilliC => s!"set {heater} -> {targetMilliC} mC"
  | .home axis _ => s!"home {axis}"
  | .move axis distanceUm _ => s!"move {axis} {distanceUm} um"

/-! ## Heaters and axes -/

section Outputs

variable {θ : Type}

def HeaterState.retarget (h : HeaterState θ) (targetMilliC : Int64) : HeaterState θ :=
  { h with targetMilliC, forcedSafe := false }

def AxisState.begin (a : AxisState) (motion : Motion) : AxisState :=
  { a with motion := some motion }

def homeMotion (axis : String) (rateUmS : UInt64) : Motion where
  what := s!"home {axis}"
  perMsUm := -(rateUmS.toInt64 / 1000)
  remainingUm := 0
  homing := true

def moveMotion (axis : String) (distanceUm : Int64) (rateUmS : UInt64) : Motion where
  what := s!"move {axis} {distanceUm} um"
  perMsUm := I64.signum distanceUm * rateUmS.toInt64 / 1000
  remainingUm := distanceUm
  homing := false

/-- A heater whose heartbeat is overdue enters its safe state. -/
def HeaterState.enforce (h : HeaterState θ) (now lastHeartbeat : Tick) :
    HeaterState θ × List Event :=
  match h.cfg.heartbeatTimeout with
  | none => (h, [])
  | some timeout =>
    if h.forcedSafe = false ∧ h.targetMilliC > 0 ∧
        U64.saturatingSub now lastHeartbeat > timeout then
      ({ h with targetMilliC := 0, dutyOn := false, forcedSafe := true },
        [.safeState now h.cfg.name h.cfg.safeState "heartbeat-loss"])
    else (h, [])

/-- Bang-bang control and one Euler step of the thermal plant. -/
def HeaterState.drive [F64 θ] (h : HeaterState θ) (ambientMilliC : Int64) : HeaterState θ :=
  let dutyOn := !h.forcedSafe && decide (F64.toI64 h.milliC < h.targetMilliC)
  let drive : θ := if dutyOn then F64.ofI64 h.cfg.gainMilliC else F64.ofI64 0
  let ambient : θ := F64.ofI64 ambientMilliC
  let dtOverTau : θ := F64.ofI64 1 / F64.ofU64 h.cfg.tauMs
  { h with dutyOn, milliC := h.milliC + (drive - (h.milliC - ambient)) * dtOverTau }

/-- Constant-rate displacement, clamped at the endstop and at the end of a move. -/
def AxisState.advance (a : AxisState) (now : Tick) : AxisState × List Event :=
  match a.motion with
  | none => (a, [])
  | some m =>
    if m.homing then
      let positionUm := a.positionUm + m.perMsUm
      if positionUm ≤ 0 then
        ({ a with positionUm := 0, motion := none },
          [.endstop now a.cfg.name, .executed now m.what])
      else ({ a with positionUm }, [])
    else
      let step := if m.perMsUm.abs ≥ m.remainingUm.abs then m.remainingUm else m.perMsUm
      let positionUm := a.positionUm + step
      let remainingUm := m.remainingUm - step
      if remainingUm = 0 then
        ({ a with positionUm, motion := none }, [.executed now m.what])
      else ({ a with positionUm, motion := some { m with remainingUm } }, [])

end Outputs

namespace SimController

variable {θ : Type}

def new [F64 θ] (ambientMilliC : Int64) (heaters : List HeaterCfg) (axes : List AxisCfg) :
    SimController θ where
  now := 0
  ambientMilliC
  heaters := heaters.map fun cfg =>
    { cfg, milliC := F64.ofI64 ambientMilliC, targetMilliC := 0, dutyOn := false,
      forcedSafe := false }
  axes := axes.map fun cfg => { cfg, positionUm := cfg.startPositionUm, motion := none }
  queue := []
  queueCapacity := 16
  queueWindow := .default
  lastHeartbeat := 0
  latchedFault := none
  tempSampleEvery := 100 * ticksPerMs
  nextTempSample := 100 * ticksPerMs
  trace := []

def heaterMilliC [F64 θ] (c : SimController θ) (name : String) : Option Int64 :=
  (c.heaters.find? (·.cfg.name == name)).map fun h => F64.toI64 (F64.round h.milliC)

def axisPositionUm (c : SimController θ) (name : String) : Option Int64 :=
  (c.axes.find? (·.cfg.name == name)).map (·.positionUm)

def queueStatus (c : SimController θ) : QueueStatus where
  capacity := c.queueCapacity
  fillLevel := c.queue.length
  earliestAcceptedTimestamp := U64.saturatingAdd c.now c.queueWindow.minLeadTicks
  latestAcceptedTimestamp := U64.saturatingAdd c.now c.queueWindow.maxHorizonTicks

/-- Queued commands keep their timestamps. -/
def setQueueWindow (c : SimController θ) (window : QueueWindow) : SimController θ :=
  { c with queueWindow := window }

def record (c : SimController θ) (events : List Event) : SimController θ :=
  { c with trace := c.trace ++ events }

/-- Outputs enter their safe state, a fault latches, and queue and targets are cleared. -/
def reset (c : SimController θ) : SimController θ :=
  { c with
    heaters := c.heaters.map fun h =>
      { h with targetMilliC := 0, dutyOn := false, forcedSafe := false }
    axes := c.axes.map fun a => { a with motion := none }
    queue := []
    latchedFault := some "controller-reset"
    trace := c.trace ++ [.reset c.now] ++
      c.heaters.map (fun h =>
        .safeState c.now h.cfg.name h.cfg.safeState "controller-reset") ++
      [.faultLatched c.now "controller-reset"] }

/-! ## Accepting commands -/

/-- A requested timestamp lies on the execution quantum and in the queue window. -/
def checkTimestamp (c : SimController θ) (scheduledFor : Tick) : Except String Unit := do
  let earliest := c.queueStatus.earliestAcceptedTimestamp
  let latest := c.queueStatus.latestAcceptedTimestamp
  Library.reject (scheduledFor % stepTicks ≠ 0)
    s!"timestamp {scheduledFor} is not aligned to the {stepTicks}-tick execution quantum"
  Library.reject (scheduledFor < earliest)
    s!"timestamp {scheduledFor} is before earliest accepted {earliest}"
  Library.reject (latest < scheduledFor)
    s!"timestamp {scheduledFor} is after latest accepted {latest}"

/-- The checks of `accept`: a reason to reject, or what to queue. A heartbeat is not queued. -/
def admission (c : SimController θ) (incoming : CommandEnvelope) :
    Except String (Option QueuedCommand) :=
  match c.latchedFault with
  | some code => .error s!"fault latched: {code}"
  | none =>
    if incoming.command = .heartbeat then
      if incoming.executeAt.isSome then .error "heartbeat cannot be scheduled" else .ok none
    else do
      let scheduledFor := incoming.executeAt.getD c.now
      incoming.executeAt.elim (.ok ()) c.checkTimestamp
      Library.reject (c.queue.length ≥ c.queueCapacity) "queue full"
      pure (some { executeAt := scheduledFor, command := incoming.command })

/-- Behind the commands that execute no later. -/
def enqueue (c : SimController θ) (queued : QueuedCommand) : SimController θ :=
  let insertAt := (c.queue.findIdx? fun existing => queued.executeAt < existing.executeAt).getD
    c.queue.length
  { c with queue := c.queue.insertIdx insertAt queued }

def accept (c : SimController θ) (incoming : CommandEnvelope) : SimController θ :=
  let what := match incoming.executeAt with
    | some executeAt => s!"{summarize incoming.command} @ {executeAt}"
    | none => summarize incoming.command
  match c.admission incoming with
  | .error reason => c.record [.rejected c.now what reason]
  | .ok none => { c with lastHeartbeat := c.now }
  | .ok (some queued) => (c.record [.accepted c.now what]).enqueue queued

/-! ## Starting commands -/

/-- A new motion takes the place of one that is in progress. -/
def beginMotion (c : SimController θ) (axis : String) (motion : Motion) : SimController θ :=
  { c with axes := modifyFirst (·.cfg.name == axis) (AxisState.begin · motion) c.axes }

/-- Commands for unknown outputs do nothing. -/
def start (c : SimController θ) : Command → SimController θ
  | .heartbeat => c
  | .setHeaterTarget heater targetMilliC =>
    match c.heaters.find? (·.cfg.name == heater) with
    | none => c
    | some _ =>
      { c with
        heaters := modifyFirst (·.cfg.name == heater) (HeaterState.retarget · targetMilliC)
          c.heaters
        trace := c.trace ++ [.executed c.now s!"heater {heater} target {targetMilliC} mC"] }
  | .home axis rateUmS => c.beginMotion axis (homeMotion axis rateUmS)
  | .move axis distanceUm rateUmS =>
    c.beginMotion axis (moveMotion axis distanceUm rateUmS)

/-- Start commands while the front of the queue is due. -/
def startFront (c : SimController θ) : List QueuedCommand → SimController θ
  | [] => { c with queue := [] }
  | queued :: rest =>
    if queued.executeAt ≤ c.now then (c.start queued.command).startFront rest
    else { c with queue := queued :: rest }

def startDue (c : SimController θ) : SimController θ := c.startFront c.queue

/-! ## One step -/

def enforceSafety (c : SimController θ) : SimController θ :=
  { c with
    heaters := c.heaters.map fun h => (h.enforce c.now c.lastHeartbeat).1
    trace := c.trace ++ c.heaters.flatMap fun h => (h.enforce c.now c.lastHeartbeat).2 }

def driveHeaters [F64 θ] (c : SimController θ) : SimController θ :=
  { c with heaters := c.heaters.map (·.drive c.ambientMilliC) }

def advanceAxes (c : SimController θ) : SimController θ :=
  { c with
    axes := c.axes.map fun a => (a.advance c.now).1
    trace := c.trace ++ c.axes.flatMap fun a => (a.advance c.now).2 }

def sampleTemperatures [F64 θ] (c : SimController θ) : SimController θ :=
  if c.nextTempSample ≤ c.now then
    { c with
      nextTempSample := c.nextTempSample + c.tempSampleEvery
      trace := c.trace ++ c.heaters.map fun h =>
        .tempSample c.now h.cfg.name (F64.toI64 (F64.round h.milliC)) }
  else c

/-- The commands that arrive in a step are accepted at its tick. -/
def receive (c : SimController θ) (arrived : List CommandEnvelope) : SimController θ :=
  arrived.foldl accept { c with now := c.now + stepTicks }

/-- The rest of a step: start what is due, then safety, plants and motions. -/
def execute [F64 θ] (c : SimController θ) : SimController θ :=
  c.startDue.enforceSafety.driveHeaters.advanceAxes.sampleTemperatures

/-- The body of the loop of `run`. -/
def step [F64 θ] (c : SimController θ) (transport : SimTransport) :
    SimController θ × SimTransport :=
  let (arrived, transport) := transport.deliverDue (c.now + stepTicks)
  ((c.receive arrived).execute, transport)

/-- The loop of `run`, for at most a number of steps. -/
def runSteps [F64 θ] («until» : Tick) :
    Nat → SimController θ × SimTransport → SimController θ × SimTransport
  | 0, rig => rig
  | n + 1, rig => if rig.1.now < «until» then runSteps «until» n (rig.1.step rig.2) else rig

/-- Advance to a tick. A step is longer than one tick, so there are fewer steps than ticks. -/
def run [F64 θ] (c : SimController θ) (transport : SimTransport) («until» : Tick) :
    SimController θ × SimTransport :=
  runSteps «until» («until».toNat - c.now.toNat) (c, transport)

end SimController
end Dryer.Simulator
