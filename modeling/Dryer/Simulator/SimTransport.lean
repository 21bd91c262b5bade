import Dryer.ControlProtocol.Frames
import Dryer.Library.BoundedInt
import Mathlib.Data.List.Sort

/-!
# The simulated command link

Commands arrive after a latency and a jitter, may be lost or duplicated, and are lost while
the link is down. All chance comes from a seeded generator.
-/
namespace Dryer.Simulator
open Library ControlProtocol

/-- The generator of both links: the next number, and the state after it. -/
def lcg (rng : UInt64) : UInt64 × UInt64 :=
  let rng := rng * 6364136223846793005 + 1442695040888963407
  (rng >>> 33, rng)

structure TransportConfig where
  latencyTicks : Tick
  jitterTicks : Tick
  lossPerMille : UInt16
  dupPerMille : UInt16
  seed : UInt64
  /-- A send with the greatest jitter aborts, as one tick more is no `u64`. -/
  jitterTicks_lt : jitterTicks.toNat + 1 < 2 ^ 64 := by decide
  deriving DecidableEq

def TransportConfig.default : TransportConfig where
  latencyTicks := 200
  jitterTicks := 0
  lossPerMille := 0
  dupPerMille := 0
  seed := 0

/-- Commands in flight with the tick at which they arrive. -/
structure SimTransport where
  cfg : TransportConfig
  rng : UInt64
  inFlight : List (Tick × CommandEnvelope)
  linkUp : Bool
  deriving DecidableEq

namespace SimTransport

def new (cfg : TransportConfig) : SimTransport :=
  { cfg, rng := cfg.seed * 2 + 1, inFlight := [], linkUp := true }

def nextRand (transport : SimTransport) : UInt64 × SimTransport :=
  let (value, rng) := lcg transport.rng
  (value, { transport with rng })

/-- Whether a roll stays below a rate. A rate of zero does not use the generator. -/
def roll (transport : SimTransport) (perMille : UInt16) : Bool × SimTransport :=
  if perMille > 0 then
    let (value, transport) := transport.nextRand
    (value % 1000 < perMille.toUInt64, transport)
  else (false, transport)

def jitter (transport : SimTransport) : Tick × SimTransport :=
  if transport.cfg.jitterTicks > 0 then
    let (value, transport) := transport.nextRand
    (value % (transport.cfg.jitterTicks + 1), transport)
  else (0, transport)

def sendInner (transport : SimTransport) (now : Tick) (executeAt : Option Tick)
    (command : Command) : SimTransport :=
  if transport.linkUp then
    let (lost, transport) := transport.roll transport.cfg.lossPerMille
    if lost then transport
    else
      let (jitter, transport) := transport.jitter
      let arrival := U64.saturatingAdd (U64.saturatingAdd now transport.cfg.latencyTicks) jitter
      let message : CommandEnvelope := { executeAt, command }
      let transport := { transport with inFlight := transport.inFlight ++ [(arrival, message)] }
      let (duplicated, transport) := transport.roll transport.cfg.dupPerMille
      if duplicated then
        { transport with
          inFlight := transport.inFlight ++ [(U64.saturatingAdd arrival 1, message)] }
      else transport
  else transport

def send (transport : SimTransport) (now : Tick) (command : Command) : SimTransport :=
  transport.sendInner now none command

def sendScheduled (transport : SimTransport) (now executeAt : Tick) (command : Command) :
    SimTransport :=
  transport.sendInner now (some executeAt) command

/-- Commands in flight are lost with the link. -/
def dropLink (transport : SimTransport) : SimTransport :=
  { transport with linkUp := false, inFlight := [] }

def restoreLink (transport : SimTransport) : SimTransport := { transport with linkUp := true }

/-- The commands that have arrived, by their ticks. -/
def deliverDue (transport : SimTransport) (now : Tick) : List CommandEnvelope × SimTransport :=
  let due := transport.inFlight.filter fun message => message.1 ≤ now
  let later := transport.inFlight.filter fun message => ¬ message.1 ≤ now
  ((due.insertionSort fun a b => a.1 ≤ b.1).map Prod.snd, { transport with inFlight := later })

theorem deliverDue_nil {transport : SimTransport} (h : transport.inFlight = []) (now : Tick) :
    (transport.deliverDue now).1 = [] ∧ (transport.deliverDue now).2.inFlight = [] := by
  simp [deliverDue, h]

end SimTransport
end Dryer.Simulator
