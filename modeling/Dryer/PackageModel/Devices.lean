import Dryer.PackageModel.Payloads

/-!
# Devices

What a device asks of the connector that it is placed on.
-/
namespace Dryer.PackageModel
open Library MachineSchema

structure BusReq where
  kind : String
  minFrequency : Option String
  dmaSignals : List String
  maxLatency : Option String
  maxJitter : Option String

structure Requires where
  connector : Option String
  /-- The domains of which one is needed, unless there are none. -/
  voltageDomains : List String
  bus : Option BusReq

structure DevicePackageFile where
  requires : Option Requires

def signalErrors (reference : String) : List String × String → List PayloadError
  | (earlier, signal) =>
    if !validIdentifier signal || earlier.contains signal then
      [⟨"E0626", s!"{reference}: requires.bus.dma_signals entries must be unique identifiers; " ++
        s!"got '{signal}'"⟩]
    else []

def busReqErrors (κ : Type) [Numbers κ] (reference : String) (bus : BusReq) : List PayloadError :=
  quantityErrors κ bus.minFrequency .frequency "E0623" s!"{reference}: requires.bus.min_frequency" ++
  timeErrors κ bus.maxLatency "E0624" s!"{reference}: requires.bus.max_latency" ++
  timeErrors κ bus.maxJitter "E0625" s!"{reference}: requires.bus.max_jitter" ++
  (withEarlier bus.dmaSignals).flatMap (signalErrors reference)

def deviceErrors (κ : Type) [Numbers κ] (reference : String) (device : DevicePackageFile) :
    List PayloadError :=
  ((device.requires.bind Requires.bus).map (busReqErrors κ reference)).getD []

def deviceFormat (κ : Type) [Numbers κ] (fromYaml : String → Except String DevicePackageFile) :
    PayloadFormat DevicePackageFile where
  kind := .device
  noun := "device"
  payload := "device"
  wrongKind := "E0620"
  unreadable := "E0621"
  unparsable := "E0622"
  fromYaml
  check := deviceErrors κ

end Dryer.PackageModel
