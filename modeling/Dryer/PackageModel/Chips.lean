import Dryer.PackageModel.Payloads
import Mathlib.Data.List.MinMax
import Mathlib.Data.String.Basic

/-!
# Chips

The peripherals of a chip, the functions of its pins, and the target that its firmware is built
for.
-/
namespace Dryer.PackageModel
open Library MachineSchema

structure MemoryLayout where
  flash : String
  ram : String

structure BootConfig where
  defaultBootloaderOffset : ℕ

structure FirmwareTarget where
  targetTriple : String
  toolchain : String
  buildProfile : String
  protocolVersion : String
  abiVersion : String
  features : List String

structure Bus where
  id : String
  maxFrequency : Option String
  worstCaseLatency : Option String
  worstCaseJitter : Option String

structure DmaChannel where
  id : String
  routes : List String

/-- The peripherals, of which timers and converters have a name only. -/
structure Peripherals where
  timers : List String
  spi : List Bus
  i2c : List Bus
  uart : List Bus
  adc : List String
  dma : List DmaChannel

structure ChipPackageFile where
  memory : Option MemoryLayout
  boot : Option BootConfig
  firmware : Option FirmwareTarget
  peripherals : Peripherals
  pinFunctions : Std.TreeMap String (List String)

namespace ChipPackageFile

def buses (chip : ChipPackageFile) : List Bus :=
  chip.peripherals.spi ++ chip.peripherals.i2c ++ chip.peripherals.uart

/-- The channel of the lowest name for a route. -/
def dmaChannelForRoute (chip : ChipPackageFile) (route : String) : Option DmaChannel :=
  (chip.peripherals.dma.filter fun channel => channel.routes.contains route).argmin DmaChannel.id

def declaredIds (chip : ChipPackageFile) : List String :=
  chip.peripherals.timers ++ chip.peripherals.spi.map Bus.id ++ chip.peripherals.i2c.map Bus.id ++
    chip.peripherals.uart.map Bus.id ++ chip.peripherals.adc

end ChipPackageFile

/-! ## Values -/

section Memory

variable (κ : Type) [Numbers κ]

def memoryBytes (raw : String) : Option ℕ :=
  match (Quantity.parseAs raw .memory : Except QuantityError (Quantity κ)) with
  | .error _ => none
  | .ok quantity => if Numbers.zero < quantity.value then Numbers.wholeUnits quantity.value else none

def MemoryLayout.flashBytes (memory : MemoryLayout) : Option ℕ := memoryBytes κ memory.flash

def MemoryLayout.ramBytes (memory : MemoryLayout) : Option ℕ := memoryBytes κ memory.ram

end Memory

def nonemptyUnpadded (value : String) : Bool := !value.isEmpty && trim value = value

/-- A name of lowercase letters and points, `/v`, and a positive number in 32 bits. -/
def versionedInterface (value : String) : Bool :=
  match cutAt ['/', 'v'] value.toList with
  | none => false
  | some (name, version) =>
    !name.isEmpty && name.all (fun c => isAsciiLowercase c || c = '.') &&
      version.head?.any (fun c => '1' ≤ c && c ≤ '9') && version.all isAsciiDigit &&
      decide (ExactNumbers.digits version < 2 ^ 32)

/-! ## The payload -/

section Errors

variable (κ : Type) [Numbers κ] (reference : String) (chip : ChipPackageFile)

def pinErrors : String × List String → List PayloadError
  | (pin, funcs) => funcs.flatMap fun f =>
    let base := firstSegment f '.'
    if base ≠ "gpio" ∧ base ∉ chip.declaredIds then
      [⟨"E0653", s!"{reference}: pin {pin} claims '{f}' but no peripheral '{base}' is declared"⟩]
    else []

def busErrors (b : Bus) : List PayloadError :=
  quantityErrors κ b.maxFrequency .frequency "E0654"
    s!"{reference}: bus '{b.id}' max_frequency" ++
  timeErrors κ b.worstCaseLatency "E0655" s!"{reference}: bus '{b.id}' worst_case_latency" ++
  timeErrors κ b.worstCaseJitter "E0656" s!"{reference}: bus '{b.id}' worst_case_jitter"

def regionErrors : String × String → List PayloadError
  | (region, raw) =>
    if (memoryBytes κ raw).isNone then
      [⟨"E0659", s!"{reference}: memory.{region} must be a positive whole-byte quantity"⟩]
    else []

def bootErrors (memory : MemoryLayout) : List PayloadError :=
  match memory.flashBytes κ, chip.boot with
  | some flash, some boot =>
    if flash ≤ boot.defaultBootloaderOffset then
      [⟨"E0660", s!"{reference}: boot.default_bootloader_offset " ++
        s!"{boot.defaultBootloaderOffset} must leave space within {flash} flash bytes"⟩]
    else []
  | _, _ => []

def memoryErrors (memory : MemoryLayout) : List PayloadError :=
  [("flash", memory.flash), ("ram", memory.ram)].flatMap (regionErrors κ reference) ++
    bootErrors κ reference chip memory

def paddingErrors : String × String → List PayloadError
  | (field, value) =>
    if nonemptyUnpadded value then []
    else [⟨"E0661", s!"{reference}: firmware.{field} must be non-empty and unpadded"⟩]

def interfaceErrors : String × String → List PayloadError
  | (field, value) =>
    if versionedInterface value then []
    else [⟨"E0661", s!"{reference}: firmware.{field} must use a '<name>/v<positive integer>' " ++
      "identifier"⟩]

def featureErrors : List String × String → List PayloadError
  | (earlier, feature) =>
    if !validIdentifier feature || earlier.contains feature then
      [⟨"E0662", s!"{reference}: firmware feature '{feature}' must be a unique identifier"⟩]
    else []

def firmwareErrors (firmware : FirmwareTarget) : List PayloadError :=
  [("target_triple", firmware.targetTriple), ("toolchain", firmware.toolchain),
    ("build_profile", firmware.buildProfile)].flatMap (paddingErrors reference) ++
  [("protocol_version", firmware.protocolVersion), ("abi_version", firmware.abiVersion)].flatMap
    (interfaceErrors reference) ++
  (withEarlier firmware.features).flatMap (featureErrors reference)

def routeErrors (channel route : String) : List PayloadError :=
  let valid := (splitOnce route '.').any fun (bus, signal) =>
    (chip.buses.map Bus.id).contains bus && validIdentifier signal
  if valid then []
  else [⟨"E0658", s!"{reference}: DMA channel '{channel}' route '{route}' must name a declared " ++
    "bus signal"⟩]

def channelErrors (earlier : List String) (channel : DmaChannel) : List PayloadError :=
  let validId := (splitOnce channel.id '.').any fun (controller, sub) =>
    validIdentifier controller && validIdentifier sub
  (if !validId || earlier.contains channel.id then
    [⟨"E0657", s!"{reference}: DMA channel id '{channel.id}' must be a unique " ++
      "'<controller>.<channel>' identifier"⟩]
    else []) ++
  channel.routes.flatMap (routeErrors reference chip channel.id)

def chipErrors : List PayloadError :=
  chip.pinFunctions.toList.flatMap (pinErrors reference chip) ++
  chip.buses.flatMap (busErrors κ reference) ++
  (chip.memory.map (memoryErrors κ reference chip)).getD [] ++
  (chip.firmware.map (firmwareErrors reference)).getD [] ++
  ((chip.peripherals.dma.map DmaChannel.id).inits.zip chip.peripherals.dma).flatMap
    fun (earlier, channel) => channelErrors reference chip earlier channel

end Errors

def chipFormat (κ : Type) [Numbers κ] (fromYaml : String → Except String ChipPackageFile) :
    PayloadFormat ChipPackageFile where
  kind := .chip
  noun := "chip"
  payload := "chip"
  wrongKind := "E0650"
  unreadable := "E0651"
  unparsable := "E0652"
  fromYaml
  check := chipErrors κ

end Dryer.PackageModel
