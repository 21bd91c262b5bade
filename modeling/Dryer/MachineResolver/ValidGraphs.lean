import Dryer.MachineResolver.Phases
import Dryer.MachineResolver.Requests

/-!
# Valid graphs

A resolved graph keeps to the boards: every assignment is at a connector of its kind that meets the
device and the current of its component, and no two share a connector or a timer channel.
-/
namespace Dryer.MachineResolver
open Library MachineSchema MachineParser PackageModel

variable {ν ρ : Type} [LinearOrder ν] [DecidableEq ρ] [Semver ν ρ]

/-! ## What a valid graph is -/

/-- The connector meets the voltage domains and the bus that a device asks for. -/
structure MeetsRequirement (κ : Type) [Numbers κ] (chip : Option ChipPackageFile)
    (connector : Connector) (requirement : DeviceRequirement) : Prop where
  domain : requirement.domains ≠ [] →
    ∃ domain ∈ requirement.domains, connector.voltageDomain = some domain
  bus : ∀ bus, requirement.bus = some bus →
    ∃ busId, BusMeets κ chip (derivePinCapabilities chip connector) bus busId

/-- The current that a component declares is at most the one that the connector declares. -/
def DrawsAtMost (κ : Type) [Numbers κ] (component : Component) (connector : Connector) : Prop :=
  ∀ drawRaw limitRaw, component.text "current" = some drawRaw →
    connector.maxCurrent = some limitRaw → ∃ draw limit : Quantity κ,
      Quantity.parseAs drawRaw .current = .ok draw ∧
      Quantity.parseAs limitRaw .current = .ok limit ∧ draw.value ≤ limit.value

/-- A stepper socket whose step pin has functions. -/
def IsTimed (a : Assignment) : Prop :=
  a.connectorKind = stepperSocket ∧ (a.pinCapabilities["step"]?).isSome

section Statement

variable (κ : Type) [Numbers κ] (files : PackageFiles ν) (graph : MachineGraph)
  (registry : LocalRegistry ν)

/-- An assignment of a component, at a connector of the board of a controller. -/
structure Placed (cname : String) (a : Assignment) (component : Component) (ctrl port : String)
    (board : BoardPackageFile) (connector : Connector) : Prop where
  component_eq : (expandedOf κ files graph registry).doc.components[cname]? = some component
  requestedBy_eq : a.requestedBy = cname
  names : Names (allocationInputsOf κ files graph registry) a ctrl port board connector
  boardOf : ∃ controller package, graph.controllers[ctrl]? = some controller ∧
    (selectionOf files graph registry).select controller.board = some package ∧
    package.boardPayload κ files = .ok board

structure ValidGraph (resolved : ResolvedGraph) : Prop where
  exclusive : (resolved.assignments.values.flatten.map Assignment.resource).Nodup
  placed : ∀ cname a, a ∈ resolved.assigned cname → ∃ component ctrl port board connector,
    Placed κ files graph registry cname a component ctrl port board connector ∧
    (∀ requirement, (requirementsOf κ files graph registry)[component.kind]? = some requirement →
      MeetsRequirement κ (targetsOf κ files graph registry).chips[ctrl]? connector requirement) ∧
    DrawsAtMost κ component connector
  timers : hasStepRate κ (allocationInputsOf κ files graph registry) = true →
    resolved.assignments.values.flatten.Pairwise fun a b => IsTimed a → IsTimed b →
      ∃ first second, timerPair a = some first ∧ timerPair b = some second ∧ first ≠ second

end Statement

/-! ## What resolution returns is one -/

variable {κ : Type} [Numbers κ] {files : PackageFiles ν} {graph : MachineGraph}
  {registry : LocalRegistry ν} {profile : SafetyProfileFile} {resolved : ResolvedGraph}

/-- The controllers of the loaded boards are in the document. -/
theorem controller_of_boards {ctrl : String}
    (h : ctrl ∈ (allocationInputsOf κ files graph registry).boards) : ctrl ∈ graph.controllers := by
  obtain ⟨board, hboard⟩ := Option.isSome_iff_exists.mp (Std.TreeMap.mem_iff_isSome_getElem?.mp h)
  obtain ⟨controller, -, hcontroller, -⟩ := board_of_loadTargets hboard
  exact Std.TreeMap.mem_iff_isSome_getElem?.mpr (by simp [hcontroller])

/-- The later phases keep the assignments. -/
theorem Resolves.assignments_eq (h : Resolves κ files graph registry profile resolved) :
    resolved.assignments = (allocationOf κ files graph registry).byComponent := by
  rw [h.graphEq]
  rfl

theorem sound_allocationOf (hvalid : Valid κ ν graph) :
    (allocationOf κ files graph registry).Sound (allocationInputsOf κ files graph registry)
      (hasStepRate κ (allocationInputsOf κ files graph registry)) := by
  apply sound_allocate
  intro ctrl hctrl
  exact notMem_of_validIdentifier (hvalid.controllerNames ctrl (controller_of_boards hctrl)) rfl

theorem Resolves.placed (h : Resolves κ files graph registry profile resolved)
    (hvalid : Valid κ ν graph) {cname : String} {a : Assignment}
    (ha : a ∈ resolved.assigned cname) : ∃ component ctrl port board connector,
      Placed κ files graph registry cname a component ctrl port board connector := by
  rw [ResolvedGraph.assigned, h.assignments_eq, mem_byComponent] at ha
  obtain ⟨hmem, rfl⟩ := ha
  have hclean := allErrors_allocate.hasError_eq_false.mp h.allocation
  obtain ⟨component, hcomponent, -⟩ := component_of_allocate hclean hmem
  obtain ⟨ctrl, port, board, connector, hnames⟩ := (sound_allocationOf hvalid).names a hmem
  exact ⟨component, ctrl, port, board, connector, hcomponent, rfl, hnames,
    board_of_loadTargets hnames.onBoard⟩

section Electrical

variable {cname : String} {a : Assignment} {component : Component} {ctrl port : String}
  {board : BoardPackageFile} {connector : Connector}

theorem Placed.connector_eq
    (h : Placed κ files graph registry cname a component ctrl port board connector) :
    (electricalInputsOf κ files graph registry).connector ctrl port = some connector :=
  Option.bind_eq_some_iff.mpr ⟨board, h.names.onBoard, h.names.atPort⟩

theorem Resolves.mem_allocated (h : Resolves κ files graph registry profile resolved)
    (ha : a ∈ resolved.assigned cname) :
    a ∈ (allocatedOf κ files graph registry).assigned cname := by
  rwa [ResolvedGraph.assigned, h.assignments_eq] at ha

/-- The connector of an assignment meets what the kind of its component asks for. -/
theorem Resolves.meets (h : Resolves κ files graph registry profile resolved)
    (ha : a ∈ resolved.assigned cname)
    (hplaced : Placed κ files graph registry cname a component ctrl port board connector)
    {requirement : DeviceRequirement}
    (hrequirement : (requirementsOf κ files graph registry)[component.kind]? = some requirement) :
    MeetsRequirement κ (targetsOf κ files graph registry).chips[ctrl]? connector requirement := by
  obtain ⟨hdomain, hbus⟩ := requirement_of_validateElectrical h.electrical hplaced.component_eq
    hrequirement (h.mem_allocated ha) hplaced.names.splits hplaced.connector_eq
  refine ⟨hdomain, ?_⟩
  intro bus hneeded
  obtain ⟨found, hfound⟩ := hbus bus hneeded
  rw [hplaced.names.capabilities] at hfound
  exact ⟨_, busMeets_of_busSatisfied hfound⟩

/-- The limit of a connector is a current, because its board is valid. -/
theorem Resolves.drawsAtMost (h : Resolves κ files graph registry profile resolved)
    (ha : a ∈ resolved.assigned cname)
    (hplaced : Placed κ files graph registry cname a component ctrl port board connector) :
    DrawsAtMost κ component connector := by
  intro drawRaw limitRaw hdraw hmax
  obtain ⟨_, package, -, -, hpayload⟩ := hplaced.boardOf
  obtain ⟨limit, hlimit⟩ := maxCurrent_of_boardErrors (check_of_readPayload hpayload)
    hplaced.names.atPort hmax
  obtain ⟨draw, hparse, hle⟩ := current_of_validateElectrical h.electrical hplaced.component_eq
    hdraw (h.mem_allocated ha) hplaced.names.splits hplaced.connector_eq hmax hlimit
  exact ⟨draw, limit, hparse, hlimit, hle⟩

end Electrical

/-- Two stepper sockets in an allocation have timer channels of their own. -/
theorem Allocation.Sound.pairwise_timers {inputs : AllocationInputs} {state : Allocation}
    (h : state.Sound inputs true) : state.assignments.Pairwise fun a b => IsTimed a → IsTimed b →
      ∃ first second, timerPair a = some first ∧ timerPair b = some second ∧ first ≠ second := by
  have hpairs := List.pairwise_filterMap.mp (h.timersDistinct rfl)
  refine hpairs.imp_of_mem ?_
  rintro a b ha hb hne ⟨hkindA, hstepA⟩ ⟨hkindB, hstepB⟩
  obtain ⟨first, hfirst⟩ := Option.isSome_iff_exists.mp (h.hasTimer a ha rfl hkindA hstepA)
  obtain ⟨second, hsecond⟩ := Option.isSome_iff_exists.mp (h.hasTimer b hb rfl hkindB hstepB)
  exact ⟨first, second, hfirst, hsecond, hne first hfirst second hsecond⟩

/-- A graph that resolution returns is valid. -/
theorem validGraph_of_resolveDoc (hvalid : Valid κ ν graph) {diagnostics : List Diagnostic}
    {phasesRun : List Phase}
    (h : (resolveDoc κ files graph registry diagnostics phasesRun).resolved = some resolved) :
    ValidGraph κ files graph registry resolved := by
  obtain ⟨profile, h⟩ := resolves_of_resolveDoc h
  have hsound : (allocationOf κ files graph registry).Sound
      (allocationInputsOf κ files graph registry)
      (hasStepRate κ (allocationInputsOf κ files graph registry)) := sound_allocationOf hvalid
  have hperm : resolved.assignments.values.flatten.Perm
      (allocationOf κ files graph registry).assignments := h.assignments_eq ▸ perm_byComponent
  refine ⟨?_, ?_, ?_⟩
  · exact (hperm.map _).nodup_iff.mpr hsound.distinct
  · intro cname a ha
    obtain ⟨component, ctrl, port, board, connector, hplaced⟩ := h.placed hvalid ha
    refine ⟨component, ctrl, port, board, connector, hplaced, ?_, h.drawsAtMost ha hplaced⟩
    intro requirement hrequirement
    exact h.meets ha hplaced hrequirement
  · intro hrate
    rw [hrate] at hsound
    refine hsound.pairwise_timers.perm hperm.symm ?_
    intro a b hab hb ha
    obtain ⟨first, second, hfirst, hsecond, hne⟩ := hab ha hb
    exact ⟨second, first, hsecond, hfirst, hne.symm⟩

/-! ## A machine on a bench -/

def benchConnector (kind : String) (pins : List (String × String)) (pin : Option String) :
    Connector where
  kind
  pins := .ofList pins
  pin
  voltageDomain := none
  maxCurrent := some "5 A"
  pullup := none

def benchBoard : BoardPackageFile where
  chip := some "chips/mcu"
  connectors := .ofList [("heater0", benchConnector "power_output" [] (some "pa0")),
    ("therm0", benchConnector "analog_input" [] (some "pa1")),
    ("motor0", benchConnector stepperSocket [("step", "pa2")] none)]
  transports := .ofList ["usb"]
  flash := none

def benchChip : ChipPackageFile where
  memory := some ⟨"64 KiB", "20 KiB"⟩
  boot := some ⟨8192⟩
  firmware := some
    { targetTriple := "thumbv7m-none-eabi"
      toolchain := "stable"
      buildProfile := "release"
      protocolVersion := "dryer.protocol/v1"
      abiVersion := "dryer.abi/v1"
      features := ["steppers"] }
  peripherals :=
    { timers := ["tim1"]
      spi := []
      i2c := []
      uart := []
      adc := []
      dma := [] }
  pinFunctions := .ofList [("pa0", ["gpio"]), ("pa1", ["gpio"]), ("pa2", ["gpio", "tim1.ch1"])]

/-- A heater needs a sensor on its controller. -/
def benchProfile : SafetyProfileFile where
  classes := .ofList [("heater", ClassPolicy.mk .off (some "2 s") true),
    ("stepper_motor", ClassPolicy.mk .disabled none false)]

/-- The directory of a package is what its `package.yaml` reads as. -/
def benchFiles (template : Template) : PackageFiles CoreVersion where
  kind package :=
    if package.reference.namespace = "boards" then .board
    else if package.reference.namespace = "chips" then .chip
    else if package.reference.namespace = "machines" then .machine
    else .safetyProfile
  readManifest dir := .ok dir
  board text := if text = "board" then .ok benchBoard else .error "no board"
  chip text := if text = "chip" then .ok benchChip else .error "no chip"
  device _ := .error "no device"
  machine text := if text = "machine" then .ok ⟨some template⟩ else .error "no machine"
  safetyProfile text := if text = "profile" then .ok benchProfile else .error "no profile"
  workflow _ := .error "no workflow"
  spans _ := ∅

def benchPackage (ns name dir : String) (dependencies : List (String × Dependency)) :
    LoadedPackage CoreVersion where
  reference := ⟨ns, name, .ofNumbers 1 0 0⟩
  dir
  manifest := { dependencies := .ofList dependencies }

/-- The board depends on its chip or not. -/
def benchRegistry (dependencies : List (String × Dependency)) : LocalRegistry CoreVersion where
  packages := [benchPackage "boards" "mini" "board" dependencies,
    benchPackage "chips" "mcu" "chip" [],
    benchPackage "machines" "bench" "machine" [],
    benchPackage "safety-profiles" "bench" "profile" []]

def benchComponent (kind : String) (attributes : List (String × String)) : Component where
  kind
  attributes := .ofList (attributes.map fun (attr, text) => (attr, Value.string text))

def benchGraph (packages : List String) (limits : List (String × String)) : MachineGraph where
  apiVersion
  kind := kindMachine
  packages
  controllers := .ofList [("main", GraphController.mk ⟨"boards/mini"⟩ ⟨"usb", none⟩)]
  components := .ofList [
    ("hotend", benchComponent "heater"
      [("output", "main.heater0"), ("sensor", "probe"), ("current", "2 A")]),
    ("probe", benchComponent "thermistor" [("input", "main.therm0")]),
    ("x_driver", benchComponent "driver" [("connected_to", "main.motor0")]),
    ("x_motor", benchComponent "stepper_motor" [("driver", "x_driver")])]
  kinematics := { kind := "cartesian", limits := .ofList limits }
  safety := ⟨"safety-profiles/bench"⟩
  workflows := ∅

def emptyTemplate : Template := ⟨∅, none⟩

/-- The dependency of the board on its chip. -/
def chipDependency : List (String × Dependency) := [("chips/mcu", ⟨"*"⟩)]

/-- A machine with a step rate. -/
def steppedGraph : MachineGraph := benchGraph [] [("max_step_rate", "100 kHz")]

theorem steppedGraph_isValid : Valid ℚ CoreVersion steppedGraph :=
  problems_eq_nil.mp (List.isEmpty_iff.mp (by decide +kernel))

/-! ## A machine with packages for its drivers -/

/-- A socket with a step pin, on a bus and in a domain. -/
def drivenSocket (stepPin selectPin : String) : Connector :=
  { benchConnector stepperSocket [("step", stepPin), ("cs", selectPin)] none with
    voltageDomain := some "24v" }

def drivenBoard : BoardPackageFile :=
  { benchBoard with
    connectors := .ofList [("heater0", benchConnector "power_output" [] (some "pa0")),
      ("therm0", benchConnector "analog_input" [] (some "pa1")),
      ("therm1", benchConnector "analog_input" [] (some "pa6")),
      ("motor0", drivenSocket "pa2" "pa4"), ("motor1", drivenSocket "pa3" "pa5")] }

def drivenChip : ChipPackageFile :=
  { benchChip with
    peripherals := { benchChip.peripherals with spi := [⟨"spi1", some "20 MHz", none, none⟩] }
    pinFunctions := .ofList [("pa0", ["gpio"]), ("pa1", ["gpio"]), ("pa2", ["gpio", "tim1.ch1"]),
      ("pa3", ["gpio", "tim1.ch2"]), ("pa4", ["spi1.cs"]), ("pa5", ["spi1.cs"]),
      ("pa6", ["gpio"])] }

/-- A driver in a domain, on a bus with a least frequency. -/
def drivenDevice : DevicePackageFile where
  requires := some
    { connector := some stepperSocket
      voltageDomains := ["12v", "24v"]
      bus := some (BusReq.mk "spi" (some "10 MHz") [] none none) }

def drivenFiles : PackageFiles CoreVersion :=
  { benchFiles emptyTemplate with
    kind := fun package =>
      if package.reference.namespace = "devices" then .device
      else (benchFiles emptyTemplate).kind package
    board := fun text => if text = "board" then .ok drivenBoard else .error "no board"
    chip := fun text => if text = "chip" then .ok drivenChip else .error "no chip"
    device := fun text => if text = "device" then .ok drivenDevice else .error "no device" }

def drivenRegistry : LocalRegistry CoreVersion where
  packages :=
    benchPackage "devices" "tmc2209" "device" [] :: (benchRegistry chipDependency).packages

/-- The first driver claims its socket, the second one searches. -/
def drivenGraph (motor : List (String × String)) : MachineGraph :=
  { steppedGraph with
    components := .ofList [
      ("hotend", benchComponent "heater"
        [("output", "main.heater0"), ("sensor", "probe"), ("current", "2 A")]),
      ("probe", benchComponent "thermistor" [("input", "main.therm0")]),
      ("x_driver", benchComponent "tmc2209" [("connected_to", "main.motor0"), ("current", "1 A")]),
      ("x_motor", benchComponent "stepper_motor" (("driver", "x_driver") :: motor)),
      ("y_driver", benchComponent "tmc2209" []),
      ("y_motor", benchComponent "stepper_motor" [("driver", "y_driver")])] }

abbrev drivenOutcome (motor : List (String × String)) : ResolveOutcome :=
  resolveDoc ℚ drivenFiles (drivenGraph motor) drivenRegistry [] []

theorem drivenGraph_isValid : Valid ℚ CoreVersion (drivenGraph []) :=
  problems_eq_nil.mp (List.isEmpty_iff.mp (by decide +kernel))

/-- The sockets of both drivers are timed, and checked for the domain and the bus. -/
theorem validGraph_drivenGraph : ∃ resolved, (drivenOutcome []).resolved = some resolved ∧
    (resolved.assigned "x_driver").map Assignment.resource = ["main.motor0"] ∧
    (resolved.assigned "y_driver").map Assignment.resource = ["main.motor1"] ∧
    ValidGraph ℚ drivenFiles (drivenGraph []) drivenRegistry resolved := by
  have hsome : (drivenOutcome []).resolved.any fun resolved =>
      (resolved.assigned "x_driver").map Assignment.resource = ["main.motor0"] ∧
      (resolved.assigned "y_driver").map Assignment.resource = ["main.motor1"] := by
    decide +kernel
  obtain ⟨resolved, h, hplaces⟩ := (Option.any_eq_true _ _).mp hsome
  obtain ⟨hx, hy⟩ := of_decide_eq_true hplaces
  exact ⟨resolved, h, hx, hy, validGraph_of_resolveDoc drivenGraph_isValid h⟩

end Dryer.MachineResolver
