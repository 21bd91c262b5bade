import Dryer.MachineResolver.ValidGraphs

/-!
# Waived requirements

A component with a valid device package gets what the package asks for. One whose package is not
valid asks for nothing: no phase reports the package, whatever is in it, and the resolution ends as
the other checks say.
-/
namespace Dryer.MachineResolver
open Library MachineSchema MachineParser PackageModel

variable {ν ρ : Type} [LinearOrder ν] [DecidableEq ρ] [Semver ν ρ]

section Statement

variable (κ : Type) [Numbers κ] (files : PackageFiles ν) (graph : MachineGraph)
  (registry : LocalRegistry ν)

/-- A component with a device package that is selected and does not validate. -/
def Waived (cname : String) : Prop :=
  ∃ component package errors,
    (expandedOf κ files graph registry).doc.components[cname]? = some component ∧
    (selectionOf files graph registry).select s!"devices/{component.kind}" = some package ∧
    package.devicePayload κ files = .error errors

/-- A component gets what its device package asks for, wherever it is assigned: a domain, a bus, and
a connector that carries its current. -/
def Checked (resolved : ResolvedGraph) (cname : String) (component : Component)
    (device : DevicePackageFile) : Prop :=
  ∀ a ∈ resolved.assigned cname, ∃ ctrl port board connector requirement,
    Placed κ files graph registry cname a component ctrl port board connector ∧
    MeetsRequirement κ (targetsOf κ files graph registry).chips[ctrl]? connector requirement ∧
    requirement.domains = (device.requires.map Requires.voltageDomains).getD [] ∧
    requirement.bus = device.requires.bind Requires.bus ∧ DrawsAtMost κ component connector

/-- No device requirement is waived: a package that is not valid is reported, and in a graph every
component with a device package is checked. -/
structure NothingWaived (outcome : ResolveOutcome) : Prop where
  reported : ∀ cname, Waived κ files graph registry cname →
    outcome.resolved = none ∧ hasError outcome.diagnostics = true
  checked : ∀ resolved, outcome.resolved = some resolved → ∀ cname component package,
    (expandedOf κ files graph registry).doc.components[cname]? = some component →
    (selectionOf files graph registry).select s!"devices/{component.kind}" = some package →
    ∃ device, package.devicePayload κ files = .ok device ∧
      Checked κ files graph registry resolved cname component device

/-- Another reading of the device files, under which the same packages are valid, with the same
payloads. -/
def SameDevices (device : String → Except String DevicePackageFile) : Prop :=
  ∀ package ∈ registry.packages, (package.devicePayload κ { files with device }).toOption =
    (package.devicePayload κ files).toOption

/-- The checks of the phases under a safety profile. -/
structure Passes (profile : SafetyProfileFile) : Prop where
  closure : AddsNoError (scanOf files) graph.doc registry [] (selectionOf files graph registry)
  loading : hasError (loadTargets κ files (selectionOf files graph registry) graph).2 = false
  expansion : hasError (expandedOf κ files graph registry).diagnostics = false
  allocation : hasError (allocate κ (allocationInputsOf κ files graph registry)).2 = false
  electrical : validateElectrical κ (electricalInputsOf κ files graph registry)
    (allocatedOf κ files graph registry) = []
  profileLoads : loadProfile κ files (selectionOf files graph registry)
    (expandedOf κ files graph registry).doc.safety.profile = .ok profile
  coverage : hasError ((expandedOf κ files graph registry).doc.components.toList.flatMap
    (coverageErrors (expandedOf κ files graph registry).doc (allocatedOf κ files graph registry)
      profile)) = false
  workflows : hasError (validateWorkflows (expandedOf κ files graph registry).doc
    (allocatedOf κ files graph registry) files (selectionOf files graph registry)) = false
  partition : hasError (bindings κ (expandedOf κ files graph registry).doc
    (allocatedOf κ files graph registry) profile).2 = false
  plans : hasError (planArtifacts κ (artifactInputsOf κ files graph registry)
    (partitionSafety κ (expandedOf κ files graph registry).doc
      (allocatedOf κ files graph registry) profile).1).2 = false

end Statement

/-! ## An outcome tells its errors -/

/-- There is a graph exactly where there is no error. -/
def ResolveOutcome.Tells (outcome : ResolveOutcome) : Prop :=
  outcome.resolved = none ↔ hasError outcome.diagnostics = true

theorem tells_stopOnError {diagnostics : List Diagnostic} {phasesRun : List Phase}
    {next : ResolveOutcome} (h : hasError diagnostics = false → next.Tells) :
    (stopOnError diagnostics phasesRun next).Tells := by
  unfold stopOnError
  split
  · rename_i herror
    simp [ResolveOutcome.Tells, ResolveOutcome.fail, herror]
  · rename_i hnone
    exact h (Bool.eq_false_of_not_eq_true hnone)

theorem tells_some {resolved : ResolvedGraph} {diagnostics : List Diagnostic}
    {phasesRun : List Phase} (h : hasError diagnostics = false) :
    ResolveOutcome.Tells { resolved := some resolved, diagnostics, phasesRun } := by
  simp [ResolveOutcome.Tells, h]

variable {κ : Type} [Numbers κ] {files : PackageFiles ν} {graph : MachineGraph}
  {registry : LocalRegistry ν} {diagnostics : List Diagnostic} {phasesRun : List Phase}

/-- Every phase ends with the test, and so does the resolution. -/
theorem tells_resolveDoc : (resolveDoc κ files graph registry diagnostics phasesRun).Tells := by
  refine tells_stopOnError fun _ => tells_stopOnError fun _ => ?_
  refine tells_stopOnError fun _ => tells_stopOnError fun _ => ?_
  refine tells_stopOnError fun _ => tells_stopOnError fun _ => ?_
  exact tells_stopOnError fun _ => tells_stopOnError fun hnone => tells_some hnone

/-! ## What decides the outcome -/

omit [DecidableEq ρ] in
/-- A valid device package asks for what its payload says. -/
theorem exists_deviceRequirement {selection : PackageSelection ν} {kind : String}
    {package : LoadedPackage ν} {payload : DevicePackageFile}
    (hselect : selection.select s!"devices/{kind}" = some package)
    (hpayload : package.devicePayload κ files = .ok payload) :
    ∃ requirement, deviceRequirement κ files selection kind = some requirement ∧
      requirement.domains = (payload.requires.map Requires.voltageDomains).getD [] ∧
      requirement.bus = payload.requires.bind Requires.bus := by
  unfold deviceRequirement
  rw [hselect]
  dsimp only
  rw [hpayload]
  exact ⟨_, rfl, rfl, rfl⟩

/-- In a graph, every component with a valid device package is checked. -/
theorem checked_of_resolveDoc (hvalid : Valid κ ν graph) {resolved : ResolvedGraph}
    (h : (resolveDoc κ files graph registry diagnostics phasesRun).resolved = some resolved)
    {cname : String} {component : Component} {package : LoadedPackage ν}
    {device : DevicePackageFile}
    (hcomponent : (expandedOf κ files graph registry).doc.components[cname]? = some component)
    (hselect : (selectionOf files graph registry).select s!"devices/{component.kind}" =
      some package)
    (hpayload : package.devicePayload κ files = .ok device) :
    Checked κ files graph registry resolved cname component device := by
  intro a ha
  obtain ⟨profile, h⟩ := resolves_of_resolveDoc h
  obtain ⟨placed, ctrl, port, board, connector, hplaced⟩ := h.placed hvalid ha
  obtain rfl := Option.some.inj (hcomponent.symm.trans hplaced.component_eq)
  obtain ⟨requirement, hrequirement, hdomains, hbus⟩ := exists_deviceRequirement hselect hpayload
  refine ⟨ctrl, port, board, connector, requirement, hplaced, h.meets ha hplaced ?_, hdomains,
    hbus, h.drawsAtMost ha hplaced⟩
  exact getElem?_collectRequirements.mpr ⟨⟨cname, component, hcomponent, rfl⟩, hrequirement⟩

/-- The checks decide whether there is a graph. -/
theorem exists_resolved_iff :
    (∃ resolved, (resolveDoc κ files graph registry diagnostics phasesRun).resolved =
        some resolved) ↔
      hasError diagnostics = false ∧ ∃ profile, Passes κ files graph registry profile := by
  simp only [resolved_resolveDoc]
  constructor
  · rintro ⟨resolved, hnone, hworkflows, profile, h⟩
    exact ⟨hnone, profile,
      { closure := h.closure
        loading := h.loading
        expansion := h.expansion
        allocation := h.allocation
        electrical := h.electrical
        profileLoads := h.profileLoads
        coverage := h.coverage
        workflows := hworkflows
        partition := h.partition
        plans := h.plans }⟩
  · rintro ⟨hnone, profile, h⟩
    exact ⟨_, hnone, h.workflows, profile,
      { closure := h.closure
        loading := h.loading
        expansion := h.expansion
        allocation := h.allocation
        electrical := h.electrical
        profileLoads := h.profileLoads
        coverage := h.coverage
        partition := h.partition
        plans := h.plans
        graphEq := rfl }⟩

omit [DecidableEq ρ] in
theorem deviceRequirement_eq_map {selection : PackageSelection ν} {kind : String} :
    deviceRequirement κ files selection kind =
      (selection.select s!"devices/{kind}").bind fun package =>
        (package.devicePayload κ files).toOption.map fun device =>
          { reference := package.reference.toText
            connector := device.requires.bind Requires.connector
            domains := (device.requires.map Requires.voltageDomains).getD []
            bus := device.requires.bind Requires.bus } := by
  unfold deviceRequirement
  split
  · rename_i hselect
    rw [hselect]
    rfl
  · rename_i package hselect
    rw [hselect, Option.bind_some]
    split
    · rename_i hpayload
      rw [hpayload]
      rfl
    · rename_i hpayload
      rw [hpayload]
      rfl

omit [DecidableEq ρ] in
theorem collectRequirements_congr {device : String → Except String DevicePackageFile}
    {selection : PackageSelection ν} (h : SameDevices κ files selection.registry device) :
    collectRequirements κ { files with device } selection =
      collectRequirements κ files selection := by
  have hrequirement : deviceRequirement κ { files with device } selection =
      deviceRequirement κ files selection := by
    funext kind
    rw [deviceRequirement_eq_map, deviceRequirement_eq_map]
    cases hselect : selection.select s!"devices/{kind}" with
    | none => rfl
    | some package =>
      rw [Option.bind_some, Option.bind_some, h package (reference_of_select hselect).1]
  funext doc
  rw [collectRequirements, collectRequirements, hrequirement]

/-- Nothing in a package that is not valid makes a difference to a resolution. -/
theorem resolveDoc_congr {device : String → Except String DevicePackageFile}
    (h : SameDevices κ files registry device) :
    resolveDoc κ { files with device } graph registry diagnostics phasesRun =
      resolveDoc κ files graph registry diagnostics phasesRun := by
  have hscan : scanOf { files with device } = scanOf files := rfl
  have hload : loadTargets κ { files with device } = loadTargets κ files := rfl
  have hexpand : expand κ { files with device } = expand κ files := rfl
  have hallocated : resolveAllocated κ { files with device } = resolveAllocated κ files := rfl
  have hcollect : collectRequirements κ { files with device }
      (PackageSelection.resolve (scanOf files) graph.doc registry diagnostics).1 =
        collectRequirements κ files
          (PackageSelection.resolve (scanOf files) graph.doc registry diagnostics).1 :=
    collectRequirements_congr h
  unfold resolveDoc resolveLoaded
  rw [hscan, hload, hexpand, hallocated]
  dsimp only
  rw [hcollect]

/-- Where the other checks pass, nothing is waived exactly where every selected device package is
valid. Where another one fails, the resolution ends with an error. In both cases it ends as it would
with anything else in the packages that are not valid. -/
theorem nothingWaived_iff (hvalid : Valid κ ν graph) :
    (∀ profile, hasError diagnostics = false → Passes κ files graph registry profile →
      (NothingWaived κ files graph registry
          (resolveDoc κ files graph registry diagnostics phasesRun) ↔
        ∀ cname, ¬ Waived κ files graph registry cname)) ∧
    ((hasError diagnostics = true ∨ ∀ profile, ¬ Passes κ files graph registry profile) →
      (resolveDoc κ files graph registry diagnostics phasesRun).resolved = none ∧
      hasError (resolveDoc κ files graph registry diagnostics phasesRun).diagnostics = true) ∧
    ∀ device, SameDevices κ files registry device →
      resolveDoc κ { files with device } graph registry diagnostics phasesRun =
        resolveDoc κ files graph registry diagnostics phasesRun := by
  refine ⟨?_, ?_, fun device hsame => resolveDoc_congr hsame⟩
  · intro profile hnone hpasses
    constructor
    · intro h cname hwaived
      obtain ⟨resolved, hresolved⟩ : ∃ resolved, (resolveDoc κ files graph registry diagnostics
          phasesRun).resolved = some resolved := exists_resolved_iff.mpr ⟨hnone, profile, hpasses⟩
      rw [(h.reported cname hwaived).1] at hresolved
      cases hresolved
    · intro hfree
      refine ⟨fun cname hwaived => absurd hwaived (hfree cname), ?_⟩
      intro resolved hresolved cname component package hcomponent hselect
      cases hpayload : package.devicePayload κ files with
      | error errors =>
        exact absurd ⟨component, package, errors, hcomponent, hselect, hpayload⟩ (hfree cname)
      | ok device =>
        exact ⟨device, rfl, checked_of_resolveDoc hvalid hresolved hcomponent hselect hpayload⟩
  · intro hfails
    have htells : (resolveDoc κ files graph registry diagnostics phasesRun).Tells :=
      tells_resolveDoc
    have hresolved : (resolveDoc κ files graph registry diagnostics phasesRun).resolved = none := by
      refine Option.eq_none_iff_forall_ne_some.mpr ?_
      intro resolved hsome
      obtain ⟨hnone, profile, hpasses⟩ := exists_resolved_iff.mp ⟨resolved, hsome⟩
      obtain herror | hnot := hfails
      · rw [hnone] at herror
        cases herror
      · exact hnot profile hpasses
    exact ⟨hresolved, htells.mp hresolved⟩

/-! ## A heater without its bus -/

/-- The files of the bench with a device package. -/
def deviceFiles (device : DevicePackageFile) : PackageFiles CoreVersion :=
  { benchFiles emptyTemplate with
    kind := fun package =>
      if package.reference.namespace = "devices" then .device
      else (benchFiles emptyTemplate).kind package
    device := fun text => if text = "device" then .ok device else .error "no device" }

/-- A device in a voltage domain, on a bus with a least frequency. -/
def busDevice (minFrequency : String) : DevicePackageFile where
  requires := some
    { connector := some "power_output"
      voltageDomains := ["24v"]
      bus := some (BusReq.mk "spi" (some minFrequency) [] none none) }

def deviceRegistry : LocalRegistry CoreVersion where
  packages := benchPackage "devices" "heater" "device" [] :: (benchRegistry chipDependency).packages

def deviceOutcome (minFrequency : String) : ResolveOutcome :=
  resolveDoc ℚ (deviceFiles (busDevice minFrequency)) steppedGraph deviceRegistry [] []

theorem heater_waived :
    Waived ℚ (deviceFiles (busDevice "fast")) steppedGraph deviceRegistry "hotend" := by
  have hkind : ((expandedOf ℚ (deviceFiles (busDevice "fast")) steppedGraph
      deviceRegistry).doc.components["hotend"]?.map Component.kind) = some "heater" := by
    decide +kernel
  have hinvalid : ((selectionOf (deviceFiles (busDevice "fast")) steppedGraph
      deviceRegistry).select "devices/heater").map (fun package =>
        (package.devicePayload ℚ (deviceFiles (busDevice "fast"))).toOption.isNone) =
      some true := by
    decide +kernel
  obtain ⟨component, hcomponent, hheater⟩ := Option.map_eq_some_iff.mp hkind
  obtain ⟨package, hpackage, hnone⟩ := Option.map_eq_some_iff.mp hinvalid
  cases hpayload : package.devicePayload ℚ (deviceFiles (busDevice "fast")) with
  | error errors =>
    refine ⟨component, package, errors, hcomponent, ?_, hpayload⟩
    rw [hheater]
    exact hpackage
  | ok device =>
    rw [hpayload] at hnone
    cases hnone

theorem fast_resolves : ∃ resolved, (deviceOutcome "fast").resolved = some resolved :=
  Option.isSome_iff_exists.mp (by decide +kernel)

/-- No package of the registry is a valid device package. -/
theorem device_isNone {minFrequency : String} (h : (deviceRegistry.packages.all fun package =>
      (package.devicePayload ℚ (deviceFiles (busDevice minFrequency))).toOption.isNone) = true) :
    ∀ package ∈ deviceRegistry.packages,
      (package.devicePayload ℚ (deviceFiles (busDevice minFrequency))).toOption = none := by
  intro package hpackage
  exact Option.isNone_iff_eq_none.mp (List.all_eq_true.mp h package hpackage)

/-- The resolution with a frequency that is none passes all other checks, and is the same with a
mass for a frequency. -/
theorem heater_nothingWaived_iff :
    (∃ profile, Passes ℚ (deviceFiles (busDevice "fast")) steppedGraph deviceRegistry profile ∧
      (NothingWaived ℚ (deviceFiles (busDevice "fast")) steppedGraph deviceRegistry
          (deviceOutcome "fast") ↔
        ∀ cname, ¬ Waived ℚ (deviceFiles (busDevice "fast")) steppedGraph deviceRegistry cname)) ∧
    deviceOutcome "5 kg" = deviceOutcome "fast" := by
  obtain ⟨-, profile, hpasses⟩ := exists_resolved_iff.mp fast_resolves
  have hsame : ∀ device, SameDevices ℚ (deviceFiles (busDevice "fast")) deviceRegistry device →
      resolveDoc ℚ { deviceFiles (busDevice "fast") with device } steppedGraph deviceRegistry
        [] [] = deviceOutcome "fast" := (nothingWaived_iff steppedGraph_isValid).2.2
  refine ⟨⟨profile, hpasses, (nothingWaived_iff steppedGraph_isValid).1 profile rfl hpasses⟩,
    hsame (deviceFiles (busDevice "5 kg")).device ?_⟩
  intro package hpackage
  have hmass : (package.devicePayload ℚ (deviceFiles (busDevice "5 kg"))).toOption = none :=
    device_isNone (by decide +kernel) package hpackage
  exact hmass.trans (device_isNone (by decide +kernel) package hpackage).symm

/-- The connector of the heater has no such bus. With a frequency that is none, the package of the
heater is not valid and there is a graph; with a valid one there is none. -/
theorem bus_waived_for_bad_frequency :
    ¬ (∀ cname, Waived ℚ (deviceFiles (busDevice "fast")) steppedGraph deviceRegistry cname →
      (deviceOutcome "fast").resolved = none ∧
      hasError (deviceOutcome "fast").diagnostics = true) ∧
    (deviceOutcome "10 MHz").resolved = none := by
  refine ⟨?_, Option.isNone_iff_eq_none.mp (by decide +kernel)⟩
  intro h
  have hsome : (deviceOutcome "fast").resolved.isNone = false := by decide +kernel
  rw [(h "hotend" heater_waived).1] at hsome
  cases hsome

end Dryer.MachineResolver
