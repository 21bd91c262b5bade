import Dryer.MachineResolver.Allocation
import Dryer.MachineResolver.Artifacts
import Dryer.MachineResolver.Electrical
import Dryer.MachineResolver.Expansion
import Dryer.MachineResolver.Safety
import Dryer.MachineResolver.WorkflowChecks

/-!
# Resolution

The phases of a resolution, one after the other. An error stops the resolution before the next
phase.
-/
namespace Dryer.MachineResolver
open Library MachineSchema MachineParser PackageModel

variable {ν ρ : Type} [LinearOrder ν] [DecidableEq ρ] [Semver ν ρ]

/-- The spans of a `package.yaml`, where it can be read. -/
def scanOf (files : PackageFiles ν) : ManifestScan := fun dir =>
  (files.readManifest dir).toOption.map files.spans

/-- The test after each phase. -/
def stopOnError (diagnostics : List Diagnostic) (phasesRun : List Phase) (next : ResolveOutcome) :
    ResolveOutcome :=
  if hasError diagnostics then .fail diagnostics phasesRun else next

theorem resolved_stopOnError {diagnostics : List Diagnostic} {phasesRun : List Phase}
    {next : ResolveOutcome} {resolved : ResolvedGraph} :
    (stopOnError diagnostics phasesRun next).resolved = some resolved ↔
      hasError diagnostics = false ∧ next.resolved = some resolved := by
  unfold stopOnError
  split
  · rename_i herror
    simp [ResolveOutcome.fail, herror]
  · rename_i hnone
    simp [hnone]

section Resolve

variable (κ : Type) [Numbers κ] (files : PackageFiles ν)

/-- The last two phases, on a graph that is valid under a safety profile. -/
def resolveValid (profile : Option SafetyProfileFile) (inputs : ArtifactInputs ν)
    (resolved : ResolvedGraph) (diagnostics : List Diagnostic) (phasesRun : List Phase) :
    ResolveOutcome :=
  let phasesRun := phasesRun ++ [.firmwarePartitioning]
  let partitioned := match profile with
    | none => (resolved, [])
    | some profile => partitionSafety κ inputs.doc resolved profile
  let diagnostics := diagnostics ++ partitioned.2
  stopOnError diagnostics phasesRun <|
    let phasesRun := phasesRun ++ [.artifactPlanning]
    let planned := planArtifacts κ inputs partitioned.1
    let diagnostics := diagnostics ++ planned.2
    stopOnError diagnostics phasesRun { resolved := some planned.1, diagnostics, phasesRun }

/-- The electrical phase and those after it, on an allocation without errors. -/
def resolveAllocated (selection : PackageSelection ν) (targets : ControllerTargets)
    (graph : MachineGraph) (deviceReqs : Std.TreeMap String DeviceRequirement)
    (resolved : ResolvedGraph) (diagnostics : List Diagnostic) (phasesRun : List Phase) :
    ResolveOutcome :=
  let phasesRun := phasesRun ++ [.electricalValidation]
  let diagnostics := diagnostics ++
    validateElectrical κ
      { doc := graph, deviceReqs, boards := targets.boards, chips := targets.chips } resolved
  stopOnError diagnostics phasesRun <|
    let phasesRun := phasesRun ++ [.safetyValidation]
    let safety := validateSafety κ files selection graph resolved
    let diagnostics := diagnostics ++ safety.2 ++ validateWorkflows graph resolved files selection
    stopOnError diagnostics phasesRun <|
      resolveValid κ safety.1
        { doc := graph, deviceReqs, packages := selection, chips := targets.chips,
          chipRefs := targets.chipRefs } resolved diagnostics phasesRun

/-- Expansion and allocation, for boards and chips that are loaded. -/
def resolveLoaded (selection : PackageSelection ν) (targets : ControllerTargets)
    (graph : MachineGraph) (diagnostics : List Diagnostic) (phasesRun : List Phase) :
    ResolveOutcome :=
  let phasesRun := phasesRun ++ [.graphExpansion]
  let expanded := expand κ files selection graph
  let diagnostics := diagnostics ++ expanded.diagnostics
  stopOnError diagnostics phasesRun <|
    let deviceReqs := collectRequirements κ files selection expanded.doc
    let phasesRun := phasesRun ++ [.capabilityMatching, .resourceAllocation]
    let allocation := allocate κ
      { doc := expanded.doc, sources := expanded.sources, deviceReqs, boards := targets.boards,
        chips := targets.chips }
    let diagnostics := diagnostics ++ allocation.2
    stopOnError diagnostics phasesRun <|
      resolveAllocated κ files selection targets expanded.doc deviceReqs
        { assignments := allocation.1.byComponent
          controllerSafety := ∅
          controllerBuildPlans := ∅
          packages := selection.closureRefs } diagnostics phasesRun

def resolveDoc (graph : MachineGraph) (registry : LocalRegistry ν)
    (diagnostics : List Diagnostic) (phasesRun : List Phase) : ResolveOutcome :=
  let phasesRun := phasesRun ++ [.packageDependencies]
  let packages := PackageSelection.resolve (scanOf files) graph.doc registry diagnostics
  stopOnError packages.2 phasesRun <|
    let phasesRun := phasesRun ++ [.packageLoading]
    let targets := loadTargets κ files packages.1 graph
    let diagnostics := packages.2 ++ targets.2
    stopOnError diagnostics phasesRun <|
      resolveLoaded κ files packages.1 targets.1 graph diagnostics phasesRun

/-- Resolve a machine manifest. -/
def resolveSource (reader : DocumentReader) (source : String) (registry : LocalRegistry ν) :
    ResolveOutcome :=
  let phasesRun : List Phase := [.parse, .schemaValidation]
  let parsed := parseStr κ ν reader source
  let locateAll := List.map (locateDiagnostic parsed.spans)
  match parsed.doc with
  | none => .fail (locateAll parsed.diagnostics) phasesRun
  | some graph =>
    if hasError parsed.diagnostics then .fail (locateAll parsed.diagnostics) phasesRun
    else
      let outcome := resolveDoc κ files graph registry parsed.diagnostics phasesRun
      { outcome with diagnostics := locateAll outcome.diagnostics }

end Resolve

end Dryer.MachineResolver
