import Dryer.Library.OrderedMaps
import Dryer.MachineResolver.Requirements
import Dryer.MachineResolver.Targets

/-!
# Artifact planning

The inputs of the firmware build of each controller.
-/
namespace Dryer.MachineResolver
open Library MachineSchema PackageModel

variable {ν ρ : Type} [LinearOrder ν] [Semver ν ρ]

structure ArtifactInputs (ν : Type) where
  doc : MachineGraph
  deviceReqs : Std.TreeMap String DeviceRequirement
  packages : PackageSelection ν
  chips : Std.TreeMap String ChipPackageFile
  chipRefs : Std.TreeMap String String

section Plan

variable (κ : Type) [Numbers κ] (inputs : ArtifactInputs ν) (resolved : ResolvedGraph)

/-- The component has a resource of the controller. -/
def isOnController (controllerName cname : String) : Bool :=
  (resolved.assigned cname).any fun assignment =>
    (splitOnce assignment.resource '.').any fun (candidate, _) => candidate = controllerName

/-- The device packages of the components on a controller. -/
def nativeDrivers (controllerName : String) : List String :=
  sortedUnique (inputs.doc.components.toList.filterMap fun (cname, component) =>
    if isOnController resolved controllerName cname then
      inputs.deviceReqs[component.kind]?.map DeviceRequirement.reference
    else none)

def planError (controllerName code message : String) : Diagnostic :=
  (Diagnostic.error code s!"controller '{controllerName}' {message}").at
    s!"controllers.{controllerName}.board"

def planController (controllerName : String) (controller : GraphController) :
    Except Diagnostic ControllerBuildPlan :=
  match inputs.chips[controllerName]? with
  | none =>
    .error (planError controllerName "E1600"
      "has no resolved chip for firmware artifact planning")
  | some chip =>
    match chip.memory, chip.boot, chip.firmware, inputs.chipRefs[controllerName]? with
    | some memory, some boot, some firmware, some chipReference =>
      match memory.flashBytes κ, memory.ramBytes κ with
      | some flashBytes, some ramBytes =>
        match inputs.packages.chosen[controller.board]? with
        | some boardVersion =>
          .ok
            { board := s!"{controller.board}@{Semver.versionText boardVersion}"
              chip := chipReference
              targetTriple := firmware.targetTriple
              toolchain := firmware.toolchain
              buildProfile := firmware.buildProfile
              protocolVersion := firmware.protocolVersion
              abiVersion := firmware.abiVersion
              flashBytes
              ramBytes
              bootloaderOffsetBytes := boot.defaultBootloaderOffset
              features := sortedUnique firmware.features
              nativeDrivers := nativeDrivers inputs resolved controllerName }
        | none =>
          .error (planError controllerName "E1602"
            s!"board '{controller.board}' has no exact selected version")
      | _, _ =>
        .error (planError controllerName "E1601" "chip memory cannot compile to whole bytes")
    | _, _, _, _ =>
      .error (planError controllerName "E1600"
        "chip package lacks memory, boot, or firmware target metadata")

def planErrors : String × GraphController → List Diagnostic
  | (name, controller) =>
    match planController κ inputs resolved name controller with
    | .error e => [e]
    | .ok _ => []

def planArtifacts : ResolvedGraph × List Diagnostic :=
  ({ resolved with
      controllerBuildPlans := inputs.doc.controllers.filterMap fun name controller =>
        (planController κ inputs resolved name controller).toOption },
    inputs.doc.controllers.toList.flatMap (planErrors κ inputs resolved))

end Plan

end Dryer.MachineResolver
