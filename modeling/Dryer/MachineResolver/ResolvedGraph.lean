import Dryer.MachineSchema.MachineGraph
import Dryer.PackageModel.PackageFiles

/-!
# Resolved graphs

What a resolution ends with: the resources that the components are assigned, the safe states and
the build inputs of the controllers, and the packages of the closure.
-/
namespace Dryer.MachineResolver
open MachineSchema PackageModel

inductive Phase where
  | parse
  | schemaValidation
  | packageDependencies
  | packageLoading
  | graphExpansion
  | capabilityMatching
  | resourceAllocation
  | electricalValidation
  | safetyValidation
  | firmwarePartitioning
  | artifactPlanning
  deriving DecidableEq

/-- The functions of the pins of a connector, by signal. -/
abbrev PinCapabilities := Std.TreeMap String (List String)

structure Assignment where
  requestedBy : String
  /-- The attribute that the claim came from, or the requirement of the device. -/
  via : String
  /-- The resource as `controller.connector`. -/
  resource : String
  connectorKind : String
  candidatesConsidered : List String
  constraintsApplied : List String
  pinCapabilities : PinCapabilities

structure ControllerSafeState where
  component : String
  «class» : String
  resource : String
  state : SafeState
  heartbeatTimeoutUs : Option ℕ
  sensor : Option String

structure ControllerBuildPlan where
  board : String
  chip : String
  targetTriple : String
  toolchain : String
  buildProfile : String
  protocolVersion : String
  abiVersion : String
  flashBytes : ℕ
  ramBytes : ℕ
  bootloaderOffsetBytes : ℕ
  features : List String
  nativeDrivers : List String

structure ResolvedGraph where
  assignments : Std.TreeMap String (List Assignment)
  controllerSafety : Std.TreeMap String (List ControllerSafeState)
  controllerBuildPlans : Std.TreeMap String ControllerBuildPlan
  packages : List String

/-- The assignments of a component. -/
def ResolvedGraph.assigned (resolved : ResolvedGraph) (component : String) : List Assignment :=
  resolved.assignments[component]?.getD []

structure ResolveOutcome where
  resolved : Option ResolvedGraph
  diagnostics : List Diagnostic
  phasesRun : List Phase

/-- A resolution that stops. -/
def ResolveOutcome.fail (diagnostics : List Diagnostic) (phasesRun : List Phase) :
    ResolveOutcome where
  resolved := none
  diagnostics
  phasesRun

def ResolveOutcome.isOk (outcome : ResolveOutcome) : Bool :=
  outcome.resolved.isSome && !hasError outcome.diagnostics

end Dryer.MachineResolver
