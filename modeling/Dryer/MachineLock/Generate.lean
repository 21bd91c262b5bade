import Dryer.Library.OrderedMaps
import Dryer.MachineLock.Lockfile
import Dryer.MachineParser.Validate

/-!
# Lock generation

The lockfile of a resolved machine. The packages of the closure are found again and hashed, then the
controllers get their resources, their safe states and the inputs of their builds. What comes out
must pass the validation of lockfiles.
-/
namespace Dryer.MachineLock
open Library MachineSchema MachineParser MachineResolver PackageModel

/-- The version of the crate. -/
def resolverVersion : String := "0.1.0"

/-- One error as the result. -/
def lockError (code message : String) : List Diagnostic := [.error code message]

/-! ## Packages -/

section Packages

variable {ν ρ : Type} [LinearOrder ν] [Semver ν ρ] (sha256 : Bytes → String) (roots : PackageRoots)

/-- A reference that does not parse would be a bug of the resolver, and is passed over. -/
def pinPackage (registry : LocalRegistry ν) (pkg : String) :
    Except (List Diagnostic) (Option LockedPackage) :=
  match (PackageRef.parse pkg : Except RefParseError (PackageRef ν)) with
  | .error _ => .ok none
  | .ok r => do
    let found ← okOr (registry.findVersion r.namespace r.name r.version)
      (lockError "E1402" s!"resolved package '{pkg}' is no longer in the registry")
    let reference := found.reference.toText
    let snapshot ← (found.snapshot roots).mapError fun e =>
      lockError "E1400" s!"cannot snapshot package content for {reference}: {e}"
    let manifestBytes ← snapshot.manifestBytes.mapError fun e =>
      lockError "E1400" s!"cannot hash manifest for {reference}: {e}"
    return some
      { id := reference
        manifestHash := sha256Hex sha256 manifestBytes
        contentHash := snapshot.contentHash sha256 }

/-- The whole closure of the resolver, not the list of the manifest. -/
def pinPackages (registry : LocalRegistry ν) (resolved : ResolvedGraph) :
    Except (List Diagnostic) (List LockedPackage) := do
  let packages ← resolved.packages.mapM (pinPackage sha256 roots registry)
  return (packages.filterMap id).insertionSort fun left right => left.id ≤ right.id

end Packages

/-! ## Controllers -/

def initializeController (controller : GraphController) : LockedController where
  board := controller.board
  resolvedResources := ∅
  safety := some { schema := controllerSafetySchema, states := [] }
  build := none

def initializeControllers (doc : MachineGraph) : Std.TreeMap String LockedController :=
  doc.controllers.map fun _ controller => initializeController controller

/-- The mechanism of an assignment, without the origin of a search. -/
def viaShort (assignment : Assignment) : String :=
  (firstWord assignment.via).getD assignment.via

/-- A connector of the controller for a component. -/
def LockedController.addResource (controller : LockedController) (key port : String) :
    LockedController :=
  { controller with resolvedResources := controller.resolvedResources.insert key port }

def applyAssignment (controllers : Std.TreeMap String LockedController) :
    String × Assignment → Std.TreeMap String LockedController
  | (component, assignment) =>
    match splitOnce assignment.resource '.' with
    | none => controllers
    | some (controllerName, port) =>
      controllers.modify controllerName
        (·.addResource s!"{component}/{viaShort assignment}" port)

/-- The assignments of all components, one after the other. -/
def assignmentEntries (resolved : ResolvedGraph) : List (String × Assignment) :=
  resolved.assignments.toList.flatMap fun (component, assignments) =>
    assignments.map fun assignment => (component, assignment)

def applyAssignments (controllers : Std.TreeMap String LockedController)
    (resolved : ResolvedGraph) : Std.TreeMap String LockedController :=
  (assignmentEntries resolved).foldl applyAssignment controllers

/-! ## Safety -/

/-- The sensor as a connector of the controller. -/
def localSensor (controllerName sensor : String) : Except (List Diagnostic) String :=
  okOr (stripPrefix sensor s!"{controllerName}.") (lockError "E1403"
    s!"safety sensor '{sensor}' is not local to controller '{controllerName}'")

def lockSafeState (controllerName : String) (binding : ControllerSafeState) :
    Except (List Diagnostic) LockedSafeState := do
  let (resourceController, resource) ← okOr (splitOnce binding.resource '.') (lockError "E1403"
    s!"safety resource '{binding.resource}' is not 'controller.resource'")
  reject (resourceController ≠ controllerName) <| lockError "E1403" <|
    s!"safety resource '{binding.resource}' belongs to controller '{resourceController}', not " ++
    s!"'{controllerName}'"
  let sensor ← binding.sensor.mapM (localSensor controllerName)
  return {
    component := binding.component
    «class» := binding.class
    resource
    state := binding.state
    heartbeatTimeoutUs := binding.heartbeatTimeoutUs
    sensor }

/-- In the order of components and resources. -/
def sortSafeStates (states : List LockedSafeState) : List LockedSafeState :=
  states.insertionSort fun left right =>
    toLex (left.component, left.resource) ≤ toLex (right.component, right.resource)

/-- The safety of a controller is there from its initialization. -/
def addSafeStates (controllerName : String) (bindings : List ControllerSafeState)
    (controller : LockedController) : Except (List Diagnostic) LockedController := do
  let states ← bindings.mapM (lockSafeState controllerName)
  return { controller with
    safety := controller.safety.map fun safety =>
      { safety with states := sortSafeStates (safety.states ++ states) } }

def applySafety (controllers : Std.TreeMap String LockedController) (resolved : ResolvedGraph) :
    Except (List Diagnostic) (Std.TreeMap String LockedController) :=
  updateAll
    (fun name => lockError "E1403"
      s!"resolved safety configuration names unknown controller '{name}'")
    addSafeStates controllers resolved.controllerSafety.toList

/-! ## Build inputs -/

def lockBuildPlan (plan : ControllerBuildPlan) : LockedBuildConfig where
  schema := controllerBuildSchema
  board := plan.board
  chip := plan.chip
  targetTriple := plan.targetTriple
  toolchain := plan.toolchain
  buildProfile := plan.buildProfile
  protocolVersion := plan.protocolVersion
  abiVersion := plan.abiVersion
  flashBytes := plan.flashBytes
  ramBytes := plan.ramBytes
  bootloaderOffsetBytes := plan.bootloaderOffsetBytes
  features := plan.features
  nativeDrivers := plan.nativeDrivers

def applyBuildInputs (controllers : Std.TreeMap String LockedController)
    (resolved : ResolvedGraph) :
    Except (List Diagnostic) (Std.TreeMap String LockedController) :=
  updateAll
    (fun name => lockError "E1404" s!"resolved build plan names unknown controller '{name}'")
    (fun _ plan controller => .ok { controller with build := some (lockBuildPlan plan) })
    controllers resolved.controllerBuildPlans.toList

/-! ## The lockfile -/

/-- The safety profile is one of the packages, in the version of the closure. -/
def selectSafetyProfile (packages : List LockedPackage) (profile : String) :
    Except (List Diagnostic) LockedPackage :=
  okOr (packages.find? fun package => startsWith package.id s!"{profile}@")
    (lockError "E1401" s!"safety profile '{profile}' is not in the resolved closure")

section Lock

variable {ν ρ : Type} [LinearOrder ν] [Semver ν ρ] (κ : Type) [Numbers κ]
  (reader : DocumentReader) (sha256 : Bytes → String) (roots : PackageRoots)

/-- What a lockfile of the document holds, before it is validated. -/
def generate (source : String) (doc : MachineGraph) (registrySource : RegistrySource)
    (registry : LocalRegistry ν) (resolved : ResolvedGraph) :
    Except (List Diagnostic) Lockfile := do
  let packages ← pinPackages sha256 roots registry resolved
  let controllers := applyAssignments (initializeControllers doc) resolved
  let controllers ← applySafety controllers resolved
  let controllers ← applyBuildInputs controllers resolved
  let safetyProfile ← selectSafetyProfile packages doc.safety.profile
  return {
    lockVersion
    machineHash := sha256Hex sha256 (utf8Bytes source)
    resolverVersion
    registrySource := some registrySource
    packages
    safetyProfile
    controllers }

/-- Lock a manifest as it was resolved. -/
def lock (source : String) (registry : SourcedRegistry ν) (resolved : ResolvedGraph) :
    Except (List Diagnostic) Lockfile := do
  let parsed := parseStr κ ν reader source
  let doc ← okOr parsed.doc parsed.diagnostics
  let registrySource ← okOr registry.source
    (lockError "E1406" "registry has no validated portable source descriptor")
  let lockfile ← generate sha256 roots source doc registrySource registry.toLocalRegistry resolved
  lockfile.validate.mapError fun error =>
    lockError "E1405" s!"generated lockfile violates its v{lockVersion} contract: {error}"
  return lockfile

end Lock

end Dryer.MachineLock
