import Dryer.MachineResolver.ResolvedGraph
import Dryer.PackageModel.RegistrySources

/-!
# Lockfiles

The capture of one resolution: the packages with the hashes of their contents, and for each
controller its resources, its safe states and the inputs of its build. A lockfile is checked before
anything is made from it.
-/
namespace Dryer.MachineLock
open Library MachineSchema PackageModel

def lockVersion : ℕ := 5

def controllerSafetySchema : String := "dryer.controller-safety/v1"

def controllerBuildSchema : String := "dryer.controller-build-plan/v1"

structure LockedPackage where
  /-- `namespace/name@version`. -/
  id : String
  manifestHash : String
  contentHash : String

structure LockedSafeState where
  component : String
  «class» : String
  /-- The connector on the controller. -/
  resource : String
  state : SafeState
  heartbeatTimeoutUs : Option ℕ
  sensor : Option String
  deriving DecidableEq

structure LockedSafetyConfig where
  schema : String
  states : List LockedSafeState
  deriving DecidableEq

structure LockedBuildConfig where
  schema : String
  board : String
  chip : String
  targetTriple : String
  toolchain : String
  buildProfile : String
  protocolVersion : String
  abiVersion : String
  flashBytes : ℕ
  ramBytes : ℕ
  bootloaderOffsetBytes : ℕ
  features : List String
  nativeDrivers : List String

structure LockedController where
  board : String
  /-- The connectors by `component/via`. -/
  resolvedResources : Std.TreeMap String String
  safety : Option LockedSafetyConfig
  build : Option LockedBuildConfig

structure Lockfile where
  lockVersion : ℕ
  machineHash : String
  resolverVersion : String
  registrySource : Option RegistrySource
  packages : List LockedPackage
  safetyProfile : LockedPackage
  controllers : Std.TreeMap String LockedController

/-! ## Validation -/

/-- The name that is not empty once it is trimmed, and has nothing to trim. -/
def isPlain (s : String) : Bool := !(trim s).isEmpty && trim s = s

section Validate

variable (version : ℕ)

def validatePackage : LockedPackage × ℕ → Except String Unit
  | (package, index) =>
    reject package.contentHash.isEmpty
      s!"lockfile v{version} package[{index}] '{package.id}' has no content_hash"

def validateHashes (lockfile : Lockfile) : Except String Unit := do
  lockfile.packages.zipIdx.forM (validatePackage version)
  reject lockfile.safetyProfile.contentHash.isEmpty <|
    s!"lockfile v{version} safety_profile '{lockfile.safetyProfile.id}' has no content_hash"

/-- One safe state, with the resources that have one already. -/
def validateSafeState (name : String) (resources : List String) (seen : List String)
    (state : LockedSafeState) : Except String (List String) := do
  let controller := s!"lockfile v{version} controller '{name}'"
  reject (!isPlain state.component || !isPlain state.class)
    s!"{controller} has an empty or padded safety component/class"
  reject (state.resource ∈ seen)
    s!"{controller} repeats safety state for physical resource '{state.resource}'"
  reject (state.resource ∉ resources)
    s!"{controller} safety resource '{state.resource}' is not resolved"
  reject (state.sensor.any fun sensor => !resources.contains sensor)
    (s!"{controller} safety sensor '" ++ state.sensor.getD "" ++ "' is not resolved")
  reject (state.heartbeatTimeoutUs = some 0)
    s!"{controller} safety heartbeat timeout must be positive"
  return state.resource :: seen

def validateSafety : String × LockedController → Except String Unit
  | (name, controller) => do
    let safety ← okOr controller.safety
      s!"lockfile v{version} controller '{name}' has no compiled safety configuration"
    reject (safety.schema ≠ controllerSafetySchema) <|
      s!"lockfile v{version} controller '{name}' safety schema '{safety.schema}' is not " ++
      s!"'{controllerSafetySchema}'"
    let _ ← safety.states.foldlM
      (validateSafeState version name controller.resolvedResources.values) []

/-- The package with a version that starts with the board. -/
def pinsBoard (board pinned : String) : Bool :=
  (stripPrefix pinned board).any fun suffix => suffix.toList.head? = some '@'

def validateBuild (packages : List String) : String × LockedController → Except String Unit
  | (name, controller) => do
    let prefixed := s!"lockfile v{version} controller '{name}'"
    let build ← okOr controller.build s!"{prefixed} has no compiled build configuration"
    reject (build.schema ≠ controllerBuildSchema)
      s!"{prefixed} build schema '{build.schema}' is not '{controllerBuildSchema}'"
    reject (!pinsBoard controller.board build.board)
      s!"{prefixed} build board '{build.board}' does not pin '{controller.board}'"
    (build.board :: build.chip :: build.nativeDrivers).forM fun package =>
      reject (package ∉ packages) s!"{prefixed} build input '{package}' is not in packages"
    [("target_triple", build.targetTriple), ("toolchain", build.toolchain),
        ("build_profile", build.buildProfile), ("protocol_version", build.protocolVersion),
        ("abi_version", build.abiVersion)].forM fun (field, value) =>
      reject (value.isEmpty || trim value ≠ value) s!"{prefixed} build {field} is empty or padded"
    [("protocol_version", build.protocolVersion), ("abi_version", build.abiVersion)].forM
      fun (field, value) =>
        reject (!versionedInterface value)
          s!"{prefixed} build {field} is not a versioned interface"
    reject (build.flashBytes = 0 || build.ramBytes = 0 ||
      build.flashBytes ≤ build.bootloaderOffsetBytes) s!"{prefixed} has invalid build memory layout"
    [("features", build.features), ("native_drivers", build.nativeDrivers)].forM
      fun (field, values) =>
        reject ((values.zip values.tail).any fun (left, right) => right ≤ left)
          s!"{prefixed} build {field} must be sorted and unique"
    reject (build.features.any fun feature => !validIdentifier feature)
      s!"{prefixed} build features contain an invalid identifier"

end Validate

def Lockfile.validate (lockfile : Lockfile) : Except String Unit := do
  let version := lockfile.lockVersion
  if 2 ≤ version then validateHashes version lockfile
  if 3 ≤ version then lockfile.controllers.toList.forM (validateSafety version)
  if 4 ≤ version then
    lockfile.controllers.toList.forM
      (validateBuild version (lockfile.packages.map LockedPackage.id))
  if 5 ≤ version then
    let source ← okOr lockfile.registrySource
      s!"lockfile v{version} has no registry source identity"
    source.validate.mapError fun error =>
      s!"lockfile v{version} has invalid registry source identity: {error}"

end Dryer.MachineLock
