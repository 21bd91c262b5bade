import Dryer.FirmwareBuild.ControllerImage
import Dryer.FirmwareFlash.UsbDevices
import Dryer.PackageModel.PackageFiles

/-!
# Dry runs of flashing

The plan of flashing a controller, from the lockfile, the package of its board, the artifact and the
devices that are found. Nothing is flashed: what stands in the way is in the plan.
-/
namespace Dryer.FirmwareFlash
open Library FirmwareBuild MachineLock MachineSchema PackageModel

def flashPlanSchema : String := "dryer.flash-plan/v0.2"

structure ArtifactSpec where
  path : String
  signature : Option String

structure DryRunRequest (ν : Type) where
  controller : String
  lock : Lockfile
  buildPlan : ControllerBuildPlanArtifact
  registry : SourcedRegistry ν
  discoveredDevices : List DiscoveredUsbDevice
  artifact : ArtifactSpec
  expectedCurrentFirmware : String

structure ArtifactPlan where
  format : String
  path : String
  sizeBytes : ℕ
  expectedSha256 : String
  observedSha256 : String
  hashMatches : Bool
  deployable : Bool
  signature : Option String
  deriving DecidableEq

inductive PlanStep where
  | inspectArtifact
  | selectDevice
  | checkCurrentFirmware (expected : String)
  | enterBootloader (instruction : String)
  | flashArtifact (method transport : String)
  | verifyArtifact (method : String)
  | confirmBoard (expected : String)
  deriving DecidableEq

structure FlashPlan where
  schema : String
  mode : String
  ready : Bool
  controller : String
  lockHash : String
  /-- `namespace/name@version`, as locked. -/
  board : String
  method : String
  transport : String
  deviceSelection : DeviceSelection
  expectedCurrentFirmware : String
  artifact : ArtifactPlan
  steps : List PlanStep
  blockedReasons : List String
  recovery : List String
  deriving DecidableEq

inductive PlanError where
  | unknownController (controller : String)
  | invalidLock (message : String)
  | registryDrift (message : String)
  | registryIo (error : String)
  | invalidBoardMetadata (message : String)
  | missingFlashMetadata (board : String)
  | invalidInput (message : String)
  | buildOutput (message : String)
  | artifactIo (error : String)
  deriving DecidableEq

def PlanError.toText : PlanError → String
  | unknownController controller => s!"controller '{controller}' is not in machine.lock"
  | invalidLock message => s!"invalid machine.lock: {message}"
  | registryDrift message => s!"locked registry drift: {message}"
  | registryIo error => s!"cannot read locked registry package: {error}"
  | invalidBoardMetadata message => s!"invalid locked board metadata: {message}"
  | missingFlashMetadata board => s!"board '{board}' has no usable flash metadata"
  | invalidInput message => s!"invalid flash-plan input: {message}"
  | buildOutput message => s!"invalid locked firmware build output: {message}"
  | artifactIo error => s!"cannot read firmware artifact: {error}"

/-- Four hexadecimal digits. -/
def hexId (n : UInt16) : String := String.ofList ((Nat.toDigits 16 n.toNat).leftpad 4 '0')

/-! ## Checks -/

section Checks

variable {ν : Type} (request : DryRunRequest ν)

/-- A lock of version 5 has a source, or its validation has failed. -/
def checkRegistrySource : Except PlanError Unit :=
  match request.lock.registrySource with
  | none => .ok ()
  | some lockedSource => do
    if 5 ≤ request.lock.lockVersion then
      let observedSource ← okOr request.registry.source
        (.registryDrift "local registry has no validated portable source descriptor")
      reject (observedSource ≠ lockedSource) <| .registryDrift <|
        s!"registry source expected '{lockedSource.id}', {lockedSource.descriptorHash} at " ++
        s!"{lockedSource.uri}; observed '{observedSource.id}', {observedSource.descriptorHash} " ++
        s!"at {observedSource.uri}"

def checkInputs : Except PlanError Unit := do
  reject ((trim request.expectedCurrentFirmware).isEmpty ||
      trim request.expectedCurrentFirmware ≠ request.expectedCurrentFirmware)
    (.invalidInput "expected_current_firmware must be non-empty with no surrounding whitespace")
  reject (request.artifact.signature.any isBlank)
    (.invalidInput "artifact signature must not be empty when provided")

end Checks

def exactLockedBoard (lock : Lockfile) (board : String) : Except PlanError LockedPackage :=
  match lock.packages.filter fun package => startsWith package.id s!"{board}@" with
  | [package] => .ok package
  | [] => .error (.invalidLock s!"controller board '{board}' has no exact package pin")
  | _ => .error (.invalidLock s!"controller board '{board}' has multiple exact package pins")

/-- The machine that plans: its tools, the directories and the files of the packages, and what a
path reads as. -/
structure Host (ν : Type) where
  tools : BuildTools
  roots : PackageRoots
  files : PackageFiles ν
  read : String → Except String Bytes

section Plan

variable {ν ρ : Type} [LinearOrder ν] [Semver ν ρ] (host : Host ν)

def checkManifest (boardLock : LockedPackage) (package : LoadedPackage ν) :
    Except PlanError Unit := do
  let manifest ← (host.read s!"{package.dir}/package.yaml").mapError .registryIo
  let observedManifestHash := sha256Hex host.tools.sha256 manifest
  reject (observedManifestHash ≠ boardLock.manifestHash) <| .registryDrift
    s!"{boardLock.id} expected {boardLock.manifestHash}, observed {observedManifestHash}"

def checkContent (lockVersion : ℕ) (boardLock : LockedPackage) (package : LoadedPackage ν) :
    Except PlanError Unit := do
  reject (2 ≤ lockVersion ∧ boardLock.contentHash.isEmpty) <| .invalidLock
    s!"{boardLock.id} has no package content hash in lockfile v{lockVersion}"
  if !boardLock.contentHash.isEmpty then
    let observedContentHash ←
      (package.contentHash host.tools.sha256 host.roots).mapError .registryIo
    reject (observedContentHash ≠ boardLock.contentHash) <| .registryDrift <|
      s!"{boardLock.id} package content expected {boardLock.contentHash}, observed " ++
      observedContentHash

/-- The package of a locked board, unchanged. -/
def lockedBoardPackage (lock : Lockfile) (registry : LocalRegistry ν) (boardLock : LockedPackage) :
    Except PlanError (LoadedPackage ν) := do
  let boardRef : PackageRef ν ← (PackageRef.parse boardLock.id).mapError fun e =>
    .invalidLock s!"invalid package reference: {e.message}"
  let package ← okOr (registry.findVersion boardRef.namespace boardRef.name boardRef.version)
    (.registryDrift s!"{boardLock.id} is absent from the local registry")
  checkManifest host boardLock package
  checkContent host lock.lockVersion boardLock package
  return package

/-- How the board is flashed by default. -/
def flashMethod (κ : Type) [Numbers κ] (boardLock : LockedPackage) (package : LoadedPackage ν) :
    Except PlanError (String × FlashMethod) := do
  let board ← (package.boardPayload κ host.files).mapError fun diagnostics =>
    .invalidBoardMetadata <| String.intercalate "; " <|
      diagnostics.map fun diagnostic => s!"{diagnostic.code}: {diagnostic.message}"
  let flash ← okOr board.flash (.missingFlashMetadata boardLock.id)
  let method ← okOr flash.methods[flash.defaultMethod]?
    (.missingFlashMetadata s!"{boardLock.id} (default method '{flash.defaultMethod}')")
  return (flash.defaultMethod, method)

def planArtifact (request : DryRunRequest ν) : Except PlanError ArtifactPlan := do
  let artifactBytes ← (host.read request.artifact.path).mapError .artifactIo
  let observedSha256 := sha256Hex host.tools.sha256 artifactBytes
  let expected := request.buildPlan.expectedArtifact
  let hashMatches := observedSha256 = expected.sha256
  if hashMatches then
    let _ ← (verifyControllerImage host.tools request.lock request.controller request.buildPlan
      artifactBytes).mapError fun error => .buildOutput error.toText
  return {
    format := expected.format
    path := expected.path
    sizeBytes := artifactBytes.length
    expectedSha256 := expected.sha256
    observedSha256
    hashMatches
    deployable := expected.deployable
    signature := request.artifact.signature }

end Plan

/-! ## The plan -/

def blockedReasonsOf (selection : DeviceSelection) (artifact : ArtifactPlan) : List String :=
  (match selection.status with
    | .missing => [s!"no USB device matches {hexId selection.rule.usbVid}:" ++
        s!"{hexId selection.rule.usbPid} and all declared string constraints"]
    | .ambiguous => [s!"{selection.candidates.length} USB devices match; refine the " ++
        "board/controller selection rule before flashing"]
    | .unique => []) ++
  (if artifact.hashMatches then []
    else ["artifact sha256 does not match the expected build digest"]) ++
  (if artifact.deployable then []
    else [s!"artifact format '{artifact.format}' is an inspectable reference image, not a " ++
      "deployable controller executable"])

def planSteps (expectedCurrentFirmware defaultMethod board : String) (method : FlashMethod) :
    List PlanStep :=
  [.inspectArtifact, .selectDevice, .checkCurrentFirmware expectedCurrentFirmware] ++
    method.enterBootloader.map PlanStep.enterBootloader ++
    [.flashArtifact defaultMethod method.transport, .verifyArtifact method.verify,
      .confirmBoard board]

def planDryRun {ν ρ : Type} [LinearOrder ν] [Semver ν ρ] (κ : Type) [Numbers κ] (host : Host ν)
    (request : DryRunRequest ν) : Except PlanError FlashPlan := do
  request.lock.validate.mapError .invalidLock
  checkRegistrySource request
  checkInputs request
  let controller ← okOr request.lock.controllers[request.controller]?
    (.unknownController request.controller)
  (verifyBuildPlan host.tools request.lock request.controller request.buildPlan).mapError
    fun error => .buildOutput error.toText
  let boardLock ← exactLockedBoard request.lock controller.board
  let package ← lockedBoardPackage host request.lock request.registry.toLocalRegistry boardLock
  let (defaultMethod, method) ← flashMethod host κ boardLock package
  let artifact ← planArtifact host request
  let deviceSelection :=
    matchUsbDevices (.ofSelector method.select) request.discoveredDevices
  let blockedReasons := blockedReasonsOf deviceSelection artifact
  return {
    schema := flashPlanSchema
    mode := "dry_run"
    ready := blockedReasons.isEmpty
    controller := request.controller
    lockHash := lockHash host.tools request.lock
    board := boardLock.id
    method := defaultMethod
    transport := method.transport
    deviceSelection
    expectedCurrentFirmware := request.expectedCurrentFirmware
    artifact
    steps := planSteps request.expectedCurrentFirmware defaultMethod boardLock.id method
    blockedReasons
    recovery := method.recovery }

end Dryer.FirmwareFlash
