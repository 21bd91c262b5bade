import Dryer.Library.OrderedMaps
import Dryer.Library.Sorting
import Dryer.MachineLock.Lockfile
import Mathlib.Data.Prod.Lex

/-!
# Controller images

The image and the build plan of a controller, made from the lockfile alone. What is supplied from
outside is compared with what is made.
-/
namespace Dryer.FirmwareBuild
open Library MachineLock PackageModel

def minimumLockVersion : ℕ := 3

def buildPlanMinimumLockVersion : ℕ := 4

def controllerBuildPlanSchema : String := "dryer.controller-build-plan/v2"

def controllerImageSchema : String := "dryer.controller-image/v1"

/-- What images and build plans have of a locked controller. -/
structure LockedInputs where
  controller : String
  lockHash : String
  board : String
  chip : String
  targetTriple : String
  toolchain : String
  buildProfile : String
  protocolVersion : String
  abiVersion : String
  flashBytes : ℕ
  ramBytes : ℕ
  bootloaderOffsetBytes : ℕ
  features : List String
  nativeDrivers : List String
  safety : LockedSafetyConfig
  deriving DecidableEq

structure ExpectedFirmwareArtifact where
  format : String
  path : String
  sizeBytes : ℕ
  sha256 : String
  deployable : Bool
  deriving DecidableEq

structure ControllerBuildPlanArtifact extends LockedInputs where
  schema : String
  resolvedResources : Std.TreeMap String String
  expectedArtifact : ExpectedFirmwareArtifact

structure ControllerImageManifest extends LockedInputs where
  schema : String
  resolvedResources : Std.TreeMap String String

structure BuiltControllerFirmware where
  plan : ControllerBuildPlanArtifact
  image : ControllerImageManifest
  bytes : Bytes

/-- Plans are equal field by field, their resources entry by entry. -/
def ControllerBuildPlanArtifact.Same (a b : ControllerBuildPlanArtifact) : Prop :=
  a.toLockedInputs = b.toLockedInputs ∧ a.schema = b.schema ∧
    a.resolvedResources.toList = b.resolvedResources.toList ∧
    a.expectedArtifact = b.expectedArtifact

instance (a b : ControllerBuildPlanArtifact) : Decidable (a.Same b) :=
  inferInstanceAs (Decidable (_ ∧ _))

def ControllerImageManifest.Same (a b : ControllerImageManifest) : Prop :=
  a.toLockedInputs = b.toLockedInputs ∧ a.schema = b.schema ∧
    a.resolvedResources.toList = b.resolvedResources.toList

instance (a b : ControllerImageManifest) : Decidable (a.Same b) :=
  inferInstanceAs (Decidable (_ ∧ _))

/-- The JSON of lockfiles and images, and the digits of SHA-256. -/
structure BuildTools where
  lockJson : Lockfile → Bytes
  imageJson : ControllerImageManifest → String
  imageFromJson : Bytes → Except String ControllerImageManifest
  sha256 : Bytes → String

inductive BuildError where
  | invalidLock (message : String)
  | unsupportedLockVersion (version : ℕ)
  | unknownController (controller : String)
  | missingSafetyConfig (controller : String)
  | missingBuildConfig (controller : String)
  | unsupportedBuildPlanLockVersion (version : ℕ)
  | invalidSafetyConfig (message : String)
  | invalidControllerImage (message : String)
  | buildPlanMismatch (message : String)
  deriving DecidableEq

def BuildError.toText : BuildError → String
  | invalidLock message => s!"invalid machine lock: {message}"
  | unsupportedLockVersion version => s!"lockfile v{version} cannot produce controller safety " ++
      s!"artifacts; re-lock with v{minimumLockVersion}+"
  | unknownController controller => s!"unknown locked controller '{controller}'"
  | missingSafetyConfig controller =>
    s!"controller '{controller}' has no compiled safety configuration"
  | missingBuildConfig controller =>
    s!"controller '{controller}' has no compiled build configuration"
  | unsupportedBuildPlanLockVersion version => s!"lockfile v{version} cannot produce controller " ++
      s!"build plans; re-lock with v{buildPlanMinimumLockVersion}+"
  | invalidSafetyConfig message => s!"invalid controller safety configuration: {message}"
  | invalidControllerImage message => s!"invalid controller image: {message}"
  | buildPlanMismatch message => s!"controller build plan mismatch: {message}"

def sortSafetyStates (states : List LockedSafeState) : List LockedSafeState :=
  sortBy (fun state => toLex (state.component, state.resource)) states

section Build

variable (tools : BuildTools)

def lockHash (lock : Lockfile) : String := sha256Hex tools.sha256 (tools.lockJson lock)

def ControllerImageManifest.canonicalBytes (image : ControllerImageManifest) : Bytes :=
  utf8Bytes (tools.imageJson image ++ "\n")

def controllerImageManifest (lock : Lockfile) (controllerName : String) :
    Except BuildError ControllerImageManifest := do
  lock.validate.mapError .invalidLock
  reject (lock.lockVersion < buildPlanMinimumLockVersion)
    (.unsupportedBuildPlanLockVersion lock.lockVersion)
  let controller ← okOr lock.controllers[controllerName]? (.unknownController controllerName)
  let build ← okOr controller.build (.missingBuildConfig controllerName)
  let safety ← okOr controller.safety (.missingSafetyConfig controllerName)
  return {
    schema := controllerImageSchema
    controller := controllerName
    lockHash := lockHash tools lock
    board := build.board
    chip := build.chip
    targetTriple := build.targetTriple
    toolchain := build.toolchain
    buildProfile := build.buildProfile
    protocolVersion := build.protocolVersion
    abiVersion := build.abiVersion
    flashBytes := build.flashBytes
    ramBytes := build.ramBytes
    bootloaderOffsetBytes := build.bootloaderOffsetBytes
    features := build.features
    nativeDrivers := build.nativeDrivers
    resolvedResources := controller.resolvedResources
    safety := { safety with states := sortSafetyStates safety.states } }

/-- A reference image is made to be inspected, and is never deployable. -/
def expectedArtifactOf (controllerName : String) (bytes : Bytes) : ExpectedFirmwareArtifact where
  format := controllerImageSchema
  path := s!"build/{controllerName}/firmware.dryer.json"
  sizeBytes := bytes.length
  sha256 := sha256Hex tools.sha256 bytes
  deployable := false

def buildController (lock : Lockfile) (controllerName : String) :
    Except BuildError BuiltControllerFirmware := do
  let image ← controllerImageManifest tools lock controllerName
  let bytes := image.canonicalBytes tools
  let plan : ControllerBuildPlanArtifact :=
    { image.toLockedInputs with
      schema := controllerBuildPlanSchema
      resolvedResources := image.resolvedResources
      expectedArtifact := expectedArtifactOf tools controllerName bytes }
  return { plan, image, bytes }

def planController (lock : Lockfile) (controllerName : String) :
    Except BuildError ControllerBuildPlanArtifact := do
  let built ← buildController tools lock controllerName
  return built.plan

/-- An image must have exactly the bytes of its JSON. -/
def inspectControllerImage (bytes : Bytes) : Except BuildError ControllerImageManifest := do
  let image ← (tools.imageFromJson bytes).mapError .invalidControllerImage
  reject (image.schema ≠ controllerImageSchema)
    (.invalidControllerImage s!"schema '{image.schema}' is not '{controllerImageSchema}'")
  reject (image.canonicalBytes tools ≠ bytes)
    (.invalidControllerImage "bytes are not the canonical JSON encoding")
  return image

def verifyBuildPlan (lock : Lockfile) (controllerName : String)
    (plan : ControllerBuildPlanArtifact) : Except BuildError Unit := do
  let expected ← planController tools lock controllerName
  reject (¬ plan.Same expected)
    (.buildPlanMismatch s!"controller '{controllerName}' plan does not match the locked inputs")

def verifyControllerImage (lock : Lockfile) (controllerName : String)
    (plan : ControllerBuildPlanArtifact) (bytes : Bytes) :
    Except BuildError ControllerImageManifest := do
  verifyBuildPlan tools lock controllerName plan
  let expected ← buildController tools lock controllerName
  let image ← inspectControllerImage tools bytes
  let artifact := expected.plan.expectedArtifact
  reject (bytes ≠ expected.bytes)
    (.invalidControllerImage <| s!"controller '{controllerName}' expected " ++
      s!"{artifact.sizeBytes} bytes at {artifact.sha256}, observed {bytes.length} bytes at " ++
      sha256Hex tools.sha256 bytes)
  reject (¬ image.Same expected.image)
    (.invalidControllerImage <| s!"controller '{controllerName}' manifest does not match the " ++
      "locked inputs")
  return image

end Build

variable {tools : BuildTools} {lock : Lockfile} {controllerName : String}
  {plan : ControllerBuildPlanArtifact}

/-- The plan of a build expects the artifact of the same build. -/
theorem buildController_eq_ok {built : BuiltControllerFirmware}
    (h : buildController tools lock controllerName = .ok built) :
    planController tools lock controllerName = .ok built.plan ∧
      built.plan.expectedArtifact = expectedArtifactOf tools controllerName built.bytes := by
  refine ⟨by rw [planController, h]; rfl, ?_⟩
  obtain ⟨image, -, h⟩ := bind_eq_ok.mp h
  obtain rfl := Except.ok.inj h
  rfl

theorem planController_eq_ok :
    planController tools lock controllerName = .ok plan ↔
      ∃ built, buildController tools lock controllerName = .ok built ∧ built.plan = plan := by
  rw [planController, bind_eq_ok]
  exact exists_congr fun built => and_congr_right fun _ => ⟨Except.ok.inj, congrArg _⟩

theorem verifyBuildPlan_eq_ok {u : Unit} :
    verifyBuildPlan tools lock controllerName plan = .ok u ↔
      ∃ built, buildController tools lock controllerName = .ok built ∧ plan.Same built.plan := by
  simp only [verifyBuildPlan, bind_eq_ok, planController_eq_ok, reject_eq_ok, not_not]
  constructor
  · rintro ⟨_, ⟨built, hbuilt, rfl⟩, hsame⟩
    exact ⟨built, hbuilt, hsame⟩
  · rintro ⟨built, hbuilt, hsame⟩
    exact ⟨_, ⟨built, hbuilt, rfl⟩, hsame⟩

/-- A verified image has the bytes of the build. -/
theorem bytes_of_verifyControllerImage {bytes : Bytes} {image : ControllerImageManifest}
    {built : BuiltControllerFirmware}
    (h : verifyControllerImage tools lock controllerName plan bytes = .ok image)
    (hbuilt : buildController tools lock controllerName = .ok built) : bytes = built.bytes := by
  simp only [verifyControllerImage, bind_eq_ok, reject_eq_ok] at h
  obtain ⟨_, -, expected, hexpected, _, -, _, hbytes, -⟩ := h
  obtain rfl := Except.ok.inj (hbuilt.symm.trans hexpected)
  exact not_not.mp hbytes

end Dryer.FirmwareBuild
