import Dryer.FirmwareFlash.DryRun

/-!
# Faithful plans

A plan that comes out is about what is locked: the build, the package of the board and the bytes of
the artifact. It never says that the controller is ready to be flashed.
-/
namespace Dryer.FirmwareFlash
open Library FirmwareBuild MachineLock MachineSchema PackageModel

variable {ν ρ : Type} [LinearOrder ν] [Semver ν ρ] {host : Host ν}

/-- The package of a locked board is in the registry with the locked hashes. -/
structure BoardPinned (host : Host ν) (registry : LocalRegistry ν) (boardLock : LockedPackage)
    (package : LoadedPackage ν) : Prop where
  found : ∃ boardRef : PackageRef ν, PackageRef.parse boardLock.id = .ok boardRef ∧
    registry.findVersion boardRef.namespace boardRef.name boardRef.version = some package
  manifest : ∃ manifest, host.read s!"{package.dir}/package.yaml" = .ok manifest ∧
    sha256Hex host.tools.sha256 manifest = boardLock.manifestHash
  content : ¬ boardLock.contentHash.isEmpty →
    package.contentHash host.tools.sha256 host.roots = .ok boardLock.contentHash

theorem boardPinned_of_lockedBoardPackage {lock : Lockfile} {registry : LocalRegistry ν}
    {boardLock : LockedPackage} {package : LoadedPackage ν}
    (h : lockedBoardPackage host lock registry boardLock = .ok package) :
    BoardPinned host registry boardLock package := by
  simp only [lockedBoardPackage, checkManifest, bind_eq_ok, mapError_eq_ok, okOr_eq_ok,
    reject_eq_ok] at h
  obtain ⟨boardRef, hparse, found, hfound, _, ⟨manifest, hread, hhash⟩, _, hcontent, h⟩ := h
  obtain rfl := Except.ok.inj h
  refine ⟨⟨boardRef, hparse, hfound⟩, ⟨manifest, hread, not_not.mp hhash⟩, ?_⟩
  intro hsome
  obtain ⟨_, -, hcontent⟩ := bind_eq_ok.mp hcontent
  rw [if_pos (by simpa using hsome)] at hcontent
  simp only [bind_eq_ok, mapError_eq_ok, reject_eq_ok] at hcontent
  obtain ⟨observed, hobserved, hequal⟩ := hcontent
  rw [hobserved, not_not.mp hequal]

omit [LinearOrder ν] in
/-- What is planned of an artifact whose build plan is that of a build. -/
theorem planArtifact_eq_ok {request : DryRunRequest ν} {artifact : ArtifactPlan}
    {built : BuiltControllerFirmware}
    (h : planArtifact host request = .ok artifact)
    (hbuilt : buildController host.tools request.lock request.controller = .ok built)
    (hsame : request.buildPlan.Same built.plan) :
    artifact.deployable = false ∧ ∃ bytes, host.read request.artifact.path = .ok bytes ∧
      artifact.sizeBytes = bytes.length ∧
      (artifact.hashMatches = true ↔ bytes = built.bytes) := by
  obtain ⟨bytes, hread, h⟩ := bind_eq_ok.mp h
  rw [mapError_eq_ok] at hread
  have hexpected : request.buildPlan.expectedArtifact =
      expectedArtifactOf host.tools request.controller built.bytes :=
    hsame.2.2.2.trans (buildController_eq_ok hbuilt).2
  dsimp only at h
  by_cases hhash : sha256Hex host.tools.sha256 bytes = request.buildPlan.expectedArtifact.sha256
  · rw [if_pos hhash] at h
    obtain ⟨image, himage, h⟩ := bind_eq_ok.mp h
    obtain rfl := Except.ok.inj h
    have hbytes := bytes_of_verifyControllerImage (mapError_eq_ok.mp himage) hbuilt
    exact ⟨by rw [hexpected]; rfl, bytes, hread, rfl, iff_of_true (decide_eq_true hhash) hbytes⟩
  · rw [if_neg hhash] at h
    obtain rfl := Except.ok.inj h
    refine ⟨by rw [hexpected]; rfl, bytes, hread, rfl, ?_⟩
    simp only [hhash, decide_false, Bool.false_eq_true, false_iff]
    rintro rfl
    rw [hexpected] at hhash
    exact hhash rfl

/-- An artifact that is not deployable stands in the way. -/
theorem blockedReasonsOf_ne_nil (selection : DeviceSelection) {artifact : ArtifactPlan}
    (h : artifact.deployable = false) : blockedReasonsOf selection artifact ≠ [] := by
  simp [blockedReasonsOf, h]

/-- The board of a controller has one package in the lock. -/
theorem exactLockedBoard_eq_ok {lock : Lockfile} {board : String} {boardLock : LockedPackage} :
    exactLockedBoard lock board = .ok boardLock ↔
      (lock.packages.filter fun package => startsWith package.id s!"{board}@") = [boardLock] := by
  unfold exactLockedBoard
  split
  · rename_i heq
    rw [heq, Except.ok.injEq, List.cons.injEq, and_iff_left rfl]
  · rename_i heq
    simp [heq]
  · rename_i hone _
    constructor
    · rintro ⟨⟩
    · exact fun h => absurd h (hone boardLock)

/-- A valid lock of version 5 has a source. -/
theorem exists_source_of_validate {lock : Lockfile} (h : lock.validate = .ok ())
    (hversion : 5 ≤ lock.lockVersion) : ∃ source, lock.registrySource = some source := by
  have htwo : 2 ≤ lock.lockVersion := by omega
  have hthree : 3 ≤ lock.lockVersion := by omega
  have hfour : 4 ≤ lock.lockVersion := by omega
  simp only [Lockfile.validate, htwo, hthree, hfour, hversion, if_true, bind_eq_ok, okOr_eq_ok] at h
  obtain ⟨_, -, _, -, _, -, source, hsource, -⟩ := h
  exact ⟨source, hsource⟩

omit [LinearOrder ν] in
theorem source_of_checkRegistrySource {request : DryRunRequest ν} {source : RegistrySource}
    {u : Unit} (h : checkRegistrySource request = .ok u) (hversion : 5 ≤ request.lock.lockVersion)
    (hsource : request.lock.registrySource = some source) :
    request.registry.source = some source := by
  unfold checkRegistrySource at h
  rw [hsource] at h
  dsimp only at h
  rw [if_pos hversion] at h
  simp only [bind_eq_ok, okOr_eq_ok, reject_eq_ok, not_not] at h
  obtain ⟨observed, hobserved, rfl⟩ := h
  exact hobserved

/-- What a plan says of a request is so. -/
structure FaithfulPlan (host : Host ν) (request : DryRunRequest ν) (plan : FlashPlan) : Prop where
  build : ∃ built, buildController host.tools request.lock request.controller = .ok built ∧
    planController host.tools request.lock request.controller = .ok built.plan ∧
    request.buildPlan.Same built.plan ∧
    (plan.artifact.hashMatches = true ↔ host.read request.artifact.path = .ok built.bytes)
  board : ∃ controller boardLock package,
    request.lock.controllers[request.controller]? = some controller ∧
    (request.lock.packages.filter fun package =>
      startsWith package.id s!"{controller.board}@") = [boardLock] ∧
    plan.board = boardLock.id ∧
    BoardPinned host request.registry.toLocalRegistry boardLock package
  source : 5 ≤ request.lock.lockVersion → ∃ source,
    request.lock.registrySource = some source ∧ request.registry.source = some source
  lockHash : plan.lockHash = FirmwareBuild.lockHash host.tools request.lock
  notReady : plan.ready = false

/-- Every plan is faithful, whatever devices there are. -/
theorem planDryRun_faithful {κ : Type} [Numbers κ] {request : DryRunRequest ν} {plan : FlashPlan}
    (h : planDryRun κ host request = .ok plan) : FaithfulPlan host request plan := by
  simp only [planDryRun, bind_eq_ok, mapError_eq_ok, okOr_eq_ok, verifyBuildPlan_eq_ok] at h
  obtain ⟨_, hvalid, _, hsource, _, -, controller, hcontroller, _, ⟨built, hbuilt, hsame⟩,
    boardLock, hboard, package, hpackage, ⟨defaultMethod, method⟩, -, artifact, hartifact, h⟩ := h
  obtain rfl := Except.ok.inj h
  obtain ⟨hdeployable, bytes, hread, -, hmatches⟩ := planArtifact_eq_ok hartifact hbuilt hsame
  refine ⟨⟨built, hbuilt, (buildController_eq_ok hbuilt).1, hsame, ?_⟩,
    ⟨controller, boardLock, package, hcontroller, exactLockedBoard_eq_ok.mp hboard, rfl,
      boardPinned_of_lockedBoardPackage hpackage⟩, ?_, rfl, ?_⟩
  · rw [hmatches, hread, Except.ok.injEq]
  · intro hversion
    obtain ⟨source, hlocked⟩ := exists_source_of_validate hvalid hversion
    exact ⟨source, hlocked, source_of_checkRegistrySource hsource hversion hlocked⟩
  · exact List.isEmpty_eq_false_iff.mpr (blockedReasonsOf_ne_nil _ hdeployable)

/-! ## A board on the bench -/

def benchMethod : FlashMethod where
  transport := "usb"
  select :=
    { usbVid := 0x1209
      usbPid := 0xd003
      serialNumber := none
      manufacturer := none
      product := none }
  enterBootloader := ["Hold BOOT and press RESET."]
  verify := "sha256"
  recovery := ["Repeat with BOOT held."]

def benchBoard : BoardPackageFile where
  chip := none
  connectors := ∅
  transports := ∅
  flash := some
    { defaultMethod := "dfu"
      methods := .ofList [("dfu", benchMethod)] }

def benchFiles : PackageFiles CoreVersion where
  kind _ := .board
  readManifest dir := .ok dir
  board _ := .ok benchBoard
  chip _ := .error "no chip"
  device _ := .error "no device"
  machine _ := .error "no machine"
  safetyProfile _ := .error "no profile"
  workflow _ := .error "no workflow"
  spans _ := ∅

def benchPackage : LoadedPackage CoreVersion where
  reference := ⟨"boards", "mini", .ofNumbers 1 0 0⟩
  dir := "packages/boards/mini"
  manifest := { dependencies := ∅ }

def benchRoots : PackageRoots := fun _ =>
  .ok (.directory (.cons ⟨"package.yaml", true⟩ (.file (.ok (utf8Bytes "board"))) .nil))

/-- In the place of SHA-256, the bytes themselves. -/
def benchSha256 (bytes : Bytes) : String :=
  String.ofList (bytes.map fun byte => Char.ofNat byte.toNat)

def benchController : LockedController where
  board := "boards/mini"
  resolvedResources := ∅
  safety := some { schema := controllerSafetySchema, states := [] }
  build := some
    { schema := controllerBuildSchema
      board := "boards/mini@1.0.0"
      chip := "chips/mcu@1.0.0"
      targetTriple := "thumbv7em-none-eabihf"
      toolchain := "rust-1.80"
      buildProfile := "release"
      protocolVersion := "dryer.control/v1"
      abiVersion := "dryer.abi/v1"
      flashBytes := 524288
      ramBytes := 131072
      bootloaderOffsetBytes := 32768
      features := []
      nativeDrivers := [] }

def benchLock : Lockfile where
  lockVersion := 4
  machineHash := "sha256:machine"
  resolverVersion := "0.1.0"
  registrySource := none
  packages := [
    { id := "boards/mini@1.0.0"
      manifestHash := sha256Hex benchSha256 (utf8Bytes "board")
      contentHash := (benchPackage.contentHash benchSha256 benchRoots).toOption.getD "" },
    { id := "chips/mcu@1.0.0", manifestHash := "sha256:mcu", contentHash := "sha256:mcu" }]
  safetyProfile :=
    { id := "safety-profiles/bench@1.0.0"
      manifestHash := "sha256:profile"
      contentHash := "sha256:profile" }
  controllers := .ofList [("main", benchController)]

def benchTools : BuildTools where
  lockJson lock := utf8Bytes lock.machineHash
  imageJson image := s!"{image.controller} {image.lockHash}"
  imageFromJson _ := .error "no image"
  sha256 := benchSha256

/-- The tools with a reader of the one image. -/
def readingTools : BuildTools :=
  { benchTools with
    imageFromJson := fun _ =>
      (controllerImageManifest benchTools benchLock "main").mapError BuildError.toText }

def benchBuilt : BuiltControllerFirmware :=
  (buildController readingTools benchLock "main").toOption.get (by decide +kernel)

def benchHost : Host CoreVersion where
  tools := readingTools
  roots := benchRoots
  files := benchFiles
  read path :=
    if path = "packages/boards/mini/package.yaml" then .ok (utf8Bytes "board")
    else .ok benchBuilt.bytes

def benchRequest : DryRunRequest CoreVersion where
  controller := "main"
  lock := benchLock
  buildPlan := benchBuilt.plan
  registry := { packages := [benchPackage], source := none }
  discoveredDevices := [benchDevice none]
  artifact := { path := "build/main/firmware.dryer.json", signature := none }
  expectedCurrentFirmware := "dryer-1.0"

/-- One device and the artifact of the build: the plan is not ready all the same. -/
theorem bench_plan_faithful : ∃ plan, planDryRun ℚ benchHost benchRequest = .ok plan ∧
    plan.artifact.hashMatches = true ∧ plan.deviceSelection.status = .unique ∧
    FaithfulPlan benchHost benchRequest plan := by
  have hplan : (planDryRun ℚ benchHost benchRequest).toOption.any fun plan =>
      plan.artifact.hashMatches ∧ plan.deviceSelection.status = .unique := by decide +kernel
  cases h : planDryRun ℚ benchHost benchRequest with
  | error e =>
    rw [h] at hplan
    cases hplan
  | ok plan =>
    rw [h] at hplan
    obtain ⟨hmatches, hunique⟩ := of_decide_eq_true hplan
    exact ⟨plan, rfl, hmatches, hunique, planDryRun_faithful h⟩

end Dryer.FirmwareFlash
