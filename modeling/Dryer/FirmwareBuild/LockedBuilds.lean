import Dryer.FirmwareBuild.ControllerImage
import Dryer.Library.KeyedResults
import Dryer.MachineLock.FaithfulLocks

/-!
# Locked builds

The safety artifacts and the firmware of all controllers of a lockfile. Where the lockfile comes
from a resolution that was accepted, no controller fails, and what is made of each one is what was
resolved for it.
-/
namespace Dryer.FirmwareBuild
open Library MachineSchema MachineParser MachineResolver PackageModel MachineLock

/-! ## All controllers -/

/-- The safe states of a controller, for its edge firmware. -/
structure ControllerSafetyArtifact where
  schema : String
  controller : String
  lockHash : String
  safetyProfile : LockedPackage
  states : List LockedSafeState

section Build

variable (tools : BuildTools)

def compileController (lock : Lockfile) (controllerName : String) :
    Except BuildError ControllerSafetyArtifact := do
  lock.validate.mapError .invalidLock
  reject (lock.lockVersion < minimumLockVersion) (.unsupportedLockVersion lock.lockVersion)
  let controller ← okOr lock.controllers[controllerName]? (.unknownController controllerName)
  let safety ← okOr controller.safety (.missingSafetyConfig controllerName)
  return {
    schema := controllerSafetySchema
    controller := controllerName
    lockHash := lockHash tools lock
    safetyProfile := lock.safetyProfile
    states := sortSafetyStates safety.states }

def compileAll (lock : Lockfile) :
    Except BuildError (Std.TreeMap String ControllerSafetyArtifact) :=
  resultsByKey compare (compileController tools lock) lock.controllers.keys

def buildAll (lock : Lockfile) :
    Except BuildError (Std.TreeMap String BuiltControllerFirmware) :=
  resultsByKey compare (buildController tools lock) lock.controllers.keys

def planAll (lock : Lockfile) :
    Except BuildError (Std.TreeMap String ControllerBuildPlanArtifact) :=
  resultsByKey compare (planController tools lock) lock.controllers.keys

end Build

/-! ## One controller -/

/-- The inputs of a build that come from a build plan. -/
def LockedInputs.ofPlan (controller lockHash : String) (plan : ControllerBuildPlan)
    (safety : LockedSafetyConfig) : LockedInputs where
  controller
  lockHash
  board := plan.board
  chip := plan.chip
  targetTriple := plan.targetTriple
  toolchain := plan.toolchain
  buildProfile := plan.buildProfile
  protocolVersion := plan.protocolVersion
  abiVersion := plan.abiVersion
  flashBytes := plan.flashBytes
  ramBytes := plan.ramBytes
  bootloaderOffsetBytes := plan.bootloaderOffsetBytes
  features := plan.features
  nativeDrivers := plan.nativeDrivers
  safety

variable {tools : BuildTools} {lockfile : Lockfile} {resolved : ResolvedGraph} {name : String}
  {controller : GraphController} {locked : LockedController} {plan : ControllerBuildPlan}
  {states : List LockedSafeState}

variable (tools) in
/-- What is built for a controller of a valid lockfile, with the build plan as it was resolved. -/
theorem buildController_of_locked (hchecked : lockfile.validate = .ok ())
    (hversion : lockfile.lockVersion = lockVersion)
    (hlocked : lockfile.controllers[name]? = some locked)
    (hbuild : locked.build = some (lockBuildPlan plan))
    (hsafety : locked.safety = some ⟨controllerSafetySchema, states⟩) :
    ∃ built, buildController tools lockfile name = .ok built ∧
      built.image.schema = controllerImageSchema ∧
      built.image.toLockedInputs = .ofPlan name (lockHash tools lockfile) plan
        ⟨controllerSafetySchema, sortSafetyStates states⟩ ∧
      built.image.resolvedResources = locked.resolvedResources ∧
      built.bytes = built.image.canonicalBytes tools ∧
      built.plan = { built.image.toLockedInputs with
        schema := controllerBuildPlanSchema
        resolvedResources := built.image.resolvedResources
        expectedArtifact := expectedArtifactOf tools name built.bytes } := by
  have hrecent : ¬ lockfile.lockVersion < buildPlanMinimumLockVersion := by
    rw [hversion]
    decide
  have himage : controllerImageManifest tools lockfile name = .ok
      { LockedInputs.ofPlan name (lockHash tools lockfile) plan
          ⟨controllerSafetySchema, sortSafetyStates states⟩ with
        schema := controllerImageSchema
        resolvedResources := locked.resolvedResources } := by
    simp only [controllerImageManifest, bind_eq_ok, mapError_eq_ok, reject_eq_ok, okOr_eq_ok]
    exact ⟨(), hchecked, (), hrecent, locked, hlocked, lockBuildPlan plan, hbuild, _, hsafety, rfl⟩
  exact ⟨_, bind_eq_ok.mpr ⟨_, himage, rfl⟩, rfl, rfl, rfl, rfl, rfl⟩

theorem compileController_of_locked (hchecked : lockfile.validate = .ok ())
    (hversion : lockfile.lockVersion = lockVersion)
    (hlocked : lockfile.controllers[name]? = some locked)
    (hsafety : locked.safety = some ⟨controllerSafetySchema, states⟩) :
    compileController tools lockfile name = .ok
      { schema := controllerSafetySchema
        controller := name
        lockHash := lockHash tools lockfile
        safetyProfile := lockfile.safetyProfile
        states := sortSafetyStates states } := by
  have hrecent : ¬ lockfile.lockVersion < minimumLockVersion := by
    rw [hversion]
    decide
  simp only [compileController, bind_eq_ok, mapError_eq_ok, reject_eq_ok, okOr_eq_ok]
  exact ⟨(), hchecked, (), hrecent, locked, hlocked, _, hsafety, rfl⟩

/-- An image that reads back from its bytes passes its own verification. -/
theorem verifyControllerImage_of_built {built : BuiltControllerFirmware}
    (hbuilt : buildController tools lockfile name = .ok built)
    (hschema : built.image.schema = controllerImageSchema)
    (hbytes : built.bytes = built.image.canonicalBytes tools)
    (hread : tools.imageFromJson built.bytes = .ok built.image) :
    verifyControllerImage tools lockfile name built.plan built.bytes = .ok built.image := by
  have hplan : verifyBuildPlan tools lockfile name built.plan = .ok () :=
    verifyBuildPlan_eq_ok.mpr ⟨built, hbuilt, rfl, rfl, rfl, rfl⟩
  have hinspect : inspectControllerImage tools built.bytes = .ok built.image := by
    simp only [inspectControllerImage, bind_eq_ok, mapError_eq_ok, reject_eq_ok]
    exact ⟨built.image, hread, (), not_not.mpr hschema, (), not_not.mpr hbytes.symm, rfl⟩
  simp only [verifyControllerImage, bind_eq_ok, reject_eq_ok]
  exact ⟨(), hplan, built, hbuilt, built.image, hinspect, (), not_not.mpr rfl, (),
    not_not.mpr ⟨rfl, rfl, rfl⟩, rfl⟩

/-! ## From a resolution to firmware -/

/-- Firmware with what was resolved for a controller. -/
structure Builds (tools : BuildTools) (lockfile : Lockfile) (resolved : ResolvedGraph)
    (name : String) (controller : GraphController) (built : BuiltControllerFirmware) : Prop where
  inputs : ∃ plan states, resolved.controllerBuildPlans[name]? = some plan ∧
    pinsBoard controller.board plan.board ∧
    (states.map (LockedSafeState.qualified name)).Perm (resolved.safeStates name) ∧
    (states.Pairwise fun a b => toLex (a.component, a.resource) ≤ toLex (b.component, b.resource)) ∧
    built.image.toLockedInputs =
      .ofPlan name (lockHash tools lockfile) plan ⟨controllerSafetySchema, states⟩
  /-- Its resources are the assignments on the controller. -/
  resources : ∀ key port, built.image.resolvedResources[key]? = some port ↔
    ∃ cname, ∃ a ∈ resolved.assigned cname,
      key = s!"{cname}/{viaShort a}" ∧ splitOnce a.resource '.' = some (name, port)
  planned : planController tools lockfile name = .ok built.plan
  plan : built.plan.toLockedInputs = built.image.toLockedInputs ∧
    built.plan.resolvedResources = built.image.resolvedResources ∧
    built.plan.expectedArtifact = expectedArtifactOf tools name built.bytes
  compiled : ∃ artifact, compileController tools lockfile name = .ok artifact ∧
    artifact.states = built.image.safety.states
  verified : tools.imageFromJson built.bytes = .ok built.image →
    verifyControllerImage tools lockfile name built.plan built.bytes = .ok built.image

theorem exists_builds (hchecked : lockfile.validate = .ok ())
    (hversion : lockfile.lockVersion = lockVersion)
    (hlocked : lockfile.controllers[name]? = some locked)
    (hcaptures : CapturesController resolved name controller locked) :
    ∃ built, buildController tools lockfile name = .ok built ∧
      Builds tools lockfile resolved name controller built := by
  obtain ⟨plan, hplan, hbuild⟩ := hcaptures.build
  obtain ⟨states, hsafety, hstates⟩ := hcaptures.safety
  obtain ⟨built, hbuilt, hschema, hinputs, hresources, hbytes, hartifact⟩ :=
    buildController_of_locked tools hchecked hversion hlocked hbuild hsafety
  have hvalid := (validate_eq_ok hversion).mp hchecked
  obtain ⟨build, hok⟩ := hvalid.builds name locked hlocked
  obtain rfl := Option.some.inj (hbuild.symm.trans hok.build_eq)
  have hsorted : (sortSafetyStates states).Perm states := perm_sortBy states
  refine ⟨built, hbuilt, ?_, ?_, (buildController_eq_ok hbuilt).1, ?_, ?_, ?_⟩
  · refine ⟨plan, _, hplan, ?_, (hsorted.map _).trans hstates, pairwise_sortBy states, hinputs⟩
    rw [← hcaptures.board]
    exact hok.board
  · rw [hresources]
    exact hcaptures.resources
  · rw [hartifact]
    exact ⟨rfl, rfl, rfl⟩
  · refine ⟨_, compileController_of_locked hchecked hversion hlocked hsafety, ?_⟩
    rw [hinputs]
    rfl
  · exact verifyControllerImage_of_built hbuilt hschema hbytes

variable {ν ρ : Type} [LinearOrder ν] [DecidableEq ρ] [Semver ν ρ] {κ : Type} [Numbers κ]
  {files : PackageFiles ν} {registry : SourcedRegistry ν} {reader : DocumentReader}
  {sha256 : Bytes → String} {roots : PackageRoots} {source : String}

/-- From the lockfile of an accepted resolution, firmware is built, planned and compiled for the
controllers of the document and for no others. It has what was resolved, and passes its own
verification. -/
theorem firmware_of_resolution
    (haccepted : (resolveSource κ files reader source registry.toLocalRegistry).resolved =
      some resolved)
    (hlock : lock κ reader sha256 roots source registry resolved = .ok lockfile)
    (tools : BuildTools) :
    ∃ graph builds plans artifacts, reader.document source = .ok graph ∧
      buildAll tools lockfile = .ok builds ∧ planAll tools lockfile = .ok plans ∧
      compileAll tools lockfile = .ok artifacts ∧ ∀ name : String,
        Option.Rel (Builds tools lockfile resolved name) graph.controllers[name]? builds[name]? ∧
        Option.Rel (fun built plan => built.plan = plan) builds[name]? plans[name]? ∧
        Option.Rel (fun built artifact => artifact.states = built.image.safety.states)
          builds[name]? artifacts[name]? := by
  obtain ⟨graph, hread, hcaptures, hversion, hchecked⟩ := captures_of_lock haccepted hlock
  have hdocument (name : String) : name ∈ lockfile.controllers ↔ name ∈ graph.controllers :=
    (mem_iff_of_rel (hcaptures.controllers name)).symm
  have hmade (name : String) (controller : GraphController)
      (hcontroller : graph.controllers[name]? = some controller) :
      ∃ built, buildController tools lockfile name = .ok built ∧
        Builds tools lockfile resolved name controller built := by
    obtain ⟨locked, hlocked, hcontroller⟩ := hcaptures.exists_locked hcontroller
    exact exists_builds hchecked hversion hlocked hcontroller
  obtain ⟨builds, hbuilds, hrel⟩ := exists_resultsByKey hdocument hmade
  have hbuilt (name : String) : name ∈ lockfile.controllers ↔ name ∈ builds :=
    (hdocument name).trans (mem_iff_of_rel (hrel name))
  have hof (name : String) (built : BuiltControllerFirmware) (h : builds[name]? = some built) :
      ∃ controller, Builds tools lockfile resolved name controller built := by
    have hname := hrel name
    rw [h] at hname
    generalize graph.controllers[name]? = controller at hname
    obtain ⟨hcontroller⟩ := hname
    exact ⟨_, hcontroller⟩
  obtain ⟨plans, hplans, hplansRel⟩ : ∃ plans, planAll tools lockfile = .ok plans ∧
      ∀ name : String,
        Option.Rel (fun built plan => built.plan = plan) builds[name]? plans[name]? := by
    apply exists_resultsByKey hbuilt
    intro name built h
    obtain ⟨_, hbuilt⟩ := hof name built h
    exact ⟨built.plan, hbuilt.planned, rfl⟩
  obtain ⟨artifacts, hartifacts, hartifactsRel⟩ :
      ∃ artifacts, compileAll tools lockfile = .ok artifacts ∧ ∀ name : String,
        Option.Rel (fun built artifact => artifact.states = built.image.safety.states)
          builds[name]? artifacts[name]? := by
    apply exists_resultsByKey hbuilt
    intro name built h
    obtain ⟨_, hbuilt⟩ := hof name built h
    exact hbuilt.compiled
  refine ⟨graph, builds, plans, artifacts, hread, hbuilds, hplans, hartifacts, ?_⟩
  intro name
  exact ⟨hrel name, hplansRel name, hartifactsRel name⟩

/-- The firmware of the machine on the bench. -/
theorem bench_firmware : ∃ resolved lockfile, benchLock chipDependency resolved = .ok lockfile ∧
    ∀ tools, ∃ graph builds plans artifacts,
      (benchReader steppedGraph).document "" = .ok graph ∧
      buildAll tools lockfile = .ok builds ∧ planAll tools lockfile = .ok plans ∧
      compileAll tools lockfile = .ok artifacts ∧ ∀ name : String,
        Option.Rel (Builds tools lockfile resolved name) graph.controllers[name]? builds[name]? ∧
        Option.Rel (fun built plan => built.plan = plan) builds[name]? plans[name]? ∧
        Option.Rel (fun built artifact => artifact.states = built.image.safety.states)
          builds[name]? artifacts[name]? := by
  obtain ⟨resolved, lockfile, haccepted, hlock⟩ := exists_benchLock
  exact ⟨resolved, lockfile, hlock, firmware_of_resolution haccepted hlock⟩

end Dryer.FirmwareBuild
