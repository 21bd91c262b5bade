import Dryer.MachineLock.Lockfile

/-!
# Valid lockfiles

What a lockfile of the current version has when its validation passes.
-/
namespace Dryer.MachineLock
open Library MachineSchema PackageModel

variable {version : ℕ} {name : String}

/-! ## Safe states -/

structure SafeStateOk (resources : List String) (state : LockedSafeState) : Prop where
  component : isPlain state.component
  «class» : isPlain state.class
  resource : state.resource ∈ resources
  sensor : ∀ sensor, state.sensor = some sensor → sensor ∈ resources
  heartbeat : state.heartbeatTimeoutUs ≠ some 0

theorem validateSafeState_eq_ok {resources seen next : List String} {state : LockedSafeState} :
    validateSafeState version name resources seen state = .ok next ↔
      SafeStateOk resources state ∧ state.resource ∉ seen ∧ state.resource :: seen = next := by
  simp only [validateSafeState, bind_eq_ok, reject_eq_ok]
  constructor
  · rintro ⟨_, hplain, _, hseen, _, hresource, _, hsensor, _, hheartbeat, h⟩
    simp only [Bool.or_eq_true, Bool.not_eq_true', not_or, Bool.not_eq_false] at hplain
    refine ⟨⟨hplain.1, hplain.2, not_not.mp hresource, ?_, hheartbeat⟩, hseen, Except.ok.inj h⟩
    intro sensor hsome
    simpa [hsome] using hsensor
  · rintro ⟨h, hseen, rfl⟩
    refine ⟨(), by simp [h.component, h.class], (), hseen, (), not_not.mpr h.resource, (), ?_, (),
      h.heartbeat, rfl⟩
    cases hsensor : state.sensor with
    | none => simp
    | some sensor => simpa using h.sensor sensor hsensor

theorem exists_foldlM_validateSafeState {resources seen : List String}
    {states : List LockedSafeState} :
    (∃ next, states.foldlM (validateSafeState version name resources) seen = .ok next) ↔
      (∀ state ∈ states, SafeStateOk resources state) ∧
      (states.map LockedSafeState.resource).Nodup ∧
      ∀ state ∈ states, state.resource ∉ seen := by
  induction states generalizing seen with
  | nil => simp [pure, Except.pure]
  | cons state states ih =>
    simp only [List.foldlM_cons, bind_eq_ok, validateSafeState_eq_ok]
    constructor
    · rintro ⟨next, _, ⟨hok, hseen, rfl⟩, hrest⟩
      obtain ⟨hall, hnodup, hfresh⟩ := ih.mp ⟨next, hrest⟩
      refine ⟨List.forall_mem_cons.mpr ⟨hok, hall⟩, List.nodup_cons.mpr ⟨?_, hnodup⟩,
        List.forall_mem_cons.mpr ⟨hseen, ?_⟩⟩
      · intro hmem
        obtain ⟨other, hother, heq⟩ := List.mem_map.mp hmem
        exact hfresh other hother (heq ▸ List.mem_cons_self)
      · intro other hother hmem
        exact hfresh other hother (List.mem_cons_of_mem _ hmem)
    · rintro ⟨hall, hnodup, hfresh⟩
      obtain ⟨hok, hall⟩ := List.forall_mem_cons.mp hall
      obtain ⟨hfirst, hnodup⟩ := List.nodup_cons.mp hnodup
      obtain ⟨hseen, hfresh⟩ := List.forall_mem_cons.mp hfresh
      obtain ⟨next, hnext⟩ := ih.mpr ⟨hall, hnodup, fun other hother hmem => by
        obtain heq | hmem := List.mem_cons.mp hmem
        · exact hfirst (List.mem_map.mpr ⟨other, hother, heq⟩)
        · exact hfresh other hother hmem⟩
      exact ⟨next, _, ⟨hok, hseen, rfl⟩, hnext⟩

structure SafetyOk (controller : LockedController) (safety : LockedSafetyConfig) : Prop where
  safety_eq : controller.safety = some safety
  schema : safety.schema = controllerSafetySchema
  states : ∀ state ∈ safety.states, SafeStateOk controller.resolvedResources.values state
  distinct : (safety.states.map LockedSafeState.resource).Nodup

theorem validateSafety_eq_ok {controller : LockedController} :
    validateSafety version (name, controller) = .ok () ↔
      ∃ safety, SafetyOk controller safety := by
  simp only [validateSafety, bind_eq_ok, okOr_eq_ok, reject_eq_ok]
  constructor
  · rintro ⟨safety, hsafety, _, hschema, next, hstates, -⟩
    obtain ⟨hall, hnodup, -⟩ := exists_foldlM_validateSafeState.mp ⟨next, hstates⟩
    exact ⟨safety, hsafety, not_not.mp hschema, hall, hnodup⟩
  · rintro ⟨safety, h⟩
    obtain ⟨next, hnext⟩ : ∃ next, safety.states.foldlM
        (validateSafeState version name controller.resolvedResources.values) [] = .ok next :=
      exists_foldlM_validateSafeState.mpr ⟨h.states, h.distinct, by simp⟩
    exact ⟨safety, h.safety_eq, (), not_not.mpr h.schema, next, hnext, rfl⟩

/-! ## Build inputs -/

/-- Each element is less than the next one. -/
def isStrictlySorted (values : List String) : Bool :=
  !(values.zip values.tail).any fun (left, right) => right ≤ left

structure BuildOk (packages : List String) (controller : LockedController)
    (build : LockedBuildConfig) : Prop where
  build_eq : controller.build = some build
  schema : build.schema = controllerBuildSchema
  board : pinsBoard controller.board build.board
  inputs : ∀ package ∈ build.board :: build.chip :: build.nativeDrivers, package ∈ packages
  unpadded : ∀ value ∈ [build.targetTriple, build.toolchain, build.buildProfile,
    build.protocolVersion, build.abiVersion], nonemptyUnpadded value
  interfaces : ∀ value ∈ [build.protocolVersion, build.abiVersion], versionedInterface value
  flash : build.bootloaderOffsetBytes < build.flashBytes
  ram : build.ramBytes ≠ 0
  sorted : ∀ values ∈ [build.features, build.nativeDrivers], isStrictlySorted values
  features : ∀ feature ∈ build.features, validIdentifier feature

theorem validateBuild_eq_ok {packages : List String} {controller : LockedController} :
    validateBuild version packages (name, controller) = .ok () ↔
      ∃ build, BuildOk packages controller build := by
  simp only [validateBuild, bind_eq_ok, okOr_eq_ok, reject_eq_ok, forM_eq_ok, List.forall_mem_cons,
    List.not_mem_nil, false_imp_iff, implies_true, and_true, Bool.not_eq_true', Bool.or_eq_true,
    decide_eq_true_eq, not_or, not_not, ne_eq, Bool.not_eq_false, Nat.not_le]
  constructor
  · rintro ⟨build, hbuild, _, hschema, _, hboard, _, hinputs, _, hunpadded, _, hinterfaces, _,
      ⟨⟨-, hram⟩, hflash⟩, _, hsorted, hfeatures⟩
    refine ⟨build, hbuild, hschema, hboard, ?_, ?_, ?_, hflash, hram, ?_, ?_⟩
    · simpa using hinputs
    · simpa [nonemptyUnpadded] using hunpadded
    · simpa using hinterfaces
    · simpa [isStrictlySorted] using hsorted
    · simpa using hfeatures
  · rintro ⟨build, h⟩
    refine ⟨build, h.build_eq, (), h.schema, (), h.board, (), ?_, (), ?_, (), ?_, (),
      ⟨⟨Nat.ne_of_gt (Nat.zero_lt_of_lt h.flash), h.ram⟩, h.flash⟩, (), ?_, ?_⟩
    · simpa using h.inputs
    · simpa [nonemptyUnpadded] using h.unpadded
    · simpa using h.interfaces
    · simpa [isStrictlySorted] using h.sorted
    · simpa using h.features

/-! ## Lockfiles -/

/-- A lockfile of the current version that passes every check. -/
structure ValidLockfile (lockfile : Lockfile) : Prop where
  packages : ∀ package ∈ lockfile.packages, ¬ package.contentHash.isEmpty
  safetyProfile : ¬ lockfile.safetyProfile.contentHash.isEmpty
  safety : ∀ (name : String) controller, lockfile.controllers[name]? = some controller →
    ∃ safety, SafetyOk controller safety
  builds : ∀ (name : String) controller, lockfile.controllers[name]? = some controller →
    ∃ build, BuildOk (lockfile.packages.map LockedPackage.id) controller build
  source : ∃ source, lockfile.registrySource = some source ∧ source.validate = .ok ()

theorem forM_controllers_eq_ok {controllers : Std.TreeMap String LockedController}
    {check : String × LockedController → Except String Unit} {P : LockedController → Prop}
    {u : Unit}
    (hcheck : ∀ name controller, check (name, controller) = .ok () ↔ P controller) :
    controllers.toList.forM check = .ok u ↔
      ∀ (name : String) controller, controllers[name]? = some controller → P controller := by
  simp only [forM_eq_ok, Prod.forall, Std.TreeMap.mem_toList_iff_getElem?_eq_some, hcheck]

theorem validateHashes_eq_ok {lockfile : Lockfile} {u : Unit} :
    validateHashes version lockfile = .ok u ↔
      (∀ package ∈ lockfile.packages, ¬ package.contentHash.isEmpty) ∧
      ¬ lockfile.safetyProfile.contentHash.isEmpty := by
  simp only [validateHashes, bind_eq_ok, forM_eq_ok, Prod.forall, validatePackage, reject_eq_ok]
  constructor
  · rintro ⟨_, hpackages, hprofile⟩
    refine ⟨?_, hprofile⟩
    intro package hmem
    obtain ⟨i, hi, rfl⟩ := List.mem_iff_getElem.mp hmem
    exact hpackages _ i (List.mem_zipIdx_iff_getElem?.mpr (List.getElem?_eq_getElem hi))
  · rintro ⟨hpackages, hprofile⟩
    refine ⟨(), ?_, hprofile⟩
    intro package i hmem
    exact hpackages package (List.fst_mem_of_mem_zipIdx hmem)

theorem validate_eq_ok {lockfile : Lockfile} (hversion : lockfile.lockVersion = lockVersion) :
    lockfile.validate = .ok () ↔ ValidLockfile lockfile := by
  simp only [Lockfile.validate, hversion, lockVersion, Nat.reduceLeDiff, if_true, bind_eq_ok,
    validateHashes_eq_ok, forM_controllers_eq_ok (fun _ _ => validateSafety_eq_ok),
    forM_controllers_eq_ok (fun _ _ => validateBuild_eq_ok), okOr_eq_ok, mapError_eq_ok]
  constructor
  · rintro ⟨_, ⟨hpackages, hprofile⟩, _, hsafety, _, hbuilds, hsource⟩
    exact ⟨hpackages, hprofile, hsafety, hbuilds, hsource⟩
  · intro h
    exact ⟨(), ⟨h.packages, h.safetyProfile⟩, (), h.safety, (), h.builds, h.source⟩

end Dryer.MachineLock
