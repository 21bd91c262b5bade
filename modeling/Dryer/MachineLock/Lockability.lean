import Dryer.MachineLock.LockedResources
import Dryer.MachineLock.PinnedPackages
import Dryer.MachineLock.ValidLockfiles
import Dryer.MachineResolver.BuildPlans

/-!
# Lockability

Generation makes a lockfile of what the resolver accepts, and validation checks it again. The two
agree except for packages outside the closure, packages that cannot be read, memory of no bytes,
and padded classes.
-/
namespace Dryer.MachineLock
open Library MachineSchema MachineParser MachineResolver PackageModel

variable {ν ρ : Type} [LinearOrder ν] [DecidableEq ρ] [Semver ν ρ]

/-- What validation asks of a resolved graph beyond what resolution grants. -/
structure Lockable (roots : PackageRoots) (registry : LocalRegistry ν) (resolved : ResolvedGraph) :
    Prop where
  contents : Contents roots registry resolved
  inputs : ∀ (name : String) plan, resolved.controllerBuildPlans[name]? = some plan →
    ∀ input ∈ plan.board :: plan.chip :: plan.nativeDrivers, Pinned ν resolved input
  memory : ∀ (name : String) plan, resolved.controllerBuildPlans[name]? = some plan →
    plan.ramBytes ≠ 0
  classes : ∀ name, ∀ state ∈ resolved.safeStates name, isPlain state.class

variable {κ : Type} [Numbers κ] {files : PackageFiles ν} {graph : MachineGraph}
  {registry : LocalRegistry ν} {profile : SafetyProfileFile} {resolved : ResolvedGraph}
  {name : String} {controller : GraphController} {locked : LockedController}

/-! ## Safe states -/

theorem isPlain_of_validIdentifier {s : String} (h : validIdentifier s) : isPlain s := by
  have hvisible : ∀ c ∈ s.toList, isWhitespace c = false := by
    intro c hc
    have hchar := isIdentifierChar_of_validIdentifier h hc
    simp only [Bool.or_eq_true, beq_iff_eq] at hchar
    obtain ((hletter | hdigit) | rfl) | rfl := hchar
    · exact isWhitespace_of_lowercase (.inl hletter)
    · exact isWhitespace_of_digit hdigit
    · rfl
    · rfl
  have htrim : trim s = s := trim_eq_self (fun c hc => hvisible c (List.mem_of_head? hc))
    fun c hc => hvisible c (List.mem_of_getLast? hc)
  have hsome : s.isEmpty = false := by
    rw [String.isEmpty_eq_false_iff]
    rintro rfl
    cases h
  simp [isPlain, htrim, hsome]

/-- What a locked safe state has of the one that it comes from. -/
structure LockedFrom (resolved : ResolvedGraph) (name : String) (state : ControllerSafeState)
    (locked : LockedSafeState) : Prop where
  component : locked.component = state.component
  «class» : locked.class = state.class
  resource : ConnectorOf resolved name state.resource locked.resource
  sensor : ∀ port, locked.sensor = some port → ∃ sensor, ConnectorOf resolved name sensor port
  heartbeat : locked.heartbeatTimeoutUs = state.heartbeatTimeoutUs

theorem eq_of_splitOnce_point {s before after : String}
    (h : splitOnce s '.' = some (before, after)) : s = s!"{before}." ++ after := by
  obtain ⟨-, hlist⟩ := splitOnce_eq_some.mp h
  apply String.toList_inj.mp
  simp [hlist, toString]

theorem lockSafeState_eq_ok {state : ControllerSafeState} {port : String} {sensor : Option String}
    (hsplit : splitOnce state.resource '.' = some (name, port))
    (hsensor : state.sensor.mapM (localSensor name) = .ok sensor) :
    lockSafeState name state = .ok
      { component := state.component
        «class» := state.class
        resource := port
        state := state.state
        heartbeatTimeoutUs := state.heartbeatTimeoutUs
        sensor } := by
  simp only [lockSafeState, bind_eq_ok, okOr_eq_ok, reject_eq_ok]
  exact ⟨(name, port), hsplit, (), not_not.mpr rfl, sensor, hsensor, rfl⟩

theorem exists_lockedFrom {state : ControllerSafeState} (h : Grounded resolved name state) :
    ∃ locked, lockSafeState name state = .ok locked ∧ LockedFrom resolved name state locked := by
  obtain ⟨port, hport⟩ := h.resource
  obtain ⟨sensor, hsensor, hlocal⟩ : ∃ sensor,
      state.sensor.mapM (localSensor name) = (.ok sensor : Except (List Diagnostic) _) ∧
      ∀ port, sensor = some port → ∃ full, ConnectorOf resolved name full port := by
    cases hsome : state.sensor with
    | none => exact ⟨none, rfl, by simp⟩
    | some full =>
      obtain ⟨port, hport⟩ := h.sensor full hsome
      have hstrip : localSensor name full = .ok port := by
        rw [localSensor, okOr_eq_ok, eq_of_splitOnce_point hport.1, stripPrefix_append]
      refine ⟨some port, ?_, ?_⟩
      · rw [Option.mapM_some, hstrip]
        rfl
      · intro port' hport'
        obtain rfl := Option.some.inj hport'
        exact ⟨full, hport⟩
  exact ⟨_, lockSafeState_eq_ok hport.1 hsensor, rfl, rfl, hport, hlocal, rfl⟩

/-- The locked safe states of a controller come from its safe states. -/
theorem mem_locked_iff {states : List ControllerSafeState} {lockedStates : List LockedSafeState}
    (hgrounded : ∀ state ∈ states, Grounded resolved name state)
    (h : states.mapM (lockSafeState name) = .ok lockedStates) :
    (∀ locked ∈ lockedStates, ∃ state ∈ states, LockedFrom resolved name state locked) ∧
    ∀ state ∈ states, ∃ locked ∈ lockedStates, LockedFrom resolved name state locked := by
  have hone (state : ControllerSafeState) (hstate : state ∈ states) (locked : LockedSafeState)
      (hlocked : lockSafeState name state = .ok locked) :
      LockedFrom resolved name state locked := by
    obtain ⟨other, hother, hfrom⟩ := exists_lockedFrom (hgrounded state hstate)
    obtain rfl := Except.ok.inj (hlocked.symm.trans hother)
    exact hfrom
  constructor
  · intro locked hlocked
    obtain ⟨state, hstate, heq⟩ := (mem_of_mapM_eq_ok h).mp hlocked
    exact ⟨state, hstate, hone state hstate locked heq⟩
  · intro state hstate
    obtain ⟨locked, heq, hfrom⟩ := exists_lockedFrom (hgrounded state hstate)
    exact ⟨locked, (mem_of_mapM_eq_ok h).mpr ⟨state, hstate, heq⟩, hfrom⟩

theorem nodup_safeStates (h : Resolves κ files graph registry profile resolved) (name : String) :
    ((resolved.safeStates name).map ControllerSafeState.resource).Nodup := by
  have hall : (resolved.controllerSafety.values.flatten.map
      ControllerSafeState.resource).Nodup := by
    rw [h.controllerSafety_eq]
    exact nodup_controllerSafety (allErrors_bindings.hasError_eq_false.mp h.partition)
  rw [ResolvedGraph.safeStates]
  cases hstates : resolved.controllerSafety[name]? with
  | none => exact List.nodup_nil
  | some states =>
    rw [List.map_flatten, List.nodup_flatten] at hall
    exact hall.1 _ (List.mem_map_of_mem (mem_values.mpr ⟨name, hstates⟩))

theorem resource_of_lockSafeState {state : ControllerSafeState} {locked : LockedSafeState}
    (h : lockSafeState name state = .ok locked) :
    s!"{name}." ++ locked.resource = state.resource := by
  simp only [lockSafeState, bind_eq_ok, okOr_eq_ok, reject_eq_ok] at h
  obtain ⟨⟨controllerName, port⟩, hsplit, _, hname, sensor, -, h⟩ := h
  obtain rfl := Except.ok.inj h
  obtain rfl := not_not.mp hname
  exact (eq_of_splitOnce_point hsplit).symm

/-- Connectors of one controller differ where the resources do. -/
theorem nodup_lockedStates {states : List ControllerSafeState} {lockedStates : List LockedSafeState}
    (h : states.mapM (lockSafeState name) = .ok lockedStates)
    (hdistinct : (states.map ControllerSafeState.resource).Nodup) :
    (lockedStates.map LockedSafeState.resource).Nodup := by
  have hresources : (lockedStates.map LockedSafeState.resource).map (s!"{name}." ++ ·) =
      states.map ControllerSafeState.resource := by
    rw [List.map_map]
    exact map_eq_of_mapM_eq_ok h fun _ _ hlocked => resource_of_lockSafeState hlocked
  rw [← hresources] at hdistinct
  exact hdistinct.of_map _

/-- The safety of a locked controller is valid when no class is padded. -/
theorem exists_safetyOk_iff (h : Resolves κ files graph registry profile resolved)
    (hvalid : Valid κ ν graph) (hlocks : Locks resolved name controller locked) :
    (∃ safety, SafetyOk locked safety) ↔
      ∀ state ∈ resolved.safeStates name, isPlain state.class := by
  obtain ⟨lockedStates, sorted, hstates, hperm, hsafety⟩ := hlocks.safety
  have hgrounded : ∀ state ∈ resolved.safeStates name, Grounded resolved name state :=
    fun state hstate => grounded_of_mem_safeStates h hvalid hstate
  obtain ⟨hfrom, hto⟩ := mem_locked_iff hgrounded hstates
  have hport {resource port : String} (hconnector : ConnectorOf resolved name resource port) :
      port ∈ locked.resolvedResources.values := by
    obtain ⟨hsplit, cname, a, ha, rfl⟩ := hconnector
    rw [hlocks.resources]
    exact port_mem_resourcesOf h hvalid ha hsplit
  constructor
  · rintro ⟨safety, hok⟩ state hstate
    obtain rfl := Option.some.inj (hsafety.symm.trans hok.safety_eq)
    obtain ⟨lockedState, hlocked, hcomes⟩ := hto state hstate
    rw [← hcomes.class]
    exact (hok.states lockedState (hperm.mem_iff.mpr hlocked)).class
  · intro hclasses
    refine ⟨_, hsafety, rfl, ?_, ?_⟩
    · intro lockedState hlocked
      obtain ⟨state, hstate, hcomes⟩ := hfrom lockedState (hperm.mem_iff.mp hlocked)
      refine ⟨?_, ?_, hport hcomes.resource, ?_, ?_⟩
      · rw [hcomes.component]
        exact isPlain_of_validIdentifier (hgrounded state hstate).component
      · rw [hcomes.class]
        exact hclasses state hstate
      · intro port hsensor
        obtain ⟨full, hconnector⟩ := hcomes.sensor port hsensor
        exact hport hconnector
      · rw [hcomes.heartbeat]
        exact (hgrounded state hstate).heartbeat
    · exact (hperm.map _).nodup_iff.mpr
        (nodup_lockedStates hstates (nodup_safeStates h name))

/-! ## Build inputs -/

theorem isStrictlySorted_sortedUnique (values : List String) :
    isStrictlySorted (sortedUnique values) := by
  have hpair (values : List String) (h : values.Pairwise fun a b => compare a b = .lt) :
      isStrictlySorted values := by
    induction values with
    | nil => rfl
    | cons first rest ih =>
      obtain ⟨hfirst, hrest⟩ := List.pairwise_cons.mp h
      cases rest with
      | nil => rfl
      | cons second rest =>
        have hlt : first < second := compare_lt_iff_lt.mp (hfirst second List.mem_cons_self)
        have hsorted := ih hrest
        simp only [isStrictlySorted, List.tail_cons, Bool.not_eq_true'] at hsorted ⊢
        rw [List.zip_cons_cons, List.any_cons, hsorted, Bool.or_false, decide_eq_false_iff_not]
        exact not_le.mpr hlt
  exact hpair _ (pairwise_sortedUnique values)

theorem pinsBoard_append (board version : String) : pinsBoard board s!"{board}@{version}" := by
  have hstrip : stripPrefix s!"{board}@{version}" board = some s!"@{version}" := by
    have hsplit : s!"{board}@{version}" = board ++ s!"@{version}" := by
      simp [toString, String.append_assoc]
    rw [hsplit]
    exact stripPrefix_append _ _
  rw [pinsBoard, hstrip]
  simp [toString]

/-- The build of a locked controller is valid when its packages are pinned and there is memory. -/
theorem exists_buildOk_iff (h : Resolves κ files graph registry profile resolved)
    (hcontroller : graph.controllers[name]? = some controller)
    (hlocks : Locks resolved name controller locked) {plan : ControllerBuildPlan}
    (hplan : resolved.controllerBuildPlans[name]? = some plan) (packages : List String) :
    (∃ build, BuildOk packages locked build) ↔
      (∀ input ∈ plan.board :: plan.chip :: plan.nativeDrivers, input ∈ packages) ∧
      plan.ramBytes ≠ 0 := by
  have hbuild : locked.build = some (lockBuildPlan plan) := by
    rw [hlocks.build, hplan, Option.map_some]
  obtain ⟨controller', hcontroller', hsound⟩ := h.soundPlan hplan
  obtain rfl := Option.some.inj (hcontroller.symm.trans hcontroller')
  constructor
  · rintro ⟨build, hok⟩
    obtain rfl := Option.some.inj (hbuild.symm.trans hok.build_eq)
    exact ⟨hok.inputs, hok.ram⟩
  · rintro ⟨hinputs, hram⟩
    obtain ⟨version, hboard⟩ := hsound.board
    obtain ⟨features, hfeatures, hidentifiers⟩ := hsound.features
    obtain ⟨drivers, hdrivers⟩ := hsound.drivers
    refine ⟨_, hbuild, rfl, ?_, hinputs, hsound.unpadded, hsound.interfaces, hsound.flash, hram,
      ?_, ?_⟩
    · rw [hlocks.board, lockBuildPlan, hboard]
      exact pinsBoard_append _ _
    · simp only [lockBuildPlan, hfeatures, hdrivers, List.forall_mem_cons, List.not_mem_nil,
        false_imp_iff, implies_true, and_true]
      exact ⟨isStrictlySorted_sortedUnique _, isStrictlySorted_sortedUnique _⟩
    · intro feature hfeature
      rw [lockBuildPlan, hfeatures, mem_sortedUnique] at hfeature
      exact hidentifiers feature hfeature

/-! ## Locking what the resolver accepts -/

variable {reader : DocumentReader} {sha256 : Bytes → String} {roots : PackageRoots}
  {source : String}

omit [DecidableEq ρ] in
theorem generate_eq_ok {doc : MachineGraph} {descriptor : RegistrySource} {lockfile : Lockfile} :
    generate sha256 roots source doc descriptor registry resolved = .ok lockfile ↔
      ∃ packages safe built safetyProfile,
        pinPackages sha256 roots registry resolved = .ok packages ∧
        applySafety (applyAssignments (initializeControllers doc) resolved) resolved = .ok safe ∧
        applyBuildInputs safe resolved = .ok built ∧
        selectSafetyProfile packages doc.safety.profile = .ok safetyProfile ∧
        lockfile =
          { lockVersion
            machineHash := sha256Hex sha256 (utf8Bytes source)
            resolverVersion
            registrySource := some descriptor
            packages
            safetyProfile
            controllers := built } := by
  simp only [generate, bind_eq_ok]
  constructor
  · rintro ⟨packages, hpackages, safe, hsafe, built, hbuilt, safetyProfile, hprofile, h⟩
    exact ⟨packages, safe, built, safetyProfile, hpackages, hsafe, hbuilt, hprofile,
      (Except.ok.inj h).symm⟩
  · rintro ⟨packages, safe, built, safetyProfile, hpackages, hsafe, hbuilt, hprofile, rfl⟩
    exact ⟨packages, hpackages, safe, hsafe, built, hbuilt, safetyProfile, hprofile, rfl⟩

/-- A manifest that the resolver accepts reads as a valid document, which passes all phases. -/
theorem accepted_of_resolveSource
    (h : (resolveSource κ files reader source registry).resolved = some resolved) :
    ∃ graph profile, reader.document source = .ok graph ∧ Valid κ ν graph ∧
      Resolves κ files graph registry profile resolved := by
  unfold resolveSource parseStr at h
  cases hread : reader.document source with
  | error e =>
    rw [hread] at h
    cases h
  | ok graph =>
    rw [hread] at h
    dsimp only at h
    split at h
    · cases h
    · rename_i hnone
      dsimp only at h
      obtain ⟨profile, hresolves⟩ := resolves_of_resolveDoc h
      exact ⟨graph, profile, rfl, hasError_validate.mp (Bool.eq_false_of_not_eq_true hnone),
        hresolves⟩

omit [DecidableEq ρ] in
theorem lock_eq_ok {registry : SourcedRegistry ν} {descriptor : RegistrySource}
    (hread : reader.document source = .ok graph) (hsource : registry.source = some descriptor)
    {lockfile : Lockfile} :
    lock κ reader sha256 roots source registry resolved = .ok lockfile ↔
      generate sha256 roots source graph descriptor registry.toLocalRegistry resolved =
        .ok lockfile ∧ lockfile.validate = .ok () := by
  simp only [lock, parseStr, hread, hsource, okOr, bind_eq_ok, mapError_eq_ok]
  constructor
  · rintro ⟨_, hdoc, _, hdescriptor, generated, hgenerated, _, hvalid, h⟩
    obtain rfl := Except.ok.inj hdoc
    obtain rfl := Except.ok.inj hdescriptor
    obtain rfl := Except.ok.inj h
    exact ⟨hgenerated, hvalid⟩
  · rintro ⟨hgenerated, hvalid⟩
    exact ⟨graph, rfl, descriptor, rfl, lockfile, hgenerated, (), hvalid, rfl⟩

/-- What is generated and valid was lockable. -/
theorem lockable_of_generate (h : Resolves κ files graph registry profile resolved)
    (hvalid : Valid κ ν graph)
    (hunchanged : ∀ package ∈ registry.packages, package.isUnchanged roots)
    {descriptor : RegistrySource} {lockfile : Lockfile}
    (hgenerated : generate sha256 roots source graph descriptor registry resolved = .ok lockfile)
    (hchecked : lockfile.validate = .ok ()) : Lockable roots registry resolved := by
  obtain ⟨packages, safe, built, safetyProfile, hpackages, hsafe, hbuilt, -, rfl⟩ :=
    generate_eq_ok.mp hgenerated
  have hlockfile := (validate_eq_ok rfl).mp hchecked
  have hplans (name : String) (plan : ControllerBuildPlan)
      (hplan : resolved.controllerBuildPlans[name]? = some plan) :
      (∀ input ∈ plan.board :: plan.chip :: plan.nativeDrivers,
        input ∈ packages.map LockedPackage.id) ∧ plan.ramBytes ≠ 0 := by
    obtain ⟨controller, hcontroller, -⟩ := h.soundPlan hplan
    obtain ⟨locked, hlocked, hlocks⟩ := exists_locks hsafe hbuilt hcontroller
    have hbuild := hlockfile.builds name locked hlocked
    exact (exists_buildOk_iff h hcontroller hlocks hplan _).mp hbuild
  refine ⟨(exists_pinPackages hunchanged).mp ⟨packages, hpackages⟩, ?_, ?_, ?_⟩
  · intro name plan hplan input hinput
    exact (mem_ids_iff hpackages).mp ((hplans name plan hplan).1 input hinput)
  · intro name plan hplan
    exact (hplans name plan hplan).2
  · intro name state hstate
    obtain ⟨controller, hcontroller⟩ := Option.isSome_iff_exists.mp
      (Std.TreeMap.mem_iff_isSome_getElem?.mp (mem_controllers_of_safeStates h hvalid hstate))
    obtain ⟨locked, hlocked, hlocks⟩ := exists_locks hsafe hbuilt hcontroller
    exact (exists_safetyOk_iff h hvalid hlocks).mp (hlockfile.safety name locked hlocked) state
      hstate

/-- What is lockable is generated, and valid. -/
theorem exists_generate (h : Resolves κ files graph registry profile resolved)
    (hvalid : Valid κ ν graph)
    (hunchanged : ∀ package ∈ registry.packages, package.isUnchanged roots)
    (hversions : ∀ package ∈ registry.packages, Semver.parseVersion
      (Semver.versionText package.reference.version) = .ok package.reference.version)
    {descriptor : RegistrySource} (hdescriptor : descriptor.validate = .ok ())
    (hlockable : Lockable roots registry resolved) :
    ∃ lockfile, generate sha256 roots source graph descriptor registry resolved = .ok lockfile ∧
      lockfile.validate = .ok () := by
  obtain ⟨packages, hpackages⟩ : ∃ packages,
      pinPackages sha256 roots registry resolved = .ok packages :=
    (exists_pinPackages hunchanged).mpr hlockable.contents
  obtain ⟨safe, hsafe⟩ : ∃ safe, applySafety
      (applyAssignments (initializeControllers graph) resolved) resolved = .ok safe := by
    apply exists_applySafety
    · intro name hname
      exact mem_controllers_of_controllerSafety h hvalid hname
    · intro name state hstate
      obtain ⟨locked, hlocked, -⟩ := exists_lockedFrom (grounded_of_mem_safeStates h hvalid hstate)
      exact ⟨locked, hlocked⟩
  obtain ⟨built, hbuilt⟩ : ∃ built, applyBuildInputs safe resolved = .ok built := by
    apply exists_applyBuildInputs hsafe
    intro name hname
    obtain ⟨plan, hplan⟩ :=
      Option.isSome_iff_exists.mp (Std.TreeMap.mem_iff_isSome_getElem?.mp hname)
    obtain ⟨controller, hcontroller, -⟩ := h.soundPlan hplan
    exact Std.TreeMap.mem_iff_isSome_getElem?.mpr (Option.isSome_of_eq_some hcontroller)
  obtain ⟨safetyProfile, hprofile⟩ := exists_selectSafetyProfile h hversions hpackages
  refine ⟨_, generate_eq_ok.mpr
    ⟨packages, safe, built, safetyProfile, hpackages, hsafe, hbuilt, hprofile, rfl⟩,
    (validate_eq_ok rfl).mpr ⟨?_, ?_, ?_, ?_, ⟨descriptor, rfl, hdescriptor⟩⟩⟩
  · intro package hpackage
    exact contentHash_of_pinPackages hpackages hpackage
  · exact contentHash_of_pinPackages hpackages (mem_of_selectSafetyProfile hprofile)
  · intro name locked hlocked
    obtain ⟨controller, -, hlocks⟩ := exists_controller hsafe hbuilt hlocked
    exact (exists_safetyOk_iff h hvalid hlocks).mpr (hlockable.classes name)
  · intro name locked hlocked
    obtain ⟨controller, hcontroller, hlocks⟩ := exists_controller hsafe hbuilt hlocked
    obtain ⟨plan, hplan⟩ := h.exists_plan hcontroller
    refine (exists_buildOk_iff h hcontroller hlocks hplan _).mpr
      ⟨?_, hlockable.memory name plan hplan⟩
    intro input hinput
    exact (mem_ids_iff hpackages).mpr (hlockable.inputs name plan hplan input hinput)

/-- What the resolver accepts is locked exactly when it is lockable: from a registry with a valid
source, whose packages have not changed, and whose versions read back from their texts. -/
theorem lock_succeeds_iff {registry : SourcedRegistry ν}
    (hsource : ∃ descriptor, registry.source = some descriptor ∧ descriptor.validate = .ok ())
    (hunchanged : ∀ package ∈ registry.packages, package.isUnchanged roots)
    (hversions : ∀ package ∈ registry.packages, Semver.parseVersion
      (Semver.versionText package.reference.version) = .ok package.reference.version)
    (haccepted : (resolveSource κ files reader source registry.toLocalRegistry).resolved =
      some resolved) :
    (∃ lockfile, lock κ reader sha256 roots source registry resolved = .ok lockfile) ↔
      Lockable roots registry.toLocalRegistry resolved := by
  obtain ⟨descriptor, hdescriptor, hchecked⟩ := hsource
  obtain ⟨graph, profile, hread, hvalid, h⟩ := accepted_of_resolveSource haccepted
  simp only [lock_eq_ok hread hdescriptor]
  constructor
  · rintro ⟨lockfile, hgenerated, hlockfile⟩
    exact lockable_of_generate h hvalid hunchanged hgenerated hlockfile
  · intro hlockable
    exact exists_generate h hvalid hunchanged hversions hchecked hlockable

/-! ## A board that does not depend on its chip -/

def benchReader (graph : MachineGraph) : DocumentReader where
  document _ := .ok graph
  spans _ := ∅

/-- Each package has its `package.yaml` and nothing else. -/
def benchRoots : PackageRoots := fun dir =>
  .ok (.directory (.cons ⟨"package.yaml", true⟩ (.file (.ok (utf8Bytes dir))) .nil))

def benchSource : RegistrySource where
  schema := registrySourceSchema
  id := "bench"
  uri := "git:bench"
  descriptorHash := "sha256:" ++ String.ofList (List.replicate 64 '0')

def sourcedBench (dependencies : List (String × Dependency)) : SourcedRegistry CoreVersion :=
  { benchRegistry dependencies with source := some benchSource }

/-- The resolution of the machine on the bench. -/
abbrev benchOutcome (dependencies : List (String × Dependency)) : ResolveOutcome :=
  resolveSource ℚ (benchFiles emptyTemplate) (benchReader steppedGraph) ""
    (sourcedBench dependencies).toLocalRegistry

abbrev benchLock (dependencies : List (String × Dependency)) (resolved : ResolvedGraph) :
    Except (List Diagnostic) Lockfile :=
  lock ℚ (benchReader steppedGraph) (fun _ => "") benchRoots "" (sourcedBench dependencies) resolved

theorem sourcedBench_isUnchanged (dependencies : List (String × Dependency)) :
    ∀ package ∈ (sourcedBench dependencies).packages, package.isUnchanged benchRoots := by
  intro package _
  rfl

theorem benchSource_isValid : benchSource.validate = .ok () := by
  rfl

theorem exists_benchLock : ∃ resolved lockfile,
    (benchOutcome chipDependency).resolved = some resolved ∧
      benchLock chipDependency resolved = .ok lockfile := by
  have hsome : (benchOutcome chipDependency).resolved.any fun resolved =>
      (benchLock chipDependency resolved).isOk := by decide +kernel
  obtain ⟨resolved, h, hlock⟩ := (Option.any_eq_true _ _).mp hsome
  cases hresult : benchLock chipDependency resolved with
  | ok lockfile => exact ⟨resolved, lockfile, h, hresult⟩
  | error e =>
    rw [hresult] at hlock
    cases hlock

/-- Where the board depends on its chip, the machine is resolved and locked. -/
theorem bench_locks : ∃ resolved, (benchOutcome chipDependency).resolved = some resolved ∧
    (∃ lockfile, benchLock chipDependency resolved = .ok lockfile) ∧
      Lockable benchRoots (sourcedBench chipDependency).toLocalRegistry resolved := by
  obtain ⟨resolved, lockfile, h, hlockfile⟩ := exists_benchLock
  exact ⟨resolved, h, ⟨lockfile, hlockfile⟩, (lock_succeeds_iff
    ⟨benchSource, rfl, benchSource_isValid⟩ (sourcedBench_isUnchanged _) (by decide +kernel) h).mp
      ⟨lockfile, hlockfile⟩⟩

/-- The chip is found by itself, with a warning, and the lockfile refuses it. -/
theorem unlisted_chip_not_locked : benchSource.validate = .ok () ∧
    (∀ package ∈ (sourcedBench []).packages, package.isUnchanged benchRoots) ∧
    (benchOutcome []).isOk ∧ ∃ resolved, (benchOutcome []).resolved = some resolved ∧
      ¬ ∃ lockfile, benchLock [] resolved = .ok lockfile := by
  have hnone : (benchOutcome []).resolved.any fun resolved =>
      !(benchLock [] resolved).isOk := by decide +kernel
  obtain ⟨resolved, h, hlock⟩ := (Option.any_eq_true _ _).mp hnone
  refine ⟨benchSource_isValid, sourcedBench_isUnchanged _, by decide +kernel, resolved, h, ?_⟩
  rintro ⟨lockfile, hlockfile⟩
  rw [hlockfile] at hlock
  cases hlock

end Dryer.MachineLock
