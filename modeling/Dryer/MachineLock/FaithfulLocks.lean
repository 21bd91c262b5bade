import Dryer.MachineLock.Lockability

/-!
# Faithful lockfiles

A lockfile holds the resolution that it was made from, no less and no more: every assignment under
a key of its own, the safe states and the build inputs of each controller, and the packages of the
closure.
-/
namespace Dryer.MachineLock
open Library MachineSchema MachineParser MachineResolver PackageModel

/-- A locked safe state, with the connectors as resources of the machine again. -/
def LockedSafeState.qualified (controllerName : String) (state : LockedSafeState) :
    ControllerSafeState where
  component := state.component
  «class» := state.class
  resource := s!"{controllerName}." ++ state.resource
  state := state.state
  heartbeatTimeoutUs := state.heartbeatTimeoutUs
  sensor := state.sensor.map (s!"{controllerName}." ++ ·)

/-- What a controller of a lockfile has of a controller of the document and its resolution. -/
structure CapturesController (resolved : ResolvedGraph) (name : String)
    (controller : GraphController) (locked : LockedController) : Prop where
  board : locked.board = controller.board
  /-- Its resources are the assignments on the controller. -/
  resources : ∀ key port, locked.resolvedResources[key]? = some port ↔
    ∃ cname, ∃ a ∈ resolved.assigned cname,
      key = s!"{cname}/{viaShort a}" ∧ splitOnce a.resource '.' = some (name, port)
  safety : ∃ states, locked.safety = some ⟨controllerSafetySchema, states⟩ ∧
    (states.map (LockedSafeState.qualified name)).Perm (resolved.safeStates name)
  build : ∃ plan, resolved.controllerBuildPlans[name]? = some plan ∧
    locked.build = some (lockBuildPlan plan)

/-- A lockfile holds a resolution of a document. -/
structure Captures (ν : Type) {ρ : Type} [LinearOrder ν] [Semver ν ρ] (graph : MachineGraph)
    (resolved : ResolvedGraph) (lockfile : Lockfile) : Prop where
  controllers : ∀ name, Option.Rel (CapturesController resolved name) graph.controllers[name]?
    lockfile.controllers[name]?
  /-- Nothing that is assigned is on a controller outside the lockfile. -/
  assignment : ∀ cname, ∀ a ∈ resolved.assigned cname, ∃ name port,
    splitOnce a.resource '.' = some (name, port) ∧ name ∈ lockfile.controllers
  safeState : ∀ name, ∀ state ∈ resolved.safeStates name, name ∈ lockfile.controllers
  buildPlan : ∀ name : String, name ∈ resolved.controllerBuildPlans → name ∈ lockfile.controllers
  packages : ∀ id, id ∈ lockfile.packages.map LockedPackage.id ↔ Pinned ν resolved id
  safetyProfile : lockfile.safetyProfile ∈ lockfile.packages ∧
    startsWith lockfile.safetyProfile.id s!"{graph.safety.profile}@"

theorem Captures.exists_locked {ν ρ : Type} [LinearOrder ν] [Semver ν ρ] {graph : MachineGraph}
    {resolved : ResolvedGraph} {lockfile : Lockfile} {name : String}
    {controller : GraphController} (h : Captures ν graph resolved lockfile)
    (hcontroller : graph.controllers[name]? = some controller) :
    ∃ locked, lockfile.controllers[name]? = some locked ∧
      CapturesController resolved name controller locked := by
  have hname := h.controllers name
  rw [hcontroller] at hname
  generalize lockfile.controllers[name]? = found at hname ⊢
  obtain ⟨hlocked⟩ := hname
  exact ⟨_, rfl, hlocked⟩

variable {ν ρ : Type} [LinearOrder ν] [DecidableEq ρ] [Semver ν ρ] {κ : Type} [Numbers κ]
  {files : PackageFiles ν} {graph : MachineGraph} {registry : LocalRegistry ν}
  {profile : SafetyProfileFile} {resolved : ResolvedGraph} {name : String}
  {controller : GraphController} {locked : LockedController}

theorem qualified_of_lockSafeState {state : ControllerSafeState} {locked : LockedSafeState}
    (h : lockSafeState name state = .ok locked) : locked.qualified name = state := by
  have hresource := resource_of_lockSafeState h
  simp only [lockSafeState, bind_eq_ok, okOr_eq_ok, reject_eq_ok] at h
  obtain ⟨⟨controllerName, port⟩, -, _, -, sensor, hsensor, h⟩ := h
  obtain rfl := Except.ok.inj h
  have hlocal : sensor.map (s!"{name}." ++ ·) = state.sensor := by
    cases hstate : state.sensor with
    | none =>
      rw [hstate] at hsensor
      obtain rfl := Except.ok.inj hsensor
      rfl
    | some full =>
      rw [hstate, Option.mapM_some] at hsensor
      obtain ⟨port, hport, hsensor⟩ := bind_eq_ok.mp hsensor
      obtain rfl := Except.ok.inj hsensor
      rw [localSensor, okOr_eq_ok] at hport
      exact congrArg some (eq_append_of_stripPrefix hport).symm
  simp only [LockedSafeState.qualified, hresource, hlocal]

theorem capturesController_of_locks (h : Resolves κ files graph registry profile resolved)
    (hvalid : Valid κ ν graph) (hcontroller : graph.controllers[name]? = some controller)
    (hlocks : Locks resolved name controller locked) :
    CapturesController resolved name controller locked := by
  refine ⟨hlocks.board, ?_, ?_, ?_⟩
  · intro key port
    rw [hlocks.resources]
    constructor
    · intro hkey
      obtain hmem | hnone := mem_of_getElem?_foldl_insert hkey
      · obtain ⟨⟨cname, a⟩, hentry, hresource⟩ := List.mem_filterMap.mp hmem
        obtain ⟨hsplit, rfl⟩ := resourceEntry_eq_some.mp hresource
        exact ⟨cname, a, mem_assignmentEntries.mp hentry, rfl, hsplit⟩
      · simp at hnone
    · rintro ⟨cname, a, ha, rfl, hsplit⟩
      exact getElem?_resourcesOf h hvalid ha hsplit
  · obtain ⟨states, sorted, hstates, hperm, hsafety⟩ := hlocks.safety
    refine ⟨sorted, hsafety, ?_⟩
    have hqualified : states.map (LockedSafeState.qualified name) =
        (resolved.safeStates name).map id :=
      map_eq_of_mapM_eq_ok hstates fun _ _ hlocked => qualified_of_lockSafeState hlocked
    rw [List.map_id] at hqualified
    rw [← hqualified]
    exact hperm.map _
  · obtain ⟨plan, hplan⟩ := h.exists_plan hcontroller
    exact ⟨plan, hplan, by rw [hlocks.build, hplan, Option.map_some]⟩

variable {reader : DocumentReader} {sha256 : Bytes → String} {roots : PackageRoots}
  {source : String}

/-- What is generated from an accepted resolution holds all of it. -/
theorem captures_of_generate (h : Resolves κ files graph registry profile resolved)
    (hvalid : Valid κ ν graph) {descriptor : RegistrySource} {lockfile : Lockfile}
    (hgenerated : generate sha256 roots source graph descriptor registry resolved =
      .ok lockfile) : Captures ν graph resolved lockfile := by
  obtain ⟨packages, safe, built, safetyProfile, hpackages, hsafe, hbuilt, hprofile, rfl⟩ :=
    generate_eq_ok.mp hgenerated
  have hknown {name : String} (hname : name ∈ graph.controllers) : name ∈ built := by
    obtain ⟨controller, hcontroller⟩ :=
      Option.isSome_iff_exists.mp (Std.TreeMap.mem_iff_isSome_getElem?.mp hname)
    obtain ⟨locked, hlocked, -⟩ := exists_locks hsafe hbuilt hcontroller
    exact Std.TreeMap.mem_iff_isSome_getElem?.mpr (Option.isSome_of_eq_some hlocked)
  refine ⟨?_, ?_, ?_, ?_, ?_, mem_of_selectSafetyProfile hprofile, ?_⟩
  · intro name
    have hlocks := locks_of_applyBuildInputs hsafe hbuilt name
    cases hcontroller : graph.controllers[name]? with
    | none =>
      rw [hcontroller] at hlocks
      generalize built[name]? = found at hlocks ⊢
      cases hlocks
      exact .none
    | some controller =>
      obtain ⟨locked, hlocked, hlocks⟩ := exists_locks hsafe hbuilt hcontroller
      rw [hlocked]
      exact .some (capturesController_of_locks h hvalid hcontroller hlocks)
  · intro cname a ha
    obtain ⟨_, name, port, _, _, hplaced⟩ := h.placed hvalid ha
    have hsplit := hplaced.names.splits
    exact ⟨name, port, hsplit, hknown (mem_controllers_of_assigned h hvalid ha hsplit)⟩
  · intro name state hstate
    exact hknown (mem_controllers_of_safeStates h hvalid hstate)
  · intro name hname
    obtain ⟨plan, hplan⟩ :=
      Option.isSome_iff_exists.mp (Std.TreeMap.mem_iff_isSome_getElem?.mp hname)
    obtain ⟨controller, hcontroller, -⟩ := h.soundPlan hplan
    exact hknown
      (Std.TreeMap.mem_iff_isSome_getElem?.mpr (Option.isSome_of_eq_some hcontroller))
  · intro id
    exact mem_ids_iff hpackages
  · have hfound := List.find?_some (okOr_eq_ok.mp hprofile)
    exact hfound

theorem captures_of_lock {registry : SourcedRegistry ν} {lockfile : Lockfile}
    (haccepted : (resolveSource κ files reader source registry.toLocalRegistry).resolved =
      some resolved)
    (hlock : lock κ reader sha256 roots source registry resolved = .ok lockfile) :
    ∃ graph, reader.document source = .ok graph ∧ Captures ν graph resolved lockfile ∧
      lockfile.lockVersion = lockVersion ∧ lockfile.validate = .ok () := by
  obtain ⟨graph, profile, hread, hvalid, h⟩ := accepted_of_resolveSource haccepted
  obtain ⟨descriptor, hsource⟩ : ∃ descriptor, registry.source = some descriptor := by
    simp only [lock, bind_eq_ok, okOr_eq_ok] at hlock
    obtain ⟨_, -, descriptor, hsource, -⟩ := hlock
    exact ⟨descriptor, hsource⟩
  obtain ⟨hgenerated, hchecked⟩ := (lock_eq_ok hread hsource).mp hlock
  have hversion : lockfile.lockVersion = lockVersion := by
    obtain ⟨_, _, _, _, -, -, -, -, rfl⟩ := generate_eq_ok.mp hgenerated
    rfl
  exact ⟨graph, hread, captures_of_generate h hvalid hgenerated, hversion, hchecked⟩

/-- A lockfile holds the resolution of its document: all connectors, each under the key of its
assignment, all safe states and all build inputs on the controllers of the document, and the
packages of the closure. -/
theorem lock_captures_resolution {registry : SourcedRegistry ν} {lockfile : Lockfile}
    (haccepted : (resolveSource κ files reader source registry.toLocalRegistry).resolved =
      some resolved)
    (hlock : lock κ reader sha256 roots source registry resolved = .ok lockfile) :
    ∃ graph, reader.document source = .ok graph ∧ Captures ν graph resolved lockfile := by
  obtain ⟨graph, hread, hcaptures, -⟩ := captures_of_lock haccepted hlock
  exact ⟨graph, hread, hcaptures⟩

/-- The lockfile of the machine on the bench holds its resolution. -/
theorem bench_lock_captures : ∃ resolved lockfile,
    benchLock chipDependency resolved = .ok lockfile ∧
      ∃ graph, (benchReader steppedGraph).document "" = .ok graph ∧
        Captures CoreVersion graph resolved lockfile := by
  obtain ⟨resolved, lockfile, haccepted, hlock⟩ := exists_benchLock
  exact ⟨resolved, lockfile, hlock, lock_captures_resolution haccepted hlock⟩

end Dryer.MachineLock
