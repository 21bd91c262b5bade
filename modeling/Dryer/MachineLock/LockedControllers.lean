import Dryer.MachineLock.Generate
import Dryer.MachineResolver.SafetyCoverage

/-!
# Locked controllers

What generation makes of each controller of the document, once its two fallible passes have gone
through.
-/
namespace Dryer.MachineLock
open Library MachineSchema MachineParser MachineResolver PackageModel

variable {doc : MachineGraph} {resolved : ResolvedGraph} {name : String}

/-! ## Resources -/

/-- The connector on a controller that an assignment adds, with its key. -/
def resourceEntry (name : String) : String × Assignment → Option (String × String)
  | (component, assignment) =>
    match splitOnce assignment.resource '.' with
    | none => none
    | some (controllerName, port) =>
      if controllerName = name then some (s!"{component}/{viaShort assignment}", port) else none

/-- The connectors on a controller, by their keys. -/
def resourcesOf (resolved : ResolvedGraph) (name : String) : Std.TreeMap String String :=
  ((assignmentEntries resolved).filterMap (resourceEntry name)).foldl
    (fun resources entry => resources.insert entry.1 entry.2) ∅

theorem getElem?_applyAssignment (controllers : Std.TreeMap String LockedController)
    (entry : String × Assignment) :
    (applyAssignment controllers entry)[name]? = controllers[name]?.map fun controller =>
      ((resourceEntry name entry).map fun e => controller.addResource e.1 e.2).getD controller := by
  obtain ⟨component, assignment⟩ := entry
  dsimp only [applyAssignment, resourceEntry]
  cases splitOnce assignment.resource '.' with
  | none => simp
  | some parts =>
    obtain ⟨controllerName, port⟩ := parts
    dsimp only
    rw [Std.TreeMap.getElem?_modify]
    simp only [Std.LawfulEqCmp.compare_eq_iff_eq]
    split
    · rename_i heq
      subst heq
      simp
    · simp

theorem getElem?_foldl_applyAssignment (entries : List (String × Assignment))
    (controllers : Std.TreeMap String LockedController) :
    (entries.foldl applyAssignment controllers)[name]? = controllers[name]?.map fun controller =>
      { controller with
        resolvedResources := (entries.filterMap (resourceEntry name)).foldl
          (fun resources entry => resources.insert entry.1 entry.2)
          controller.resolvedResources } := by
  induction entries generalizing controllers with
  | nil => simp
  | cons entry entries ih =>
    rw [List.foldl_cons, ih, getElem?_applyAssignment, Option.map_map]
    congr 1
    funext controller
    cases hentry : resourceEntry name entry with
    | none => simp [hentry]
    | some e => simp [hentry, LockedController.addResource]

/-- Before its safe states and its build inputs, a controller has its board and its resources. -/
theorem getElem?_applyAssignments (doc : MachineGraph) (resolved : ResolvedGraph) (name : String) :
    (applyAssignments (initializeControllers doc) resolved)[name]? =
      doc.controllers[name]?.map fun controller =>
        { initializeController controller with
          resolvedResources := resourcesOf resolved name } := by
  rw [applyAssignments, getElem?_foldl_applyAssignment, initializeControllers,
    Std.TreeMap.getElem?_map, Option.map_map]
  rfl

/-! ## Safe states and build inputs -/

theorem addSafeStates_eq_ok {bindings : List ControllerSafeState}
    {controller next : LockedController} :
    addSafeStates name bindings controller = .ok next ↔
      ∃ states, bindings.mapM (lockSafeState name) = .ok states ∧
        next = { controller with
          safety := controller.safety.map fun safety =>
            { safety with states := sortSafeStates (safety.states ++ states) } } := by
  simp only [addSafeStates, bind_eq_ok]
  constructor
  · rintro ⟨states, hstates, h⟩
    exact ⟨states, hstates, (Except.ok.inj h).symm⟩
  · rintro ⟨states, hstates, rfl⟩
    exact ⟨states, hstates, rfl⟩

theorem perm_sortSafeStates (states : List LockedSafeState) :
    (sortSafeStates states).Perm states := List.perm_insertionSort _ _

/-- A controller with its board, its resources and its safe states. -/
structure Secures (resolved : ResolvedGraph) (name : String) (controller : GraphController)
    (locked : LockedController) : Prop where
  board : locked.board = controller.board
  resources : locked.resolvedResources = resourcesOf resolved name
  safety : ∃ states sorted, (resolved.safeStates name).mapM (lockSafeState name) = .ok states ∧
    sorted.Perm states ∧ locked.safety = some ⟨controllerSafetySchema, sorted⟩

/-- A controller with its build inputs too. -/
structure Locks (resolved : ResolvedGraph) (name : String) (controller : GraphController)
    (locked : LockedController) : Prop extends Secures resolved name controller locked where
  build : locked.build = resolved.controllerBuildPlans[name]?.map lockBuildPlan

section Passes

variable {safe built : Std.TreeMap String LockedController}

theorem secures_of_applySafety
    (h : applySafety (applyAssignments (initializeControllers doc) resolved) resolved = .ok safe)
    (name : String) :
    Option.Rel (fun controller locked => Secures resolved name controller locked ∧
      locked.build = none) doc.controllers[name]? safe[name]? := by
  have hstart := getElem?_applyAssignments doc resolved name
  cases hbindings : resolved.controllerSafety[name]? with
  | none =>
    rw [getElem?_updateAll_of_notMem  h, hstart]
    · cases doc.controllers[name]? with
      | none => exact .none
      | some controller =>
        refine .some ⟨⟨rfl, rfl, [], [], ?_, .refl _, rfl⟩, rfl⟩
        rw [ResolvedGraph.safeStates, hbindings]
        rfl
    · intro bindings hmem
      rw [Std.TreeMap.mem_toList_iff_getElem?_eq_some, hbindings] at hmem
      cases hmem
  | some bindings =>
    obtain ⟨old, new, hold, hnew, hsafe⟩ := getElem?_updateAll_of_mem
      Std.TreeMap.distinct_keys_toList h
      (Std.TreeMap.mem_toList_iff_getElem?_eq_some.mpr hbindings)
    rw [hstart] at hold
    obtain ⟨controller, hcontroller, rfl⟩ := Option.map_eq_some_iff.mp hold
    obtain ⟨states, hstates, rfl⟩ := addSafeStates_eq_ok.mp hnew
    rw [hsafe, hcontroller]
    refine .some ⟨⟨rfl, rfl, states, _, ?_, perm_sortSafeStates _, rfl⟩, rfl⟩
    rw [ResolvedGraph.safeStates, hbindings]
    exact hstates

/-- The controllers of a lockfile are those of the document. -/
theorem locks_of_applyBuildInputs
    (hsafe : applySafety (applyAssignments (initializeControllers doc) resolved) resolved =
      .ok safe)
    (hbuilt : applyBuildInputs safe resolved = .ok built) (name : String) :
    Option.Rel (Locks resolved name) doc.controllers[name]? built[name]? := by
  have hsecures := secures_of_applySafety hsafe name
  cases hplan : resolved.controllerBuildPlans[name]? with
  | none =>
    rw [getElem?_updateAll_of_notMem  hbuilt]
    · revert hsecures
      generalize doc.controllers[name]? = controller
      generalize safe[name]? = locked
      rintro (⟨hsecures, hnone⟩ | _)
      · exact .some ⟨hsecures, by rw [hnone, hplan, Option.map_none]⟩
      · exact .none
    · intro plan hmem
      rw [Std.TreeMap.mem_toList_iff_getElem?_eq_some, hplan] at hmem
      cases hmem
  | some plan =>
    obtain ⟨old, new, hold, hnew, hresult⟩ := getElem?_updateAll_of_mem
      Std.TreeMap.distinct_keys_toList hbuilt
      (Std.TreeMap.mem_toList_iff_getElem?_eq_some.mpr hplan)
    obtain rfl := Except.ok.inj hnew
    rw [hresult]
    rw [hold] at hsecures
    cases hcontroller : doc.controllers[name]? with
    | none =>
      rw [hcontroller] at hsecures
      cases hsecures
    | some controller =>
      rw [hcontroller] at hsecures
      obtain ⟨⟨hboard, hresources, hsafety⟩, -⟩ := Option.rel_some_some.mp hsecures
      exact .some ⟨⟨hboard, hresources, hsafety⟩, by rw [hplan, Option.map_some]⟩

theorem exists_locks
    (hsafe : applySafety (applyAssignments (initializeControllers doc) resolved) resolved =
      .ok safe)
    (hbuilt : applyBuildInputs safe resolved = .ok built) {controller : GraphController}
    (hcontroller : doc.controllers[name]? = some controller) :
    ∃ locked, built[name]? = some locked ∧ Locks resolved name controller locked := by
  have hlocks := locks_of_applyBuildInputs hsafe hbuilt name
  rw [hcontroller] at hlocks
  generalize built[name]? = found at hlocks ⊢
  obtain ⟨hlocks⟩ := hlocks
  exact ⟨_, rfl, hlocks⟩

theorem exists_controller
    (hsafe : applySafety (applyAssignments (initializeControllers doc) resolved) resolved =
      .ok safe)
    (hbuilt : applyBuildInputs safe resolved = .ok built) {locked : LockedController}
    (hlocked : built[name]? = some locked) :
    ∃ controller, doc.controllers[name]? = some controller ∧
      Locks resolved name controller locked := by
  have hlocks := locks_of_applyBuildInputs hsafe hbuilt name
  rw [hlocked] at hlocks
  generalize doc.controllers[name]? = found at hlocks ⊢
  obtain ⟨hlocks⟩ := hlocks
  exact ⟨_, rfl, hlocks⟩

/-! ## Passes that go through -/

/-- The safe states of known controllers are added when each one can be locked. -/
theorem exists_applySafety
    (hknown : ∀ name ∈ resolved.controllerSafety, name ∈ doc.controllers)
    (hstates : ∀ name, ∀ state ∈ resolved.safeStates name,
      ∃ locked, lockSafeState name state = .ok locked) :
    ∃ safe, applySafety (applyAssignments (initializeControllers doc) resolved) resolved =
      .ok safe := by
  apply exists_updateAll Std.TreeMap.distinct_keys_toList
  rintro ⟨name, bindings⟩ hmem
  have hbindings := Std.TreeMap.mem_toList_iff_getElem?_eq_some.mp hmem
  obtain ⟨controller, hcontroller⟩ := Option.isSome_iff_exists.mp
    (Std.TreeMap.mem_iff_isSome_getElem?.mp (hknown name
      (Std.TreeMap.mem_iff_isSome_getElem?.mpr (by simp [hbindings]))))
  obtain ⟨states, hlocked⟩ : ∃ states, bindings.mapM (lockSafeState name) = .ok states := by
    apply exists_mapM_eq_ok.mpr
    intro state hstate
    exact hstates name state (by rwa [ResolvedGraph.safeStates, hbindings])
  have hstart := getElem?_applyAssignments doc resolved name
  rw [hcontroller, Option.map_some] at hstart
  exact ⟨_, _, hstart, addSafeStates_eq_ok.mpr ⟨states, hlocked, rfl⟩⟩

theorem exists_applyBuildInputs
    (hsafe : applySafety (applyAssignments (initializeControllers doc) resolved) resolved =
      .ok safe)
    (hknown : ∀ name ∈ resolved.controllerBuildPlans, name ∈ doc.controllers) :
    ∃ built, applyBuildInputs safe resolved = .ok built := by
  apply exists_updateAll Std.TreeMap.distinct_keys_toList
  rintro ⟨name, plan⟩ hmem
  have hplan := Std.TreeMap.mem_toList_iff_getElem?_eq_some.mp hmem
  obtain ⟨controller, hcontroller⟩ := Option.isSome_iff_exists.mp
    (Std.TreeMap.mem_iff_isSome_getElem?.mp (hknown name
      (Std.TreeMap.mem_iff_isSome_getElem?.mpr (by simp [hplan]))))
  have hsecures := secures_of_applySafety hsafe name
  rw [hcontroller] at hsecures
  cases hsafeName : safe[name]? with
  | none =>
    rw [hsafeName] at hsecures
    cases hsecures
  | some locked => exact ⟨locked, _, rfl, rfl⟩

end Passes

end Dryer.MachineLock
