import Dryer.MachineResolver.ValidGraphs

/-!
# Safety coverage

Every power output of a resolved graph has one safe state, on its controller, as the policy of the
class of its component has it, with a sensor on that controller where the policy requires one. So
has every resource of a driver, unless the component that names the driver has a connector itself.
-/
namespace Dryer.MachineResolver
open Library MachineSchema MachineParser PackageModel

variable {ν ρ : Type} [LinearOrder ν] [DecidableEq ρ] [Semver ν ρ]

/-! ## What coverage is -/

/-- The safe states of a controller. -/
def ResolvedGraph.safeStates (resolved : ResolvedGraph) (controller : String) :
    List ControllerSafeState :=
  resolved.controllerSafety[controller]?.getD []

/-- A power output of a component, or a resource of its driver. -/
def MustBeSafe (resolved : ResolvedGraph) (cname : String) (component : Component)
    (a : Assignment) : Prop :=
  a.connectorKind = "power_output" ∧ a ∈ resolved.assigned cname ∨
  ∃ raw, component.text "driver" = some raw ∧ a ∈ resolved.assigned (trim raw)

/-- The sensor of a component has an input on a controller. -/
def SensedAt (resolved : ResolvedGraph) (component : Component) (controller resource : String) :
    Prop :=
  ∃ sensor a port, component.text "sensor" = some sensor ∧ a ∈ resolved.assigned sensor ∧
    isSensorConnectorKind a.connectorKind ∧ a.resource = resource ∧
    splitOnce resource '.' = some (controller, port)

/-- A safe state follows the policy of its component. -/
structure FollowsPolicy (graph : MachineGraph) (profile : SafetyProfileFile)
    (resolved : ResolvedGraph) (controller : String) (s : ControllerSafeState) : Prop where
  onOwner : ∃ port, splitOnce s.resource '.' = some (controller, port)
  policy : ∃ component policy, graph.components[s.component]? = some component ∧
    profile.classes[component.kind]? = some policy ∧ s.class = component.kind ∧
    s.state = policy.safeState ∧ (policy.requiresSensor →
      ∃ resource, s.sensor = some resource ∧ SensedAt resolved component controller resource)

structure SafelyCovered (graph : MachineGraph) (profile : SafetyProfileFile)
    (resolved : ResolvedGraph) : Prop where
  covered : ∀ cname component a, graph.components[cname]? = some component →
    MustBeSafe resolved cname component a →
    ∃ controller, ∃ s ∈ resolved.safeStates controller, s.resource = a.resource ∧
      s.component = cname
  distinct : (resolved.controllerSafety.values.flatten.map ControllerSafeState.resource).Nodup
  follows : ∀ controller, ∀ s ∈ resolved.safeStates controller,
    FollowsPolicy graph profile resolved controller s

/-! ## Coverage of a component -/

section Component

variable {graph : MachineGraph} {resolved : ResolvedGraph} {profile : SafetyProfileFile}
  {cname : String} {component : Component} {targets : List String} {a : Assignment}

theorem allErrors_coverageErrors :
    AllErrors (coverageErrors graph resolved profile (cname, component)) := by
  have hplaces (sensor : String) (targets : List String) :
      AllErrors (sensorPlaceErrors resolved cname sensor component targets) := by
    apply AllErrors.flatMap
    rintro ⟨earlier, target⟩ _
    dsimp only
    split
    · exact .nil
    · split <;> simp
  have hsensor (targets : List String) :
      AllErrors (sensorErrors resolved cname component targets) := by
    unfold sensorErrors
    split
    · simp
    · dsimp only
      split
      · simp
      · split
        · simp
        · exact hplaces _ targets
  dsimp only [coverageErrors]
  split
  · simp
  · split
    · split <;> simp [uncovered]
    · unfold policyErrors
      split
      · simp
      · split
        · exact .nil
        · exact hsensor _

/-- The targets are the resources of the governing assignments. -/
theorem governing_of_safetyTargetResources
    (htargets : safetyTargetResources resolved cname component = .ok targets) :
    ∃ governing, governingAssignments resolved cname component = .ok governing ∧
      ∀ target, target ∈ targets ↔ ∃ a ∈ governing, a.resource = target := by
  unfold safetyTargetResources at htargets
  cases hgoverning : governingAssignments resolved cname component with
  | error e =>
    rw [hgoverning] at htargets
    cases htargets
  | ok governing =>
    rw [hgoverning] at htargets
    obtain rfl := Except.ok.inj htargets
    exact ⟨governing, rfl, fun target => mem_sortedUnique.trans List.mem_map⟩

theorem mem_targets_of_direct
    (htargets : safetyTargetResources resolved cname component = .ok targets)
    (ha : a ∈ resolved.assigned cname) : a.resource ∈ targets := by
  obtain ⟨governing, hgoverning, hmem⟩ := governing_of_safetyTargetResources htargets
  refine (hmem a.resource).mpr ⟨a, ?_, rfl⟩
  have hsome : ¬ (resolved.assigned cname).isEmpty := by
    intro hempty
    rw [List.isEmpty_iff.mp hempty] at ha
    cases ha
  rw [governingAssignments, if_neg hsome] at hgoverning
  exact Except.ok.inj hgoverning ▸ ha

theorem mem_targets_of_driver {raw : String}
    (htargets : safetyTargetResources resolved cname component = .ok targets)
    (hnone : resolved.assigned cname = []) (hraw : component.text "driver" = some raw)
    (ha : a ∈ resolved.assigned (trim raw)) : a.resource ∈ targets := by
  obtain ⟨governing, hgoverning, hmem⟩ := governing_of_safetyTargetResources htargets
  refine (hmem a.resource).mpr ⟨a, ?_, rfl⟩
  rw [governingAssignments, if_pos (List.isEmpty_iff.mpr hnone), driverAssignments, hraw]
    at hgoverning
  dsimp only at hgoverning
  split at hgoverning
  · cases hgoverning
  · split at hgoverning
    · cases hgoverning
    · exact Except.ok.inj hgoverning ▸ ha

/-- With a connector of its own, a component governs nothing else. -/
theorem direct_of_mem_targets {target : String}
    (htargets : safetyTargetResources resolved cname component = .ok targets)
    (hdirect : resolved.assigned cname ≠ []) (htarget : target ∈ targets) :
    ∃ a ∈ resolved.assigned cname, a.resource = target := by
  obtain ⟨governing, hgoverning, hmem⟩ := governing_of_safetyTargetResources htargets
  rw [governingAssignments, if_neg (mt List.isEmpty_iff.mp hdirect)] at hgoverning
  obtain rfl := Except.ok.inj hgoverning
  exact (hmem target).mp htarget

/-- Without an error the resources of a component are known. -/
theorem targets_of_coverageErrors
    (h : coverageErrors graph resolved profile (cname, component) = []) :
    ∃ targets, safetyTargetResources resolved cname component = .ok targets := by
  dsimp only [coverageErrors] at h
  split at h
  · cases h
  · exact ⟨_, by assumption⟩

/-- Without an error a policy governs a component with a power output, or with a driver and nothing
else. -/
theorem policy_of_coverageErrors
    (h : coverageErrors graph resolved profile (cname, component) = [])
    (houtput : isHazardous resolved cname || isDriverBacked resolved cname component) :
    ∃ policy, profile.classes[component.kind]? = some policy := by
  dsimp only [coverageErrors] at h
  split at h
  · cases h
  · split at h
    · rw [if_pos houtput] at h
      cases h
    · exact ⟨_, by assumption⟩

theorem sensedAt_of_sensorResource {controller resource : String}
    (h : sensorResourceOnController resolved component controller = some resource) :
    SensedAt resolved component controller resource := by
  unfold sensorResourceOnController at h
  split at h
  · cases h
  · rename_i sensor hsensor
    obtain ⟨a, ha, hfound⟩ := List.exists_of_findSome?_eq_some h
    obtain ⟨hassigned, hkind⟩ := List.mem_filter.mp ha
    split at hfound
    · cases hfound
    · rename_i candidate port hsplit
      split at hfound
      · rename_i heq
        obtain rfl := Option.some.inj hfound
        exact ⟨sensor, a, port, hsensor, hassigned, hkind, rfl, heq ▸ hsplit⟩
      · cases hfound

/-- The first target of a controller is the one that is checked. -/
theorem sensor_of_sensorPlaceErrors {sensor target controller port : String}
    (h : sensorPlaceErrors resolved cname sensor component targets = [])
    (htarget : target ∈ targets) (hsplit : splitOnce target '.' = some (controller, port)) :
    ∃ resource, sensorResourceOnController resolved component controller = some resource := by
  obtain ⟨earlier, first, hmem, hfirst, hnone⟩ := exists_first_withEarlier
    (p := fun t => (splitOnce t '.').map Prod.fst = some controller) htarget (by simp [hsplit])
  have hchecked := List.flatMap_eq_nil_iff.mp h _ hmem
  obtain ⟨⟨owner, firstPort⟩, hfirstSplit, howner⟩ := Option.map_eq_some_iff.mp hfirst
  obtain rfl : controller = owner := howner.symm
  dsimp only at hchecked
  rw [hfirstSplit] at hchecked
  have hnew : controller ∉ earlier.filterMap fun t => (splitOnce t '.').map Prod.fst := by
    intro hin
    obtain ⟨t, ht, heq⟩ := List.mem_filterMap.mp hin
    exact hnone t ht heq
  cases hresource : sensorResourceOnController resolved component controller with
  | none => simp [hnew, hresource] at hchecked
  | some resource => exact ⟨resource, rfl⟩

/-- A required sensor is on the controller of every target. -/
theorem sensor_of_coverageErrors {policy : ClassPolicy} {target controller port : String}
    (h : coverageErrors graph resolved profile (cname, component) = [])
    (htargets : safetyTargetResources resolved cname component = .ok targets)
    (hpolicy : profile.classes[component.kind]? = some policy) (hrequires : policy.requiresSensor)
    (htarget : target ∈ targets) (hsplit : splitOnce target '.' = some (controller, port)) :
    ∃ resource, sensorResourceOnController resolved component controller = some resource := by
  simp only [coverageErrors, htargets, hpolicy, policyErrors, hrequires, Bool.not_true] at h
  split at h
  · cases h
  · simp only [Bool.false_eq_true, if_false] at h
    unfold sensorErrors at h
    split at h
    · cases h
    · dsimp only at h
      split at h
      · cases h
      · split at h
        · cases h
        · exact sensor_of_sensorPlaceErrors h htarget hsplit

end Component

/-! ## The bindings -/

section Bindings

variable {κ : Type} [Numbers κ] {graph : MachineGraph} {resolved : ResolvedGraph}
  {profile : SafetyProfileFile}

theorem allErrors_bindings : AllErrors (bindings κ graph resolved profile).2 := by
  apply pass_reports
  rintro ⟨controller, s⟩ state e he
  dsimp only [partitionStep] at he
  split at he
  · obtain rfl := Except.error.inj he
    simp
  · cases he

/-- Without an error all safe states are bound, each resource once. -/
theorem states_of_bindings (h : (bindings κ graph resolved profile).2 = []) :
    (bindings κ graph resolved profile).1.states =
      graph.components.toList.flatMap (safeStatesOf κ resolved profile) ∧
    ((graph.components.toList.flatMap (safeStatesOf κ resolved profile)).map
      (·.2.resource)).Nodup := by
  have hpass := pass_induction
    (P := fun before state => state.states = before ∧ (before.map (·.2.resource)).Nodup ∧
      ∀ resource, resource ∈ before.map (·.2.resource) → resource ∈ state.owners)
    ?_ ⟨rfl, List.nodup_nil, by simp⟩ h
  · exact ⟨hpass.1, hpass.2.1⟩
  · rintro before ⟨controller, s⟩ state next ⟨hstates, hnodup, howned⟩ hnext
    dsimp only [partitionStep] at hnext
    split at hnext
    · cases hnext
    · rename_i hfree
      obtain rfl := Except.ok.inj hnext
      refine ⟨by rw [hstates], ?_, ?_⟩
      · rw [List.map_append, List.map_singleton, ← List.concat_eq_append]
        refine hnodup.concat ?_
        intro hmem
        have hin := howned _ hmem
        rw [Std.TreeMap.mem_iff_isSome_getElem?, hfree] at hin
        cases hin
      · intro resource hmem
        rw [List.map_append, List.mem_append, List.map_singleton, List.mem_singleton] at hmem
        obtain hold | rfl := hmem
        · exact Std.TreeMap.mem_insert.mpr (.inr (howned resource hold))
        · exact Std.TreeMap.mem_insert_self

theorem perm_sortStates (states : List ControllerSafeState) : (sortStates states).Perm states :=
  List.perm_insertionSort _ _

/-- The safe states of a controller are those that are bound to it. -/
theorem mem_safeStates_partitionSafety {controller : String} {s : ControllerSafeState} :
    s ∈ (partitionSafety κ graph resolved profile).1.safeStates controller ↔
      (controller, s) ∈ (bindings κ graph resolved profile).1.states := by
  have hcollect : s ∈ (collect compare (bindings κ graph resolved profile).1.states)[
      controller]?.getD [] ↔ (controller, s) ∈ (bindings κ graph resolved profile).1.states :=
    mem_getD_collect
  rw [← hcollect]
  dsimp only [ResolvedGraph.safeStates, partitionSafety]
  rw [Std.TreeMap.getElem?_map]
  cases (collect compare (bindings κ graph resolved profile).1.states)[controller]? with
  | none => simp
  | some states => simp [(perm_sortStates states).mem_iff]

theorem nodup_controllerSafety (h : (bindings κ graph resolved profile).2 = []) :
    ((partitionSafety κ graph resolved profile).1.controllerSafety.values.flatten.map
      ControllerSafeState.resource).Nodup := by
  obtain ⟨hstates, hnodup⟩ := states_of_bindings h
  have hperm := (perm_flatten_values_map (collect compare
    (bindings κ graph resolved profile).1.states) perm_sortStates).trans
      (perm_flatten_values_collect _)
  have hmap := hperm.map ControllerSafeState.resource
  rw [List.map_map] at hmap
  refine hmap.nodup_iff.mpr ?_
  rw [hstates]
  exact hnodup

theorem mem_safeStatesOf {cname : String} {component : Component} {controller : String}
    {s : ControllerSafeState} :
    (controller, s) ∈ safeStatesOf κ resolved profile (cname, component) ↔
      ∃ policy targets target, profile.classes[component.kind]? = some policy ∧
        safetyTargetResources resolved cname component = .ok targets ∧ target ∈ targets ∧
        safeStateOf κ resolved cname component policy target = some (controller, s) := by
  dsimp only [safeStatesOf]
  constructor
  · intro h
    split at h
    · rename_i policy targets hpolicy htargets
      obtain ⟨target, htarget, hstate⟩ := List.mem_filterMap.mp h
      exact ⟨policy, targets, target, hpolicy, htargets, htarget, hstate⟩
    · cases h
  · rintro ⟨policy, targets, target, hpolicy, htargets, htarget, hstate⟩
    rw [hpolicy, htargets]
    exact List.mem_filterMap.mpr ⟨target, htarget, hstate⟩

end Bindings

/-! ## What resolution returns is covered -/

variable {κ : Type} [Numbers κ] {files : PackageFiles ν} {graph : MachineGraph}
  {registry : LocalRegistry ν} {profile : SafetyProfileFile} {resolved : ResolvedGraph}

theorem Resolves.controllerSafety_eq (h : Resolves κ files graph registry profile resolved) :
    resolved.controllerSafety = (partitionSafety κ (expandedOf κ files graph registry).doc
      (allocatedOf κ files graph registry) profile).1.controllerSafety := by
  rw [h.graphEq]
  rfl

theorem Resolves.assigned_eq (h : Resolves κ files graph registry profile resolved)
    (cname : String) :
    (allocatedOf κ files graph registry).assigned cname = resolved.assigned cname := by
  rw [ResolvedGraph.assigned, ResolvedGraph.assigned, h.assignments_eq]
  rfl

theorem Resolves.coverageErrors_eq_nil (h : Resolves κ files graph registry profile resolved)
    {cname : String} {component : Component}
    (hcomponent : (expandedOf κ files graph registry).doc.components[cname]? = some component) :
    coverageErrors (expandedOf κ files graph registry).doc (allocatedOf κ files graph registry)
      profile (cname, component) = [] := by
  have hall := (AllErrors.flatMap fun _ _ => allErrors_coverageErrors).hasError_eq_false.mp
    h.coverage
  exact List.flatMap_eq_nil_iff.mp hall (cname, component)
    (Std.TreeMap.mem_toList_iff_getElem?_eq_some.mpr hcomponent)

/-- The safe states of a resolved graph are those of its components. -/
theorem Resolves.mem_safeStates (h : Resolves κ files graph registry profile resolved)
    {controller : String} {s : ControllerSafeState} : s ∈ resolved.safeStates controller ↔
      ∃ cname component, (expandedOf κ files graph registry).doc.components[cname]? =
        some component ∧ (controller, s) ∈ safeStatesOf κ (allocatedOf κ files graph registry)
          profile (cname, component) := by
  have hstates := (states_of_bindings (allErrors_bindings.hasError_eq_false.mp h.partition)).1
  rw [ResolvedGraph.safeStates, h.controllerSafety_eq]
  refine mem_safeStates_partitionSafety.trans ?_
  rw [hstates]
  simp [List.mem_flatMap, Std.TreeMap.mem_toList_iff_getElem?_eq_some]

/-- Two components with one resource are the same. -/
theorem Resolves.eq_of_resource (h : Resolves κ files graph registry profile resolved)
    (hvalid : Valid κ ν graph) {cname other : String} {a b : Assignment}
    (ha : a ∈ resolved.assigned cname) (hb : b ∈ resolved.assigned other)
    (hresource : a.resource = b.resource) : cname = other := by
  rw [ResolvedGraph.assigned, h.assignments_eq, mem_byComponent] at ha hb
  obtain ⟨ha, rfl⟩ := ha
  obtain ⟨hb, rfl⟩ := hb
  have hsound : (allocationOf κ files graph registry).Sound
      (allocationInputsOf κ files graph registry)
      (hasStepRate κ (allocationInputsOf κ files graph registry)) := sound_allocationOf hvalid
  rw [List.inj_on_of_nodup_map hsound.distinct ha hb hresource]

/-- A component has a connector exactly where it asks for one. -/
theorem Resolves.assigned_ne_nil_iff (h : Resolves κ files graph registry profile resolved)
    {cname : String} {component : Component}
    (hcomponent : (expandedOf κ files graph registry).doc.components[cname]? = some component) :
    resolved.assigned cname ≠ [] ↔
      AsksForConnector (allocationInputsOf κ files graph registry) component := by
  have hclean := allErrors_allocate.hasError_eq_false.mp h.allocation
  constructor
  · intro hassigned
    obtain ⟨a, ha⟩ := List.exists_mem_of_ne_nil _ hassigned
    rw [ResolvedGraph.assigned, h.assignments_eq, mem_byComponent] at ha
    obtain ⟨ha, rfl⟩ := ha
    obtain ⟨asking, hasking, hasks⟩ := component_of_allocate hclean ha
    obtain rfl := Option.some.inj (hcomponent.symm.trans hasking)
    exact hasks
  · intro hasks
    obtain ⟨a, ha, hname⟩ := exists_assignment hclean hcomponent hasks
    refine List.ne_nil_of_mem (a := a) ?_
    rw [ResolvedGraph.assigned, h.assignments_eq, mem_byComponent]
    exact ⟨ha, hname⟩

/-- The component of a safe state governs the resource, under a policy. -/
theorem Resolves.governed_of_safeState (h : Resolves κ files graph registry profile resolved)
    {cname controller : String} {component : Component} {s : ControllerSafeState}
    (hcomponent : (expandedOf κ files graph registry).doc.components[cname]? = some component)
    (hs : s ∈ resolved.safeStates controller) (hname : s.component = cname) :
    ∃ policy targets, profile.classes[component.kind]? = some policy ∧
      safetyTargetResources (allocatedOf κ files graph registry) cname component = .ok targets ∧
      s.resource ∈ targets := by
  obtain ⟨owner, owning, howning, hstate⟩ := h.mem_safeStates.mp hs
  obtain ⟨policy, targets, target, hpolicy, htargets, htarget, hsafe⟩ := mem_safeStatesOf.mp hstate
  obtain ⟨⟨_, _⟩, -, heq⟩ := Option.map_eq_some_iff.mp hsafe
  obtain ⟨rfl, rfl⟩ := Prod.mk.inj heq
  obtain rfl : owner = cname := hname
  obtain rfl := Option.some.inj (hcomponent.symm.trans howning)
  exact ⟨policy, targets, hpolicy, htargets, htarget⟩

/-- A resource that a component governs under a policy gets a safe state. -/
theorem Resolves.safeState_of_governed (h : Resolves κ files graph registry profile resolved)
    (hvalid : Valid κ ν graph) {cname owner : String} {component : Component} {a : Assignment}
    {policy : ClassPolicy} {targets : List String}
    (hcomponent : (expandedOf κ files graph registry).doc.components[cname]? = some component)
    (hpolicy : profile.classes[component.kind]? = some policy)
    (htargets : safetyTargetResources (allocatedOf κ files graph registry) cname component =
      .ok targets) (htarget : a.resource ∈ targets) (ha : a ∈ resolved.assigned owner) :
    ∃ controller, ∃ s ∈ resolved.safeStates controller, s.resource = a.resource ∧
      s.component = cname := by
  obtain ⟨_, ctrl, port, _, _, hplaced⟩ := h.placed hvalid ha
  have hstate : (ctrl, _) ∈ safeStatesOf κ (allocatedOf κ files graph registry) profile
      (cname, component) := mem_safeStatesOf.mpr
    ⟨policy, targets, a.resource, hpolicy, htargets, htarget, by
      rw [safeStateOf, hplaced.names.splits, Option.map_some]⟩
  exact ⟨ctrl, _, h.mem_safeStates.mpr ⟨cname, component, hcomponent, hstate⟩, rfl, rfl⟩

/-- Every safe state of a resolved graph follows the policy of its component. -/
theorem Resolves.followsPolicy (h : Resolves κ files graph registry profile resolved)
    {controller : String} {s : ControllerSafeState} (hs : s ∈ resolved.safeStates controller) :
    FollowsPolicy (expandedOf κ files graph registry).doc profile resolved controller s := by
  obtain ⟨cname, component, hcomponent, hstate⟩ := h.mem_safeStates.mp hs
  obtain ⟨policy, targets, target, hpolicy, htargets, htarget, hsafe⟩ :=
    mem_safeStatesOf.mp hstate
  obtain ⟨⟨owner, port⟩, hsplit, heq⟩ := Option.map_eq_some_iff.mp hsafe
  obtain ⟨rfl, rfl⟩ := Prod.mk.inj heq
  refine ⟨⟨port, hsplit⟩, component, policy, hcomponent, hpolicy, rfl, rfl, ?_⟩
  intro hrequires
  obtain ⟨resource, hresource⟩ := sensor_of_coverageErrors (h.coverageErrors_eq_nil hcomponent)
    htargets hpolicy hrequires htarget hsplit
  refine ⟨resource, by simp [hrequires, hresource], ?_⟩
  obtain ⟨sensor, a, sensorPort, hsensor, hassigned, hrest⟩ :=
    sensedAt_of_sensorResource hresource
  rw [h.assigned_eq] at hassigned
  exact ⟨sensor, a, sensorPort, hsensor, hassigned, hrest⟩

/-- No component that asks for a connector has a driver that asks for one too, unless it is its own
driver and has a policy. -/
def DriversAlone (inputs : AllocationInputs) (profile : SafetyProfileFile) : Prop :=
  ∀ cname component raw driver, inputs.doc.components[cname]? = some component →
    component.text "driver" = some raw → inputs.doc.components[trim raw]? = some driver →
    AsksForConnector inputs component → AsksForConnector inputs driver →
    trim raw = cname ∧ (profile.classes[component.kind]?).isSome

/-- Whatever must be safe is, where no driver is behind a connector. -/
theorem Resolves.covered_of_driversAlone (h : Resolves κ files graph registry profile resolved)
    (hvalid : Valid κ ν graph)
    (halone : DriversAlone (allocationInputsOf κ files graph registry) profile) {cname : String}
    {component : Component} {a : Assignment}
    (hcomponent : (expandedOf κ files graph registry).doc.components[cname]? = some component)
    (ha : MustBeSafe resolved cname component a) :
    ∃ controller, ∃ s ∈ resolved.safeStates controller, s.resource = a.resource ∧
      s.component = cname := by
  have hcoverage := h.coverageErrors_eq_nil hcomponent
  obtain ⟨targets, htargets⟩ := targets_of_coverageErrors hcoverage
  obtain ⟨hkind, hdirect⟩ | ⟨raw, hraw, hdriver⟩ := ha
  · rw [← h.assigned_eq] at hdirect
    have hhazardous : isHazardous (allocatedOf κ files graph registry) cname :=
      List.any_eq_true.mpr ⟨a, hdirect, decide_eq_true hkind⟩
    obtain ⟨policy, hpolicy⟩ := policy_of_coverageErrors hcoverage (by simp [hhazardous])
    exact h.safeState_of_governed hvalid hcomponent hpolicy htargets
      (mem_targets_of_direct htargets hdirect) (h.assigned_eq cname ▸ hdirect)
  · obtain ⟨driver, _, _, _, _, hplaced⟩ := h.placed hvalid hdriver
    have hdriven := List.ne_nil_of_mem hdriver
    by_cases hnone : resolved.assigned cname = []
    · rw [← h.assigned_eq] at hnone
      have hbacked : isDriverBacked (allocatedOf κ files graph registry) cname component := by
        simp [isDriverBacked, hnone, hraw]
      obtain ⟨policy, hpolicy⟩ := policy_of_coverageErrors hcoverage (by simp [hbacked])
      exact h.safeState_of_governed hvalid hcomponent hpolicy htargets
        (mem_targets_of_driver htargets hnone hraw (h.assigned_eq _ ▸ hdriver)) hdriver
    · obtain ⟨hself, hpolicy⟩ := halone cname component raw driver hcomponent hraw
        hplaced.component_eq ((h.assigned_ne_nil_iff hcomponent).mp hnone)
        ((h.assigned_ne_nil_iff hplaced.component_eq).mp hdriven)
      obtain ⟨policy, hpolicy⟩ := Option.isSome_iff_exists.mp hpolicy
      rw [hself] at hdriver
      exact h.safeState_of_governed hvalid hcomponent hpolicy htargets
        (mem_targets_of_direct htargets (h.assigned_eq _ ▸ hdriver)) hdriver

/-- A component with a connector of its own governs its driver only where it is its own driver. -/
theorem Resolves.driversAlone_of_covered (h : Resolves κ files graph registry profile resolved)
    (hvalid : Valid κ ν graph)
    (hcovered : SafelyCovered (expandedOf κ files graph registry).doc profile resolved) :
    DriversAlone (allocationInputsOf κ files graph registry) profile := by
  intro cname component raw driver hcomponent hraw hdriver hasks hdrives
  have hdirect := (h.assigned_ne_nil_iff hcomponent).mpr hasks
  obtain ⟨b, hb⟩ := List.exists_mem_of_ne_nil _ ((h.assigned_ne_nil_iff hdriver).mpr hdrives)
  obtain ⟨controller, s, hs, hresource, hname⟩ :=
    hcovered.covered cname component b hcomponent (.inr ⟨raw, hraw, hb⟩)
  obtain ⟨policy, targets, hpolicy, htargets, htarget⟩ :=
    h.governed_of_safeState hcomponent hs hname
  rw [← h.assigned_eq] at hdirect
  obtain ⟨a, ha, heq⟩ := direct_of_mem_targets htargets hdirect htarget
  rw [h.assigned_eq] at ha
  exact ⟨(h.eq_of_resource hvalid ha hb (heq.trans hresource)).symm, by simp [hpolicy]⟩

/-- A graph that resolution returns is made safe exactly where no driver is behind a connector of
the component that names it. -/
theorem safelyCovered_iff (hvalid : Valid κ ν graph) {diagnostics : List Diagnostic}
    {phasesRun : List Phase}
    (h : (resolveDoc κ files graph registry diagnostics phasesRun).resolved = some resolved) :
    ∃ profile, loadProfile κ files (selectionOf files graph registry) graph.safety.profile =
        .ok profile ∧
      (SafelyCovered (expandedOf κ files graph registry).doc profile resolved ↔
        DriversAlone (allocationInputsOf κ files graph registry) profile) := by
  obtain ⟨profile, h⟩ := resolves_of_resolveDoc h
  refine ⟨profile, ?_, fun hcovered => h.driversAlone_of_covered hvalid hcovered, ?_⟩
  · have hload := h.profileLoads
    rwa [safety_expandedOf] at hload
  · intro halone
    refine ⟨fun cname component a hcomponent ha =>
      h.covered_of_driversAlone hvalid halone hcomponent ha, ?_, fun _ s hs => h.followsPolicy hs⟩
    rw [h.controllerSafety_eq]
    exact nodup_controllerSafety (allErrors_bindings.hasError_eq_false.mp h.partition)

/-! ## A motor with an input of its own -/

/-- The components that have drivers have nothing else, so everything is made safe. -/
theorem safelyCovered_drivenGraph : ∃ resolved profile,
    (drivenOutcome []).resolved = some resolved ∧
    (resolved.assigned "y_driver").map Assignment.resource = ["main.motor1"] ∧
    SafelyCovered (expandedOf ℚ drivenFiles (drivenGraph []) drivenRegistry).doc profile
      resolved := by
  have hsome : (drivenOutcome []).resolved.any fun resolved =>
      (resolved.assigned "y_driver").map Assignment.resource = ["main.motor1"] := by
    decide +kernel
  obtain ⟨resolved, h, hdriver⟩ := (Option.any_eq_true _ _).mp hsome
  obtain ⟨profile, -, hiff⟩ := safelyCovered_iff drivenGraph_isValid h
  refine ⟨resolved, profile, h, of_decide_eq_true hdriver, hiff.mpr ?_⟩
  let inputs := allocationInputsOf ℚ drivenFiles (drivenGraph []) drivenRegistry
  have hall : (inputs.doc.components.toList.all fun entry =>
      (entry.2.text "driver").isNone || !hasExplicitClaim entry.2 &&
        (inputs.deviceReqs[entry.2.kind]?.bind DeviceRequirement.connector).isNone) = true := by
    decide +kernel
  intro cname component raw driver hcomponent hraw _ hasks
  have hfree := List.all_eq_true.mp hall (cname, component)
    (Std.TreeMap.mem_toList_iff_getElem?_eq_some.mpr hcomponent)
  obtain hclaims | ⟨requirement, connector, hrequirement, hconnector⟩ := hasks
  · simp [hraw, hclaims] at hfree
  · simp only [hraw, Option.isNone_some, Bool.false_or, Bool.and_eq_true,
      Option.isNone_iff_eq_none, Option.bind_eq_none_iff] at hfree
    rw [hfree.2 requirement hrequirement] at hconnector
    cases hconnector

theorem sensingGraph_isValid : Valid ℚ CoreVersion (drivenGraph [("input", "main.therm1")]) :=
  problems_eq_nil.mp (List.isEmpty_iff.mp (by decide +kernel))

/-- The motor has an input, and the socket of its driver is left without a safe state. -/
theorem socket_without_safe_state : Valid ℚ CoreVersion (drivenGraph [("input", "main.therm1")]) ∧
    ∃ resolved, (drivenOutcome [("input", "main.therm1")]).resolved = some resolved ∧
      (resolved.assigned "x_driver").map Assignment.resource = ["main.motor0"] ∧
      (∀ controller, ∀ s ∈ resolved.safeStates controller, s.resource ≠ "main.motor0") ∧
      ∀ profile, ¬ SafelyCovered (expandedOf ℚ drivenFiles
        (drivenGraph [("input", "main.therm1")]) drivenRegistry).doc profile resolved := by
  have hsome : (drivenOutcome [("input", "main.therm1")]).resolved.any fun resolved =>
      (resolved.assigned "x_driver").map Assignment.resource = ["main.motor0"] ∧
      resolved.controllerSafety.values.flatten.all fun s => s.resource ≠ "main.motor0" := by
    decide +kernel
  obtain ⟨resolved, h, hplaces⟩ := (Option.any_eq_true _ _).mp hsome
  obtain ⟨hdriver, hunsafe⟩ := of_decide_eq_true hplaces
  have hnone (controller : String) (s : ControllerSafeState)
      (hs : s ∈ resolved.safeStates controller) : s.resource ≠ "main.motor0" := by
    cases hstates : resolved.controllerSafety[controller]? with
    | none => simp [ResolvedGraph.safeStates, hstates] at hs
    | some states =>
      rw [ResolvedGraph.safeStates, hstates] at hs
      exact of_decide_eq_true (List.all_eq_true.mp hunsafe s
        (List.mem_flatten.mpr ⟨states, mem_values.mpr ⟨controller, hstates⟩, hs⟩))
  refine ⟨sensingGraph_isValid, resolved, h, hdriver, hnone, ?_⟩
  intro profile hcovered
  have hmotor : ((expandedOf ℚ drivenFiles (drivenGraph [("input", "main.therm1")])
      drivenRegistry).doc.components["x_motor"]?.bind fun c => c.text "driver") =
        some "x_driver" := by
    decide +kernel
  obtain ⟨component, hcomponent, hraw⟩ := Option.bind_eq_some_iff.mp hmotor
  have htrim : trim "x_driver" = "x_driver" := by decide +kernel
  obtain ⟨a, ha, hresource⟩ := List.mem_map.mp (hdriver ▸ List.mem_singleton_self "main.motor0")
  obtain ⟨controller, s, hs, heq, -⟩ := hcovered.covered "x_motor" component a hcomponent
    (.inr ⟨"x_driver", hraw, htrim.symm ▸ ha⟩)
  exact hnone controller s hs (heq.trans hresource)

end Dryer.MachineResolver
