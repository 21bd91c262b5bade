import Dryer.MachineLock.LockedControllers
import Dryer.MachineResolver.ExpandedDocuments

/-!
# Locked resources

Every assignment of a resolved graph keeps its connector in the lockfile: no other assignment has
the key that it is stored under. So the safe states of a controller find their connectors.
-/
namespace Dryer.MachineLock
open Library MachineSchema MachineParser MachineResolver PackageModel

variable {κ : Type} [Numbers κ] {inputs : AllocationInputs} {a b : Assignment}

/-! ## The mechanism of an assignment -/

theorem viaShort_of_claimKind {kind : String} (h : claimKind a.via = some kind) :
    viaShort a = a.via := by
  have hattr : a.via = "connected_to" ∨ a.via = "output" ∨ a.via = "input" := by
    unfold claimKind at h
    grind
  unfold viaShort
  obtain hvia | hvia | hvia := hattr
  · rw [hvia]
    rfl
  · rw [hvia]
    rfl
  · rw [hvia]
    rfl

theorem viaShort_of_search {reference : String}
    (h : a.via = s!"requires.connector ({reference})") : viaShort a = "requires.connector" := by
  have hlist : a.via.toList =
      "requires.connector".toList ++ ' ' :: ('(' :: reference.toList ++ [')']) := by
    simp [h, toString]
  rw [viaShort, firstWord_eq_some hlist (by decide) (by decide)]
  rfl

/-- An assignment comes from the attribute of its component that names the resource, or from the
search for its component. -/
theorem origin_of_allocate (h : (allocate κ inputs).2 = []) :
    ∃ claimed searched, (allocate κ inputs).1.assignments = claimed ++ searched ∧
      (∀ a ∈ claimed, ∃ component kind, inputs.doc.components[a.requestedBy]? = some component ∧
        component.text a.via = some a.resource ∧ claimKind a.via = some kind) ∧
      (∀ a ∈ searched, viaShort a = "requires.connector") ∧
      (searched.map Assignment.requestedBy).Nodup := by
  obtain ⟨claimed, searched, hassignments, hclaimed, hsearched⟩ := requests_of_allocate h
  refine ⟨claimed, searched, hassignments, ?_, ?_, ?_⟩
  · intro a ha
    have hmem := List.mem_map_of_mem (f := fun a : Assignment => (a.request, a.resource)) ha
    rw [hclaimed] at hmem
    obtain ⟨claim, hclaim, heq⟩ := List.mem_map.mp hmem
    obtain ⟨component, hcomponent, htext, kind, hkind, -⟩ := mem_explicitClaims.mp hclaim
    obtain ⟨⟨hname, hvia⟩, hresource⟩ :
        (claim.cname = a.requestedBy ∧ claim.attr = a.via) ∧ claim.target = a.resource := by
      simpa [ExplicitClaim.request, Assignment.request] using heq
    exact ⟨component, kind, hname ▸ hcomponent, hvia ▸ hresource ▸ htext, hvia ▸ hkind⟩
  · intro a ha
    have hmem := List.mem_map_of_mem (f := Assignment.request) ha
    rw [hsearched] at hmem
    obtain ⟨search, -, heq⟩ := List.mem_map.mp hmem
    exact viaShort_of_search (congrArg Prod.snd heq).symm
  · have hnames : searched.map Assignment.requestedBy =
        (connectorSearches inputs).map ConnectorSearch.cname := by
      have hfst := congrArg (List.map Prod.fst) hsearched
      rwa [List.map_map, List.map_map] at hfst
    rw [hnames, List.nodup_iff_pairwise_ne, List.pairwise_map, connectorSearches,
      List.pairwise_filterMap]
    apply Std.TreeMap.distinct_keys_toList.imp
    rintro ⟨cname, component⟩ ⟨cname', component'⟩ hne search hsearch search' hsearch' heq
    have hcname {cname : String} {component : Component} {search : ConnectorSearch}
        (h : searchOfComponent inputs cname component = some search) : search.cname = cname := by
      unfold searchOfComponent at h
      split at h
      · cases h
      · split at h
        · cases h
        · obtain ⟨_, -, rfl⟩ := Option.map_eq_some_iff.mp h
          rfl
    rw [hcname hsearch, hcname hsearch'] at heq
    exact hne (heq ▸ Std.ReflCmp.compare_self)

/-- A component has one resource by one mechanism. -/
theorem resource_eq_of_viaShort (h : (allocate κ inputs).2 = [])
    (ha : a ∈ (allocate κ inputs).1.assignments) (hb : b ∈ (allocate κ inputs).1.assignments)
    (hname : a.requestedBy = b.requestedBy) (hvia : viaShort a = viaShort b) :
    a.resource = b.resource := by
  obtain ⟨claimed, searched, hassignments, hclaimed, hsearched, hdistinct⟩ := origin_of_allocate h
  have hmixed {a b : Assignment} (ha : a ∈ claimed) (hb : b ∈ searched) :
      viaShort a ≠ viaShort b := by
    obtain ⟨_, kind, -, -, hkind⟩ := hclaimed a ha
    rw [hsearched b hb, viaShort_of_claimKind hkind]
    intro heq
    rw [heq] at hkind
    cases hkind
  rw [hassignments] at ha hb
  obtain ha | ha := List.mem_append.mp ha
  · obtain hb | hb := List.mem_append.mp hb
    · obtain ⟨component, kind, hcomponent, htext, hkind⟩ := hclaimed a ha
      obtain ⟨component', kind', hcomponent', htext', hkind'⟩ := hclaimed b hb
      rw [viaShort_of_claimKind hkind, viaShort_of_claimKind hkind'] at hvia
      rw [← hname, hcomponent] at hcomponent'
      obtain rfl := Option.some.inj hcomponent'
      rw [← hvia, htext] at htext'
      exact Option.some.inj htext'
    · exact absurd hvia (hmixed ha hb)
  · obtain hb | hb := List.mem_append.mp hb
    · exact absurd hvia.symm (hmixed hb ha)
    · rw [List.inj_on_of_nodup_map hdistinct ha hb hname]

/-! ## Resources of a resolved graph -/

variable {ν ρ : Type} [LinearOrder ν] [DecidableEq ρ] [Semver ν ρ] {files : PackageFiles ν}
  {graph : MachineGraph} {registry : LocalRegistry ν} {profile : SafetyProfileFile}
  {resolved : ResolvedGraph} {name cname : String}

theorem mem_assignmentEntries :
    (cname, a) ∈ assignmentEntries resolved ↔ a ∈ resolved.assigned cname := by
  simp only [assignmentEntries, List.mem_flatMap, List.mem_map, Prod.exists, Prod.mk.injEq,
    Std.TreeMap.mem_toList_iff_getElem?_eq_some, ResolvedGraph.assigned]
  constructor
  · rintro ⟨_, assignments, hassigned, _, hmem, rfl, rfl⟩
    rw [hassigned]
    exact hmem
  · intro hmem
    cases hassigned : resolved.assignments[cname]? with
    | none =>
      rw [hassigned] at hmem
      cases hmem
    | some assignments =>
      rw [hassigned] at hmem
      exact ⟨cname, assignments, hassigned, a, hmem, rfl, rfl⟩

theorem resourceEntry_eq_some {key port : String} :
    resourceEntry name (cname, a) = some (key, port) ↔
      splitOnce a.resource '.' = some (name, port) ∧ s!"{cname}/{viaShort a}" = key := by
  dsimp only [resourceEntry]
  cases splitOnce a.resource '.' with
  | none => simp
  | some parts =>
    obtain ⟨controllerName, port'⟩ := parts
    dsimp only
    split
    · rename_i heq
      simp [heq, and_comm]
    · rename_i hne
      simp [hne]

/-- The names of the components in the expanded document are identifiers. -/
theorem validIdentifier_of_resolves (h : Resolves κ files graph registry profile resolved)
    (hvalid : Valid κ ν graph) {component : Component}
    (hcomponent : (expandedOf κ files graph registry).doc.components[cname]? = some component) :
    validIdentifier cname := by
  apply validIdentifier_of_extendedBy (extendedBy_expand h.expansion) hvalid.componentNames
  rw [Std.TreeMap.mem_iff_isSome_getElem?]
  exact Option.isSome_of_eq_some hcomponent

/-- The connector of every assignment is found under its key, which no other assignment has. -/
theorem getElem?_resourcesOf (h : Resolves κ files graph registry profile resolved)
    (hvalid : Valid κ ν graph) {port : String} (ha : a ∈ resolved.assigned cname)
    (hsplit : splitOnce a.resource '.' = some (name, port)) :
    (resourcesOf resolved name)[s!"{cname}/{viaShort a}"]? = some port := by
  have hallocated {cname : String} {a : Assignment} (ha : a ∈ resolved.assigned cname) :
      a ∈ (allocationOf κ files graph registry).assignments ∧ a.requestedBy = cname := by
    rwa [ResolvedGraph.assigned, h.assignments_eq, mem_byComponent] at ha
  have hplain {cname : String} {a : Assignment} (ha : a ∈ resolved.assigned cname) :
      splitOnce s!"{cname}/{viaShort a}" '/' = some (cname, viaShort a) := by
    obtain ⟨_, _, _, _, _, hplaced⟩ := h.placed hvalid ha
    have hname := validIdentifier_of_resolves h hvalid hplaced.component_eq
    exact splitOnce_eq_some.mpr ⟨notMem_of_validIdentifier hname rfl, by simp [toString]⟩
  refine getElem?_foldl_insert_of_mem ?_ ?_
  · exact List.mem_filterMap.mpr
      ⟨(cname, a), mem_assignmentEntries.mpr ha, resourceEntry_eq_some.mpr ⟨hsplit, rfl⟩⟩
  · intro port' hmem
    obtain ⟨⟨cname', b⟩, hb, hentry⟩ := List.mem_filterMap.mp hmem
    obtain ⟨hsplit', hkey⟩ := resourceEntry_eq_some.mp hentry
    have hassigned := mem_assignmentEntries.mp hb
    have hsame := hplain hassigned
    rw [hkey, hplain ha] at hsame
    obtain ⟨rfl, hvia⟩ := Prod.mk.inj (Option.some.inj hsame)
    obtain ⟨hmemA, hnameA⟩ := hallocated ha
    obtain ⟨hmemB, hnameB⟩ := hallocated hassigned
    have hresource := resource_eq_of_viaShort (allErrors_allocate.hasError_eq_false.mp h.allocation)
      hmemA hmemB (hnameA.trans hnameB.symm) hvia
    rw [hresource, hsplit'] at hsplit
    exact (Prod.mk.inj (Option.some.inj hsplit)).2

/-- The connector of every assignment is among the resources of its controller. -/
theorem port_mem_resourcesOf (h : Resolves κ files graph registry profile resolved)
    (hvalid : Valid κ ν graph) {port : String} (ha : a ∈ resolved.assigned cname)
    (hsplit : splitOnce a.resource '.' = some (name, port)) :
    port ∈ (resourcesOf resolved name).values :=
  mem_values.mpr ⟨_, getElem?_resourcesOf h hvalid ha hsplit⟩

/-! ## Safe states of a resolved graph -/

/-- A connector of a controller that is assigned to a component. -/
def ConnectorOf (resolved : ResolvedGraph) (name resource port : String) : Prop :=
  splitOnce resource '.' = some (name, port) ∧
    ∃ cname, ∃ a ∈ resolved.assigned cname, a.resource = resource

/-- A safe state whose connectors are assigned on its controller. -/
structure Grounded (resolved : ResolvedGraph) (name : String) (state : ControllerSafeState) :
    Prop where
  component : validIdentifier state.component
  resource : ∃ port, ConnectorOf resolved name state.resource port
  sensor : ∀ sensor, state.sensor = some sensor → ∃ port, ConnectorOf resolved name sensor port
  heartbeat : state.heartbeatTimeoutUs ≠ some 0

theorem exists_assigned_of_target {component : Component} {targets : List String}
    {target : String} (h : safetyTargetResources resolved cname component = .ok targets)
    (htarget : target ∈ targets) :
    ∃ owner, ∃ a ∈ resolved.assigned owner, a.resource = target := by
  obtain ⟨governing, hgoverning, hmem⟩ := governing_of_safetyTargetResources h
  obtain ⟨a, ha, hresource⟩ := (hmem target).mp htarget
  unfold governingAssignments at hgoverning
  dsimp only at hgoverning
  split at hgoverning
  · unfold driverAssignments at hgoverning
    split at hgoverning
    · obtain rfl := Except.ok.inj hgoverning
      cases ha
    · dsimp only at hgoverning
      split at hgoverning
      · cases hgoverning
      · split at hgoverning
        · cases hgoverning
        · obtain rfl := Except.ok.inj hgoverning
          exact ⟨_, a, ha, hresource⟩
  · obtain rfl := Except.ok.inj hgoverning
    exact ⟨cname, a, ha, hresource⟩

theorem grounded_of_mem_safeStates (h : Resolves κ files graph registry profile resolved)
    (hvalid : Valid κ ν graph) {state : ControllerSafeState}
    (hstate : state ∈ resolved.safeStates name) : Grounded resolved name state := by
  obtain ⟨cname, component, hcomponent, hmem⟩ := h.mem_safeStates.mp hstate
  obtain ⟨policy, targets, target, -, htargets, htarget, hsafe⟩ := mem_safeStatesOf.mp hmem
  obtain ⟨⟨owner, port⟩, hsplit, heq⟩ := Option.map_eq_some_iff.mp hsafe
  obtain ⟨rfl, rfl⟩ := Prod.mk.inj heq
  refine ⟨validIdentifier_of_resolves h hvalid hcomponent, ?_, ?_,
    policy.heartbeatTimeoutUs_ne_zero κ⟩
  · obtain ⟨owner, a, ha, hresource⟩ := exists_assigned_of_target htargets htarget
    rw [h.assigned_eq] at ha
    exact ⟨port, hsplit, owner, a, ha, hresource⟩
  · intro sensor hsensor
    dsimp only at hsensor
    split at hsensor
    · obtain ⟨owner, a, sensorPort, -, ha, -, hresource, hsplit⟩ :=
        sensedAt_of_sensorResource hsensor
      rw [h.assigned_eq] at ha
      exact ⟨sensorPort, hsplit, owner, a, ha, hresource⟩
    · cases hsensor

/-- Resources are assigned on the controllers of the document. -/
theorem mem_controllers_of_assigned (h : Resolves κ files graph registry profile resolved)
    (hvalid : Valid κ ν graph) {port : String} (ha : a ∈ resolved.assigned cname)
    (hsplit : splitOnce a.resource '.' = some (name, port)) : name ∈ graph.controllers := by
  obtain ⟨_, ctrl, _, _, _, hplaced⟩ := h.placed hvalid ha
  obtain ⟨rfl, -⟩ : name = ctrl ∧ _ :=
    Prod.mk.inj (Option.some.inj (hsplit.symm.trans hplaced.names.splits))
  obtain ⟨controller, -, hcontroller, -⟩ := hplaced.boardOf
  exact Std.TreeMap.mem_iff_isSome_getElem?.mpr (Option.isSome_of_eq_some hcontroller)

theorem mem_controllers_of_safeStates (h : Resolves κ files graph registry profile resolved)
    (hvalid : Valid κ ν graph) {state : ControllerSafeState}
    (hstate : state ∈ resolved.safeStates name) : name ∈ graph.controllers := by
  obtain ⟨port, hsplit, cname, a, ha, hresource⟩ :=
    (grounded_of_mem_safeStates h hvalid hstate).resource
  exact mem_controllers_of_assigned h hvalid ha (hresource ▸ hsplit)

/-- The controllers of the safe states are those of the document. -/
theorem mem_controllers_of_controllerSafety (h : Resolves κ files graph registry profile resolved)
    (hvalid : Valid κ ν graph) (hname : name ∈ resolved.controllerSafety) :
    name ∈ graph.controllers := by
  obtain ⟨state, hstate⟩ : ∃ state, state ∈ resolved.safeStates name := by
    rw [h.controllerSafety_eq] at hname
    obtain ⟨state, hmem⟩ := mem_collect.mp (Std.TreeMap.mem_map.mp hname)
    refine ⟨state, ?_⟩
    rw [ResolvedGraph.safeStates, h.controllerSafety_eq]
    exact mem_safeStates_partitionSafety.mpr hmem
  exact mem_controllers_of_safeStates h hvalid hstate

end Dryer.MachineLock
