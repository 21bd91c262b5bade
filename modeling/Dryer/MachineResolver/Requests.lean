import Dryer.MachineResolver.Placements

/-!
# Requests

Without an error, allocation serves every request once, in order: the explicit claims with the
resources that they name, then the searches.
-/
namespace Dryer.MachineResolver
open Library MachineSchema PackageModel

variable {κ : Type} [Numbers κ] {inputs : AllocationInputs} {state : Allocation} {p : Placement}

/-- Who asked for an assignment, and by what. -/
def Assignment.request (a : Assignment) : String × String := (a.requestedBy, a.via)

def ExplicitClaim.request (claim : ExplicitClaim) : String × String := (claim.cname, claim.attr)

def ConnectorSearch.request (search : ConnectorSearch) : String × String :=
  (search.cname, s!"requires.connector ({search.requirement.reference})")

/-! ## Every error of allocation is one -/

section Errors

variable {claim : ExplicitClaim}

@[simp] theorem ExplicitClaim.severity_error (code message : String) :
    (claim.error inputs code message).severity = .error := by
  simp [ExplicitClaim.error]

theorem failsWith_place : FailsWith (·.severity = .error) (claim.place κ inputs state) := by
  refine .bind ?_ fun connector _ => .bind ?_ fun bus _ => .bind ?_ fun timer _ => .pure _
  · unfold ExplicitClaim.connector
    split
    · exact .error (by simp)
    · refine .bind (.okOr (by simp)) fun board _ => .bind (.okOr (by simp)) fun connector _ =>
        .bind (.reject_of (by simp)) fun _ _ => ?_
      split
      · refine .error ?_
        unfold ExplicitClaim.conflict
        dsimp only
        split <;> simp
      · exact .pure _
  · unfold ExplicitClaim.busConstraints
    split
    · exact .pure _
    · split
      · exact .pure _
      · exact .error (by simp)
  · unfold ExplicitClaim.timer
    split
    · exact .pure _
    · split
      · exact .pure _
      · dsimp only
        split
        · exact .error (by simp)
        · split
          · exact .error (by simp [ExplicitClaim.timerConflict])
          · exact .pure _

theorem failsWith_search {search : ConnectorSearch} :
    FailsWith (·.severity = .error) (search.place κ inputs state) := by
  refine .bind ?_ fun ctrl _ => .bind (.okOr (by simp)) fun board _ =>
    .bind (.okOr (by simp)) fun target _ => .pure _
  unfold ConnectorSearch.controller
  split
  · exact .pure _
  · split
    · exact .pure _
    · exact .error (by simp)

theorem allErrors_allocate : AllErrors (allocate κ inputs).2 := by
  refine allErrors_append.mpr ⟨?_, ?_⟩
  · apply pass_reports
    intro claim state
    exact failsWith_place.bind fun _ _ => .pure _
  · apply pass_reports
    intro search state
    exact failsWith_search.bind fun _ _ => .pure _

end Errors

/-! ## Every request is served -/

theorem assignment_of_explicit {claim : ExplicitClaim}
    (h : claim.place κ inputs state = .ok p) :
    p.assignment.request = claim.request ∧ p.assignment.resource = claim.target := by
  simp only [ExplicitClaim.place, bind_eq_ok] at h
  obtain ⟨_, -, _, -, _, -, hp⟩ := h
  obtain rfl := Except.ok.inj hp
  exact ⟨rfl, rfl⟩

theorem assignment_of_search {search : ConnectorSearch}
    (h : search.place κ inputs state = .ok p) : p.assignment.request = search.request := by
  simp only [ConnectorSearch.place, bind_eq_ok] at h
  obtain ⟨_, -, _, -, _, -, hp⟩ := h
  obtain rfl := Except.ok.inj hp
  rfl

/-- The assignments of an allocation without errors, request by request. -/
theorem requests_of_allocate (h : (allocate κ inputs).2 = []) :
    ∃ claimed searched, (allocate κ inputs).1.assignments = claimed ++ searched ∧
      claimed.map (fun a => (a.request, a.resource)) =
        (explicitClaims inputs).map (fun claim => (claim.request, claim.target)) ∧
      searched.map Assignment.request = (connectorSearches inputs).map ConnectorSearch.request := by
  obtain ⟨hclaims, hsearches⟩ := List.append_eq_nil_iff.mp h
  have hclaimed := pass_induction
    (P := fun before state => state.assignments.map (fun a => (a.request, a.resource)) =
      before.map fun claim => (claim.request, claim.target)) ?_ rfl hclaims
  · have hsearched := pass_induction
      (P := fun before state => ∃ searched,
        state.assignments = (pass (explicitStep κ inputs) .start
          (explicitClaims inputs)).1.assignments ++ searched ∧
        searched.map Assignment.request = before.map ConnectorSearch.request) ?_ ?_ hsearches
    · obtain ⟨searched, hassignments, hrequests⟩ := hsearched
      exact ⟨_, searched, hassignments, hclaimed, hrequests⟩
    · rintro before search state next ⟨searched, hassignments, hrequests⟩ hnext
      obtain ⟨p, hp, hnext⟩ := bind_eq_ok.mp hnext
      obtain rfl := Except.ok.inj hnext
      refine ⟨searched ++ [p.assignment], ?_, ?_⟩
      · rw [Allocation.record, hassignments, List.append_assoc]
      · simp [hrequests, assignment_of_search hp]
    · exact ⟨[], by simp, rfl⟩
  · intro before claim state next hbefore hnext
    obtain ⟨p, hp, hnext⟩ := bind_eq_ok.mp hnext
    obtain rfl := Except.ok.inj hnext
    obtain ⟨hrequest, hresource⟩ := assignment_of_explicit hp
    simp [Allocation.record, hbefore, hrequest, hresource]

theorem mem_explicitClaims {claim : ExplicitClaim} :
    claim ∈ explicitClaims inputs ↔ ∃ component, inputs.doc.components[claim.cname]? =
      some component ∧ component.text claim.attr = some claim.target ∧
      ∃ kind, claimKind claim.attr = some kind ∧
        claim.requirement = inputs.deviceReqs[component.kind]? ∧
        claim.expectedKind = (claim.requirement.bind DeviceRequirement.connector).getD kind := by
  simp only [explicitClaims, List.mem_flatMap, List.mem_filterMap, Prod.exists,
    Std.TreeMap.mem_toList_iff_getElem?_eq_some]
  constructor
  · rintro ⟨cname, component, hcomponent, attr, val, hval, hclaim⟩
    unfold claimOf at hclaim
    split at hclaim
    · cases hclaim
    · rename_i target htarget
      split at hclaim
      · cases hclaim
      · rename_i kind hkind
        obtain rfl := Option.some.inj hclaim
        exact ⟨component, hcomponent, by simp [Component.text, hval, htarget], kind, hkind, rfl,
          rfl⟩
  · rintro ⟨component, hcomponent, htext, kind, hkind, hrequirement, hexpected⟩
    obtain ⟨val, hval, htarget⟩ := Option.bind_eq_some_iff.mp htext
    refine ⟨claim.cname, component, hcomponent, claim.attr, val, hval, ?_⟩
    rw [claimOf, htarget]
    dsimp only
    rw [hkind]
    dsimp only
    rw [← hrequirement, ← hexpected]

/-- Every attribute that claims a connector is an explicit claim. -/
theorem exists_explicitClaim {cname attr target kind : String} {component : Component}
    (hcomponent : inputs.doc.components[cname]? = some component)
    (htext : component.text attr = some target) (hkind : claimKind attr = some kind) :
    ∃ claim ∈ explicitClaims inputs, claim.cname = cname ∧ claim.target = target := by
  let requirement := inputs.deviceReqs[component.kind]?
  let expectedKind := (requirement.bind DeviceRequirement.connector).getD kind
  exact ⟨{ cname, attr, target, expectedKind, requirement },
    mem_explicitClaims.mpr ⟨component, hcomponent, htext, kind, hkind, rfl, rfl⟩, rfl, rfl⟩

theorem mem_connectorSearches {search : ConnectorSearch} :
    search ∈ connectorSearches inputs ↔
      inputs.doc.components[search.cname]? = some search.component ∧
      hasExplicitClaim search.component = false ∧
      inputs.deviceReqs[search.component.kind]? = some search.requirement ∧
      search.requirement.connector = some search.requiredKind := by
  simp only [connectorSearches, List.mem_filterMap, Prod.exists,
    Std.TreeMap.mem_toList_iff_getElem?_eq_some]
  constructor
  · rintro ⟨cname, component, hcomponent, hsearch⟩
    unfold searchOfComponent at hsearch
    split at hsearch
    · cases hsearch
    · rename_i hnone
      split at hsearch
      · cases hsearch
      · rename_i requirement hrequirement
        obtain ⟨kind, hkind, rfl⟩ := Option.map_eq_some_iff.mp hsearch
        exact ⟨hcomponent, Bool.eq_false_of_not_eq_true hnone, hrequirement, hkind⟩
  · rintro ⟨hcomponent, hnone, hrequirement, hkind⟩
    refine ⟨search.cname, search.component, hcomponent, ?_⟩
    simp [searchOfComponent, hnone, hrequirement, hkind]

theorem hasExplicitClaim_iff {component : Component} : hasExplicitClaim component = true ↔
    ∃ attr target kind, component.text attr = some target ∧ claimKind attr = some kind := by
  simp only [hasExplicitClaim, List.any_eq_true, Prod.exists, Bool.and_eq_true,
    Std.TreeMap.mem_toList_iff_getElem?_eq_some, Component.text, Option.bind_eq_some_iff,
    Option.isSome_iff_exists]
  constructor
  · rintro ⟨attr, val, hval, ⟨kind, hkind⟩, target, htarget⟩
    exact ⟨attr, target, kind, ⟨val, hval, htarget⟩, hkind⟩
  · rintro ⟨attr, target, kind, ⟨val, hval, htarget⟩, hkind⟩
    exact ⟨attr, val, hval, ⟨kind, hkind⟩, target, htarget⟩

/-- A component asks for a connector by an attribute, or because its device needs one. -/
def AsksForConnector (inputs : AllocationInputs) (component : Component) : Prop :=
  hasExplicitClaim component = true ∨ ∃ requirement connector,
    inputs.deviceReqs[component.kind]? = some requirement ∧ requirement.connector = some connector

/-- Every assignment is for a component of the document that asks for it. -/
theorem component_of_allocate (h : (allocate κ inputs).2 = []) {a : Assignment}
    (ha : a ∈ (allocate κ inputs).1.assignments) :
    ∃ component, inputs.doc.components[a.requestedBy]? = some component ∧
      AsksForConnector inputs component := by
  obtain ⟨claimed, searched, hassignments, hclaimed, hsearched⟩ := requests_of_allocate h
  rw [hassignments] at ha
  obtain hexplicit | hsearch := List.mem_append.mp ha
  · have hmem := List.mem_map_of_mem (f := fun a => (a.request, a.resource)) hexplicit
    rw [hclaimed] at hmem
    obtain ⟨claim, hclaim, heq⟩ := List.mem_map.mp hmem
    obtain ⟨component, hcomponent, htext, kind, hkind, -⟩ := mem_explicitClaims.mp hclaim
    have hname : claim.cname = a.requestedBy := congrArg (fun key => key.1.1) heq
    exact ⟨component, hname ▸ hcomponent,
      .inl (hasExplicitClaim_iff.mpr ⟨_, _, kind, htext, hkind⟩)⟩
  · have hmem := List.mem_map_of_mem (f := Assignment.request) hsearch
    rw [hsearched] at hmem
    obtain ⟨search, hmemSearch, heq⟩ := List.mem_map.mp hmem
    have hname : search.cname = a.requestedBy := congrArg Prod.fst heq
    obtain ⟨hcomponent, -, hrequirement, hconnector⟩ := mem_connectorSearches.mp hmemSearch
    exact ⟨search.component, hname ▸ hcomponent, .inr ⟨_, _, hrequirement, hconnector⟩⟩

/-- Every component that asks for a connector gets one. -/
theorem exists_assignment (h : (allocate κ inputs).2 = []) {cname : String} {component : Component}
    (hcomponent : inputs.doc.components[cname]? = some component)
    (hasks : AsksForConnector inputs component) :
    ∃ a ∈ (allocate κ inputs).1.assignments, a.requestedBy = cname := by
  obtain ⟨claimed, searched, hassignments, hclaimed, hsearched⟩ := requests_of_allocate h
  rw [hassignments]
  cases hexplicit : hasExplicitClaim component with
  | true =>
    obtain ⟨attr, target, kind, htext, hkind⟩ := hasExplicitClaim_iff.mp hexplicit
    obtain ⟨claim, hclaim, rfl, -⟩ : ∃ claim ∈ explicitClaims inputs, claim.cname = cname ∧ _ :=
      exists_explicitClaim hcomponent htext hkind
    have hmem := List.mem_map_of_mem (f := fun c : ExplicitClaim => (c.request, c.target)) hclaim
    rw [← hclaimed] at hmem
    obtain ⟨a, ha, heq⟩ := List.mem_map.mp hmem
    exact ⟨a, List.mem_append_left searched ha, congrArg (fun key => key.1.1) heq⟩
  | false =>
    obtain hclaims | ⟨requirement, requiredKind, hrequirement, hconnector⟩ := hasks
    · rw [hexplicit] at hclaims
      cases hclaims
    · have hsearch : ConnectorSearch.mk cname component requirement requiredKind ∈
          connectorSearches inputs :=
        mem_connectorSearches.mpr ⟨hcomponent, hexplicit, hrequirement, hconnector⟩
      have hmem := List.mem_map_of_mem (f := ConnectorSearch.request) hsearch
      rw [← hsearched] at hmem
      obtain ⟨a, ha, heq⟩ := List.mem_map.mp hmem
      exact ⟨a, List.mem_append_right claimed ha, congrArg Prod.fst heq⟩

/-! ## The assignments by component -/

theorem mem_byComponent {cname : String} {a : Assignment} :
    a ∈ state.byComponent[cname]?.getD [] ↔ a ∈ state.assignments ∧ a.requestedBy = cname := by
  rw [Allocation.byComponent, mem_getD_collect, List.mem_map]
  simp only [Prod.mk.injEq]
  constructor
  · rintro ⟨_, ha, hname, rfl⟩
    exact ⟨ha, hname⟩
  · rintro ⟨ha, hname⟩
    exact ⟨a, ha, hname, rfl⟩

theorem perm_byComponent : state.byComponent.values.flatten.Perm state.assignments := by
  have hperm : state.byComponent.values.flatten.Perm
      ((state.assignments.map fun a => (a.requestedBy, a)).map Prod.snd) :=
    perm_flatten_values_collect _
  rwa [List.map_map, show Prod.snd ∘ (fun a : Assignment => (a.requestedBy, a)) = id from rfl,
    List.map_id] at hperm

end Dryer.MachineResolver
