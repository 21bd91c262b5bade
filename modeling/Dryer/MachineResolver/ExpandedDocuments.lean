import Dryer.MachineResolver.Templates
import Dryer.MachineResolver.ValidGraphs

/-!
# Expanded documents

When the document that the later phases read would itself be accepted by the parser. The resolver
checks the names, the ports and the quantities of what templates add, but neither the components
that it refers to nor the dimensions of the limits.
-/
namespace Dryer.MachineResolver
open Library MachineSchema MachineParser PackageModel

/-! ## What the templates must fit -/

/-- A component of the document or of a template. -/
def NamesComponent (graph : MachineGraph) (templates : List Template) (cname : String) : Prop :=
  cname ∈ graph.components ∨ ∃ template ∈ templates, cname ∈ template.components

/-- The drivers and sensors of the components that templates add are there, and the well-known
limits that they add have their dimensions. -/
structure TemplatesFit (κ : Type) [Numbers κ] (graph : MachineGraph) (templates : List Template) :
    Prop where
  references : ∀ (cname attr target : String) (component : Component),
    cname ∉ graph.components → templateComponent templates cname = some component →
      component.text attr = some target → attr = "driver" ∨ attr = "sensor" →
        NamesComponent graph templates target
  limits : ∀ (limit value : String) (dimension : Dimension),
    limit ∉ graph.kinematics.limits → templatesLimit templates limit = some value →
      expectedLimitDimension limit = some dimension →
        ∃ quantity : Quantity κ, Quantity.parseAs value dimension = .ok quantity

/-! ## Extended documents -/

section Extended

variable {κ : Type} [Numbers κ] {graph doc : MachineGraph} {templates : List Template}

theorem ExtendedBy.mem_components (h : ExtendedBy κ graph templates doc) {cname : String} :
    cname ∈ doc.components ↔ NamesComponent graph templates cname := by
  rw [Std.TreeMap.mem_iff_isSome_getElem?, h.components, Option.isSome_or, Bool.or_eq_true,
    ← Std.TreeMap.mem_iff_isSome_getElem?, templateComponent, List.findSome?_isSome_iff]
  simp only [NamesComponent, Std.TreeMap.mem_iff_isSome_getElem?]

theorem ExtendedBy.component_cases (h : ExtendedBy κ graph templates doc) {cname : String}
    {component : Component} (hcomponent : doc.components[cname]? = some component) :
    graph.components[cname]? = some component ∨
      cname ∉ graph.components ∧ templateComponent templates cname = some component := by
  rw [h.components] at hcomponent
  cases hown : graph.components[cname]? with
  | some own =>
    rw [hown] at hcomponent
    exact .inl hcomponent
  | none =>
    rw [hown, Option.none_or] at hcomponent
    refine .inr ⟨?_, hcomponent⟩
    rw [Std.TreeMap.mem_iff_isSome_getElem?, hown]
    simp

theorem validIdentifier_of_extendedBy (h : ExtendedBy κ graph templates doc)
    (hnames : ∀ cname ∈ graph.components, validIdentifier cname) :
    ∀ cname ∈ doc.components, validIdentifier cname := by
  intro cname hcname
  obtain hown | ⟨template, htemplate, hadded⟩ := h.mem_components.mp hcname
  · exact hnames cname hown
  · exact h.names template htemplate cname hadded

/-- The limits of an extended document are in order when those that are added have their
dimensions. -/
theorem ExtendedBy.parseLimit_iff (h : ExtendedBy κ graph templates doc)
    (hlimits : ∀ limit value : String, graph.kinematics.limits[limit]? = some value →
      ∃ quantity : Quantity κ, parseLimit κ limit value = .ok quantity) :
    (∀ limit value : String, doc.kinematics.limits[limit]? = some value →
      ∃ quantity : Quantity κ, parseLimit κ limit value = .ok quantity) ↔
    ∀ (limit value : String) (dimension : Dimension), limit ∉ graph.kinematics.limits →
      templatesLimit templates limit = some value →
      expectedLimitDimension limit = some dimension →
        ∃ quantity : Quantity κ, Quantity.parseAs value dimension = .ok quantity := by
  constructor
  · intro hall limit value dimension hnew hadded hdimension
    have hvalue : doc.kinematics.limits[limit]? = some value := by
      rw [h.limits, Std.TreeMap.getElem?_eq_none hnew, Option.none_or, hadded]
    simpa [parseLimit, hdimension] using hall limit value hvalue
  · intro hadded limit value hvalue
    obtain hown | hparse := h.parsed limit value hvalue
    · exact hlimits limit value hown
    · cases hown : graph.kinematics.limits[limit]? with
      | some own =>
        rw [h.limits, hown] at hvalue
        obtain rfl := Option.some.inj hvalue
        exact hlimits limit own hown
      | none =>
        rw [h.limits, hown, Option.none_or] at hvalue
        have hnew : limit ∉ graph.kinematics.limits := by
          rw [Std.TreeMap.mem_iff_isSome_getElem?, hown]
          simp
        unfold parseLimit
        cases hdimension : expectedLimitDimension limit with
        | some dimension => exact hadded limit value dimension hnew hvalue hdimension
        | none => exact hparse

end Extended

/-! ## Expanded documents that the parser accepts -/

variable {ν ρ : Type} [LinearOrder ν] [DecidableEq ρ] [Semver ν ρ]
  {κ : Type} [Numbers κ] {files : PackageFiles ν} {graph : MachineGraph}
  {registry : LocalRegistry ν} {profile : SafetyProfileFile} {resolved : ResolvedGraph}

/-- Every port that a component claims is one of a controller. -/
theorem Resolves.controller_of_claim (h : Resolves κ files graph registry profile resolved)
    (hvalid : Valid κ ν graph) {cname attr target : String} {component : Component}
    (hcomponent : (expandedOf κ files graph registry).doc.components[cname]? = some component)
    (htext : component.text attr = some target)
    (hattr : attr = "connected_to" ∨ attr = "output" ∨ attr = "input") :
    ∃ ctrl port, splitOnce target '.' = some (ctrl, port) ∧ ctrl ∈ graph.controllers := by
  obtain ⟨kind, hkind⟩ : ∃ kind, claimKind attr = some kind := by
    obtain rfl | rfl | rfl := hattr
    · exact ⟨_, rfl⟩
    · exact ⟨_, rfl⟩
    · exact ⟨_, rfl⟩
  have hclaim : ∃ claim ∈ explicitClaims (allocationInputsOf κ files graph registry),
      claim.cname = cname ∧ claim.target = target := exists_explicitClaim hcomponent htext hkind
  obtain ⟨claim, hmem, -, rfl⟩ := hclaim
  obtain ⟨claimed, searched, hassignments, hclaimed, -⟩ :=
    requests_of_allocate (allErrors_allocate.hasError_eq_false.mp h.allocation)
  have hserved : (claim.request, claim.target) ∈
      claimed.map fun a => (a.request, a.resource) :=
    hclaimed ▸ List.mem_map_of_mem (f := fun c : ExplicitClaim => (c.request, c.target)) hmem
  obtain ⟨a, ha, heq⟩ := List.mem_map.mp hserved
  have hassigned : a ∈ (allocationOf κ files graph registry).assignments :=
    hassignments ▸ List.mem_append_left searched ha
  obtain ⟨ctrl, port, _, _, hnames⟩ := (sound_allocationOf hvalid).names a hassigned
  have hresource : a.resource = claim.target := congrArg Prod.snd heq
  have hboard := (Std.TreeMap.getElem?_eq_some_iff.mp hnames.onBoard).1
  exact ⟨ctrl, port, hresource ▸ hnames.splits, controller_of_boards hboard⟩

/-- After a successful resolution, the parser would accept the expanded document exactly when the
templates fit. -/
theorem valid_expanded_iff (hvalid : Valid κ ν graph) {diagnostics : List Diagnostic}
    {phasesRun : List Phase}
    (h : (resolveDoc κ files graph registry diagnostics phasesRun).resolved = some resolved) :
    Valid κ ν (expandedOf κ files graph registry).doc ↔
      TemplatesFit κ graph (templates files (selectionOf files graph registry)) := by
  obtain ⟨profile, h⟩ := resolves_of_resolveDoc h
  have hextended := extendedBy_expand h.expansion
  obtain ⟨components, limits, hframe⟩ : SameFrame graph
      (expandedOf κ files graph registry).doc := sameFrame_expandedOf
  have hlimits := hextended.parseLimit_iff hvalid.limits
  constructor
  · intro hexpanded
    refine ⟨?_, hlimits.mp hexpanded.limits⟩
    intro cname attr target component hnew hadded htext hattr
    have hcomponent : (expandedOf κ files graph registry).doc.components[cname]? =
        some component := by
      rw [expandedOf, hextended.components, Std.TreeMap.getElem?_eq_none hnew, Option.none_or,
        hadded]
    have hreference := hexpanded.references cname component attr target hcomponent htext
    exact hextended.mem_components.mp ((referenceErrors_eq_nil.mp hreference).1 hattr)
  · intro hfit
    have hcontrollers : (expandedOf κ files graph registry).doc.controllers =
        graph.controllers := controllers_expandedOf
    have hworkflows : (expandedOf κ files graph registry).doc.workflows = graph.workflows := by
      rw [hframe]
    have hpackages : (expandedOf κ files graph registry).doc.packages = graph.packages := by
      rw [hframe]
    refine
      { apiVersion := by rw [hframe]; exact hvalid.apiVersion
        kind := by rw [hframe]; exact hvalid.kind
        controllers := by rw [hcontrollers]; exact hvalid.controllers
        controllerNames := by rw [hcontrollers]; exact hvalid.controllerNames
        componentNames := validIdentifier_of_extendedBy hextended hvalid.componentNames
        workflowNames := by rw [hworkflows]; exact hvalid.workflowNames
        workflows := by rw [hworkflows]; exact hvalid.workflows
        packages := by rw [hpackages]; exact hvalid.packages
        limits := hlimits.mpr hfit.limits
        references := ?_
        parents := ?_ }
    · intro cname component attr target hcomponent htext
      refine referenceErrors_eq_nil.mpr ⟨?_, ?_⟩
      · intro hattr
        apply hextended.mem_components.mpr
        obtain hown | ⟨hnew, hadded⟩ := hextended.component_cases hcomponent
        · have hreference := hvalid.references cname component attr target hown htext
          exact .inl ((referenceErrors_eq_nil.mp hreference).1 hattr)
        · exact hfit.references cname attr target component hnew hadded htext hattr
      · intro hattr
        rw [hcontrollers]
        exact h.controller_of_claim hvalid hcomponent htext hattr
    · intro entry hentry
      rw [hcontrollers] at hentry
      have hparent := hvalid.parents entry hentry
      simpa only [parentErrors, hcontrollers] using hparent

/-! ## A step rate that is a length -/

/-- A template with a limit of the wrong dimension. -/
def lengthTemplate : Template where
  components := ∅
  kinematics := some { kind := none, limits := .ofList [("max_step_rate", "5 mm")] }

/-- A machine of a class, without limits of its own. -/
def classedGraph : MachineGraph := benchGraph ["machines/bench@1.0.0"] []

theorem classedGraph_isValid : Valid ℚ CoreVersion classedGraph :=
  problems_eq_nil.mp (List.isEmpty_iff.mp (by decide +kernel))

theorem classedGraph_resolves : ∃ resolved, (resolveDoc ℚ (benchFiles lengthTemplate) classedGraph
    (benchRegistry chipDependency) [] []).resolved = some resolved :=
  Option.isSome_iff_exists.mp (by decide +kernel)

theorem valid_expanded_iff_classedGraph :
    Valid ℚ CoreVersion
      (expandedOf ℚ (benchFiles lengthTemplate) classedGraph (benchRegistry chipDependency)).doc ↔
    TemplatesFit ℚ classedGraph (templates (benchFiles lengthTemplate)
      (selectionOf (benchFiles lengthTemplate) classedGraph (benchRegistry chipDependency))) := by
  obtain ⟨resolved, h⟩ := classedGraph_resolves
  exact valid_expanded_iff classedGraph_isValid h

/-- The document is accepted and resolved, and what it is expanded to is not accepted. -/
theorem classedGraph_expands_to_invalid : Valid ℚ CoreVersion classedGraph ∧
    (∃ resolved, (resolveDoc ℚ (benchFiles lengthTemplate) classedGraph
      (benchRegistry chipDependency) [] []).resolved = some resolved) ∧
    ¬ Valid ℚ CoreVersion
      (expandedOf ℚ (benchFiles lengthTemplate) classedGraph (benchRegistry chipDependency)).doc := by
  refine ⟨classedGraph_isValid, classedGraph_resolves, ?_⟩
  intro hvalid
  have hempty : (problems ℚ CoreVersion (expandedOf ℚ (benchFiles lengthTemplate) classedGraph
      (benchRegistry chipDependency)).doc).isEmpty :=
    List.isEmpty_iff.mpr (problems_eq_nil.mpr hvalid)
  have hsome : (problems ℚ CoreVersion (expandedOf ℚ (benchFiles lengthTemplate) classedGraph
      (benchRegistry chipDependency)).doc).isEmpty = false := by decide +kernel
  rw [hsome] at hempty
  cases hempty

end Dryer.MachineResolver
