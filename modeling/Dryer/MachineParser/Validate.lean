import Dryer.MachineParser.Spans
import Dryer.MachineSchema.MachineGraph
import Dryer.MachineSchema.Quantities
import Dryer.PackageModel.Registry

/-!
# Validation of machine documents

The checks of a document by itself: its identifiers, the references between its parts, and the
dimensions of its limits. Every finding is an error.
-/
namespace Dryer.MachineParser
open MachineSchema PackageModel

/-! ## The checks -/

def headerErrors (graph : MachineGraph) : List Diagnostic :=
  (if graph.apiVersion = apiVersion then []
    else [(Diagnostic.error "E0200" <| s!"api_version '{graph.apiVersion}' is not supported " ++
      s!"(expected '{apiVersion}')").at "api_version"]) ++
  (if graph.kind = kindMachine then []
    else [(Diagnostic.error "E0201" <| s!"kind '{graph.kind}' is not supported " ++
      s!"(expected '{kindMachine}')").at "kind"]) ++
  (if graph.controllers.isEmpty then
    [(Diagnostic.error "E0202" "a machine needs at least one controller").at "controllers"]
    else [])

def identifierErrors (part : String) (keys : List String) : List Diagnostic :=
  keys.flatMap fun key =>
    if validIdentifier key then []
    else [(Diagnostic.error "E0300" <| s!"'{key}' is not a valid identifier (lowercase ASCII, " ++
      "digits, '_', '-', starting with a letter)").at s!"{part}.{key}"]

def workflowErrors : String × GraphWorkflow → List Diagnostic
  | (name, workflow) =>
    if validPackageRefName workflow.reference.package then []
    else [(Diagnostic.error "E0500" <| s!"workflow '{name}' references invalid package " ++
      s!"'{workflow.reference.package}'").at s!"workflows.{name}"]

def packageErrors (ν : Type) {ρ : Type} [Semver ν ρ] : String × ℕ → List Diagnostic
  | (pkg, i) =>
    match (PackageRef.parse pkg : Except RefParseError (PackageRef ν)) with
    | .error e =>
      [(Diagnostic.error "E0500" s!"invalid package reference: {e.message}").at s!"packages[{i}]"]
    | .ok _ => []

/-- The dimension of a well-known limit. The dimension of others is free. -/
def expectedLimitDimension (name : String) : Option Dimension :=
  if name = "max_velocity" ∨ name = "max_z_velocity" then some .velocity
  else if name = "max_acceleration" then some .acceleration
  else if name = "max_step_rate" then some .frequency
  else none

def parseLimit (κ : Type) [Numbers κ] (name value : String) :
    Except QuantityError (Quantity κ) :=
  match expectedLimitDimension name with
  | some dimension => Quantity.parseAs value dimension
  | none => Quantity.parse value

def limitErrors (κ : Type) [Numbers κ] : String × String → List Diagnostic
  | (name, value) =>
    match parseLimit κ name value with
    | .error e =>
      [((Diagnostic.error "E0400" s!"limit '{name}': {e.toText}").at
        s!"kinematics.limits.{name}").suggest
          "write quantities with explicit units, e.g. \"300 mm/s\""]
    | .ok _ => []

/-- An attribute that names another component, or a port of a controller. -/
def referenceErrors (graph : MachineGraph) (cname attr target : String) : List Diagnostic :=
  let path := s!"components.{cname}.{attr}"
  if attr = "driver" ∨ attr = "sensor" then
    if target ∈ graph.components then []
    else [(Diagnostic.error "E0501"
      s!"component '{cname}' references unknown component '{target}'").at path]
  else if attr = "connected_to" ∨ attr = "output" ∨ attr = "input" then
    match splitOnce target '.' with
    | some (ctrl, _) =>
      if ctrl ∈ graph.controllers then []
      else [(Diagnostic.error "E0502" <| s!"component '{cname}' references unknown controller " ++
        s!"'{ctrl}' in '{target}'").at path]
    | none =>
      [(Diagnostic.error "E0503"
        s!"'{target}' must name a controller port as 'controller.port'").at path]
  else []

def componentErrors (graph : MachineGraph) : String × Component → List Diagnostic
  | (cname, comp) => comp.attributes.toList.flatMap fun (attr, val) =>
    match val.asStr with
    | none => []
    | some target => referenceErrors graph cname attr target

def parentErrors (graph : MachineGraph) : String × GraphController → List Diagnostic
  | (name, ctrl) =>
    match ctrl.transport.parent with
    | none => []
    | some parent =>
      let path := s!"controllers.{name}.transport.parent"
      match splitOnce parent '.' with
      | none =>
        [(Diagnostic.error "E0503"
          s!"'{parent}' must name a controller port as 'controller.port'").at path]
      | some (pctrl, _) =>
        if pctrl ∈ graph.controllers then []
        else [(Diagnostic.error "E0502"
          s!"transport parent references unknown controller '{pctrl}'").at path]

variable (κ ν : Type) {ρ : Type} [Numbers κ] [Semver ν ρ]

/-- All findings, without their places in the source. -/
def problems (graph : MachineGraph) : List Diagnostic :=
  headerErrors graph ++
  identifierErrors "controllers" graph.controllers.keys ++
  identifierErrors "components" graph.components.keys ++
  identifierErrors "workflows" graph.workflows.keys ++
  graph.workflows.toList.flatMap workflowErrors ++
  graph.packages.zipIdx.flatMap (packageErrors ν) ++
  graph.kinematics.limits.toList.flatMap (limitErrors κ) ++
  graph.components.toList.flatMap (componentErrors graph) ++
  graph.controllers.toList.flatMap (parentErrors graph)

/-- A finding at the place of its path. -/
def locate (index : SpanIndex) (d : Diagnostic) : Diagnostic :=
  if d.source.isSome then d
  else
    match d.path.bind index.locateSpan with
    | some source => d.withSource source
    | none => d

def validate (index : SpanIndex) (graph : MachineGraph) : List Diagnostic :=
  (problems κ ν graph).map (locate index)

/-! ## Parsing -/

/-- An error of the YAML reader, with its place. -/
structure YamlError where
  message : String
  location : Option (ℕ × ℕ)

/-- How machine documents read as YAML. -/
structure DocumentReader where
  document : String → Except YamlError MachineGraph
  spans : String → Std.TreeMap String SourceSpan

structure ParseOutcome where
  doc : Option MachineGraph
  diagnostics : List Diagnostic
  spans : SpanIndex

def sourcePoint (line column : ℕ) : SourceSpan where
  document := none
  path := none
  start := ⟨line, column⟩
  «end» := ⟨line, column⟩

def parseError (e : YamlError) : Diagnostic :=
  let d := Diagnostic.error "E0100" s!"machine manifest does not parse: {e.message}"
  match e.location with
  | some (line, column) => d.withSource (sourcePoint line column)
  | none => d

def parseStr (reader : DocumentReader) (source : String) : ParseOutcome :=
  let spans : SpanIndex := { map := reader.spans source, document := none }
  match reader.document source with
  | .error e => { doc := none, diagnostics := [parseError e], spans }
  | .ok graph => { doc := some graph, diagnostics := validate κ ν spans graph, spans }

/-! ## Valid documents -/

/-- A document that passes every check. -/
structure Valid (graph : MachineGraph) : Prop where
  apiVersion : graph.apiVersion = MachineSchema.apiVersion
  kind : graph.kind = kindMachine
  controllers : ¬ graph.controllers.isEmpty
  controllerNames : ∀ name ∈ graph.controllers, validIdentifier name
  componentNames : ∀ name ∈ graph.components, validIdentifier name
  workflowNames : ∀ name ∈ graph.workflows, validIdentifier name
  workflows : ∀ entry ∈ graph.workflows.toList, workflowErrors entry = []
  packages : ∀ entry ∈ graph.packages.zipIdx, packageErrors ν entry = []
  limits : ∀ (name value : String), graph.kinematics.limits[name]? = some value →
    ∃ quantity, parseLimit κ name value = .ok quantity
  references : ∀ (cname : String) component (attr target : String),
    graph.components[cname]? = some component → component.text attr = some target →
      referenceErrors graph cname attr target = []
  parents : ∀ entry ∈ graph.controllers.toList, parentErrors graph entry = []

variable {κ ν} {graph : MachineGraph}

theorem identifierErrors_eq_nil {part : String} {keys : List String} :
    identifierErrors part keys = [] ↔ ∀ key ∈ keys, validIdentifier key := by
  simp [identifierErrors, List.flatMap_eq_nil_iff]

theorem limitErrors_eq_nil {name value : String} :
    limitErrors κ (name, value) = [] ↔ ∃ quantity, parseLimit κ name value = .ok quantity := by
  cases h : parseLimit κ name value <;> simp [limitErrors, h]

theorem componentErrors_eq_nil {cname : String} {component : Component} :
    componentErrors graph (cname, component) = [] ↔
      ∀ attr target : String, component.text attr = some target →
        referenceErrors graph cname attr target = [] := by
  simp only [componentErrors, List.flatMap_eq_nil_iff, Prod.forall]
  constructor
  · intro h attr target htext
    obtain ⟨val, hval, hstr⟩ := Option.bind_eq_some_iff.mp htext
    have hnone := h attr val (Std.TreeMap.mem_toList_iff_getElem?_eq_some.mpr hval)
    rwa [hstr] at hnone
  · intro h attr val hmem
    cases hstr : val.asStr with
    | none => rfl
    | some target =>
      have hval := Std.TreeMap.mem_toList_iff_getElem?_eq_some.mp hmem
      exact h attr target (by rw [Component.text, hval, Option.bind_some, hstr])

/-- A reference is in order when it names a component, or a port of a controller. -/
theorem referenceErrors_eq_nil {cname attr target : String} :
    referenceErrors graph cname attr target = [] ↔
      (attr = "driver" ∨ attr = "sensor" → target ∈ graph.components) ∧
      (attr = "connected_to" ∨ attr = "output" ∨ attr = "input" →
        ∃ ctrl port, splitOnce target '.' = some (ctrl, port) ∧ ctrl ∈ graph.controllers) := by
  unfold referenceErrors
  dsimp only
  by_cases hcomponent : attr = "driver" ∨ attr = "sensor"
  · have hport : ¬ (attr = "connected_to" ∨ attr = "output" ∨ attr = "input") := by
      obtain rfl | rfl := hcomponent <;> decide
    by_cases hmem : target ∈ graph.components <;> simp [hcomponent, hport, hmem]
  · by_cases hport : attr = "connected_to" ∨ attr = "output" ∨ attr = "input"
    · rw [if_neg hcomponent, if_pos hport]
      cases hsplit : splitOnce target '.' with
      | none => simp [hcomponent, hport]
      | some parts =>
        obtain ⟨ctrl, port⟩ := parts
        by_cases hmem : ctrl ∈ graph.controllers <;> simp [hcomponent, hport, hmem]
    · simp [hcomponent, hport]

/-- There are no findings exactly in a valid document. -/
theorem problems_eq_nil : problems κ ν graph = [] ↔ Valid κ ν graph := by
  have hheader : headerErrors graph = [] ↔ graph.apiVersion = MachineSchema.apiVersion ∧
      graph.kind = kindMachine ∧ ¬ graph.controllers.isEmpty := by
    simp [headerErrors]
  simp only [problems, List.append_eq_nil_iff, hheader, identifierErrors_eq_nil,
    Std.TreeMap.mem_keys, List.flatMap_eq_nil_iff, and_assoc]
  constructor
  · rintro ⟨hversion, hkind, hsome, hcontrollers, hcomponents, hnames, hworkflows, hpackages,
      hlimits, hreferences, hparents⟩
    refine ⟨hversion, hkind, hsome, hcontrollers, hcomponents, hnames, hworkflows, hpackages,
      ?_, ?_, hparents⟩
    · intro name value hvalue
      exact limitErrors_eq_nil.mp
        (hlimits (name, value) (Std.TreeMap.mem_toList_iff_getElem?_eq_some.mpr hvalue))
    · intro cname component attr target hcomponent
      exact componentErrors_eq_nil.mp (hreferences (cname, component)
        (Std.TreeMap.mem_toList_iff_getElem?_eq_some.mpr hcomponent)) attr target
  · intro h
    refine ⟨h.apiVersion, h.kind, h.controllers, h.controllerNames, h.componentNames,
      h.workflowNames, h.workflows, h.packages, ?_, ?_, h.parents⟩
    · rintro ⟨name, value⟩ hmem
      exact limitErrors_eq_nil.mpr
        (h.limits name value (Std.TreeMap.mem_toList_iff_getElem?_eq_some.mp hmem))
    · rintro ⟨cname, component⟩ hmem
      exact componentErrors_eq_nil.mpr fun attr target htext => h.references cname component attr
        target (Std.TreeMap.mem_toList_iff_getElem?_eq_some.mp hmem) htext

/-- Every finding is an error. -/
theorem allErrors_problems : AllErrors (problems κ ν graph) := by
  have hidentifiers (part : String) (keys : List String) :
      AllErrors (identifierErrors part keys) := by
    apply AllErrors.flatMap
    intro key _
    split <;> simp
  have hreferences (cname attr target : String) :
      AllErrors (referenceErrors graph cname attr target) := by
    unfold referenceErrors
    grind [AllErrors.nil, allErrors_cons, Diagnostic.severity_at, Diagnostic.severity_error]
  simp only [problems, allErrors_append, hidentifiers, and_true]
  refine ⟨⟨⟨⟨⟨?_, .flatMap ?_⟩, .flatMap ?_⟩, .flatMap ?_⟩, .flatMap ?_⟩, .flatMap ?_⟩
  · unfold headerErrors
    grind [AllErrors.nil, allErrors_cons, allErrors_append, Diagnostic.severity_at,
      Diagnostic.severity_error]
  · rintro ⟨name, workflow⟩ _
    by_cases h : validPackageRefName workflow.reference.package <;> simp [workflowErrors, h]
  · rintro ⟨pkg, i⟩ _
    cases h : (PackageRef.parse pkg : Except RefParseError (PackageRef ν)) <;>
      simp [packageErrors, h]
  · rintro ⟨name, value⟩ _
    cases h : parseLimit κ name value <;> simp [limitErrors, h]
  · rintro ⟨cname, component⟩ _
    apply AllErrors.flatMap
    rintro ⟨attr, val⟩ _
    cases val with
    | string target => exact hreferences cname attr target
    | other => exact .nil
  · rintro ⟨name, ctrl⟩ _
    unfold parentErrors
    grind [AllErrors.nil, allErrors_cons, Diagnostic.severity_at, Diagnostic.severity_error]

/-- Validation has no error exactly for a valid document. -/
theorem hasError_validate {index : SpanIndex} :
    hasError (validate κ ν index graph) = false ↔ Valid κ ν graph := by
  have hlocate (d : Diagnostic) : (locate index d).severity = d.severity := by
    unfold locate
    split
    · rfl
    · split <;> simp
  rw [← problems_eq_nil, ← allErrors_problems.hasError_eq_false]
  simp [hasError, validate, hlocate]

end Dryer.MachineParser
