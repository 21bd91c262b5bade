import Dryer.MachineResolver.Selection

/-!
# Graph expansion

The machine packages of the closure add the components and limits of their templates to the
document of the machine, where the document has none of the same name.
-/
namespace Dryer.MachineResolver
open Library MachineSchema MachineParser PackageModel

variable {ν ρ : Type} [LinearOrder ν] [Semver ν ρ]

/-- A document during expansion, with the sources of the paths that templates added. -/
structure ExpandedGraph where
  doc : MachineGraph
  sources : Std.TreeMap String SourceSpan
  diagnostics : List Diagnostic

namespace ExpandedGraph

def report (expanded : ExpandedGraph) (diagnostics : List Diagnostic) : ExpandedGraph :=
  { expanded with diagnostics := expanded.diagnostics ++ diagnostics }

@[simp] theorem diagnostics_report (expanded : ExpandedGraph) (diagnostics : List Diagnostic) :
    (expanded.report diagnostics).diagnostics = expanded.diagnostics ++ diagnostics := rfl

@[simp] theorem doc_report (expanded : ExpandedGraph) (diagnostics : List Diagnostic) :
    (expanded.report diagnostics).doc = expanded.doc := rfl

/-- The places of a component and its attributes in the package of the template. -/
def addSources (sources : Std.TreeMap String SourceSpan) (index : Option SpanIndex)
    (componentId : String) (component : Component) : Std.TreeMap String SourceSpan :=
  match index with
  | none => sources
  | some index =>
    let templatePath := s!"template.components.{componentId}"
    let expandedPath := s!"components.{componentId}"
    let withComponent := match index.getSpan templatePath with
      | some source => sources.insert expandedPath source
      | none => sources
    component.attributes.keys.foldl (fun sources attr =>
      match index.getSpan s!"{templatePath}.{attr}" with
      | some source => sources.insert s!"{expandedPath}.{attr}" source
      | none => sources) withComponent

def addComponent (path : String) (index : Option SpanIndex) (expanded : ExpandedGraph) :
    String × Component → ExpandedGraph
  | (componentId, component) =>
    if !validIdentifier componentId then
      expanded.report [.error "E1131"
        s!"template component '{componentId}' from '{path}' is not a valid identifier"]
    else if componentId ∈ expanded.doc.components then
      expanded.report [.info "I1132"
        s!"source component '{componentId}' shadows the template from '{path}'"]
    else
      { doc :=
          { expanded.doc with
            components := expanded.doc.components.insert componentId component }
        sources := addSources expanded.sources index componentId component
        diagnostics := expanded.diagnostics ++
          [.info "I1133" s!"component '{componentId}' expanded from '{path}'"] }

def insertLimit (expanded : ExpandedGraph) (limit value : String) : ExpandedGraph :=
  { expanded with
    doc :=
      { expanded.doc with
        kinematics :=
          { expanded.doc.kinematics with
            limits := expanded.doc.kinematics.limits.insert limit value } } }

def addLimit (κ : Type) [Numbers κ] (path : String) (expanded : ExpandedGraph) :
    String × String → ExpandedGraph
  | (limit, value) =>
    if limit ∈ expanded.doc.kinematics.limits then expanded
    else
      match (Quantity.parse value : Except QuantityError (Quantity κ)) with
      | .error _ =>
        expanded.report [.error "E1134"
          s!"template limit '{limit}' from '{path}': '{value}' is not a valid quantity"]
      | .ok _ =>
        (expanded.report [.info "I1133"
          s!"kinematics limit '{limit}' defaulted from '{path}'"]).insertLimit limit value

/-- A kind that the template assumes and the document does not declare. -/
def warnKind (path : String) (kind : Option String) (expanded : ExpandedGraph) : ExpandedGraph :=
  match kind with
  | none => expanded
  | some kind =>
    if kind ≠ expanded.doc.kinematics.kind then
      expanded.report [.warning "E1130" <| s!"machine class '{path}' assumes {kind} kinematics " ++
        s!"but the source declares {expanded.doc.kinematics.kind}"]
    else expanded

def addKinematics (κ : Type) [Numbers κ] (path : String) (kinematics : Option TemplateKinematics)
    (expanded : ExpandedGraph) : ExpandedGraph :=
  match kinematics with
  | none => expanded
  | some kinematics =>
    kinematics.limits.toList.foldl (addLimit κ path) (warnKind path kinematics.kind expanded)

def addTemplate (κ : Type) [Numbers κ] (path : String) (index : Option SpanIndex)
    (template : Template) (expanded : ExpandedGraph) : ExpandedGraph :=
  addKinematics κ path template.kinematics
    (template.components.toList.foldl (addComponent path index) expanded)

end ExpandedGraph

section Expand

variable (κ : Type) [Numbers κ] (files : PackageFiles ν) (selection : PackageSelection ν)

/-- The template of a package of the closure, if it is a machine package and has one. -/
def templateOf (path : String) : Except (List Diagnostic) (Option (LoadedPackage ν × Template)) :=
  match selection.select path with
  | none => .ok none
  | some package =>
    if files.kind package ≠ .machine then .ok none
    else
      match package.machinePayload files with
      | .error errors => .error errors
      | .ok payload => .ok (payload.template.map (package, ·))

def expandPackage (expanded : ExpandedGraph) (path : String) : ExpandedGraph :=
  match templateOf files selection path with
  | .error errors => expanded.report errors
  | .ok none => expanded
  | .ok (some (package, template)) =>
    expanded.addTemplate κ path selection.packageSpans[package.reference.toText]? template

/-- All machine packages in the order of their paths. -/
def expand (graph : MachineGraph) : ExpandedGraph :=
  selection.chosen.keys.foldl (expandPackage κ files selection)
    { doc := graph, sources := ∅, diagnostics := [] }

end Expand

/-! ## What expansion keeps -/

/-- The documents differ in their components and limits at most. -/
def SameFrame (graph expanded : MachineGraph) : Prop :=
  ∃ components limits, expanded =
    { graph with components, kinematics := { graph.kinematics with limits } }

theorem SameFrame.refl (graph : MachineGraph) : SameFrame graph graph :=
  ⟨graph.components, graph.kinematics.limits, rfl⟩

theorem SameFrame.trans {first second third : MachineGraph} (h : SameFrame first second)
    (h' : SameFrame second third) : SameFrame first third := by
  obtain ⟨_, _, rfl⟩ := h
  obtain ⟨components, limits, rfl⟩ := h'
  exact ⟨components, limits, rfl⟩

theorem SameFrame.foldl {σ : Type} {f : ExpandedGraph → σ → ExpandedGraph} {as : List σ}
    (hstep : ∀ expanded a, SameFrame expanded.doc (f expanded a).doc) (expanded : ExpandedGraph) :
    SameFrame expanded.doc (as.foldl f expanded).doc := by
  induction as generalizing expanded with
  | nil => exact .refl _
  | cons a as ih => exact (hstep expanded a).trans (ih _)

theorem sameFrame_addComponent {path : String} {index : Option SpanIndex}
    (expanded : ExpandedGraph) (entry : String × Component) :
    SameFrame expanded.doc (expanded.addComponent path index entry).doc := by
  dsimp only [ExpandedGraph.addComponent]
  split
  · exact .refl _
  · split
    · exact .refl _
    · exact ⟨_, _, rfl⟩

theorem sameFrame_addLimit {κ : Type} [Numbers κ] {path : String} (expanded : ExpandedGraph)
    (entry : String × String) : SameFrame expanded.doc (expanded.addLimit κ path entry).doc := by
  dsimp only [ExpandedGraph.addLimit]
  split
  · exact .refl _
  · split
    · exact .refl _
    · exact ⟨_, _, rfl⟩

theorem doc_warnKind {path : String} {kind : Option String} (expanded : ExpandedGraph) :
    (expanded.warnKind path kind).doc = expanded.doc := by
  unfold ExpandedGraph.warnKind
  split
  · rfl
  · split <;> rfl

theorem sameFrame_addTemplate {κ : Type} [Numbers κ] {path : String} {index : Option SpanIndex}
    {template : Template} (expanded : ExpandedGraph) :
    SameFrame expanded.doc (expanded.addTemplate κ path index template).doc := by
  have hcomponents : SameFrame expanded.doc
      (template.components.toList.foldl (ExpandedGraph.addComponent path index) expanded).doc :=
    .foldl sameFrame_addComponent expanded
  refine hcomponents.trans ?_
  unfold ExpandedGraph.addTemplate ExpandedGraph.addKinematics
  split
  · exact .refl _
  · rw [← doc_warnKind]
    exact .foldl sameFrame_addLimit _

theorem sameFrame_expand {κ : Type} [Numbers κ] {files : PackageFiles ν}
    {selection : PackageSelection ν} {graph : MachineGraph} :
    SameFrame graph (expand κ files selection graph).doc := by
  refine SameFrame.foldl ?_ { doc := graph, sources := ∅, diagnostics := [] }
  intro expanded path
  unfold expandPackage
  split
  · exact .refl _
  · exact .refl _
  · exact sameFrame_addTemplate expanded

end Dryer.MachineResolver
