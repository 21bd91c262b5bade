import Dryer.Library.OrderedMaps
import Dryer.Library.Passes
import Dryer.MachineResolver.Expansion

/-!
# Templates

What a document has after an expansion without errors: its own components and limits, and for every
other name those of the first template that has one.
-/
namespace Dryer.MachineResolver
open Library MachineSchema MachineParser PackageModel

variable {ν ρ : Type} [LinearOrder ν] [Semver ν ρ]

/-! ## The templates of a closure -/

/-- The template of a path, where there is one. -/
def templateAt (files : PackageFiles ν) (selection : PackageSelection ν) (path : String) :
    Option Template :=
  match templateOf files selection path with
  | .ok (some (_, template)) => some template
  | _ => none

/-- The templates of the machine packages, in the order of their paths. -/
def templates (files : PackageFiles ν) (selection : PackageSelection ν) : List Template :=
  selection.chosen.keys.filterMap (templateAt files selection)

def templateLimit (template : Template) (limit : String) : Option String :=
  template.kinematics.bind fun kinematics => kinematics.limits[limit]?

/-- The first template with a component of a name gives it. -/
def templateComponent (templates : List Template) (cname : String) : Option Component :=
  templates.findSome? fun template => template.components[cname]?

def templatesLimit (templates : List Template) (limit : String) : Option String :=
  templates.findSome? fun template => templateLimit template limit

/-! ## Expansion reports, and never takes back -/

section Reports

variable {κ : Type} [Numbers κ] {path : String} {index : Option SpanIndex}

theorem isPrefix_addComponent (expanded : ExpandedGraph) (entry : String × Component) :
    expanded.diagnostics <+: (expanded.addComponent path index entry).diagnostics := by
  dsimp only [ExpandedGraph.addComponent]
  split
  · exact List.prefix_append _ _
  · split <;> exact List.prefix_append _ _

theorem isPrefix_addLimit (expanded : ExpandedGraph) (entry : String × String) :
    expanded.diagnostics <+: (expanded.addLimit κ path entry).diagnostics := by
  dsimp only [ExpandedGraph.addLimit]
  split
  · exact List.prefix_rfl
  · split <;> exact List.prefix_append _ _

theorem isPrefix_warnKind {kind : Option String} (expanded : ExpandedGraph) :
    expanded.diagnostics <+: (expanded.warnKind path kind).diagnostics := by
  unfold ExpandedGraph.warnKind
  split
  · exact List.prefix_rfl
  · split
    · exact List.prefix_append _ _
    · exact List.prefix_rfl

theorem isPrefix_foldl {σ : Type} {f : ExpandedGraph → σ → ExpandedGraph}
    (hstep : ∀ expanded a, expanded.diagnostics <+: (f expanded a).diagnostics) (as : List σ)
    (expanded : ExpandedGraph) : expanded.diagnostics <+: (as.foldl f expanded).diagnostics := by
  induction as generalizing expanded with
  | nil => exact List.prefix_rfl
  | cons a as ih => exact (hstep expanded a).trans (ih _)

theorem isPrefix_addKinematics {kinematics : Option TemplateKinematics}
    (expanded : ExpandedGraph) :
    expanded.diagnostics <+: (expanded.addKinematics κ path kinematics).diagnostics := by
  unfold ExpandedGraph.addKinematics
  split
  · exact List.prefix_rfl
  · exact (isPrefix_warnKind expanded).trans (isPrefix_foldl isPrefix_addLimit _ _)

theorem isPrefix_expandPackage {files : PackageFiles ν} {selection : PackageSelection ν}
    (expanded : ExpandedGraph) (path : String) :
    expanded.diagnostics <+: (expandPackage κ files selection expanded path).diagnostics := by
  unfold expandPackage
  split
  · exact List.prefix_append _ _
  · exact List.prefix_rfl
  · exact (isPrefix_foldl isPrefix_addComponent _ _).trans (isPrefix_addKinematics _)

end Reports

/-- An expansion without errors so far. -/
def Clean (expanded : ExpandedGraph) : Prop := hasError expanded.diagnostics = false

theorem Clean.of_isPrefix {before after : ExpandedGraph}
    (h : before.diagnostics <+: after.diagnostics) (hafter : Clean after) : Clean before := by
  apply hasError_eq_false.mpr
  intro d hd
  exact hasError_eq_false.mp hafter d (h.mem hd)

/-! ## One template -/

section Template

variable {κ : Type} [Numbers κ] {path : String} {index : Option SpanIndex}

/-- The step of the components: an identifier, taken unless the name is. -/
theorem components_addComponent {expanded : ExpandedGraph} {entry : String × Component}
    (h : Clean (expanded.addComponent path index entry)) : validIdentifier entry.1 ∧
      (expanded.addComponent path index entry).doc =
        { expanded.doc with components := insertNew expanded.doc.components entry } := by
  dsimp only [ExpandedGraph.addComponent, insertNew] at h ⊢
  split at h
  · simp [Clean, hasError] at h
  · rename_i hvalid
    refine ⟨by simpa using hvalid, ?_⟩
    rw [if_neg hvalid]
    split <;> rfl

theorem components_foldl_addComponent {expanded : ExpandedGraph}
    {entries : List (String × Component)}
    (h : Clean (entries.foldl (ExpandedGraph.addComponent path index) expanded)) :
    (∀ entry ∈ entries, validIdentifier entry.1) ∧
      (entries.foldl (ExpandedGraph.addComponent path index) expanded).doc =
        { expanded.doc with components := entries.foldl insertNew expanded.doc.components } := by
  refine foldl_induction_of_clean (P := fun before current =>
    (∀ entry ∈ before, validIdentifier entry.1) ∧ current.doc =
      { expanded.doc with components := before.foldl insertNew expanded.doc.components })
    (fun s a => Clean.of_isPrefix (isPrefix_addComponent s a)) ?_ ⟨by simp, rfl⟩ h
  rintro before entry current ⟨hvalid, hdoc⟩ hclean
  obtain ⟨hentry, hstep⟩ := components_addComponent hclean
  refine ⟨?_, ?_⟩
  · intro other hother
    obtain hold | hnew := List.mem_append.mp hother
    · exact hvalid other hold
    · rw [List.mem_singleton.mp hnew]
      exact hentry
  · rw [hstep, hdoc, List.foldl_append]
    rfl

/-- The step of the limits: a quantity, taken unless the name is. -/
theorem limits_addLimit {expanded : ExpandedGraph} {entry : String × String}
    (h : Clean (expanded.addLimit κ path entry)) :
    (entry.1 ∉ expanded.doc.kinematics.limits →
      ∃ quantity : Quantity κ, Quantity.parse entry.2 = .ok quantity) ∧
    (expanded.addLimit κ path entry).doc =
      { expanded.doc with
        kinematics :=
          { expanded.doc.kinematics with
            limits := insertNew expanded.doc.kinematics.limits entry } } := by
  dsimp only [ExpandedGraph.addLimit, insertNew] at h ⊢
  split at h
  · rename_i hmem
    rw [if_pos hmem, if_pos hmem]
    exact ⟨absurd hmem, rfl⟩
  · rename_i hnone
    rw [if_neg hnone, if_neg hnone]
    split at h
    · simp [Clean, hasError] at h
    · rename_i quantity hparse
      rw [hparse]
      exact ⟨fun _ => ⟨quantity, rfl⟩, rfl⟩

theorem limits_foldl_addLimit {expanded : ExpandedGraph} {entries : List (String × String)}
    (h : Clean (entries.foldl (ExpandedGraph.addLimit κ path) expanded)) :
    (entries.foldl (ExpandedGraph.addLimit κ path) expanded).doc =
      { expanded.doc with
        kinematics :=
          { expanded.doc.kinematics with
            limits := entries.foldl insertNew expanded.doc.kinematics.limits } } ∧
    ∀ limit value : String,
      (entries.foldl insertNew expanded.doc.kinematics.limits)[limit]? = some value →
        expanded.doc.kinematics.limits[limit]? = some value ∨
          ∃ quantity : Quantity κ, Quantity.parse value = .ok quantity := by
  refine foldl_induction_of_clean (P := fun before current =>
    current.doc = { expanded.doc with
      kinematics := { expanded.doc.kinematics with
        limits := before.foldl insertNew expanded.doc.kinematics.limits } } ∧
    ∀ limit value : String,
      (before.foldl insertNew expanded.doc.kinematics.limits)[limit]? = some value →
        expanded.doc.kinematics.limits[limit]? = some value ∨
          ∃ quantity : Quantity κ, Quantity.parse value = .ok quantity)
    (fun s a => Clean.of_isPrefix (isPrefix_addLimit s a)) ?_ ⟨rfl, fun _ _ => .inl⟩ h
  rintro before entry current ⟨hdoc, hparsed⟩ hclean
  obtain ⟨hentry, hstep⟩ := limits_addLimit hclean
  rw [hdoc] at hentry hstep
  refine ⟨by rw [hstep, List.foldl_append]; rfl, ?_⟩
  intro limit value hvalue
  rw [List.foldl_append, List.foldl_cons, List.foldl_nil, getElem?_insertNew] at hvalue
  cases hbefore : (before.foldl insertNew expanded.doc.kinematics.limits)[limit]? with
  | some old =>
    rw [hbefore] at hvalue
    exact hparsed limit value (hbefore.trans hvalue)
  | none =>
    rw [hbefore, Option.none_or] at hvalue
    split at hvalue
    · rename_i heq
      obtain rfl := Option.some.inj hvalue
      refine .inr (hentry ?_)
      rw [heq, Std.TreeMap.mem_iff_isSome_getElem?, hbefore]
      simp
    · cases hvalue

end Template

/-! ## All templates -/

/-- A document with what templates add to it. -/
structure ExtendedBy (κ : Type) [Numbers κ] (start : MachineGraph) (added : List Template)
    (doc : MachineGraph) : Prop where
  components : ∀ cname : String,
    doc.components[cname]? = (start.components[cname]?).or (templateComponent added cname)
  limits : ∀ limit : String, doc.kinematics.limits[limit]? =
    (start.kinematics.limits[limit]?).or (templatesLimit added limit)
  names : ∀ template ∈ added, ∀ cname ∈ template.components, validIdentifier cname
  parsed : ∀ limit value : String, doc.kinematics.limits[limit]? = some value →
    start.kinematics.limits[limit]? = some value ∨
      ∃ quantity : Quantity κ, Quantity.parse value = .ok quantity

section Extend

variable {κ : Type} [Numbers κ] {first second third : MachineGraph}
  {before after : List Template}

theorem ExtendedBy.refl (graph : MachineGraph) : ExtendedBy κ graph [] graph where
  components cname := by simp [templateComponent]
  limits limit := by simp [templatesLimit]
  names template h := absurd h List.not_mem_nil
  parsed limit value := .inl

theorem ExtendedBy.append (h : ExtendedBy κ first before second)
    (h' : ExtendedBy κ second after third) : ExtendedBy κ first (before ++ after) third where
  components cname := by
    rw [h'.components, h.components, Option.or_assoc, templateComponent, templateComponent,
      templateComponent, List.findSome?_append]
  limits limit := by
    rw [h'.limits, h.limits, Option.or_assoc, templatesLimit, templatesLimit, templatesLimit,
      List.findSome?_append]
  names template htemplate := by
    obtain hold | hnew := List.mem_append.mp htemplate
    · exact h.names template hold
    · exact h'.names template hnew
  parsed limit value hvalue := by
    obtain hold | hparsed := h'.parsed limit value hvalue
    · exact h.parsed limit value hold
    · exact .inr hparsed

theorem extendedBy_addTemplate {expanded : ExpandedGraph} {path : String}
    {index : Option SpanIndex} {template : Template}
    (h : Clean (expanded.addTemplate κ path index template)) :
    ExtendedBy κ expanded.doc [template] (expanded.addTemplate κ path index template).doc := by
  unfold ExpandedGraph.addTemplate at h ⊢
  obtain ⟨hnames, hcomponents⟩ :=
    components_foldl_addComponent (h.of_isPrefix (isPrefix_addKinematics _))
  generalize template.components.toList.foldl (ExpandedGraph.addComponent path index)
    expanded = current at *
  have hnames : ∀ other ∈ [template], ∀ cname ∈ other.components, validIdentifier cname := by
    intro other hother cname hcname
    rw [List.mem_singleton.mp hother] at hcname
    obtain ⟨component, hcomponent⟩ :=
      Option.isSome_iff_exists.mp (Std.TreeMap.mem_iff_isSome_getElem?.mp hcname)
    exact hnames (cname, component) (Std.TreeMap.mem_toList_iff_getElem?_eq_some.mpr hcomponent)
  unfold ExpandedGraph.addKinematics at h ⊢
  cases hkinematics : template.kinematics with
  | none =>
    dsimp only
    rw [hcomponents]
    refine ⟨?_, ?_, hnames, fun _ _ => .inl⟩
    · intro cname
      simp [getElem?_foldl_insertNew_toList, templateComponent]
    · intro limit
      simp [templatesLimit, templateLimit, hkinematics]
  | some kinematics =>
    rw [hkinematics] at h
    obtain ⟨hlimits, hparsed⟩ := limits_foldl_addLimit h
    dsimp only
    rw [hlimits]
    rw [doc_warnKind, hcomponents] at hparsed ⊢
    refine ⟨?_, ?_, hnames, hparsed⟩
    · intro cname
      simp [getElem?_foldl_insertNew_toList, templateComponent]
    · intro limit
      simp [getElem?_foldl_insertNew_toList, templatesLimit, templateLimit, hkinematics]

/-- A document after an expansion without errors. -/
theorem extendedBy_expand {files : PackageFiles ν} {selection : PackageSelection ν}
    {graph : MachineGraph} (h : Clean (expand κ files selection graph)) :
    ExtendedBy κ graph (templates files selection) (expand κ files selection graph).doc := by
  refine foldl_induction_of_clean
    (P := fun before current =>
      ExtendedBy κ graph (before.filterMap (templateAt files selection)) current.doc)
    (fun s a => Clean.of_isPrefix (isPrefix_expandPackage s a)) ?_ (.refl graph) h
  intro before path current hbefore hclean
  rw [List.filterMap_append]
  refine hbefore.append ?_
  unfold expandPackage at hclean ⊢
  cases htemplate : templateOf files selection path with
  | error errors => simpa [templateAt, htemplate] using ExtendedBy.refl _
  | ok found =>
    cases found with
    | none => simpa [templateAt, htemplate] using ExtendedBy.refl _
    | some found =>
      rw [htemplate] at hclean
      simpa [templateAt, htemplate] using extendedBy_addTemplate hclean

end Extend

end Dryer.MachineResolver
