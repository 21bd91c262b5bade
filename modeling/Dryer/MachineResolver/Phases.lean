import Dryer.MachineResolver.Resolution
import Dryer.MachineResolver.ResolveDoc

/-!
# The phases of a successful resolution

What each phase has made, and the checks that it passed, when a resolution ends with a graph.
-/
namespace Dryer.MachineResolver
open Library MachineSchema MachineParser PackageModel

variable {ν ρ : Type} [LinearOrder ν] [DecidableEq ρ] [Semver ν ρ]

section Stages

variable (κ : Type) [Numbers κ] (files : PackageFiles ν) (graph : MachineGraph)
  (registry : LocalRegistry ν)

/-- The closure of the machine. -/
@[irreducible] def selectionOf : PackageSelection ν :=
  (PackageSelection.resolve (scanOf files) graph.doc registry []).1

def targetsOf : ControllerTargets :=
  (loadTargets κ files (selectionOf files graph registry) graph).1

/-- The document with the templates. -/
def expandedOf : ExpandedGraph := expand κ files (selectionOf files graph registry) graph

def requirementsOf : Std.TreeMap String DeviceRequirement :=
  collectRequirements κ files (selectionOf files graph registry)
    (expandedOf κ files graph registry).doc

def allocationInputsOf : AllocationInputs where
  doc := (expandedOf κ files graph registry).doc
  sources := (expandedOf κ files graph registry).sources
  deviceReqs := requirementsOf κ files graph registry
  boards := (targetsOf κ files graph registry).boards
  chips := (targetsOf κ files graph registry).chips

def electricalInputsOf : ElectricalInputs where
  doc := (expandedOf κ files graph registry).doc
  deviceReqs := requirementsOf κ files graph registry
  boards := (targetsOf κ files graph registry).boards
  chips := (targetsOf κ files graph registry).chips

def artifactInputsOf : ArtifactInputs ν where
  doc := (expandedOf κ files graph registry).doc
  deviceReqs := requirementsOf κ files graph registry
  packages := selectionOf files graph registry
  chips := (targetsOf κ files graph registry).chips
  chipRefs := (targetsOf κ files graph registry).chipRefs

def allocationOf : Allocation := (allocate κ (allocationInputsOf κ files graph registry)).1

/-- The graph after allocation. -/
def allocatedOf : ResolvedGraph where
  assignments := (allocationOf κ files graph registry).byComponent
  controllerSafety := ∅
  controllerBuildPlans := ∅
  packages := (selectionOf files graph registry).closureRefs

/-- The phases that end with a graph, under a safety profile. -/
structure Resolves (profile : SafetyProfileFile) (resolved : ResolvedGraph) : Prop where
  closure : AddsNoError (scanOf files) graph.doc registry [] (selectionOf files graph registry)
  loading : hasError (loadTargets κ files (selectionOf files graph registry) graph).2 = false
  expansion : hasError (expandedOf κ files graph registry).diagnostics = false
  allocation : hasError (allocate κ (allocationInputsOf κ files graph registry)).2 = false
  electrical : validateElectrical κ (electricalInputsOf κ files graph registry)
    (allocatedOf κ files graph registry) = []
  profileLoads : loadProfile κ files (selectionOf files graph registry)
    (expandedOf κ files graph registry).doc.safety.profile = .ok profile
  coverage : hasError ((expandedOf κ files graph registry).doc.components.toList.flatMap
    (coverageErrors (expandedOf κ files graph registry).doc (allocatedOf κ files graph registry)
      profile)) = false
  partition : hasError (bindings κ (expandedOf κ files graph registry).doc
    (allocatedOf κ files graph registry) profile).2 = false
  plans : hasError (planArtifacts κ (artifactInputsOf κ files graph registry)
    (partitionSafety κ (expandedOf κ files graph registry).doc
      (allocatedOf κ files graph registry) profile).1).2 = false
  graphEq : resolved = (planArtifacts κ (artifactInputsOf κ files graph registry)
    (partitionSafety κ (expandedOf κ files graph registry).doc
      (allocatedOf κ files graph registry) profile).1).1

end Stages

variable {κ : Type} [Numbers κ] {files : PackageFiles ν} {graph : MachineGraph}
  {registry : LocalRegistry ν}

/-- Expansion changes the components and the limits only. -/
theorem sameFrame_expandedOf : SameFrame graph (expandedOf κ files graph registry).doc :=
  sameFrame_expand

theorem controllers_expandedOf :
    (expandedOf κ files graph registry).doc.controllers = graph.controllers := by
  obtain ⟨_, _, hframe⟩ : SameFrame graph (expandedOf κ files graph registry).doc :=
    sameFrame_expandedOf
  rw [hframe]

theorem safety_expandedOf : (expandedOf κ files graph registry).doc.safety = graph.safety := by
  obtain ⟨_, _, hframe⟩ : SameFrame graph (expandedOf κ files graph registry).doc :=
    sameFrame_expandedOf
  rw [hframe]

/-- The closure does not depend on earlier diagnostics. -/
theorem resolve_eq (scan : ManifestScan) (doc : MachineDoc) (diagnostics : List Diagnostic) :
    PackageSelection.resolve scan doc registry diagnostics =
      ((PackageSelection.resolve scan doc registry []).1,
        diagnostics ++ (PackageSelection.resolve scan doc registry []).2) := by
  unfold PackageSelection.resolve
  rcases (searchOf scan doc registry).rounds 64 .start with ⟨last, converged⟩
  simp

/-- No error comes from the closure exactly when the diagnostics with it have none. -/
theorem hasError_resolve {scan : ManifestScan} {doc : MachineDoc} {diagnostics : List Diagnostic} :
    hasError (PackageSelection.resolve scan doc registry diagnostics).2 = false ↔
      hasError diagnostics = false ∧
        AddsNoError scan doc registry [] (PackageSelection.resolve scan doc registry []).1 := by
  rw [resolve_eq, hasError_append, Bool.or_eq_false_iff]
  refine and_congr_right ?_
  intro _
  constructor
  · intro h
    exact addsNoError_of_forall (hasError_eq_false.mp h)
  · rintro ⟨added, hresolve, hadded⟩
    rw [hresolve, hasError_append, hasError_eq_false.mpr hadded]
    rfl

omit [DecidableEq ρ] in
/-- A profile that does not load leaves an error. -/
theorem hasError_of_loadProfile {selection : PackageSelection ν} {name : String}
    {errors : List Diagnostic} (h : loadProfile κ files selection name = .error errors) :
    hasError errors = true := by
  unfold loadProfile at h
  split at h
  · cases h
    rfl
  · split at h
    · cases h
      rfl
    · exact hasError_of_readPayload h

section Passing

variable {inputs : ArtifactInputs ν} {allocated resolved : ResolvedGraph}
  {diagnostics : List Diagnostic} {phasesRun : List Phase}

omit [LinearOrder ν] [DecidableEq ρ] in
theorem resolved_resolveValid {profile : SafetyProfileFile} :
    (resolveValid κ (some profile) inputs allocated diagnostics phasesRun).resolved =
        some resolved ↔
      hasError diagnostics = false ∧
      hasError (bindings κ inputs.doc allocated profile).2 = false ∧
      hasError (planArtifacts κ inputs
        (partitionSafety κ inputs.doc allocated profile).1).2 = false ∧
      resolved = (planArtifacts κ inputs (partitionSafety κ inputs.doc allocated profile).1).1 := by
  simp only [resolveValid, resolved_stopOnError, hasError_append, Bool.or_eq_false_iff]
  constructor
  · rintro ⟨⟨hnone, hpartition⟩, ⟨-, hplans⟩, hresolved⟩
    exact ⟨hnone, hpartition, hplans, (Option.some.inj hresolved).symm⟩
  · rintro ⟨hnone, hpartition, hplans, rfl⟩
    exact ⟨⟨hnone, hpartition⟩, ⟨⟨hnone, hpartition⟩, hplans⟩, rfl⟩

omit [DecidableEq ρ] in
theorem resolved_resolveAllocated {selection : PackageSelection ν} {targets : ControllerTargets}
    {deviceReqs : Std.TreeMap String DeviceRequirement} :
    (resolveAllocated κ files selection targets graph deviceReqs allocated diagnostics
        phasesRun).resolved = some resolved ↔
      hasError diagnostics = false ∧
      validateElectrical κ
        { doc := graph, deviceReqs, boards := targets.boards, chips := targets.chips } allocated =
          [] ∧
      hasError (validateWorkflows graph allocated files selection) = false ∧
      ∃ profile, loadProfile κ files selection graph.safety.profile = .ok profile ∧
        hasError (graph.components.toList.flatMap (coverageErrors graph allocated profile)) =
          false ∧
        hasError (bindings κ graph allocated profile).2 = false ∧
        hasError (planArtifacts κ
          { doc := graph, deviceReqs, packages := selection, chips := targets.chips,
            chipRefs := targets.chipRefs } (partitionSafety κ graph allocated profile).1).2 =
          false ∧
        resolved = (planArtifacts κ
          { doc := graph, deviceReqs, packages := selection, chips := targets.chips,
            chipRefs := targets.chipRefs } (partitionSafety κ graph allocated profile).1).1 := by
  simp only [resolveAllocated, resolved_stopOnError, hasError_append, Bool.or_eq_false_iff]
  cases hprofile : loadProfile κ files selection graph.safety.profile with
  | error errors =>
    have herror := hasError_of_loadProfile hprofile
    simp [validateSafety, hprofile, herror]
  | ok profile =>
    simp only [validateSafety, hprofile, resolved_resolveValid, hasError_append,
      Bool.or_eq_false_iff, allErrors_validateElectrical.hasError_eq_false, Except.ok.injEq,
      exists_eq_left']
    constructor
    · rintro ⟨⟨hnone, helectrical⟩, ⟨⟨-, hcoverage⟩, hworkflows⟩, -, h⟩
      exact ⟨hnone, helectrical, hworkflows, hcoverage, h⟩
    · rintro ⟨hnone, helectrical, hworkflows, hcoverage, h⟩
      have hvalid := And.intro (And.intro hnone helectrical) hcoverage
      exact ⟨hvalid.1, ⟨hvalid, hworkflows⟩, ⟨hvalid, hworkflows⟩, h⟩

end Passing

section Outcome

variable {profile : SafetyProfileFile} {resolved : ResolvedGraph} {diagnostics : List Diagnostic}
  {phasesRun : List Phase}

/-- A graph comes out exactly when all phases are passed and the workflows are valid. -/
theorem resolved_resolveDoc :
    (resolveDoc κ files graph registry diagnostics phasesRun).resolved = some resolved ↔
      hasError diagnostics = false ∧
      hasError (validateWorkflows (expandedOf κ files graph registry).doc
        (allocatedOf κ files graph registry) files (selectionOf files graph registry)) = false ∧
      ∃ profile, Resolves κ files graph registry profile resolved := by
  have hselection : (PackageSelection.resolve (scanOf files) graph.doc registry diagnostics).1 =
      selectionOf files graph registry := by
    rw [resolve_eq, selectionOf]
  simp only [resolveDoc, resolveLoaded, resolved_stopOnError, resolved_resolveAllocated,
    hasError_append, Bool.or_eq_false_iff, hasError_resolve, hselection]
  rw [← selectionOf]
  constructor
  · rintro ⟨⟨hnone, hclosure⟩, ⟨-, hloading⟩, ⟨-, hexpansion⟩, ⟨-, hallocation⟩, -, helectrical,
      hworkflows, profile, hprofile, hcoverage, hpartition, hplans, hresolved⟩
    exact ⟨hnone, hworkflows, profile, hclosure, hloading, hexpansion, hallocation, helectrical,
      hprofile, hcoverage, hpartition, hplans, hresolved⟩
  · rintro ⟨hnone, hworkflows, profile, h⟩
    have hloaded := And.intro (And.intro hnone h.closure) h.loading
    have hexpanded := And.intro hloaded h.expansion
    have hallocated := And.intro hexpanded h.allocation
    exact ⟨hloaded.1, hloaded, hexpanded, hallocated, hallocated, h.electrical, hworkflows,
      profile, h.profileLoads, h.coverage, h.partition, h.plans, h.graphEq⟩

/-- A graph comes out only when all phases are passed. -/
theorem resolves_of_resolveDoc
    (h : (resolveDoc κ files graph registry diagnostics phasesRun).resolved = some resolved) :
    ∃ profile, Resolves κ files graph registry profile resolved :=
  (resolved_resolveDoc.mp h).2.2

end Outcome

end Dryer.MachineResolver
