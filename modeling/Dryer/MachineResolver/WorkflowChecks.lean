import Dryer.Library.OrderedMaps
import Dryer.MachineResolver.ResolvedGraph
import Dryer.MachineResolver.Selection

/-!
# Workflow validation

The workflows of a machine against its components and resources.
-/
namespace Dryer.MachineResolver
open Library MachineSchema PackageModel

variable {ν ρ : Type} [LinearOrder ν] [Semver ν ρ]

def machineSupportsCapabilityFamily (graph : MachineGraph) (family : String) : Bool :=
  graph.components.values.any fun comp =>
    comp.kind = family || startsWith comp.kind family || endsWith comp.kind family ||
      family = "motion" && comp.kind = "stepper_motor"

section Validate

variable (graph : MachineGraph) (resolved : ResolvedGraph)

def resolvedResources : List String :=
  resolved.assignments.values.flatten.map Assignment.resource

def parameterErrors (name reference : String) (payload : WorkflowPackageFile)
    (params : List String) : List Diagnostic :=
  params.flatMap fun paramName =>
    if paramName ∈ payload.parameters then []
    else [(Diagnostic.error "E1701" <| s!"workflow '{name}' passed parameter '{paramName}' which " ++
      s!"is not declared by '{reference}'").at s!"workflows.{name}.parameters.{paramName}"]

def capabilityErrors (name : String) (capabilities : List String) : List Diagnostic :=
  capabilities.flatMap fun cap =>
    let family := firstSegment cap '.'
    if machineSupportsCapabilityFamily graph family then []
    else [(Diagnostic.error "E1702" <| s!"workflow '{name}' requires capability '{cap}', but the " ++
      s!"machine provides no matching '{family}' component").at s!"workflows.{name}"]

def lockErrors (name : String) (locks : List String) : List Diagnostic :=
  locks.flatMap fun lockName =>
    if lockName ∈ resolvedResources resolved ∨ lockName ∈ graph.components ∨
        lockName ∈ graph.controllers then []
    else [(Diagnostic.error "E1703" <| s!"workflow '{name}' declares lock '{lockName}' which is " ++
      "not a resolved resource, component, or controller").at s!"workflows.{name}"]

def callErrors (name context : String) (declared : List String) (step : WorkflowStep) :
    List Diagnostic :=
  match step.call with
  | none => []
  | some call =>
    if call ∈ declared ∨ machineSupportsCapabilityFamily graph (firstSegment call '.') then []
    else [(Diagnostic.error "E1704" <| s!"workflow '{name}' {context} step calls '{call}', which " ++
      "is neither declared in requires.capabilities nor provided by the machine").at
      s!"workflows.{name}"]

def workflowErrorsOf (files : PackageFiles ν) (selection : PackageSelection ν) :
    String × GraphWorkflow → List Diagnostic
  | (name, workflow) =>
    let packageName := workflow.reference.package
    match selection.select packageName with
    | none =>
      [(Diagnostic.error "E1700"
        s!"workflow '{name}' package '{packageName}' is not in the registry").at
        s!"workflows.{name}"]
    | some package =>
      match package.workflowPayload files with
      | .error errors => errors
      | .ok payload =>
        let declared := (payload.requires.map WorkflowRequires.capabilities).getD []
        parameterErrors name package.reference.toText payload workflow.parameters.keys ++
        capabilityErrors graph name declared ++
        lockErrors graph resolved name payload.locks ++
        payload.steps.flatMap (callErrors graph name "step" declared) ++
        payload.onCancel.flatMap (callErrors graph name "on_cancel" declared)

def validateWorkflows (files : PackageFiles ν) (selection : PackageSelection ν) :
    List Diagnostic :=
  graph.workflows.toList.flatMap (workflowErrorsOf graph resolved files selection)

end Validate

end Dryer.MachineResolver
