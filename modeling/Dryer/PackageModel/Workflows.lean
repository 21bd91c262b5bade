import Dryer.PackageModel.Payloads

/-!
# Workflow packages

The parameters, capabilities and locks of a workflow, and the actions that its steps call.
-/
namespace Dryer.PackageModel
open Library MachineSchema

structure WorkflowStep where
  call : Option String
  /-- The names of the arguments. -/
  withArguments : List String

structure WorkflowRequires where
  capabilities : List String

structure WorkflowPackageFile where
  apiVersion : Option String
  /-- The names of the parameters. -/
  parameters : Std.TreeSet String
  requires : Option WorkflowRequires
  locks : List String
  steps : List WorkflowStep
  onCancel : List WorkflowStep

/-- Identifiers with points between them. -/
def validActionName (raw : String) : Bool :=
  if raw.isEmpty || endsWith raw "." || startsWith raw "." then false
  else (raw.toList.splitOn '.').all fun part => validIdentifier (String.ofList part)

variable (reference : String)

def stepErrors (context : String) (step : WorkflowStep) : List PayloadError :=
  (match step.call with
    | some call =>
      if validActionName call then []
      else [⟨"E0657", s!"{reference}: workflow {context} call '{call}' is not a valid action name"⟩]
    | none => [⟨"E0658", s!"{reference}: workflow {context} entry is missing 'call'"⟩]) ++
  step.withArguments.flatMap fun argument =>
    if validIdentifier argument then []
    else [⟨"E0659", s!"{reference}: workflow {context} argument '{argument}' is not a valid " ++
      "identifier"⟩]

def workflowErrors (workflow : WorkflowPackageFile) : List PayloadError :=
  (match workflow.apiVersion with
    | none => []
    | some version =>
      if startsWith version "forge.workflow/v" then []
      else [⟨"E0653", s!"{reference}: workflow api_version '{version}' is not forge.workflow/vN"⟩]) ++
  workflow.parameters.toList.flatMap (fun name =>
    if validIdentifier name then []
    else [⟨"E0654", s!"{reference}: workflow parameter '{name}' is not a valid identifier"⟩]) ++
  workflow.steps.flatMap (stepErrors reference "steps") ++
  workflow.onCancel.flatMap (stepErrors reference "on_cancel") ++
  ((workflow.requires.map WorkflowRequires.capabilities).getD []).flatMap (fun capability =>
    if validActionName capability then []
    else [⟨"E0655", s!"{reference}: workflow requires capability '{capability}' is not a valid " ++
      "identifier"⟩]) ++
  workflow.locks.flatMap fun lock =>
    if validActionName lock then []
    else [⟨"E0656", s!"{reference}: workflow lock '{lock}' is not a valid identifier"⟩]

def workflowFormat (fromYaml : String → Except String WorkflowPackageFile) :
    PayloadFormat WorkflowPackageFile where
  kind := .workflow
  noun := "workflow"
  payload := "workflow"
  wrongKind := "E0650"
  unreadable := "E0651"
  unparsable := "E0652"
  fromYaml
  check := workflowErrors

end Dryer.PackageModel
