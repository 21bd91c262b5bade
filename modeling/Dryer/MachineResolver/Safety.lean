import Dryer.Library.OrderedMaps
import Dryer.Library.Passes
import Dryer.MachineResolver.ResolvedGraph
import Dryer.MachineResolver.Selection
import Mathlib.Data.List.Sort
import Mathlib.Data.Prod.Lex
import Mathlib.Data.String.Basic

/-!
# Safety

The resources that the safety policy of a component governs: its own, or those of its driver. The
policies of the profile must cover all hazardous outputs, and are turned into safe states of the
controllers.
-/
namespace Dryer.MachineResolver
open Library MachineSchema PackageModel

variable {ν ρ : Type} [LinearOrder ν] [Semver ν ρ]

/-! ## Governed resources -/

section Targets

variable (resolved : ResolvedGraph) (cname : String) (component : Component)

/-- The assignments of the driver that a component names. -/
def driverAssignments : Except String (List Assignment) :=
  match component.text "driver" with
  | none => .ok []
  | some raw =>
    let driver := trim raw
    if driver.isEmpty then .error s!"component '{cname}' driver attribute cannot be empty"
    else
      let assignments := resolved.assigned driver
      match assignments.find? fun assignment => assignment.connectorKind ≠ "stepper_driver_socket" with
      | some assignment =>
        .error <| s!"component '{cname}' names '{driver}' as its driver, but " ++
          s!"'{assignment.resource}' is a '{assignment.connectorKind}' connector rather than a " ++
          "stepper driver socket"
      | none => .ok assignments

/-- The assignments that safety looks at: those of the component, or else of its driver. -/
def governingAssignments : Except String (List Assignment) :=
  let direct := resolved.assigned cname
  if direct.isEmpty then driverAssignments resolved cname component else .ok direct

def safetyTargetResources : Except String (List String) :=
  (governingAssignments resolved cname component).map fun assignments =>
    sortedUnique (assignments.map Assignment.resource)

end Targets

def isSensorConnectorKind (connectorKind : String) : Bool :=
  connectorKind = "analog_input" || connectorKind = "digital_input"

/-- The first input of the sensor of a component on a controller. -/
def sensorResourceOnController (resolved : ResolvedGraph) (component : Component)
    (controller : String) : Option String :=
  match component.text "sensor" with
  | none => none
  | some sensor =>
    ((resolved.assigned sensor).filter fun assignment =>
      isSensorConnectorKind assignment.connectorKind).findSome? fun assignment =>
        match splitOnce assignment.resource '.' with
        | none => none
        | some (candidate, _) => if candidate = controller then some assignment.resource else none

/-! ## Coverage -/

section Validate

variable (κ : Type) [Numbers κ] (files : PackageFiles ν) (selection : PackageSelection ν)

def loadProfile (profile : String) : Except (List Diagnostic) SafetyProfileFile :=
  if !validPackageRefName profile then
    .error [(Diagnostic.error "E1500"
      s!"safety profile '{profile}' must be 'namespace/name'").at "safety.profile"]
  else
    match selection.select profile with
    | none =>
      .error [(Diagnostic.error "E1500"
        s!"safety profile '{profile}' is not in the registry").at "safety.profile"]
    | some package => package.safetyProfilePayload κ files

end Validate

section Components

variable (graph : MachineGraph) (resolved : ResolvedGraph) (profile : SafetyProfileFile)

/-- The component drives a power output itself. -/
def isHazardous (cname : String) : Bool :=
  (resolved.assigned cname).any fun assignment => assignment.connectorKind = "power_output"

/-- The component leaves its output to a driver. -/
def isDriverBacked (cname : String) (component : Component) : Bool :=
  (resolved.assigned cname).isEmpty && (component.text "driver").isSome

/-- For each controller of the targets, the sensor must have an input there. -/
def sensorPlaceErrors (cname sensorName : String) (component : Component)
    (targets : List String) : List Diagnostic :=
  (withEarlier targets).flatMap fun (earlier, target) =>
    match splitOnce target '.' with
    | none => []
    | some (controller, _) =>
      let checked := earlier.filterMap fun t => (splitOnce t '.').map Prod.fst
      if controller ∉ checked ∧
          (sensorResourceOnController resolved component controller).isNone then
        [(Diagnostic.error "E1504" <| s!"component '{cname}' and required sensor " ++
          s!"'{sensorName}' must resolve on the same controller as '{target}'").at
          s!"components.{cname}.sensor"]
      else []

def sensorErrors (cname : String) (component : Component) (targets : List String) :
    List Diagnostic :=
  match (component.text "sensor").filter fun name => !(trim name).isEmpty with
  | none =>
    [((Diagnostic.error "E1502" <| s!"class '{component.kind}' requires a sensor, but component " ++
      s!"'{cname}' declares none").at s!"components.{cname}").suggest
      "add 'sensor: <component>' referencing a sensor component"]
  | some sensorName =>
    let assignments := resolved.assigned sensorName
    if assignments.isEmpty then
      [(Diagnostic.error "E1503" <| s!"component '{cname}' requires sensor '{sensorName}', but " ++
        "that sensor has no resolved controller resource").at s!"components.{cname}.sensor"]
    else if !assignments.any fun a => isSensorConnectorKind a.connectorKind then
      [(Diagnostic.error "E1507" <| s!"component '{cname}' requires sensor '{sensorName}', but " ++
        "its resolved resource is not a sensor input").at s!"components.{cname}.sensor"]
    else sensorPlaceErrors resolved cname sensorName component targets

def policyErrors (cname : String) (component : Component) (targets : List String)
    (policy : ClassPolicy) : List Diagnostic :=
  if targets.isEmpty then
    [(Diagnostic.error "E1505" <| s!"component '{cname}' has class '{component.kind}' safety " ++
      "policy but no concrete controller resource").at s!"components.{cname}"]
  else if !policy.requiresSensor then []
  else sensorErrors resolved cname component targets

def uncovered (cname : String) (component : Component) : Diagnostic :=
  let output := if isDriverBacked resolved cname component
    then "delegates an actuator output to a driver" else "drives a power output"
  ((Diagnostic.error "E1501" <| s!"component '{cname}' {output} but class '{component.kind}' has " ++
    s!"no policy in '{graph.safety.profile}'").at s!"components.{cname}").suggest
    s!"add a '{component.kind}' class to the safety profile or use a covered class"

def coverageErrors : String × Component → List Diagnostic
  | (cname, component) =>
    match safetyTargetResources resolved cname component with
    | .error message => [(Diagnostic.error "E1506" message).at s!"components.{cname}.driver"]
    | .ok targets =>
      match profile.classes[component.kind]? with
      | none =>
        if isHazardous resolved cname || isDriverBacked resolved cname component then
          [uncovered graph resolved cname component]
        else []
      | some policy => policyErrors resolved cname component targets policy

end Components

/-- The profile, if it is valid, and the errors of the components that it does not cover. -/
def validateSafety (κ : Type) [Numbers κ] (files : PackageFiles ν)
    (selection : PackageSelection ν) (graph : MachineGraph) (resolved : ResolvedGraph) :
    Option SafetyProfileFile × List Diagnostic :=
  match loadProfile κ files selection graph.safety.profile with
  | .error errors => (none, errors)
  | .ok profile =>
    (some profile, graph.components.toList.flatMap (coverageErrors graph resolved profile))

/-! ## Partitioning -/

section Partition

variable (κ : Type) [Numbers κ] (graph : MachineGraph) (resolved : ResolvedGraph)
  (profile : SafetyProfileFile)

/-- The safe state of one resource of a component, for its controller. -/
def safeStateOf (cname : String) (component : Component) (policy : ClassPolicy)
    (resource : String) : Option (String × ControllerSafeState) :=
  (splitOnce resource '.').map fun (controller, _) =>
    (controller,
      { component := cname
        «class» := component.kind
        resource
        state := policy.safeState
        heartbeatTimeoutUs := policy.heartbeatTimeoutUs κ
        sensor := if policy.requiresSensor
          then sensorResourceOnController resolved component controller else none })

def safeStatesOf : String × Component → List (String × ControllerSafeState)
  | (cname, component) =>
    match profile.classes[component.kind]?, safetyTargetResources resolved cname component with
    | some policy, .ok resources =>
      resources.filterMap (safeStateOf κ resolved cname component policy)
    | _, _ => []

/-- The owners of the resources so far, and the safe states by controller. -/
structure Partition where
  owners : Std.TreeMap String String
  states : List (String × ControllerSafeState)

def partitionStep (state : Partition) (binding : String × ControllerSafeState) :
    Except Diagnostic Partition :=
  let (_, safeState) := binding
  match state.owners[safeState.resource]? with
  | some existing =>
    .error ((Diagnostic.error "E1508" <| s!"components '{existing}' and " ++
      s!"'{safeState.component}' both define safety actions for physical resource " ++
      s!"'{safeState.resource}'").at s!"components.{safeState.component}")
  | none =>
    .ok
      { owners := state.owners.insert safeState.resource safeState.component
        states := state.states ++ [binding] }

/-- In the order of components and resources. -/
def sortStates (states : List ControllerSafeState) : List ControllerSafeState :=
  states.insertionSort fun left right =>
    toLex (left.component, left.resource) ≤ toLex (right.component, right.resource)

/-- All safe states, as far as each resource has one owner. -/
def bindings : Partition × List Diagnostic :=
  pass partitionStep { owners := ∅, states := [] }
    (graph.components.toList.flatMap (safeStatesOf κ resolved profile))

def partitionSafety : ResolvedGraph × List Diagnostic :=
  let (partition, errors) := bindings κ graph resolved profile
  ({ resolved with
      controllerSafety := (collect compare partition.states).map fun _ => sortStates },
    errors)

end Partition

end Dryer.MachineResolver
