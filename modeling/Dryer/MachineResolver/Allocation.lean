import Dryer.Library.Passes
import Dryer.MachineResolver.Capability
import Dryer.MachineResolver.Requirements

/-!
# Allocation

First the components claim the connectors that their attributes name, then a search finds
connectors for the other components whose devices need one. Both keep the same claims on connectors
and on the timer channels of step pins.
-/
namespace Dryer.MachineResolver
open Library MachineSchema PackageModel

structure ResourceClaim where
  component : String
  path : String
  source : Option SourceSpan

structure TimerClaim where
  component : String
  pin : String
  path : String
  source : Option SourceSpan

/-- What allocation reads. -/
structure AllocationInputs where
  doc : MachineGraph
  sources : Std.TreeMap String SourceSpan
  deviceReqs : Std.TreeMap String DeviceRequirement
  boards : Std.TreeMap String BoardPackageFile
  chips : Std.TreeMap String ChipPackageFile

/-- The claims so far, and the assignments in their order. -/
structure Allocation where
  claims : Std.TreeMap String ResourceClaim
  timerClaims : Std.TreeMap String TimerClaim
  assignments : List Assignment

/-- What one component gets: an assignment, with the claim of its timer channel. -/
structure Placement where
  assignment : Assignment
  claim : ResourceClaim
  timer : Option (String × TimerClaim)

namespace Allocation

def start : Allocation where
  claims := ∅
  timerClaims := ∅
  assignments := []

def record (state : Allocation) (placement : Placement) : Allocation where
  claims := state.claims.insert placement.assignment.resource placement.claim
  timerClaims := match placement.timer with
    | some (key, claim) => state.timerClaims.insert key claim
    | none => state.timerClaims
  assignments := state.assignments ++ [placement.assignment]

/-- The assignments by component. -/
def byComponent (state : Allocation) : Std.TreeMap String (List Assignment) :=
  collect compare (state.assignments.map fun assignment => (assignment.requestedBy, assignment))

end Allocation

def stepperSocket : String := "stepper_driver_socket"

/-- The first function of a pin that is a channel of a timer. -/
def timerFunction (funcs : List String) : Option String := funcs.find? fun f => startsWith f "tim"

def timerConstraint (tok : String) : String :=
  s!"step pin on free timer channel {tok} (max_step_rate)"

section Allocate

variable (κ : Type) [Numbers κ] (inputs : AllocationInputs)

/-- The step rate of the machine is declared, as a frequency. -/
def hasStepRate : Bool :=
  (inputs.doc.kinematics.limits["max_step_rate"]?.bind fun v =>
    (Quantity.parseAs v .frequency : Except QuantityError (Quantity κ)).toOption).isSome

/-! ## Explicit claims -/

/-- A string attribute of a component that claims a connector. -/
structure ExplicitClaim where
  cname : String
  attr : String
  target : String
  expectedKind : String
  requirement : Option DeviceRequirement

/-- The kind of connector comes from the device, or else from the attribute. -/
def claimOf (cname : String) (comp : Component) (attr : String) (val : Value) :
    Option ExplicitClaim :=
  match val.asStr with
  | none => none
  | some target =>
    match claimKind attr with
    | none => none
    | some tableKind =>
      let requirement := inputs.deviceReqs[comp.kind]?
      some
        { cname, attr, target, requirement
          expectedKind := (requirement.bind DeviceRequirement.connector).getD tableKind }

def explicitClaims : List ExplicitClaim :=
  inputs.doc.components.toList.flatMap fun (cname, comp) =>
    comp.attributes.toList.filterMap fun (attr, val) => claimOf inputs cname comp attr val

namespace ExplicitClaim

variable (claim : ExplicitClaim)

def path : String := s!"components.{claim.cname}.{claim.attr}"

/-- The place in a template, if the component came from one. -/
def source : Option SourceSpan := expandedSource inputs.sources claim.path

/-- An error at the attribute. -/
def error (code message : String) : Diagnostic :=
  diagnosticAtSource (.error code message) claim.path (claim.source inputs)

/-- The connectors of the kind on a board that are free. -/
def freeConnectors (state : Allocation) (ctrl : String) (board : BoardPackageFile) : List String :=
  (board.connectors.toList.filter fun (id, c) =>
    c.kind = claim.expectedKind && !state.claims.contains s!"{ctrl}.{id}").map
    fun (id, _) => s!"{ctrl}.{id}"

def conflict (state : Allocation) (ctrl : String) (board : BoardPackageFile)
    (prev : ResourceClaim) : Diagnostic :=
  let d := relatedToClaim
    (claim.error inputs "E1200" <| s!"connector conflict: '{claim.target}' is claimed by both " ++
      s!"'{prev.component}' and '{claim.cname}'")
    s!"'{prev.component}' first claimed '{claim.target}' here" prev.path prev.source
  let free := claim.freeConnectors state ctrl board
  if free.isEmpty then
    d.suggest s!"no free {claim.expectedKind} connectors remain on '{ctrl}'"
  else d.suggest (s!"move '{claim.cname}' to one of: " ++ String.intercalate ", " free)

def timerConflict (ctrl stepPin tok : String) (other : TimerClaim) : Diagnostic :=
  relatedToClaim
    (claim.error inputs "E1314" <| s!"timer conflict: '{claim.cname}' (pin {stepPin}) and " ++
      s!"'{other.component}' (pin {other.pin}) both need {tok} on '{ctrl}'")
    s!"'{other.component}' reserved {tok} here" other.path other.source

/-- The texts of the evidence for the bus that the device needs, if it needs one. -/
def busConstraints (ctrl : String) (caps : PinCapabilities) : Except Diagnostic (List String) :=
  match claim.requirement.bind DeviceRequirement.bus with
  | none => .ok []
  | some bus =>
    match busSatisfied κ inputs.chips[ctrl]? caps bus with
    | .ok found => .ok (found.constraints bus)
    | .error reason =>
      .error (claim.error inputs "E1315" <| s!"component '{claim.cname}': device requires a " ++
        s!"{bus.kind} bus on '{claim.target}' — {reason}")

/-- The timer channel of a step pin, where the machine declares a step rate. -/
def timer (state : Allocation) (ctrl : String) (connector : Connector) (caps : PinCapabilities) :
    Except Diagnostic (Option String) :=
  if !hasStepRate κ inputs || claim.expectedKind ≠ stepperSocket then .ok none
  else
    match caps["step"]? with
    | none => .ok none
    | some stepFuncs =>
      let stepPin := connector.pins["step"]?.getD ""
      match timerFunction stepFuncs with
      | none =>
        .error (claim.error inputs "E1310" <| s!"component '{claim.cname}': max_step_rate is " ++
          s!"declared, but '{claim.target}' step pin {stepPin} has no timer function " ++
          "(capabilities: " ++ String.intercalate ", " stepFuncs ++ ")")
      | some tok =>
        match state.timerClaims[s!"{ctrl}.{tok}"]? with
        | some other => .error (claim.timerConflict inputs ctrl stepPin tok other)
        | none => .ok (some tok)

/-- The connector that a claim names is there, of the right kind, and free. -/
def connector (state : Allocation) : Except Diagnostic (String × Connector) :=
  match splitOnce claim.target '.' with
  | none =>
    .error (claim.error inputs "E1206" <| s!"component '{claim.cname}': '{claim.target}' must " ++
      "name a controller port as 'controller.port'")
  | some (ctrl, port) => do
    let board ← okOr inputs.boards[ctrl]? (claim.error inputs "E1206"
      s!"component '{claim.cname}': unknown controller '{ctrl}' in '{claim.target}'")
    let connector ← okOr board.connectors[port]?
      (diagnosticAtSource ((Diagnostic.error "E1201" <| s!"component '{claim.cname}': " ++
        s!"controller '{ctrl}' has no connector '{port}'").suggest
        s!"available connectors: {debugTexts board.connectors.keys}") claim.path
        (claim.source inputs))
    reject (connector.kind ≠ claim.expectedKind) (claim.error inputs "E1202" <|
      s!"component '{claim.cname}': '{claim.target}' is a {connector.kind} connector, but " ++
      s!"'{claim.attr}' requires {claim.expectedKind}")
    match state.claims[claim.target]? with
    | some prev => .error (claim.conflict inputs state ctrl board prev)
    | none => .ok (ctrl, connector)

def place (state : Allocation) : Except Diagnostic Placement := do
  let (ctrl, connector) ← claim.connector inputs state
  let caps := derivePinCapabilities inputs.chips[ctrl]? connector
  let bus ← claim.busConstraints κ inputs ctrl caps
  let timer ← claim.timer κ inputs state ctrl connector caps
  return {
    assignment :=
      { requestedBy := claim.cname
        via := claim.attr
        resource := claim.target
        connectorKind := connector.kind
        candidatesConsidered := [claim.target]
        constraintsApplied := [s!"explicit claim of '{claim.target}'",
          s!"connector kind == {claim.expectedKind}", "exclusive ownership"] ++ bus ++
            (timer.map timerConstraint).toList
        pinCapabilities := caps }
    claim :=
      { component := claim.cname
        path := claim.path
        source := claim.source inputs }
    timer := timer.map fun tok =>
      (s!"{ctrl}.{tok}",
        { component := claim.cname
          pin := connector.pins["step"]?.getD ""
          path := claim.path
          source := claim.source inputs }) }

end ExplicitClaim

def explicitStep (state : Allocation) (claim : ExplicitClaim) : Except Diagnostic Allocation := do
  return state.record (← claim.place κ inputs state)

/-! ## Search -/

/-- A component without an explicit claim whose device needs a connector. -/
structure ConnectorSearch where
  cname : String
  component : Component
  requirement : DeviceRequirement
  requiredKind : String

def hasExplicitClaim (comp : Component) : Bool :=
  comp.attributes.toList.any fun (attr, v) => (claimKind attr).isSome && v.asStr.isSome

def searchOfComponent (cname : String) (component : Component) : Option ConnectorSearch :=
  if hasExplicitClaim component then none
  else
    match inputs.deviceReqs[component.kind]? with
    | none => none
    | some requirement =>
      requirement.connector.map fun requiredKind =>
        { cname, component, requirement, requiredKind }

def connectorSearches : List ConnectorSearch :=
  inputs.doc.components.toList.filterMap fun (cname, component) =>
    searchOfComponent inputs cname component

namespace ConnectorSearch

variable (search : ConnectorSearch)

def path : String := s!"components.{search.cname}"

/-- The controller that the component names, or the only one. -/
def controller : Except Diagnostic String :=
  match search.component.text "controller" with
  | some c => .ok c
  | none =>
    match inputs.doc.controllers.keys with
    | [name] => .ok name
    | names =>
      .error ((Diagnostic.error "E1203" <| s!"component '{search.cname}' needs a " ++
        s!"{search.requiredKind} but the machine has {names.length} controllers — add " ++
        "'controller: <name>' to disambiguate").at search.path)

/-- The connectors of the kind. -/
def candidates (board : BoardPackageFile) : List (String × Connector) :=
  board.connectors.toList.filter fun (_, c) => c.kind = search.requiredKind

/-- The connector behind a target, of the board that is searched. -/
def connectorOf (board : BoardPackageFile) (target : String) : Option (String × Connector) :=
  match splitOnce target '.' with
  | none => none
  | some (c, port) => board.connectors[port]?.map (c, ·)

/-- A connector without a domain never satisfies a requirement of one. -/
def domainOk (board : BoardPackageFile) (target : String) : Bool :=
  search.requirement.domains.isEmpty ||
    ((connectorOf board target).bind fun (_, c) => c.voltageDomain).any fun d =>
      search.requirement.domains.contains d

/-- Without a table of the chip there is nothing to filter by. -/
def timingOk (state : Allocation) (board : BoardPackageFile) (target : String) : Bool :=
  if !hasStepRate κ inputs || search.requiredKind ≠ stepperSocket then true
  else
    match connectorOf board target with
    | none => true
    | some (c, connector) =>
      match (derivePinCapabilities inputs.chips[c]? connector)["step"]? with
      | none => true
      | some funcs =>
        (timerFunction funcs).any fun tok => !state.timerClaims.contains s!"{c}.{tok}"

def busOk (board : BoardPackageFile) (target : String) : Bool :=
  match search.requirement.bus with
  | none => true
  | some bus =>
    (connectorOf board target).any fun (c, connector) =>
      (busSatisfied κ inputs.chips[c]? (derivePinCapabilities inputs.chips[c]? connector)
        bus).isOk

/-- The first free candidate that passes all filters. -/
def choose (state : Allocation) (board : BoardPackageFile) (targets : List String) :
    Option String :=
  targets.find? fun target =>
    !state.claims.contains target && search.domainOk board target &&
      search.timingOk κ inputs state board target && search.busOk κ inputs board target

/-- The capabilities of the chosen connector. -/
def capabilities (board : BoardPackageFile) (target : String) : PinCapabilities :=
  match connectorOf board target with
  | none => ∅
  | some (c, connector) => derivePinCapabilities inputs.chips[c]? connector

/-- The texts of the evidence for the bus that the device needs. -/
def busConstraints (ctrl : String) (caps : PinCapabilities) : List String :=
  match search.requirement.bus with
  | none => []
  | some bus =>
    match busSatisfied κ inputs.chips[ctrl]? caps bus with
    | .ok found => found.constraints bus
    | .error _ => []

/-- The timer channel of the chosen connector, with its key. -/
def timer (target : String) (caps : PinCapabilities) : Option (String × String) :=
  if !hasStepRate κ inputs || search.requiredKind ≠ stepperSocket then none
  else
    match caps["step"]?.bind timerFunction with
    | none => none
    | some tok =>
      let ctrl := firstSegment target '.'
      some (s!"{ctrl}.{tok}", tok)

def placement (board : BoardPackageFile) (ctrl target : String) (targets : List String) :
    Placement :=
  let caps := capabilities inputs board target
  let timer := search.timer κ inputs target caps
  let source := expandedSource inputs.sources search.path
  { assignment :=
      { requestedBy := search.cname
        via := s!"requires.connector ({search.requirement.reference})"
        resource := target
        connectorKind := search.requiredKind
        candidatesConsidered := targets
        constraintsApplied := [s!"connector kind == {search.requiredKind}",
          "first free candidate in stable connector order", "exclusive ownership"] ++
          (if search.requirement.domains.isEmpty then []
            else ["voltage domain in [" ++ String.intercalate ", " search.requirement.domains ++
              "]"]) ++
          search.busConstraints κ inputs ctrl caps ++
          (timer.map fun (_, tok) => timerConstraint tok).toList
        pinCapabilities := caps }
    claim :=
      { component := search.cname
        path := search.path
        source }
    timer := timer.map fun (key, _) =>
      (key,
        { component := search.cname
          pin := ((connectorOf board target).bind fun (_, c) => c.pins["step"]?).getD ""
          path := search.path
          source }) }

def place (state : Allocation) : Except Diagnostic Placement := do
  let ctrl ← search.controller inputs
  let board ← okOr inputs.boards[ctrl]? ((Diagnostic.error "E1204"
    s!"component '{search.cname}': unknown controller '{ctrl}'").at s!"{search.path}.controller")
  let targets := (search.candidates board).map fun (id, _) => s!"{ctrl}.{id}"
  let considered := if targets.isEmpty then "none of that kind"
    else String.intercalate ", " targets
  let target ← okOr (search.choose κ inputs state board targets) ((Diagnostic.error "E1205" <|
    s!"component '{search.cname}': no free {search.requiredKind} connector on '{ctrl}' " ++
    s!"(considered: {considered})").at search.path)
  return search.placement κ inputs board ctrl target targets

end ConnectorSearch

def searchStep (state : Allocation) (search : ConnectorSearch) :
    Except Diagnostic Allocation := do
  return state.record (← search.place κ inputs state)

/-! ## Both passes -/

/-- The final claims, and the errors of both passes. -/
def allocate : Allocation × List Diagnostic :=
  let (claimed, claimErrors) := pass (explicitStep κ inputs) .start (explicitClaims inputs)
  let (searched, searchErrors) := pass (searchStep κ inputs) claimed (connectorSearches inputs)
  (searched, claimErrors ++ searchErrors)

end Allocate

end Dryer.MachineResolver
