import Dryer.MachineResolver.Capability
import Dryer.MachineResolver.Requirements

/-!
# Electrical validation

The voltage domains and buses that the devices need, and the currents that the components draw, at
the connectors that they are assigned.
-/
namespace Dryer.MachineResolver
open Library MachineSchema PackageModel

structure ElectricalInputs where
  doc : MachineGraph
  deviceReqs : Std.TreeMap String DeviceRequirement
  boards : Std.TreeMap String BoardPackageFile
  chips : Std.TreeMap String ChipPackageFile

section Validate

variable (κ : Type) [Numbers κ] (inputs : ElectricalInputs) (resolved : ResolvedGraph)

/-- The connector of a board, by the controller and the port. -/
def ElectricalInputs.connector (ctrl port : String) : Option Connector :=
  inputs.boards[ctrl]?.bind fun board => board.connectors[port]?

def domainErrors (cname : String) (requirement : DeviceRequirement) (resource ctrl port : String) :
    List Diagnostic :=
  let connectorDomain := (inputs.connector ctrl port).bind Connector.voltageDomain
  if requirement.domains.isEmpty || connectorDomain.any fun d => requirement.domains.contains d then
    []
  else
    [(Diagnostic.error "E1302" <| s!"component '{cname}': device '{requirement.reference}' " ++
      "requires voltage domain [" ++ String.intercalate ", " requirement.domains ++ "] but " ++
      s!"'{resource}' declares " ++ connectorDomain.getD "none").at s!"components.{cname}"]

def assignedBusErrors (cname : String) (requirement : DeviceRequirement) (ctrl : String)
    (assignment : Assignment) : List Diagnostic :=
  match requirement.bus with
  | none => []
  | some bus =>
    match busSatisfied κ inputs.chips[ctrl]? assignment.pinCapabilities bus with
    | .ok _ => []
    | .error reason =>
      let frequency := (bus.minFrequency.map fun f => s!" (>= {f})").getD ""
      [(Diagnostic.error "E1315" <| s!"component '{cname}': device '{requirement.reference}' " ++
        s!"requires a {bus.kind} bus{frequency} on '{assignment.resource}' — {reason}").at
        s!"components.{cname}"]

def requirementErrors (cname : String) (requirement : DeviceRequirement)
    (assignment : Assignment) : List Diagnostic :=
  match splitOnce assignment.resource '.' with
  | none => []
  | some (ctrl, port) =>
    domainErrors inputs cname requirement assignment.resource ctrl port ++
      assignedBusErrors κ inputs cname requirement ctrl assignment

def deviceErrorsOf : String × Component → List Diagnostic
  | (cname, comp) =>
    match inputs.deviceReqs[comp.kind]? with
    | none => []
    | some requirement =>
      (resolved.assigned cname).flatMap (requirementErrors κ inputs cname requirement)

/-- A connector that declares no greatest current takes any. -/
def drawErrors (cname drawRaw : String) (draw : Quantity κ) (assignment : Assignment) :
    List Diagnostic :=
  match splitOnce assignment.resource '.' with
  | none => []
  | some (ctrl, port) =>
    match (inputs.connector ctrl port).bind Connector.maxCurrent with
    | none => []
    | some limitRaw =>
      match (Quantity.parseAs limitRaw .current : Except QuantityError (Quantity κ)) with
      | .error _ => []
      | .ok limit =>
        if limit.value < draw.value then
          [(Diagnostic.error "E1300" <| s!"component '{cname}' draws {drawRaw} but " ++
            s!"'{assignment.resource}' allows at most {limitRaw}").at
            s!"components.{cname}.current"]
        else []

def currentErrors : String × Component → List Diagnostic
  | (cname, comp) =>
    match comp.text "current" with
    | none => []
    | some drawRaw =>
      match Quantity.parseAs drawRaw .current with
      | .error e =>
        [(Diagnostic.error "E1301" s!"component '{cname}' current: {e.toText}").at
          s!"components.{cname}.current"]
      | .ok draw => (resolved.assigned cname).flatMap (drawErrors κ inputs cname drawRaw draw)

def validateElectrical : List Diagnostic :=
  inputs.doc.components.toList.flatMap (deviceErrorsOf κ inputs resolved) ++
    inputs.doc.components.toList.flatMap (currentErrors κ inputs resolved)

end Validate

/-! ## What passes -/

variable {κ : Type} [Numbers κ] {inputs : ElectricalInputs} {resolved : ResolvedGraph}
  {cname : String} {comp : Component} {assignment : Assignment} {ctrl port : String}
  {connector : Connector}

theorem allErrors_validateElectrical : AllErrors (validateElectrical κ inputs resolved) := by
  rw [validateElectrical, allErrors_append]
  constructor
  · apply AllErrors.flatMap
    rintro ⟨cname, comp⟩ _
    dsimp only [deviceErrorsOf]
    split
    · exact .nil
    · apply AllErrors.flatMap
      intro assignment _
      unfold requirementErrors
      split
      · exact .nil
      · refine allErrors_append.mpr ⟨?_, ?_⟩
        · unfold domainErrors
          dsimp only
          split <;> simp
        · unfold assignedBusErrors
          split
          · exact .nil
          · split <;> simp
  · apply AllErrors.flatMap
    rintro ⟨cname, comp⟩ _
    dsimp only [currentErrors]
    split
    · exact .nil
    · split
      · simp
      · apply AllErrors.flatMap
        intro assignment _
        unfold drawErrors
        grind [AllErrors.nil, allErrors_cons, Diagnostic.severity_at, Diagnostic.severity_error]

/-- The device of a component gets a domain and a bus that it needs. -/
theorem requirement_of_validateElectrical {requirement : DeviceRequirement}
    (h : validateElectrical κ inputs resolved = [])
    (hcomp : inputs.doc.components[cname]? = some comp)
    (hrequirement : inputs.deviceReqs[comp.kind]? = some requirement)
    (hassignment : assignment ∈ resolved.assigned cname)
    (hsplit : splitOnce assignment.resource '.' = some (ctrl, port))
    (hconnector : inputs.connector ctrl port = some connector) :
    (requirement.domains ≠ [] → ∃ domain ∈ requirement.domains,
      connector.voltageDomain = some domain) ∧
    ∀ bus, requirement.bus = some bus → ∃ found,
      busSatisfied κ inputs.chips[ctrl]? assignment.pinCapabilities bus = .ok found := by
  have hmem := Std.TreeMap.mem_toList_iff_getElem?_eq_some.mpr hcomp
  have hdevice := List.flatMap_eq_nil_iff.mp (List.append_eq_nil_iff.mp h).1 _ hmem
  simp only [deviceErrorsOf, hrequirement] at hdevice
  have hnone := List.flatMap_eq_nil_iff.mp hdevice _ hassignment
  simp only [requirementErrors, hsplit, List.append_eq_nil_iff] at hnone
  obtain ⟨hdomain, hbus⟩ := hnone
  constructor
  · intro hsome
    unfold domainErrors at hdomain
    simp only [hconnector, Option.bind_some] at hdomain
    split at hdomain
    · rename_i hok
      obtain hempty | hany := Bool.or_eq_true_iff.mp hok
      · exact absurd (List.isEmpty_iff.mp hempty) hsome
      · obtain ⟨domain, hdeclared, hin⟩ := (Option.any_eq_true _ _).mp hany
        exact ⟨domain, List.contains_iff_mem.mp hin, hdeclared⟩
    · cases hdomain
  · intro bus hneeded
    unfold assignedBusErrors at hbus
    rw [hneeded] at hbus
    dsimp only at hbus
    split at hbus
    · exact ⟨_, by assumption⟩
    · cases hbus

/-- A current that is declared is one, and is no more than the connector takes. -/
theorem current_of_validateElectrical {drawRaw limitRaw : String} {limit : Quantity κ}
    (h : validateElectrical κ inputs resolved = [])
    (hcomp : inputs.doc.components[cname]? = some comp)
    (hdraw : comp.text "current" = some drawRaw)
    (hassignment : assignment ∈ resolved.assigned cname)
    (hsplit : splitOnce assignment.resource '.' = some (ctrl, port))
    (hconnector : inputs.connector ctrl port = some connector)
    (hmax : connector.maxCurrent = some limitRaw)
    (hlimit : Quantity.parseAs limitRaw .current = .ok limit) :
    ∃ draw : Quantity κ, Quantity.parseAs drawRaw .current = .ok draw ∧
      draw.value ≤ limit.value := by
  have hmem := Std.TreeMap.mem_toList_iff_getElem?_eq_some.mpr hcomp
  have hcurrent := List.flatMap_eq_nil_iff.mp (List.append_eq_nil_iff.mp h).2 _ hmem
  simp only [currentErrors, hdraw] at hcurrent
  split at hcurrent
  · cases hcurrent
  · rename_i draw hparse
    have hnone := List.flatMap_eq_nil_iff.mp hcurrent _ hassignment
    simp only [drawErrors, hsplit, hconnector, Option.bind_some, hmax, hlimit] at hnone
    refine ⟨draw, hparse, ?_⟩
    by_contra hlt
    rw [if_pos (not_le.mp hlt)] at hnone
    cases hnone

end Dryer.MachineResolver
