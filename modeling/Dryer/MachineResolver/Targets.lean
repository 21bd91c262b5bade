import Dryer.MachineResolver.Capability
import Dryer.MachineResolver.Selection

/-!
# Controller targets

The boards of the controllers, and the chips that the boards carry.
-/
namespace Dryer.MachineResolver
open Library MachineSchema PackageModel

variable {ν ρ : Type} [LinearOrder ν] [Semver ν ρ]

/-- What one controller loads. -/
structure ControllerTarget where
  board : Option BoardPackageFile
  /-- The chip with the reference of its package. -/
  chip : Option (ChipPackageFile × String)
  diagnostics : List Diagnostic

/-- A controller of which nothing is loaded. -/
def ControllerTarget.fail (diagnostics : List Diagnostic) : ControllerTarget where
  board := none
  chip := none
  diagnostics

structure ControllerTargets where
  boards : Std.TreeMap String BoardPackageFile
  chips : Std.TreeMap String ChipPackageFile
  chipRefs : Std.TreeMap String String

/-- The pins that a board wires and its chip does not declare. -/
def wiringErrors (board chipReference : String) (chip : ChipPackageFile) :
    String × Connector → List Diagnostic
  | (connectorId, connector) =>
    (connector.pins.values ++ connector.pin.toList).flatMap fun pin =>
      if pin ∈ chip.pinFunctions then []
      else [.error "E1312" <| s!"board '{board}' connector '{connectorId}' wires pin {pin}, " ++
        s!"which chip '{chipReference}' does not declare"]

section Load

variable (κ : Type) [Numbers κ] (files : PackageFiles ν) (selection : PackageSelection ν)

/-- A chip outside the closure is taken in its highest version, with a warning. -/
def loadChip (board chipReference : String) (payload : BoardPackageFile) :
    Option (ChipPackageFile × String) × List Diagnostic :=
  match selection.select chipReference with
  | none =>
    (none, [.error "E1313" <| s!"board '{board}' references chip '{chipReference}', which is " ++
      "not in the registry"])
  | some chipPackage =>
    let warnings :=
      if chipReference ∈ selection.chosen then []
      else [.warning "E1311" <| s!"board '{board}' chip '{chipReference}' is not in the " ++
        s!"dependency closure; using {Semver.versionText chipPackage.reference.version} " ++
        "(highest available)"]
    match chipPackage.chipPayload κ files with
    | .error errors => (none, warnings ++ errors)
    | .ok chip =>
      let wiring := if chip.pinFunctions.isEmpty then []
        else payload.connectors.toList.flatMap (wiringErrors board chipReference chip)
      (some (chip, chipPackage.reference.toText), warnings ++ wiring)

def loadController (controllerName : String) (controller : GraphController) : ControllerTarget :=
  let path := s!"controllers.{controllerName}.board"
  match splitOnce controller.board '/' with
  | none =>
    .fail [(Diagnostic.error "E1110" <| s!"controller '{controllerName}': board " ++
      s!"'{controller.board}' must be 'namespace/name'").at path]
  | some _ =>
    match selection.select controller.board with
    | none =>
      .fail [(Diagnostic.error "E1111" <| s!"controller '{controllerName}': board package " ++
        s!"'{controller.board}' is not in the registry").at path]
    | some package =>
      match package.boardPayload κ files with
      | .error errors => .fail errors
      | .ok payload =>
        let transport :=
          if controller.transport.kind ∈ payload.transports then []
          else [(Diagnostic.error "E1120" <| s!"controller '{controllerName}': board " ++
            s!"'{controller.board}' has no '{controller.transport.kind}' transport").at
            s!"controllers.{controllerName}.transport"]
        match payload.chip with
        | none => { board := some payload, chip := none, diagnostics := transport }
        | some chipReference =>
          let (chip, diagnostics) := loadChip κ files selection controller.board chipReference
            payload
          { board := some payload, chip, diagnostics := transport ++ diagnostics }

def loadTargets (graph : MachineGraph) : ControllerTargets × List Diagnostic :=
  let load := loadController κ files selection
  ({ boards := graph.controllers.filterMap fun name controller => (load name controller).board
     chips := graph.controllers.filterMap fun name controller =>
       (load name controller).chip.map Prod.fst
     chipRefs := graph.controllers.filterMap fun name controller =>
       (load name controller).chip.map Prod.snd },
    graph.controllers.toList.flatMap fun (name, controller) => (load name controller).diagnostics)

end Load

/-! ## What is loaded -/

variable {κ : Type} [Numbers κ] {files : PackageFiles ν} {selection : PackageSelection ν}
  {graph : MachineGraph} {name : String}

/-- A board that is loaded is the checked payload of the board that its controller names. -/
theorem board_of_loadTargets {board : BoardPackageFile}
    (h : (loadTargets κ files selection graph).1.boards[name]? = some board) :
    ∃ controller package, graph.controllers[name]? = some controller ∧
      selection.select controller.board = some package ∧
      package.boardPayload κ files = .ok board := by
  obtain ⟨controller, hcontroller, hload⟩ := getElem?_filterMap_eq_some.mp h
  unfold loadController at hload
  split at hload
  · cases hload
  · split at hload
    · cases hload
    · rename_i package hselect
      split at hload
      · cases hload
      · rename_i payload hpayload
        have hboard : payload = board := by
          dsimp only at hload
          split at hload <;> exact Option.some.inj hload
        exact ⟨controller, package, hcontroller, hselect, hboard ▸ hpayload⟩

/-- A chip that is loaded is the checked payload of the package that its board names. -/
theorem chip_of_loadController {controller : GraphController} {chip : ChipPackageFile}
    {reference : String}
    (h : (loadController κ files selection name controller).chip = some (chip, reference)) :
    ∃ package board chipReference chipPackage,
      selection.select controller.board = some package ∧
      package.boardPayload κ files = .ok board ∧ board.chip = some chipReference ∧
      selection.select chipReference = some chipPackage ∧
      chipPackage.chipPayload κ files = .ok chip ∧ chipPackage.reference.toText = reference := by
  unfold loadController at h
  split at h
  · cases h
  · split at h
    · cases h
    · rename_i package hselect
      split at h
      · cases h
      · rename_i board hboard
        dsimp only at h
        split at h
        · cases h
        · rename_i chipReference hchip
          unfold loadChip at h
          split at h
          · cases h
          · rename_i chipPackage hselectChip
            dsimp only at h
            split at h
            · cases h
            · rename_i hpayload
              obtain ⟨rfl, rfl⟩ := Prod.mk.inj (Option.some.inj h)
              exact ⟨package, board, chipReference, chipPackage, hselect, hboard, hchip,
                hselectChip, hpayload, rfl⟩

end Dryer.MachineResolver
