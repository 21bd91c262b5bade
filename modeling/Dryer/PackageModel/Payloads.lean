import Dryer.MachineSchema.MachineGraph
import Dryer.MachineSchema.Quantities
import Dryer.PackageModel.Registry

/-!
# Payloads

Each kind of package has a payload of its own in the `package.yaml`. It is read, parsed and
checked, and given only when the check finds nothing.
-/
namespace Dryer.PackageModel
open MachineSchema

inductive PackageKind where
  | chip
  | board
  | device
  | machine
  | workflow
  | safetyProfile
  | kinematics
  | hostExtension
  | firmwareExtension
  deriving DecidableEq

def PackageKind.debugText : PackageKind → String
  | chip => "Chip"
  | board => "Board"
  | device => "Device"
  | machine => "Machine"
  | workflow => "Workflow"
  | safetyProfile => "SafetyProfile"
  | kinematics => "Kinematics"
  | hostExtension => "HostExtension"
  | firmwareExtension => "FirmwareExtension"

/-- What the check of a payload finds is an error without a path. -/
structure PayloadError where
  code : String
  message : String

def PayloadError.toDiagnostic (e : PayloadError) : Diagnostic := .error e.code e.message

/-- The kinds of the packages, and the `package.yaml` in each directory. -/
structure PackageTree (ν : Type) where
  kind : LoadedPackage ν → PackageKind
  readManifest : String → Except String String

/-- How the packages of one kind are read. -/
structure PayloadFormat (P : Type) where
  kind : PackageKind
  /-- What a package of another kind is not. -/
  noun : String
  payload : String
  wrongKind : String
  unreadable : String
  unparsable : String
  fromYaml : String → Except String P
  check : String → P → List PayloadError

variable {ν ρ P : Type} [Semver ν ρ]

def readPayload (tree : PackageTree ν) (format : PayloadFormat P) (package : LoadedPackage ν) :
    Except (List Diagnostic) P :=
  let reference := package.reference.toText
  if tree.kind package ≠ format.kind then
    .error [.error format.wrongKind <| s!"{reference} is a {(tree.kind package).debugText} " ++
      s!"package, not a {format.noun}"]
  else
    match tree.readManifest package.dir with
    | .error e => .error [.error format.unreadable s!"{reference}: cannot read package.yaml: {e}"]
    | .ok text =>
      match format.fromYaml text with
      | .error e =>
        .error [.error format.unparsable
          s!"{reference}: {format.payload} payload does not parse: {e}"]
      | .ok payload =>
        let errors := format.check reference payload
        if errors.isEmpty then .ok payload else .error (errors.map PayloadError.toDiagnostic)

variable {tree : PackageTree ν} {format : PayloadFormat P} {package : LoadedPackage ν}

/-- A payload that is given has passed its check. -/
theorem check_of_readPayload {payload : P} (h : readPayload tree format package = .ok payload) :
    format.check package.reference.toText payload = [] := by
  unfold readPayload at h
  split at h
  · cases h
  · split at h
    · cases h
    · split at h
      · cases h
      · dsimp only at h
        split at h
        · rename_i hempty
          obtain rfl := Except.ok.inj h
          exact List.isEmpty_iff.mp hempty
        · cases h

/-- A payload that is not given leaves an error. -/
theorem hasError_of_readPayload {errors : List Diagnostic}
    (h : readPayload tree format package = .error errors) : hasError errors = true := by
  have hone (code message : String) : hasError [Diagnostic.error code message] = true := rfl
  unfold readPayload at h
  split at h
  · cases h
    exact hone _ _
  · split at h
    · cases h
      exact hone _ _
    · split at h
      · cases h
        exact hone _ _
      · dsimp only at h
        split at h
        · cases h
        · rename_i hsome
          obtain rfl := Except.error.inj h
          obtain ⟨e, he⟩ := List.exists_mem_of_ne_nil _ (mt List.isEmpty_iff.mpr hsome)
          exact List.any_eq_true.mpr ⟨_, List.mem_map_of_mem he, rfl⟩

/-! ## Quantities in payloads -/

/-- The error of a field that must be a quantity of a dimension, if it is there. -/
def quantityErrors (κ : Type) [Numbers κ] (raw : Option String) (expected : Dimension)
    (code field : String) : List PayloadError :=
  match raw with
  | none => []
  | some raw =>
    match (Quantity.parseAs raw expected : Except QuantityError (Quantity κ)) with
    | .error e => [{ code, message := s!"{field}: {e.toText}" }]
    | .ok _ => []

theorem parseAs_of_quantityErrors {κ : Type} [Numbers κ] {raw : String} {expected : Dimension}
    {code field : String} (h : quantityErrors κ (some raw) expected code field = []) :
    ∃ quantity : Quantity κ, Quantity.parseAs raw expected = .ok quantity := by
  unfold quantityErrors at h
  simp only at h
  split at h
  · cases h
  · exact ⟨_, by assumption⟩

/-- The error of a field that must be a time from zero on, if it is there. -/
def timeErrors (κ : Type) [Numbers κ] (raw : Option String) (code field : String) :
    List PayloadError :=
  match raw with
  | none => []
  | some raw =>
    match (Quantity.parseAs raw .time : Except QuantityError (Quantity κ)) with
    | .error e => [{ code, message := s!"{field}: {e.toText}" }]
    | .ok quantity =>
      if Numbers.zero ≤ quantity.value then []
      else [{ code, message := s!"{field} must be non-negative" }]

/-- The elements of a list with those before them. -/
def withEarlier (xs : List String) : List (List String × String) := xs.inits.zip xs

theorem mem_withEarlier (earlier : List String) (x : String) (later : List String) :
    (earlier, x) ∈ withEarlier (earlier ++ x :: later) := by
  have hlength : earlier.length < (withEarlier (earlier ++ x :: later)).length := by
    simp [withEarlier]
  have hget : (withEarlier (earlier ++ x :: later))[earlier.length] = (earlier, x) := by
    simp [withEarlier]
  exact hget ▸ List.getElem_mem hlength

/-- The first element with a property has none of that property before it. -/
theorem exists_first_withEarlier {xs : List String} {x : String} {p : String → Prop}
    [DecidablePred p] (hx : x ∈ xs) (hp : p x) :
    ∃ earlier first, (earlier, first) ∈ withEarlier xs ∧ p first ∧ ∀ y ∈ earlier, ¬ p y := by
  have hfound : (xs.find? fun y => p y).isSome := List.find?_isSome.mpr ⟨x, hx, by simpa using hp⟩
  obtain ⟨first, hfirst⟩ := Option.isSome_iff_exists.mp hfound
  obtain ⟨hpfirst, earlier, later, rfl, hnone⟩ := List.find?_eq_some_iff_append.mp hfirst
  exact ⟨earlier, first, mem_withEarlier earlier first later, by simpa using hpfirst,
    by simpa using hnone⟩

end Dryer.PackageModel
