import Dryer.PackageModel.Boards
import Dryer.PackageModel.Chips
import Dryer.PackageModel.Devices
import Dryer.PackageModel.SafetyProfiles
import Dryer.PackageModel.Workflows

/-!
# Package files

The files of a registry with the payloads that are read from them, and the templates of machine
packages.
-/
namespace Dryer.PackageModel
open MachineSchema

structure TemplateKinematics where
  kind : Option String
  limits : Std.TreeMap String String

/-- What a class of machines adds to the document of one. -/
structure Template where
  components : Std.TreeMap String Component
  kinematics : Option TemplateKinematics

structure MachinePackageFile where
  template : Option Template

def machineFormat (fromYaml : String → Except String MachinePackageFile) :
    PayloadFormat MachinePackageFile where
  kind := .machine
  noun := "machine"
  payload := "machine"
  wrongKind := "E0640"
  unreadable := "E0641"
  unparsable := "E0642"
  fromYaml
  check _ _ := []

/-- The packages on disk, and what their files read as in YAML. -/
structure PackageFiles (ν : Type) extends PackageTree ν where
  board : String → Except String BoardPackageFile
  chip : String → Except String ChipPackageFile
  device : String → Except String DevicePackageFile
  machine : String → Except String MachinePackageFile
  safetyProfile : String → Except String SafetyProfileFile
  workflow : String → Except String WorkflowPackageFile
  /-- The places of the paths of a document. -/
  spans : String → Std.TreeMap String SourceSpan

variable {ν ρ : Type} [Semver ν ρ]

namespace LoadedPackage

section Quantities

variable (κ : Type) [Numbers κ] (files : PackageFiles ν) (package : LoadedPackage ν)

def boardPayload : Except (List Diagnostic) BoardPackageFile :=
  readPayload files.toPackageTree (boardFormat κ files.board) package

def chipPayload : Except (List Diagnostic) ChipPackageFile :=
  readPayload files.toPackageTree (chipFormat κ files.chip) package

def devicePayload : Except (List Diagnostic) DevicePackageFile :=
  readPayload files.toPackageTree (deviceFormat κ files.device) package

def safetyProfilePayload : Except (List Diagnostic) SafetyProfileFile :=
  readPayload files.toPackageTree (safetyFormat κ files.safetyProfile) package

end Quantities

variable (files : PackageFiles ν) (package : LoadedPackage ν)

def machinePayload : Except (List Diagnostic) MachinePackageFile :=
  readPayload files.toPackageTree (machineFormat files.machine) package

def workflowPayload : Except (List Diagnostic) WorkflowPackageFile :=
  readPayload files.toPackageTree (workflowFormat files.workflow) package

end LoadedPackage

/-! ## The highest version -/

namespace LocalRegistry

variable [LinearOrder ν] {registry : LocalRegistry ν} {package : LoadedPackage ν}

/-- The later one of equal versions. -/
def maxVersion (best : Option (LoadedPackage ν)) (p : LoadedPackage ν) :
    Option (LoadedPackage ν) :=
  match best with
  | none => some p
  | some q => if q.reference.version ≤ p.reference.version then some p else some q

/-- The highest version of a package. -/
def find (registry : LocalRegistry ν) («namespace» name : String) : Option (LoadedPackage ν) :=
  (registry.packages.filter fun p =>
    p.reference.namespace = «namespace» ∧ p.reference.name = name).foldl maxVersion none

theorem mem_of_foldl_maxVersion {packages : List (LoadedPackage ν)}
    {best : Option (LoadedPackage ν)} (h : packages.foldl maxVersion best = some package) :
    best = some package ∨ package ∈ packages := by
  induction packages generalizing best with
  | nil => exact .inl h
  | cons p packages ih =>
    have hstep := ih h
    unfold maxVersion at hstep
    grind

theorem find_eq_some {ns name : String} (h : registry.find ns name = some package) :
    package ∈ registry.packages ∧ package.reference.namespace = ns ∧
      package.reference.name = name := by
  obtain hnone | hmem := mem_of_foldl_maxVersion h
  · cases hnone
  · obtain ⟨hmem, heq⟩ := List.mem_filter.mp hmem
    exact ⟨hmem, of_decide_eq_true heq⟩

/-- What the fold keeps is no lower than what it has seen. -/
theorem le_of_foldl_maxVersion {packages : List (LoadedPackage ν)}
    {best : Option (LoadedPackage ν)} {p : LoadedPackage ν}
    (hp : best = some p ∨ p ∈ packages) :
    ∃ newest, packages.foldl maxVersion best = some newest ∧
      p.reference.version ≤ newest.reference.version := by
  induction packages generalizing best p with
  | nil =>
    obtain rfl | hp := hp
    · exact ⟨p, rfl, le_rfl⟩
    · cases hp
  | cons q packages ih =>
    obtain ⟨next, hnext, hq, hbest⟩ : ∃ next, maxVersion best q = some next ∧
        q.reference.version ≤ next.reference.version ∧
        ∀ p, best = some p → p.reference.version ≤ next.reference.version := by
      unfold maxVersion
      grind
    obtain ⟨newest, hnewest, hle⟩ := ih (.inl hnext)
    rw [List.foldl_cons]
    obtain hp | hp := hp
    · exact ⟨newest, hnewest, (hbest p hp).trans hle⟩
    · obtain rfl | hp := List.mem_cons.mp hp
      · exact ⟨newest, hnewest, hq.trans hle⟩
      · exact ih (.inr hp)

/-- Where there is a package of the name, the highest version is found. -/
theorem exists_find {p : LoadedPackage ν} (hp : p ∈ registry.packages) :
    ∃ newest, registry.find p.reference.namespace p.reference.name = some newest ∧
      p.reference.version ≤ newest.reference.version :=
  le_of_foldl_maxVersion (.inr (List.mem_filter.mpr ⟨hp, by simp⟩))

end LocalRegistry

end Dryer.PackageModel
