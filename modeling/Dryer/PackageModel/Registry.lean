import Dryer.Library.Lists
import Dryer.MachineSchema.MachineDoc
import Mathlib.Data.List.Sort
import Mathlib.Data.Prod.Lex
import Mathlib.Order.Bounds.Basic

/-!
# Packages and the local registry

References to packages, the dependencies that a manifest declares, and the registry, which may
hold several versions of a package. Versions and their ranges come from outside, with a total order
of the versions.
-/
namespace Dryer.PackageModel
open Library MachineSchema

/-- Versions `ν` with ranges `ρ`. -/
class Semver (ν : Type) (ρ : outParam Type) where
  parseVersion : String → Except String ν
  parseReq : String → Except String ρ
  reqMatches : ρ → ν → Bool
  versionText : ν → String
  reqText : ρ → String

structure PackageRef (ν : Type) where
  «namespace» : String
  name : String
  version : ν
  deriving DecidableEq

structure RefParseError where
  message : String
  deriving DecidableEq

structure Dependency where
  version : String

structure Manifest where
  dependencies : Std.TreeMap String Dependency

structure LoadedPackage (ν : Type) where
  reference : PackageRef ν
  dir : String
  manifest : Manifest

structure LocalRegistry (ν : Type) where
  packages : List (LoadedPackage ν)

variable {ν ρ : Type}

namespace PackageRef

/-- The reference without its version. -/
def path (r : PackageRef ν) : String := s!"{r.namespace}/{r.name}"

variable [Semver ν ρ]

def toText (r : PackageRef ν) : String := s!"{r.path}@{Semver.versionText r.version}"

def parse (s : String) : Except RefParseError (PackageRef ν) :=
  match splitOnce s '@' with
  | none => .error { message := s!"'{s}' is missing '@version'" }
  | some (path, version) =>
    match splitOnce path '/' with
    | none => .error { message := s!"'{s}' is missing 'namespace/'" }
    | some («namespace», name) =>
      if !validIdentifier «namespace» || !validIdentifier name then
        .error { message := s!"'{path}' must be lowercase identifiers 'namespace/name'" }
      else
        match Semver.parseVersion version with
        | .error e => .error { message := s!"'{version}' is not semver: {e}" }
        | .ok version => .ok { «namespace», name, version }

end PackageRef

/-- The comma form is normalized before the range is parsed. -/
def Dependency.requirement (ν : Type) [Semver ν ρ] (dependency : Dependency) : Except String ρ :=
  Semver.parseReq ν (String.ofList
    (dependency.version.toList.flatMap fun c => if c = ',' then [',', ' '] else [c]))

namespace LocalRegistry

variable [LinearOrder ν]

/-- One exact version. -/
def findVersion (registry : LocalRegistry ν) («namespace» name : String) (version : ν) :
    Option (LoadedPackage ν) :=
  registry.packages.find? fun p =>
    p.reference.namespace = «namespace» ∧ p.reference.name = name ∧ p.reference.version = version

/-- All versions of a package, ascending. -/
def versions (registry : LocalRegistry ν) («namespace» name : String) : List ν :=
  ((registry.packages.filter fun p =>
    p.reference.namespace = «namespace» ∧ p.reference.name = name).map
      (·.reference.version)).insertionSort (· ≤ ·)

variable {registry : LocalRegistry ν} {ns name : String} {version : ν}

theorem mem_versions : version ∈ registry.versions ns name ↔
    ∃ p ∈ registry.packages, p.reference = ⟨ns, name, version⟩ := by
  have heq (p : LoadedPackage ν) : p.reference = ⟨ns, name, version⟩ ↔
      (p.reference.namespace = ns ∧ p.reference.name = name) ∧ p.reference.version = version := by
    obtain ⟨⟨_, _, _⟩, _, _⟩ := p
    simp [and_assoc]
  simp [versions, List.mem_insertionSort, heq, and_assoc]

theorem versions_sorted : (registry.versions ns name).Pairwise (· ≤ ·) :=
  List.pairwise_insertionSort _ _

theorem findVersion_eq_some {package : LoadedPackage ν}
    (h : registry.findVersion ns name version = some package) :
    package ∈ registry.packages ∧ package.reference = ⟨ns, name, version⟩ := by
  refine ⟨List.mem_of_find?_eq_some h, ?_⟩
  have hfound := List.find?_some h
  obtain ⟨⟨_, _, _⟩, _, _⟩ := package
  simpa using hfound

end LocalRegistry

/-! ## Versions of three numbers -/

/-- A version without a pre-release, ordered by its major, minor and patch number. -/
abbrev CoreVersion := ℕ ×ₗ ℕ ×ₗ ℕ

/-- `*`, and `^1` with the versions of one major number. -/
inductive CoreRange where
  | any
  | caret (major : ℕ)
  deriving DecidableEq

namespace CoreVersion

def ofNumbers (major minor patch : ℕ) : CoreVersion := toLex (major, toLex (minor, patch))

/-- A number without leading zeros. -/
def parseNumber (s : String) : Option ℕ :=
  if s.toList.isEmpty ∨ !s.toList.all isAsciiDigit ∨ s.toList.head? = some '0' ∧ s ≠ "0" then none
  else some (s.toList.foldl (fun n c => 10 * n + (c.toNat - '0'.toNat)) 0)

def parse (s : String) : Option CoreVersion := do
  let (major, rest) ← splitOnce s '.'
  let (minor, patch) ← splitOnce rest '.'
  pure (ofNumbers (← parseNumber major) (← parseNumber minor) (← parseNumber patch))

def parseRange (s : String) : Option CoreRange :=
  match s.toList with
  | ['*'] => some .any
  | '^' :: major => (parseNumber (String.ofList major)).map .caret
  | _ => none

instance : Semver CoreVersion CoreRange where
  parseVersion s := (parse s).elim (.error "not a version") .ok
  parseReq s := (parseRange s).elim (.error "not a range") .ok
  reqMatches range version :=
    match range with
    | .any => true
    | .caret major => (ofLex version).1 = major
  versionText version :=
    s!"{(ofLex version).1}.{(ofLex (ofLex version).2).1}.{(ofLex (ofLex version).2).2}"
  reqText range :=
    match range with
    | .any => "*"
    | .caret major => s!"^{major}"

end CoreVersion

end Dryer.PackageModel
