import Dryer.Library.OrderedMaps
import Dryer.MachineParser.Spans
import Dryer.PackageModel.Registry

/-!
# Package selection

The packages of a machine and their versions are chosen in rounds. A round chooses a version of
every package that is pinned, referenced by the machine or required, and takes the requirements for
the next round from the manifests of the chosen versions, until two rounds agree.
-/
namespace Dryer.MachineResolver
open Library MachineSchema MachineParser PackageModel

variable {ν ρ : Type}

structure RequirementConstraint (ρ : Type) where
  requiredBy : String
  requirement : ρ
  source : Option SourceSpan
  deriving DecidableEq

abbrev Constraints (ρ : Type) := Std.TreeMap String (List (RequirementConstraint ρ))

/-- The spans of the `package.yaml` in a directory, none where the file cannot be read. -/
abbrev ManifestScan := String → Option (Std.TreeMap String SourceSpan)

/-! ## Roots -/

/-- The pinned versions, and the fields that pin them. -/
structure Pins (ν : Type) where
  versions : Std.TreeMap String ν
  paths : Std.TreeMap String String

/-- A later pin of a package takes the place of an earlier one. -/
def Pins.add [Semver ν ρ] (pins : Pins ν) : String × ℕ → Pins ν
  | (pkg, index) =>
    match PackageRef.parse pkg with
    | .ok reference =>
      { versions := pins.versions.insert reference.path reference.version
        paths := pins.paths.insert reference.path s!"packages[{index}]" }
    | .error _ => pins

def pinsOf [Semver ν ρ] (doc : MachineDoc) : Pins ν :=
  doc.packages.zipIdx.foldl Pins.add { versions := ∅, paths := ∅ }

/-- The boards, the safety profile and the workflows that are valid references. -/
def implicitRoots (doc : MachineDoc) : Std.TreeSet String :=
  .ofList ((doc.controllers.values.map (·.board) ++ doc.safety.profile ::
    doc.workflows.values.map WorkflowRef.package).filter validPackageRefName)

def packageSpan [Semver ν ρ] (scan : ManifestScan) (package : LoadedPackage ν) :
    Option (String × SpanIndex) :=
  (scan package.dir).map fun map =>
    let reference := package.reference.toText
    (reference, { map, document := some s!"package:{reference}/package.yaml" })

def packageSpans [Semver ν ρ] (scan : ManifestScan) (registry : LocalRegistry ν) :
    Std.TreeMap String SpanIndex :=
  .ofList (registry.packages.filterMap (packageSpan scan))

/-! ## Rounds -/

/-- What all rounds read. -/
structure PackageSearch (ν : Type) where
  registry : LocalRegistry ν
  pins : Pins ν
  roots : Std.TreeSet String
  spans : Std.TreeMap String SpanIndex

/-- What a round chooses for one path. -/
structure Choice (ν : Type) where
  version : Option ν
  errs : List Diagnostic
  warns : List Diagnostic

structure Round (ν ρ : Type) where
  chosen : Std.TreeMap String ν
  constraints : Constraints ρ
  errs : List Diagnostic
  warns : List Diagnostic

def Round.start : Round ν ρ where
  chosen := ∅
  constraints := ∅
  errs := []
  warns := []

section Diagnostics

variable [Semver ν ρ]

def notInRegistry (path : String) : Diagnostic :=
  (Diagnostic.error "E1100" s!"package '{path}' is not in the registry").at "packages"

def versionTexts (available : List ν) : String :=
  String.intercalate ", " (available.map Semver.versionText)

def pinNotAvailable (path field : String) (pin : ν) (available : List ν) : Diagnostic :=
  (Diagnostic.error "E1101" <| s!"package '{path}' pinned at {Semver.versionText pin} but the " ++
    s!"registry has {versionTexts available}").at field

def pinExcluded (path field : String) (pin : ν) (constraint : RequirementConstraint ρ) :
    Diagnostic :=
  let diagnostic := (Diagnostic.error "E1103" <| s!"'{constraint.requiredBy}' requires " ++
    s!"'{path}' {Semver.reqText ν constraint.requirement} but the machine pins " ++
    s!"{Semver.versionText pin}").at field
  match constraint.source with
  | some source => diagnostic.relatedSource
      s!"requirement from '{constraint.requiredBy}' declared here" source
  | none => diagnostic

variable (ν) in
/-- The first source is that of the diagnostic, the others are related to it. -/
def addRequirementSources (path : String) (diagnostic : Diagnostic) (hasPrimarySource : Bool) :
    List (RequirementConstraint ρ) → Diagnostic
  | [] => diagnostic
  | constraint :: rest =>
    match constraint.source with
    | none => addRequirementSources path diagnostic hasPrimarySource rest
    | some source =>
      let message := s!"'{constraint.requiredBy}' requires '{path}' " ++
        s!"{Semver.reqText ν constraint.requirement}"
      if hasPrimarySource then
        addRequirementSources path (diagnostic.relatedSource message source) true rest
      else addRequirementSources path (diagnostic.withSource source) true rest

def noneSatisfies (path : String) (requirements : List (RequirementConstraint ρ))
    (available : List ν) : Diagnostic :=
  let required := String.intercalate " and " (requirements.map fun constraint =>
    s!"'{constraint.requiredBy}' ({Semver.reqText ν constraint.requirement})")
  addRequirementSources ν path (Diagnostic.error "E1104"
    s!"no version of '{path}' satisfies {required}; available: {versionTexts available}")
    false requirements

def notPinned (path : String) (version : ν) : Diagnostic :=
  Diagnostic.warning "E1106" <| s!"'{path}' is not version-pinned; selected " ++
    s!"{Semver.versionText version} (highest available)"

def notConverged : Diagnostic :=
  .error "E1107" "dependency resolution did not converge (cyclic version constraints?)"

end Diagnostics

namespace PackageSearch

variable [LinearOrder ν] [Semver ν ρ]

/-- The choice for a path that is pinned. -/
def choosePinned (search : PackageSearch ν) (path : String) (pin : ν) (available : List ν)
    (requirements : List (RequirementConstraint ρ)) : Choice ν :=
  let field := search.pins.paths[path]?.getD "packages"
  if pin ∉ available then
    { version := none, errs := [pinNotAvailable path field pin available], warns := [] }
  else
    let excluding := requirements.filter fun constraint =>
      !Semver.reqMatches constraint.requirement pin
    { version := if excluding.isEmpty then some pin else none
      errs := excluding.map (pinExcluded path field pin)
      warns := [] }

/-- The choice for a path that is not pinned: its highest version in all required ranges. -/
def chooseHighest (search : PackageSearch ν) (path : String) (available : List ν)
    (requirements : List (RequirementConstraint ρ)) : Choice ν :=
  let satisfying := available.filter fun version =>
    requirements.all fun constraint => Semver.reqMatches constraint.requirement version
  match satisfying.getLast? with
  | some version =>
    { version := some version
      errs := []
      warns := if requirements.isEmpty ∧ path ∈ search.roots then [notPinned path version]
        else [] }
  | none =>
    { version := none, errs := [noneSatisfies path requirements available], warns := [] }

/-- A path that is not of the form `namespace/name` is passed over. -/
def choose (search : PackageSearch ν) (constraints : Constraints ρ) (path : String) : Choice ν :=
  match splitOnce path '/' with
  | none => { version := none, errs := [], warns := [] }
  | some («namespace», name) =>
    let available := search.registry.versions «namespace» name
    if available.isEmpty then { version := none, errs := [notInRegistry path], warns := [] }
    else
      let requirements := constraints[path]?.getD []
      match search.pins.versions[path]? with
      | some pin => search.choosePinned path pin available requirements
      | none => search.chooseHighest path available requirements

/-- The paths of a round, in order. -/
def paths (search : PackageSearch ν) (constraints : Constraints ρ) : List String :=
  (Std.TreeSet.ofList (search.pins.versions.keys ++ search.roots.toList ++
    constraints.keys)).toList

/-- The requirements in the manifest of one chosen version, with the packages that they are on. -/
def requirementsOf (search : PackageSearch ν) : String × ν →
    List (String × RequirementConstraint ρ)
  | (path, version) =>
    match splitOnce path '/' with
    | none => []
    | some («namespace», name) =>
      match search.registry.findVersion «namespace» name version with
      | none => []
      | some package =>
        package.manifest.dependencies.toList.filterMap fun (dependency, declaration) =>
          match declaration.requirement ν with
          | .error _ => none
          | .ok requirement =>
            let source := search.spans[package.reference.toText]?.bind fun index =>
              index.locateSpan s!"dependencies.{dependency}"
            some (dependency, { requiredBy := path, requirement, source })

/-- The constraints from the manifests of the chosen versions. -/
def derive (search : PackageSearch ν) (chosen : Std.TreeMap String ν) : Constraints ρ :=
  collect compare (chosen.toList.flatMap search.requirementsOf)

def round (search : PackageSearch ν) (constraints : Constraints ρ) : Round ν ρ :=
  let paths := search.paths constraints
  let chosen := mapOfKeys compare (fun path => (search.choose constraints path).version) paths
  { chosen
    constraints := search.derive chosen
    errs := paths.flatMap fun path => (search.choose constraints path).errs
    warns := paths.flatMap fun path => (search.choose constraints path).warns }

/-- Rounds until one repeats the choices and the constraints of the one before it. -/
def rounds [DecidableEq ρ] (search : PackageSearch ν) : ℕ → Round ν ρ → Round ν ρ × Bool
  | 0, last => (last, false)
  | fuel + 1, last =>
    let next := search.round last.constraints
    if next.chosen.toList = last.chosen.toList ∧
        next.constraints.toList = last.constraints.toList then (next, true)
    else search.rounds fuel next

end PackageSearch

/-! ## Resolution -/

structure PackageSelection (ν : Type) where
  registry : LocalRegistry ν
  chosen : Std.TreeMap String ν
  packageSpans : Std.TreeMap String SpanIndex
  closureRefs : List String

def searchOf [Semver ν ρ] (scan : ManifestScan) (doc : MachineDoc) (registry : LocalRegistry ν) :
    PackageSearch ν where
  registry
  pins := pinsOf doc
  roots := implicitRoots doc
  spans := packageSpans scan registry

/-- The selection, and the diagnostics with those of the last round behind them. -/
def PackageSelection.resolve [LinearOrder ν] [DecidableEq ρ] [Semver ν ρ] (scan : ManifestScan)
    (doc : MachineDoc) (registry : LocalRegistry ν) (diagnostics : List Diagnostic) :
    PackageSelection ν × List Diagnostic :=
  let search := searchOf scan doc registry
  let (last, converged) := search.rounds 64 .start
  let errs := if !converged && last.errs.isEmpty then [notConverged] else last.errs
  ({ registry
     chosen := last.chosen
     packageSpans := search.spans
     closureRefs := last.chosen.toList.map fun (path, version) =>
       s!"{path}@{Semver.versionText version}" },
    diagnostics ++ last.warns ++ errs)

end Dryer.MachineResolver
