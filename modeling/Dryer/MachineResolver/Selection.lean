import Dryer.MachineParser.Validate
import Dryer.MachineResolver.Packages
import Dryer.PackageModel.PackageFiles

/-!
# Selected packages

The packages that the phases after package resolution read: one of the closure in its chosen
version, another one in the highest version of the registry. Diagnostics on what came from a
template are placed in its package.
-/
namespace Dryer.MachineResolver
open Library MachineSchema MachineParser PackageModel

variable {ν ρ : Type} [LinearOrder ν] [Semver ν ρ]

namespace PackageSelection

def select (selection : PackageSelection ν) (path : String) : Option (LoadedPackage ν) :=
  match splitOnce path '/' with
  | none => none
  | some («namespace», name) =>
    match selection.chosen[path]? with
    | some version => selection.registry.findVersion «namespace» name version
    | none => selection.registry.find «namespace» name

end PackageSelection

/-- The package that is selected at a path is in the registry under that path. -/
theorem reference_of_select {selection : PackageSelection ν} {path : String}
    {package : LoadedPackage ν} (h : selection.select path = some package) :
    package ∈ selection.registry.packages ∧ package.reference.path = path ∧
      ∀ version, selection.chosen[path]? = some version → package.reference.version = version := by
  unfold PackageSelection.select at h
  split at h
  · cases h
  · rename_i ns name hsplit
    have hpath : path = s!"{ns}/{name}" := by
      obtain ⟨-, hlist⟩ := splitOnce_eq_some.mp hsplit
      apply String.toList_inj.mp
      simp [hlist, toString]
    split at h
    · rename_i version hchosen
      obtain ⟨hmem, hreference⟩ := LocalRegistry.findVersion_eq_some h
      refine ⟨hmem, by rw [PackageRef.path, hreference, hpath], ?_⟩
      intro version' hversion
      rw [hchosen] at hversion
      obtain rfl := Option.some.inj hversion
      rw [hreference]
    · rename_i hchosen
      obtain ⟨hmem, hns, hname⟩ := LocalRegistry.find_eq_some h
      refine ⟨hmem, by rw [PackageRef.path, hns, hname, hpath], ?_⟩
      intro version hversion
      rw [hchosen] at hversion
      cases hversion

/-! ## Diagnostics at their sources -/

/-- The loop of `expanded_source`, on the reversed path: cut it before its last `.` or `[`. -/
def sourceOfAncestor (sources : Std.TreeMap String SourceSpan) : List Char → Option SourceSpan
  | [] => none
  | c :: rest =>
    if c = '.' ∨ c = '[' then
      sources[String.ofList rest.reverse]?.orElse fun _ => sourceOfAncestor sources rest
    else sourceOfAncestor sources rest

def expandedSource (sources : Std.TreeMap String SourceSpan) (path : String) : Option SourceSpan :=
  sources[path]?.orElse fun _ => sourceOfAncestor sources path.toList.reverse

def diagnosticAtSource (diagnostic : Diagnostic) (path : String) (source : Option SourceSpan) :
    Diagnostic :=
  match source with
  | some source => (diagnostic.at path).withSource source
  | none => diagnostic.at path

def relatedToClaim (diagnostic : Diagnostic) (message path : String)
    (source : Option SourceSpan) : Diagnostic :=
  match source with
  | some source => diagnostic.relatedSource message source
  | none => diagnostic.relatedAt message path

@[simp] theorem severity_diagnosticAtSource (d : Diagnostic) (path : String)
    (source : Option SourceSpan) : (diagnosticAtSource d path source).severity = d.severity := by
  cases source <;> rfl

@[simp] theorem severity_relatedToClaim (d : Diagnostic) (message path : String)
    (source : Option SourceSpan) :
    (relatedToClaim d message path source).severity = d.severity := by
  cases source <;> rfl

/-- Place what has a path but no source yet. -/
def locateDiagnostic (spans : SpanIndex) (d : Diagnostic) : Diagnostic :=
  let located :=
    if d.source.isSome then d
    else
      match d.path.bind spans.locateSpan with
      | some source =>
        { d with
          line := some source.start.line
          column := some source.start.column
          source := some source }
      | none => d
  { located with
    related := located.related.map fun related =>
      if related.source.isSome then related
      else
        match related.path with
        | some path => { related with source := spans.locateSpan path }
        | none => related }

end Dryer.MachineResolver
