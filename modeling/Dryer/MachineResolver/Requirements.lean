import Dryer.MachineResolver.Selection

/-!
# Device requirements

What the devices of the components ask for, by the kinds of the components.
-/
namespace Dryer.MachineResolver
open Library MachineSchema PackageModel

variable {ν ρ : Type} [LinearOrder ν] [Semver ν ρ]

structure DeviceRequirement where
  reference : String
  connector : Option String
  domains : List String
  bus : Option BusReq

section Collect

variable (κ : Type) [Numbers κ] (files : PackageFiles ν) (selection : PackageSelection ν)

/-- A kind without a device package, or with one that is not valid, has no requirement. -/
def deviceRequirement (kind : String) : Option DeviceRequirement :=
  match selection.select s!"devices/{kind}" with
  | none => none
  | some package =>
    match package.devicePayload κ files with
    | .error _ => none
    | .ok payload =>
      some
        { reference := package.reference.toText
          connector := payload.requires.bind Requires.connector
          domains := (payload.requires.map Requires.voltageDomains).getD []
          bus := payload.requires.bind Requires.bus }

def collectRequirements (graph : MachineGraph) : Std.TreeMap String DeviceRequirement :=
  mapOfKeys compare (deviceRequirement κ files selection)
    (Std.TreeSet.ofList (graph.components.values.map Component.kind)).toList

end Collect

variable {κ : Type} [Numbers κ] {files : PackageFiles ν} {selection : PackageSelection ν}
  {graph : MachineGraph}

theorem getElem?_collectRequirements {kind : String} {requirement : DeviceRequirement} :
    (collectRequirements κ files selection graph)[kind]? = some requirement ↔
      (∃ (cname : String) (component : Component), graph.components[cname]? = some component ∧
        component.kind = kind) ∧ deviceRequirement κ files selection kind = some requirement := by
  have hdistinct (kinds : List String) :
      (Std.TreeSet.ofList kinds).toList.Pairwise fun a b : String => compare a b ≠ .eq := by
    apply Std.TreeSet.ordered_toList.imp
    intro a b hlt heq
    rw [hlt] at heq
    cases heq
  have hkinds : kind ∈ (Std.TreeSet.ofList (graph.components.values.map Component.kind)).toList ↔
      ∃ (cname : String) (component : Component), graph.components[cname]? = some component ∧
        component.kind = kind := by
    rw [Std.TreeSet.mem_toList, Std.TreeSet.mem_ofList, List.contains_iff_mem, List.mem_map]
    constructor
    · rintro ⟨component, hmem, rfl⟩
      obtain ⟨cname, hcname⟩ := mem_values.mp hmem
      exact ⟨cname, component, hcname, rfl⟩
    · rintro ⟨cname, component, hcname, rfl⟩
      exact ⟨component, mem_values.mpr ⟨cname, hcname⟩, rfl⟩
  rw [collectRequirements, getElem?_mapOfKeys (hdistinct _), hkinds]

end Dryer.MachineResolver
