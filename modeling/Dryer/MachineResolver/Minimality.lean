import Dryer.Library.Closure
import Dryer.MachineResolver.Soundness

/-!
# Minimality of the package closure

Packages that only an abandoned choice required are given up round by round, except where they
require each other in a cycle. So a closure is minimal exactly where every cycle that one round
cuts off is broken up, or reached again, by a later one.
-/
namespace Dryer.MachineResolver
open Library MachineSchema MachineParser PackageModel Relation

variable {ν ρ : Type} [LinearOrder ν] [Semver ν ρ] {doc : MachineDoc} {registry : LocalRegistry ν}
  {scan : ManifestScan} {diagnostics : List Diagnostic} {selection : PackageSelection ν}
  {chosen : Std.TreeMap String ν} {path : String}

/-- The chosen version of the first package declares a dependency on the second one. -/
def Requires (registry : LocalRegistry ν) (chosen : Std.TreeMap String ν) (a b : String) : Prop :=
  ∃ version, ∃ range : ρ, chosen[a]? = some version ∧ Declares registry a version b range

namespace PackageSearch.Settled

variable {last : Round ν ρ}

end PackageSearch.Settled

section

variable [DecidableEq ρ]

end

/-! ## A cycle that is left over -/

end Dryer.MachineResolver
