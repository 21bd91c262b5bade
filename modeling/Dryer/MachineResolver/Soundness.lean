import Dryer.MachineResolver.Resolution

/-!
# Soundness of the package closure

A settled round read as facts about the registry. The dependencies of every chosen version are
chosen in their ranges, what is not pinned is as high as these ranges allow, and pins are kept
exactly where no two entries pin one package at different versions.
-/
namespace Dryer.MachineResolver
open Library MachineSchema MachineParser PackageModel

variable {ν ρ : Type} [LinearOrder ν] [Semver ν ρ] {doc : MachineDoc} {registry : LocalRegistry ν}
  {scan : ManifestScan} {diagnostics : List Diagnostic} {selection : PackageSelection ν}

/-- The versions of a path that satisfy everything the chosen versions require of it. -/
def Satisfying (registry : LocalRegistry ν) (chosen : Std.TreeMap String ν) (path : String) :
    Set ν :=
  {version | ∃ ns name, splitOnce path '/' = some (ns, name) ∧
    version ∈ registry.versions ns name ∧
    ∀ range : ρ, RequiredIn registry chosen path range → Semver.reqMatches range version = true}

/-- What the choices of a resolution say of the registry. -/
structure SoundClosure (doc : MachineDoc) (registry : LocalRegistry ν)
    (chosen : Std.TreeMap String ν) : Prop where
  roots : ∀ path ∈ rootPaths ν doc, path ∈ chosen
  dependencies : ∀ path version dependency (range : ρ), chosen[path]? = some version →
    Declares registry path version dependency range → (splitOnce dependency '/').isSome →
    ∃ matching, chosen[dependency]? = some matching ∧ Semver.reqMatches range matching = true
  highest : ∀ path version, chosen[path]? = some version →
    (∀ reference : PackageRef ν, IsPin doc reference → reference.path ≠ path) →
    IsGreatest (Satisfying registry chosen path) version

/-- A pin that holds in a closure. -/
structure PinKept (registry : LocalRegistry ν) (chosen : Std.TreeMap String ν)
    (reference : PackageRef ν) : Prop where
  selected : chosen[reference.path]? = some reference.version
  available : reference.version ∈ registry.versions reference.namespace reference.name
  allowed : ∀ range : ρ, RequiredIn registry chosen reference.path range →
    Semver.reqMatches range reference.version = true

/-! ## Settled rounds -/

namespace PackageSearch

variable {search : PackageSearch ν} {constraints : Constraints ρ} {last : Round ν ρ}
  {path : String} {version : ν}

theorem allowed_derive (search : PackageSearch ν) (chosen : Std.TreeMap String ν) (path : String) :
    search.Allowed (search.derive chosen) path = Satisfying search.registry chosen path := by
  ext version
  simp only [Allowed, Satisfying, Set.mem_ofPred_eq, ← mem_derive_iff_requiredIn search,
    forall_exists_index, and_imp, forall_apply_eq_imp_iff₂]

/-- What is chosen is allowed, with a pin or without. -/
theorem mem_allowed_of_choose (h : (search.choose constraints path).version = some version) :
    version ∈ search.Allowed constraints path := by
  cases hpin : search.pins.versions[path]? with
  | none => exact ((choose_of_no_pin hpin).mp h).1
  | some pin =>
    obtain ⟨rfl, hallowed⟩ := (choose_of_pin hpin).mp h
    exact hallowed

namespace Settled

theorem constraints_eq (h : search.Settled last) : last.constraints = search.derive last.chosen :=
  calc last.constraints = (search.next last).constraints := by rw [h.isFixedPt]
    _ = search.derive (search.next last).chosen := rfl
    _ = search.derive last.chosen := by rw [h.isFixedPt]

theorem getElem?_chosen (h : search.Settled last) : last.chosen[path]? = some version ↔
    (search.IsRoot path ∨ ∃ range : ρ, RequiredIn search.registry last.chosen path range) ∧
      (search.choose last.constraints path).version = some version := by
  calc last.chosen[path]? = some version
    _ ↔ (search.next last).chosen[path]? = some version := by rw [h.isFixedPt]
    _ ↔ _ := by rw [next, getElem?_round, h.constraints_eq, mem_derive]

theorem mem_satisfying (h : search.Settled last) (hchosen : last.chosen[path]? = some version) :
    version ∈ Satisfying search.registry last.chosen path := by
  rw [← allowed_derive, ← h.constraints_eq]
  exact mem_allowed_of_choose (h.getElem?_chosen.mp hchosen).2

/-- Nothing that is asked for is left out without an error. -/
theorem isSome_chosen (h : search.Settled last) (hsplit : (splitOnce path '/').isSome)
    (hasked : search.IsRoot path ∨ ∃ range : ρ, RequiredIn search.registry last.chosen path range) :
    last.chosen[path]?.isSome := by
  have herrs : (search.next last).errs = [] := by rw [h.isFixedPt, h.errs]
  have hmem : search.IsRoot path ∨ path ∈ last.constraints := by
    rwa [h.constraints_eq, mem_derive]
  obtain ⟨version, hversion⟩ :=
    Option.isSome_iff_exists.mp (errs_round_eq_nil.mp herrs path hmem hsplit)
  rw [h.getElem?_chosen.mpr ⟨hasked, hversion⟩]
  rfl

end Settled
end PackageSearch

/-! ## Closures without errors -/

section

variable [DecidableEq ρ]

/-- Without an error all roots are chosen, the dependencies of every chosen version are chosen at
versions in their ranges, and a package without a pin is at the highest such version. -/
theorem closure_sound (h : AddsNoError scan doc registry diagnostics selection) :
    SoundClosure doc registry selection.chosen := by
  obtain ⟨n, hsettled, heq⟩ := h.settled
  rw [heq]
  constructor
  case roots =>
    intro path hroot
    rw [Std.TreeMap.mem_iff_isSome_getElem?]
    exact hsettled.isSome_chosen (isSome_splitOnce_of_mem_rootPaths hroot)
      (.inl (isRoot_searchOf.mpr hroot))
  case dependencies =>
    intro path version dependency range hchosen hdeclares hsplit
    have hrequired : RequiredIn registry _ dependency range := ⟨path, version, hchosen, hdeclares⟩
    obtain ⟨matching, hmatching⟩ :=
      Option.isSome_iff_exists.mp (hsettled.isSome_chosen hsplit (.inr ⟨range, hrequired⟩))
    obtain ⟨_, _, -, -, hranges⟩ := hsettled.mem_satisfying hmatching
    exact ⟨matching, hmatching, hranges range hrequired⟩
  case highest =>
    intro path version hchosen hunpinned
    have hpin : (searchOf scan doc registry).pins.versions[path]? = none := by
      refine Std.TreeMap.getElem?_eq_none fun hmem => ?_
      obtain ⟨reference, hreference, hpath⟩ := mem_pinsOf_iff.mp hmem
      exact hunpinned reference hreference hpath
    have hgreatest := (PackageSearch.choose_of_no_pin hpin).mp
      (hsettled.getElem?_chosen.mp hchosen).2
    rwa [hsettled.constraints_eq, PackageSearch.allowed_derive] at hgreatest

/-- What is chosen is in the registry. -/
theorem available_of_closure (h : AddsNoError scan doc registry diagnostics selection)
    {path : String} {version : ν} (hchosen : selection.chosen[path]? = some version) :
    ∃ ns name, splitOnce path '/' = some (ns, name) ∧ version ∈ registry.versions ns name := by
  obtain ⟨n, hsettled, heq⟩ := h.settled
  rw [heq] at hchosen
  obtain ⟨ns, name, hsplit, havailable, -⟩ := hsettled.mem_satisfying hchosen
  exact ⟨ns, name, hsplit, havailable⟩

/-- The references of a closure are those of its choices. -/
theorem mem_closureRefs (h : AddsNoError scan doc registry diagnostics selection) {pkg : String} :
    pkg ∈ selection.closureRefs ↔ ∃ (path : String) (version : ν),
      selection.chosen[path]? = some version ∧ s!"{path}@{Semver.versionText version}" = pkg := by
  obtain ⟨added, hresolve, -⟩ := h
  rcases hrounds : (searchOf scan doc registry).rounds 64 .start with ⟨last, converged⟩
  simp only [PackageSelection.resolve, hrounds, Prod.mk.injEq] at hresolve
  obtain ⟨rfl, -⟩ := hresolve
  simp only [List.mem_map, Prod.exists, Std.TreeMap.mem_toList_iff_getElem?_eq_some]

/-- Without an error all pins are kept exactly where no two of them disagree. -/
theorem pins_kept_iff (h : AddsNoError scan doc registry diagnostics selection) :
    (∀ reference : PackageRef ν, IsPin doc reference →
      PinKept registry selection.chosen reference) ↔
    ∀ a b : PackageRef ν, IsPin doc a → IsPin doc b → a.path = b.path →
      a.version = b.version := by
  obtain ⟨n, hsettled, heq⟩ := h.settled
  rw [heq]
  constructor
  · intro hkept a b ha hb hpath
    have hversion := (hkept b hb).selected
    rw [← hpath, (hkept a ha).selected] at hversion
    exact Option.some.inj hversion
  · rintro hagree reference hreference
    have ⟨_, _, hparse⟩ := hreference
    have hsplit := splitOnce_path_of_parse hparse
    have hpinned := mem_pinsOf_iff.mpr ⟨reference, hreference, rfl⟩
    obtain ⟨version, hversion⟩ :=
      Option.isSome_iff_exists.mp (hsettled.isSome_chosen (by simp [hsplit]) (.inl (.inl hpinned)))
    -- The entry that counts is the last one, which agrees with this one.
    have hpin := Std.TreeMap.getElem?_eq_some_getElem hpinned
    obtain ⟨last, hlast, hpath, hlastVersion⟩ := isPin_of_getElem?_pinsOf hpin
    have hchosen :=
      ((PackageSearch.choose_of_pin hpin).mp (hsettled.getElem?_chosen.mp hversion).2).1
    rw [hchosen, ← hlastVersion, hagree last reference hlast hreference hpath] at hversion
    obtain ⟨ns, name, hsplit', havailable, hranges⟩ := hsettled.mem_satisfying hversion
    obtain ⟨rfl, rfl⟩ := Prod.mk.inj (Option.some.inj (hsplit.symm.trans hsplit'))
    exact ⟨hversion, havailable, hranges⟩

end

/-! ## A machine with a pin -/

def corePackage (ns name : String) (version : CoreVersion)
    (dependencies : List (String × Dependency)) : LoadedPackage CoreVersion where
  reference := ⟨ns, name, version⟩
  dir := ""
  manifest := { dependencies := .ofList dependencies }

/-- A machine with one controller, and the given list of pins. -/
def octopusMachine (packages : List String) : MachineDoc where
  packages
  controllers := .ofList [("mainboard", Controller.mk "boards/octopus")]
  safety := ⟨"safety-profiles/desktop-fdm"⟩
  workflows := ∅

/-- A board on a driver of which there are two versions. -/
def driverRegistry : LocalRegistry CoreVersion where
  packages := [corePackage "boards" "octopus" (.ofNumbers 1 0 0) [("drivers/spi", ⟨"*"⟩)],
    corePackage "drivers" "spi" (.ofNumbers 1 0 0) [],
    corePackage "drivers" "spi" (.ofNumbers 2 0 0) [],
    corePackage "safety-profiles" "desktop-fdm" (.ofNumbers 1 0 0) []]

def twicePinned : MachineDoc := octopusMachine ["drivers/spi@1.0.0", "drivers/spi@2.0.0"]

abbrev twicePinnedResolution : PackageSelection CoreVersion × List Diagnostic :=
  PackageSelection.resolve (fun _ => none) twicePinned driverRegistry []

theorem twicePinned_addsNoError : AddsNoError (fun _ => none) twicePinned driverRegistry []
    twicePinnedResolution.1 :=
  addsNoError_of_forall (by decide +kernel)

theorem twicePinned_closure_sound :
    SoundClosure twicePinned driverRegistry twicePinnedResolution.1.chosen :=
  closure_sound twicePinned_addsNoError

/-- The second entry takes the place of the first one, and no error is reported. -/
theorem pin_overridden :
    let pin : PackageRef CoreVersion := ⟨"drivers", "spi", .ofNumbers 1 0 0⟩
    AddsNoError (fun _ => none) twicePinned driverRegistry [] twicePinnedResolution.1 ∧
      IsPin twicePinned pin ∧ ¬ PinKept driverRegistry twicePinnedResolution.1.chosen pin := by
  refine ⟨twicePinned_addsNoError, ⟨"drivers/spi@1.0.0", by decide, by rfl⟩, ?_⟩
  intro hkept
  have hchosen : twicePinnedResolution.1.chosen["drivers/spi"]? = some (.ofNumbers 2 0 0) := by
    decide +kernel
  exact absurd (hkept.selected.symm.trans hchosen) (by decide)

theorem twicePinned_pins_kept_iff :
    (∀ reference : PackageRef CoreVersion, IsPin twicePinned reference →
      PinKept driverRegistry twicePinnedResolution.1.chosen reference) ↔
    ∀ a b : PackageRef CoreVersion, IsPin twicePinned a → IsPin twicePinned b →
      a.path = b.path → a.version = b.version :=
  pins_kept_iff twicePinned_addsNoError

end Dryer.MachineResolver
