import Dryer.Library.Closure
import Dryer.MachineResolver.Soundness

/-!
# Registries with one version of every package

Where nothing can be excluded, a round chooses the packages that are one step further from the
roots than those of the round before it, so that the rounds end with all that is reachable.
-/
namespace Dryer.MachineResolver
open Function Library MachineSchema MachineParser PackageModel

variable {ν ρ : Type} [LinearOrder ν] [Semver ν ρ] {doc : MachineDoc} {registry : LocalRegistry ν}
  {scan : ManifestScan} {diagnostics : List Diagnostic} {chosen : Std.TreeMap String ν}
  {path : String}

/-- The package that a path without a version names. -/
def IsAt (path : String) (package : LoadedPackage ν) : Prop :=
  splitOnce path '/' = some (package.reference.namespace, package.reference.name)

/-- Every package has one version, and all dependencies are present in their ranges. -/
structure SingleVersioned (registry : LocalRegistry ν) : Prop where
  version_eq : ∀ p ∈ registry.packages, ∀ q ∈ registry.packages,
    p.reference.namespace = q.reference.namespace → p.reference.name = q.reference.name →
    p.reference.version = q.reference.version
  dependencies : ∀ p ∈ registry.packages, ∀ dependency declaration,
    p.manifest.dependencies[dependency]? = some declaration →
    ∃ range : ρ, declaration.requirement ν = .ok range ∧
      ∃ q ∈ registry.packages, IsAt dependency q ∧
        Semver.reqMatches range q.reference.version = true

/-- The registry has what the document asks for. -/
structure RootsPresent (doc : MachineDoc) (registry : LocalRegistry ν) : Prop where
  implicit : ∀ path ∈ implicitRoots doc, ∃ p ∈ registry.packages, IsAt path p
  pins : ∀ reference, IsPin doc reference → ∃ p ∈ registry.packages, p.reference = reference

/-! ## One choice -/

theorem exists_isAt_of_satisfying {version : ν} (h : version ∈ Satisfying registry chosen path) :
    ∃ p ∈ registry.packages, IsAt path p ∧ p.reference.version = version := by
  obtain ⟨ns, name, hsplit, hversion, -⟩ := h
  obtain ⟨p, hp, href⟩ := LocalRegistry.mem_versions.mp hversion
  exact ⟨p, hp, by simp [IsAt, href, hsplit], by rw [href]⟩

namespace SingleVersioned

omit [LinearOrder ν] in
theorem version_eq_of_isAt (h : SingleVersioned registry) {p q : LoadedPackage ν}
    (hp : p ∈ registry.packages) (hpat : IsAt path p) (hq : q ∈ registry.packages)
    (hqat : IsAt path q) : p.reference.version = q.reference.version := by
  obtain ⟨hns, hname⟩ := Prod.mk.inj (Option.some.inj (hpat.symm.trans hqat))
  exact h.version_eq p hp q hq hns hname

theorem eq_of_satisfying (h : SingleVersioned registry) {version : ν} {p : LoadedPackage ν}
    (hp : p ∈ registry.packages) (hat : IsAt path p)
    (hversion : version ∈ Satisfying registry chosen path) : p.reference.version = version := by
  obtain ⟨q, hq, hqat, rfl⟩ := exists_isAt_of_satisfying hversion
  exact h.version_eq_of_isAt hp hat hq hqat

theorem isAt_of_requiredIn (h : SingleVersioned registry) {range : ρ}
    (hrequired : RequiredIn registry chosen path range) :
    ∃ p ∈ registry.packages, IsAt path p ∧ Semver.reqMatches range p.reference.version = true := by
  obtain ⟨_, _, -, _, _, package, declaration, -, hfound, hdeclared, hparsed⟩ := hrequired
  obtain ⟨range', hparsed', hpresent⟩ := h.dependencies package
    (LocalRegistry.findVersion_eq_some hfound).1 path declaration hdeclared
  obtain rfl := Except.ok.inj (hparsed.symm.trans hparsed')
  exact hpresent

/-- The version of a package satisfies whatever is required of it. -/
theorem mem_satisfying (h : SingleVersioned registry) (chosen : Std.TreeMap String ν)
    {p : LoadedPackage ν} (hp : p ∈ registry.packages) (hat : IsAt path p) :
    p.reference.version ∈ Satisfying registry chosen path := by
  refine ⟨_, _, hat, LocalRegistry.mem_versions.mpr ⟨p, hp, rfl⟩, ?_⟩
  intro range hrequired
  obtain ⟨q, hq, hqat, hmatches⟩ := h.isAt_of_requiredIn hrequired
  rwa [h.version_eq_of_isAt hp hat hq hqat]

/-- A round chooses a version for everything that is asked for. -/
theorem isSome_choose (h : SingleVersioned registry) (hroots : RootsPresent doc registry)
    (hasked : path ∈ rootPaths ν doc ∨ ∃ range : ρ, RequiredIn registry chosen path range) :
    ((searchOf scan doc registry).choose ((searchOf scan doc registry).derive chosen)
      path).version.isSome := by
  have hpresent : ∃ p ∈ registry.packages, IsAt path p := by
    obtain (hroot | ⟨reference, hpin, rfl⟩) | ⟨range, hrequired⟩ := hasked
    · exact hroots.implicit path hroot
    · obtain ⟨p, hp, rfl⟩ := hroots.pins reference hpin
      obtain ⟨_, -, hparse⟩ := hpin
      exact ⟨p, hp, splitOnce_path_of_parse hparse⟩
    · obtain ⟨p, hp, hat, -⟩ := h.isAt_of_requiredIn hrequired
      exact ⟨p, hp, hat⟩
  obtain ⟨p, hp, hat⟩ := hpresent
  have hsatisfying := h.mem_satisfying chosen hp hat
  refine Option.isSome_iff_exists.mpr ⟨p.reference.version, ?_⟩
  cases hpinned : (searchOf scan doc registry).pins.versions[path]? with
  | some pin =>
    obtain ⟨reference, hpin, hpath, rfl⟩ := isPin_of_getElem?_pinsOf hpinned
    obtain ⟨q, hq, rfl⟩ := hroots.pins reference hpin
    obtain ⟨_, -, hparse⟩ := hpin
    have hqat := splitOnce_path_of_parse hparse
    rw [hpath] at hqat
    have heq := h.version_eq_of_isAt hp hat hq hqat
    refine (PackageSearch.choose_of_pin hpinned).mpr ⟨heq, ?_⟩
    rw [PackageSearch.allowed_derive, ← heq]
    exact hsatisfying
  | none =>
    refine (PackageSearch.choose_of_no_pin hpinned).mpr ?_
    rw [PackageSearch.allowed_derive]
    exact ⟨hsatisfying, fun other hother => (h.eq_of_satisfying hp hat hother).ge⟩

end SingleVersioned

/-! ## The rounds -/

section Rounds

variable {n : ℕ}

/-- The choices of a round are in the registry. -/
theorem mem_satisfying_of_roundAt {version : ν}
    (h : ((searchOf scan doc registry).roundAt n).chosen[path]? = some version) :
    ∃ chosen, version ∈ Satisfying registry chosen path := by
  cases n with
  | zero => simp [PackageSearch.roundAt, Round.start] at h
  | succ n =>
    refine ⟨((searchOf scan doc registry).roundAt n).chosen, ?_⟩
    have hallowed :=
      PackageSearch.mem_allowed_of_choose (PackageSearch.getElem?_roundAt_succ.mp h).2
    rwa [PackageSearch.allowed_derive] at hallowed

namespace SingleVersioned

/-- The next round is asked for the dependencies of what the last one chose. -/
theorem required_iff (h : SingleVersioned registry) :
    (∃ range : ρ, RequiredIn registry ((searchOf scan doc registry).roundAt n).chosen path range) ↔
      ∃ requirer ∈ ((searchOf scan doc registry).roundAt n).chosen,
        DependsOn registry requirer path := by
  constructor
  · rintro ⟨range, requirer, version, hchosen, hdeclares⟩
    have ⟨hmem, _⟩ := Std.TreeMap.getElem?_eq_some_iff.mp hchosen
    exact ⟨requirer, hmem, version, range, hdeclares⟩
  · rintro ⟨requirer, hmem, version, range, hdeclares⟩
    have hchosen := Std.TreeMap.getElem?_eq_some_getElem hmem
    obtain ⟨_, hsatisfying⟩ := mem_satisfying_of_roundAt hchosen
    have ⟨ns, name, package, _, hsplit, hfound, _⟩ := hdeclares
    obtain ⟨hpackage, href⟩ := LocalRegistry.findVersion_eq_some hfound
    have hversion := h.eq_of_satisfying hpackage (by simp [IsAt, href, hsplit]) hsatisfying
    rw [href] at hversion
    rw [← hversion] at hchosen
    exact ⟨range, requirer, version, hchosen, hdeclares⟩

/-- A round chooses the roots, and the dependencies of what the last one chose. -/
theorem mem_roundAt_step (h : SingleVersioned registry) (hroots : RootsPresent doc registry) :
    path ∈ ((searchOf scan doc registry).roundAt (n + 1)).chosen ↔
      path ∈ rootPaths ν doc ∨ ∃ requirer ∈ ((searchOf scan doc registry).roundAt n).chosen,
        DependsOn registry requirer path := by
  rw [← h.required_iff, Std.TreeMap.mem_iff_isSome_getElem?, Option.isSome_iff_exists]
  simp only [PackageSearch.getElem?_roundAt_succ, isRoot_searchOf, exists_and_left]
  refine ⟨fun hchosen => hchosen.1, fun hasked => ⟨hasked, ?_⟩⟩
  exact Option.isSome_iff_exists.mp (h.isSome_choose hroots hasked)

/-- Each round chooses what is one step further from the roots. -/
theorem mem_roundAt_succ (h : SingleVersioned registry) (hroots : RootsPresent doc registry) :
    path ∈ ((searchOf scan doc registry).roundAt (n + 1)).chosen ↔
      ReachedWithin (DependsOn registry) (rootPaths ν doc) n path := by
  induction n generalizing path with
  | zero =>
    rw [h.mem_roundAt_step hroots, ReachedWithin.zero_iff]
    simp [PackageSearch.roundAt, Round.start]
  | succ n ih =>
    rw [h.mem_roundAt_step hroots, ReachedWithin.succ_iff]
    simp only [ih]

/-- Two rounds choose one version of a package. -/
theorem eq_of_roundAt (h : SingleVersioned registry) {m : ℕ} {v w : ν}
    (hv : ((searchOf scan doc registry).roundAt n).chosen[path]? = some v)
    (hw : ((searchOf scan doc registry).roundAt m).chosen[path]? = some w) : v = w := by
  obtain ⟨_, hv⟩ := mem_satisfying_of_roundAt hv
  obtain ⟨_, hw⟩ := mem_satisfying_of_roundAt hw
  obtain ⟨p, hp, hat, rfl⟩ := exists_isAt_of_satisfying hv
  exact h.eq_of_satisfying hp hat hw

/-- When a round reaches nothing new, the choices stay. -/
theorem agrees_roundAt (h : SingleVersioned registry) (hroots : RootsPresent doc registry)
    (hdepth : ∀ path, ReachedWithin (DependsOn registry) (rootPaths ν doc) (n + 1) path →
      ReachedWithin (DependsOn registry) (rootPaths ν doc) n path) :
    ((searchOf scan doc registry).roundAt (n + 1)).Agrees
      ((searchOf scan doc registry).roundAt (n + 2)) := by
  have hmem (path : String) : path ∈ ((searchOf scan doc registry).roundAt (n + 2)).chosen ↔
      path ∈ ((searchOf scan doc registry).roundAt (n + 1)).chosen := by
    rw [h.mem_roundAt_succ hroots, h.mem_roundAt_succ hroots]
    exact ⟨hdepth path, .mono_steps (Nat.le_succ n)⟩
  have hchosen : ((searchOf scan doc registry).roundAt (n + 2)).chosen.toList =
      ((searchOf scan doc registry).roundAt (n + 1)).chosen.toList := by
    apply toList_eq_iff.mpr
    intro path
    by_cases hpath : path ∈ ((searchOf scan doc registry).roundAt (n + 1)).chosen
    · have hlast := Std.TreeMap.getElem?_eq_some_getElem hpath
      have hnext := Std.TreeMap.getElem?_eq_some_getElem ((hmem path).mpr hpath)
      rw [hlast, hnext, h.eq_of_roundAt hlast hnext]
    · have hnext := mt (hmem path).mp hpath
      rw [Std.TreeMap.getElem?_eq_none hpath, Std.TreeMap.getElem?_eq_none hnext]
  refine ⟨hchosen, ?_⟩
  rw [PackageSearch.constraints_roundAt, PackageSearch.constraints_roundAt, PackageSearch.derive,
    PackageSearch.derive, hchosen]

/-- A round that repeats itself has no error. -/
theorem errs_roundAt_of_isFixedPt (h : SingleVersioned registry)
    (hroots : RootsPresent doc registry)
    (hfixed : IsFixedPt (searchOf scan doc registry).next
      ((searchOf scan doc registry).roundAt n)) :
    ((searchOf scan doc registry).roundAt n).errs = [] := by
  rw [← hfixed]
  apply PackageSearch.errs_round_eq_nil.mpr
  intro path hasked _
  rw [PackageSearch.constraints_roundAt] at hasked ⊢
  rw [isRoot_searchOf, PackageSearch.mem_derive] at hasked
  exact h.isSome_choose hroots hasked

end SingleVersioned

end Rounds

/-! ## The closure -/

/-- With one version of every package, and everything present, the rounds end without an error and
with the packages that are reachable, if these are within 62 steps of the roots. -/
theorem single_versions_exact [DecidableEq ρ] (scan : ManifestScan) (diagnostics : List Diagnostic)
    (hsingle : SingleVersioned registry) (hroots : RootsPresent doc registry)
    (hdepth : ∀ path, Reached (DependsOn registry) (rootPaths ν doc) path →
      ReachedWithin (DependsOn registry) (rootPaths ν doc) 62 path) :
    ((searchOf scan doc registry).rounds 64 .start).2 = true ∧
      ∃ selection, AddsNoError scan doc registry diagnostics selection ∧
        ∀ path version, selection.chosen[path]? = some version ↔
          Reached (DependsOn registry) (rootPaths ν doc) path ∧
            ∃ p ∈ registry.packages, IsAt path p ∧ p.reference.version = version := by
  have hconverged : ((searchOf scan doc registry).rounds 64 .start).2 = true := by
    rw [PackageSearch.rounds_eq_iterateUntil]
    refine iterateUntil_converges (n := 63) ?_ (by decide)
    exact hsingle.agrees_roundAt hroots fun path hpath => hdepth path hpath.reached
  refine ⟨hconverged, ?_⟩
  obtain ⟨n, hrounds, hfixed⟩ := PackageSearch.rounds_settled hconverged
  have hsettled : (searchOf scan doc registry).Settled ((searchOf scan doc registry).roundAt n) :=
    ⟨hfixed, hsingle.errs_roundAt_of_isFixedPt hroots hfixed⟩
  obtain ⟨selection, hresolves, hchosen⟩ := hsettled.addsNoError hrounds diagnostics
  refine ⟨selection, hresolves, ?_⟩
  intro path version
  -- The last round is also one of those that come after 62 steps.
  have hstays : (searchOf scan doc registry).roundAt (n + 62 + 1) =
      (searchOf scan doc registry).roundAt n := iterate_of_isFixedPt hfixed (by omega)
  have hmem : path ∈ selection.chosen ↔ Reached (DependsOn registry) (rootPaths ν doc) path := by
    rw [hchosen, ← hstays, hsingle.mem_roundAt_succ hroots]
    exact ⟨fun h => h.reached, fun h => (hdepth path h).mono_steps (by omega)⟩
  rw [← hmem]
  constructor
  · intro hversion
    have ⟨hpath, _⟩ := Std.TreeMap.getElem?_eq_some_iff.mp hversion
    rw [hchosen] at hversion
    obtain ⟨_, hsatisfying⟩ := mem_satisfying_of_roundAt hversion
    exact ⟨hpath, exists_isAt_of_satisfying hsatisfying⟩
  · rintro ⟨hpath, p, hp, hat, rfl⟩
    obtain ⟨version, hversion⟩ : ∃ version, selection.chosen[path]? = some version :=
      ⟨_, Std.TreeMap.getElem?_eq_some_getElem hpath⟩
    rw [hchosen] at hversion ⊢
    obtain ⟨_, hsatisfying⟩ := mem_satisfying_of_roundAt hversion
    rw [hversion, hsingle.eq_of_satisfying hp hat hsatisfying]

/-! ## A machine with one driver -/

def profileRegistry : LocalRegistry CoreVersion where
  packages := [corePackage "safety-profiles" "desktop-fdm" (.ofNumbers 1 0 0) []]

/-- A board that is not in the registry is an error, though nothing else is wrong. -/
theorem missing_board_error :
    SingleVersioned profileRegistry ∧
      (∀ path, Reached (DependsOn profileRegistry)
          (rootPaths CoreVersion (octopusMachine [])) path →
        ReachedWithin (DependsOn profileRegistry)
          (rootPaths CoreVersion (octopusMachine [])) 62 path) ∧
      ¬ ∃ selection, AddsNoError (fun _ => none) (octopusMachine []) profileRegistry []
        selection := by
  have hdependencies : ∀ p ∈ profileRegistry.packages, ∀ (dependency : String) declaration,
      p.manifest.dependencies[dependency]? ≠ some declaration := by
    intro p hp dependency declaration
    obtain rfl := List.mem_singleton.mp hp
    simp [corePackage]
  refine ⟨⟨?_, fun p hp dependency declaration h => ?_⟩, fun path hreached => ?_, ?_⟩
  · intro p hp q hq _ _
    rw [List.mem_singleton.mp hp, List.mem_singleton.mp hq]
  · exact absurd h (hdependencies p hp dependency declaration)
  · refine .start (hreached.mem_of_closed (fun _ h => h) fun a _ b hdepends => ?_)
    obtain ⟨_, _, _, _, package, _, -, hfound, hdeclared, -⟩ := hdepends
    exact absurd hdeclared
      (hdependencies package (LocalRegistry.findVersion_eq_some hfound).1 _ _)
  · rintro ⟨selection, added, hresolve, hnone⟩
    have herror : ∃ d ∈ (PackageSelection.resolve (fun _ => none) (octopusMachine [])
        profileRegistry []).2, d.severity = .error := by decide +kernel
    rw [hresolve] at herror
    obtain ⟨d, hd, hseverity⟩ := herror
    exact hnone d hd hseverity

def singleDriver : LocalRegistry CoreVersion where
  packages := [corePackage "boards" "octopus" (.ofNumbers 1 0 0) [("drivers/spi", ⟨"^1"⟩)],
    corePackage "drivers" "spi" (.ofNumbers 1 0 0) [],
    corePackage "safety-profiles" "desktop-fdm" (.ofNumbers 1 0 0) []]

theorem singleDriver_dependency {p : LoadedPackage CoreVersion} {dependency : String}
    {declaration : Dependency} (hp : p ∈ singleDriver.packages)
    (h : p.manifest.dependencies[dependency]? = some declaration) :
    dependency = "drivers/spi" ∧ declaration = ⟨"^1"⟩ := by
  simp only [singleDriver, List.mem_cons, List.not_mem_nil, or_false] at hp
  obtain rfl | rfl | rfl := hp
  · simp only [corePackage, Std.TreeMap.ofList_singleton, Std.TreeMap.getElem?_insert] at h
    split at h
    · rename_i heq
      exact ⟨(Std.LawfulEqCmp.eq_of_compare heq).symm, (Option.some.inj h).symm⟩
    · simp at h
  · simp [corePackage] at h
  · simp [corePackage] at h

theorem singleDriver_singleVersioned : SingleVersioned singleDriver where
  version_eq := by decide +kernel
  dependencies p hp dependency declaration h := by
    obtain ⟨rfl, rfl⟩ := singleDriver_dependency hp h
    exact ⟨.caret 1, by rfl, corePackage "drivers" "spi" (.ofNumbers 1 0 0) [],
      by simp [singleDriver], by unfold IsAt; decide +kernel, by decide +kernel⟩

theorem singleDriver_rootsPresent : RootsPresent (octopusMachine []) singleDriver where
  implicit path hpath := by
    have hall : ∀ path ∈ (implicitRoots (octopusMachine [])).toList,
        ∃ p ∈ singleDriver.packages,
          splitOnce path '/' = some (p.reference.namespace, p.reference.name) := by
      decide +kernel
    exact hall path (Std.TreeSet.mem_toList.mpr hpath)
  pins reference hpin := by
    obtain ⟨pkg, hpkg, -⟩ := hpin
    simp [octopusMachine] at hpkg

/-- The driver is one step from the board. -/
theorem singleDriver_depth (path : String)
    (h : Reached (DependsOn singleDriver) (rootPaths CoreVersion (octopusMachine [])) path) :
    ReachedWithin (DependsOn singleDriver) (rootPaths CoreVersion (octopusMachine [])) 62 path := by
  have hboard : "boards/octopus" ∈ rootPaths CoreVersion (octopusMachine []) :=
    .inl (by decide +kernel)
  have hdepends : DependsOn singleDriver "boards/octopus" "drivers/spi" :=
    ⟨.ofNumbers 1 0 0, .caret 1, "boards", "octopus",
      corePackage "boards" "octopus" (.ofNumbers 1 0 0) [("drivers/spi", ⟨"^1"⟩)], ⟨"^1"⟩,
      by decide +kernel, by rfl, by simp [corePackage], by rfl⟩
  have hclosed : path ∈ {path | path ∈ rootPaths CoreVersion (octopusMachine []) ∨
      path = "drivers/spi"} := by
    refine h.mem_of_closed (fun _ hroot => .inl hroot) fun a _ b hdepends => .inr ?_
    obtain ⟨_, _, _, _, package, _, -, hfound, hdeclared, -⟩ := hdepends
    exact (singleDriver_dependency (LocalRegistry.findVersion_eq_some hfound).1 hdeclared).1
  obtain hroot | rfl := hclosed
  · exact .start hroot
  · exact .step (.start hboard) hdepends

theorem singleDriver_exact :
    ((searchOf (fun _ => none) (octopusMachine []) singleDriver).rounds 64 .start).2 = true ∧
      ∃ selection, AddsNoError (fun _ => none) (octopusMachine []) singleDriver [] selection ∧
        ∀ path version, selection.chosen[path]? = some version ↔
          Reached (DependsOn singleDriver) (rootPaths CoreVersion (octopusMachine [])) path ∧
            ∃ p ∈ singleDriver.packages, IsAt path p ∧ p.reference.version = version :=
  single_versions_exact _ _ singleDriver_singleVersioned singleDriver_rootsPresent
    singleDriver_depth

end Dryer.MachineResolver
