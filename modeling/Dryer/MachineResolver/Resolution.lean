import Dryer.MachineResolver.Rounds

/-!
# Resolution without errors

The pins and roots of a document, and the round that a resolution without errors ends with: one
that repeats itself.
-/
namespace Dryer.MachineResolver
open Function Library MachineSchema MachineParser PackageModel

variable {ν ρ : Type} [Semver ν ρ] {doc : MachineDoc} {path : String}

/-! ## Pins and roots -/

/-- An entry of the document pins the package at the version. -/
def IsPin (doc : MachineDoc) (reference : PackageRef ν) : Prop :=
  ∃ pkg ∈ doc.packages, PackageRef.parse pkg = .ok reference

variable (ν) in
/-- The packages that a document asks for. -/
def rootPaths (doc : MachineDoc) : Set String :=
  {path | path ∈ implicitRoots doc ∨ ∃ reference : PackageRef ν, IsPin doc reference ∧
    reference.path = path}

/-- The version at which an entry pins a path. -/
def pinnedVersion (path pkg : String) : Option ν :=
  match PackageRef.parse pkg with
  | .ok reference => if reference.path = path then some reference.version else none
  | .error _ => none

theorem pinnedVersion_eq_some {pkg : String} {version : ν} :
    pinnedVersion path pkg = some version ↔
      ∃ reference, PackageRef.parse pkg = .ok reference ∧ reference.path = path ∧
        reference.version = version := by
  unfold pinnedVersion
  cases PackageRef.parse (ν := ν) pkg <;> simp

/-- The last entry for a path pins it. -/
theorem getElem?_pinsOf : (pinsOf doc).versions[path]? =
    (doc.packages.filterMap (pinnedVersion (ν := ν) path)).getLast? := by
  unfold pinsOf
  induction doc.packages using List.reverseRecOn with
  | nil => simp
  | append_singleton packages pkg ih =>
    rw [getLast?_filterMap_append, ← ih, List.zipIdx_append, List.foldl_append]
    simp only [List.zipIdx_singleton, List.foldl_cons, List.foldl_nil, Pins.add, pinnedVersion]
    cases PackageRef.parse (ν := ν) pkg with
    | error => simp
    | ok reference =>
      by_cases hpath : reference.path = path
      · simp [hpath]
      · simp [hpath, Std.TreeMap.getElem?_insert]

theorem isPin_of_getElem?_pinsOf {version : ν}
    (h : (pinsOf doc).versions[path]? = some version) :
    ∃ reference, IsPin doc reference ∧ reference.path = path ∧ reference.version = version := by
  rw [getElem?_pinsOf] at h
  obtain ⟨pkg, hpkg, hpinned⟩ := List.mem_filterMap.mp (List.mem_of_getLast? h)
  obtain ⟨reference, hparse, hpath, hversion⟩ := pinnedVersion_eq_some.mp hpinned
  exact ⟨reference, ⟨pkg, hpkg, hparse⟩, hpath, hversion⟩

theorem mem_pinsOf_iff : path ∈ (pinsOf (ν := ν) doc).versions ↔
    ∃ reference : PackageRef ν, IsPin doc reference ∧ reference.path = path := by
  constructor
  · intro h
    obtain ⟨reference, hpin, hpath, -⟩ :=
      isPin_of_getElem?_pinsOf (Std.TreeMap.getElem?_eq_some_getElem h)
    exact ⟨reference, hpin, hpath⟩
  · rintro ⟨reference, ⟨pkg, hpkg, hparse⟩, hpath⟩
    have hmem : reference.version ∈ doc.packages.filterMap (pinnedVersion path) :=
      List.mem_filterMap.mpr ⟨pkg, hpkg, pinnedVersion_eq_some.mpr ⟨reference, hparse, hpath, rfl⟩⟩
    rw [Std.TreeMap.mem_iff_isSome_getElem?, getElem?_pinsOf,
      List.getLast?_eq_some_getLast (List.ne_nil_of_mem hmem)]
    rfl

theorem splitOnce_path_of_parse {text : String} {reference : PackageRef ν}
    (h : PackageRef.parse text = .ok reference) :
    splitOnce reference.path '/' = some (reference.namespace, reference.name) := by
  unfold PackageRef.parse at h
  split at h
  · simp at h
  · split at h
    · simp at h
    · rename_i ns name hsplit
      split at h
      · simp at h
      · split at h
        · simp at h
        · obtain rfl := Except.ok.inj h
          obtain ⟨hns, -⟩ := splitOnce_eq_some.mp hsplit
          exact splitOnce_eq_some.mpr ⟨hns, by simp [PackageRef.path, toString]⟩

theorem isSome_splitOnce_of_mem_rootPaths (h : path ∈ rootPaths ν doc) :
    (splitOnce path '/').isSome := by
  obtain hroot | ⟨reference, ⟨_, -, hparse⟩, rfl⟩ := h
  · have hvalid : validPackageRefName path := by
      simp only [implicitRoots, Std.TreeSet.mem_ofList, List.contains_iff_mem,
        List.mem_filter] at hroot
      exact hroot.2
    unfold validPackageRefName at hvalid
    split at hvalid <;> simp_all
  · simp [splitOnce_path_of_parse hparse]

theorem isRoot_searchOf {scan : ManifestScan} {registry : LocalRegistry ν} :
    (searchOf scan doc registry).IsRoot path ↔ path ∈ rootPaths ν doc := by
  simp [PackageSearch.IsRoot, searchOf, rootPaths, mem_pinsOf_iff, or_comm]

/-! ## The last round -/

section LastRound

variable [LinearOrder ν] {search : PackageSearch ν} {scan : ManifestScan}
  {registry : LocalRegistry ν} {diagnostics : List Diagnostic} {selection : PackageSelection ν}

/-- Resolution gives the selection and adds no error to the diagnostics. -/
def AddsNoError [DecidableEq ρ] (scan : ManifestScan) (doc : MachineDoc)
    (registry : LocalRegistry ν) (diagnostics : List Diagnostic)
    (selection : PackageSelection ν) : Prop :=
  ∃ added, PackageSelection.resolve scan doc registry diagnostics =
    (selection, diagnostics ++ added) ∧ ∀ d ∈ added, d.severity ≠ .error

theorem addsNoError_of_forall [DecidableEq ρ]
    (h : ∀ d ∈ (PackageSelection.resolve scan doc registry []).2, d.severity ≠ .error) :
    AddsNoError scan doc registry [] (PackageSelection.resolve scan doc registry []).1 := by
  unfold AddsNoError
  generalize PackageSelection.resolve scan doc registry [] = resolution at h
  exact ⟨resolution.2, rfl, h⟩

/-- A round that repeats itself and has no error. -/
structure PackageSearch.Settled (search : PackageSearch ν) (last : Round ν ρ) : Prop where
  isFixedPt : IsFixedPt search.next last
  errs : last.errs = []

theorem PackageSearch.severity_of_mem_errs_roundAt {n : ℕ} {d : Diagnostic}
    (h : d ∈ (search.roundAt n).errs) : d.severity = .error := by
  cases n with
  | zero => simp [roundAt, Round.start] at h
  | succ n =>
    rw [roundAt, iterate_succ_apply'] at h
    exact severity_of_mem_errs_round h

/-- A resolution without errors ends with a settled round. -/
theorem AddsNoError.settled [DecidableEq ρ]
    (h : AddsNoError scan doc registry diagnostics selection) :
    ∃ n, (searchOf scan doc registry).Settled ((searchOf scan doc registry).roundAt n) ∧
      selection.chosen = ((searchOf scan doc registry).roundAt n).chosen := by
  obtain ⟨added, hresolve, hadded⟩ := h
  obtain ⟨m, hm⟩ := exists_iterate_eq Round.Agrees (searchOf scan doc registry).next 64 .start
  rcases hrounds : (searchOf scan doc registry).rounds 64 .start with ⟨last, converged⟩
  simp only [PackageSelection.resolve, hrounds, Prod.mk.injEq, List.append_assoc,
    List.append_cancel_left_eq] at hresolve
  obtain ⟨rfl, rfl⟩ := hresolve
  have hlast : last = (searchOf scan doc registry).roundAt m := by
    rw [PackageSearch.rounds_eq_iterateUntil] at hrounds
    rw [hrounds] at hm
    exact hm
  have herrs : last.errs = [] := by
    apply List.eq_nil_iff_forall_not_mem.mpr
    intro d hd
    refine hadded d ?_ (PackageSearch.severity_of_mem_errs_roundAt (hlast ▸ hd))
    simp [hd, List.ne_nil_of_mem hd]
  have hconverged : converged = true := by
    by_contra hfalse
    exact hadded notConverged (by simp [herrs, hfalse]) rfl
  obtain ⟨n, hsettled, hfixed⟩ := PackageSearch.rounds_settled
    (show ((searchOf scan doc registry).rounds 64 .start).2 = true by rw [hrounds, hconverged])
  obtain rfl : last = (searchOf scan doc registry).roundAt n :=
    (Prod.mk.inj (hrounds.symm.trans hsettled)).1
  exact ⟨n, ⟨hfixed, herrs⟩, rfl⟩

/-- Rounds that end with a settled one give its choices and no error. -/
theorem PackageSearch.Settled.addsNoError [DecidableEq ρ] {last : Round ν ρ}
    (h : (searchOf scan doc registry).Settled last)
    (hrounds : (searchOf scan doc registry).rounds 64 .start = (last, true))
    (diagnostics : List Diagnostic) :
    ∃ selection, AddsNoError scan doc registry diagnostics selection ∧
      selection.chosen = last.chosen := by
  have hwarns : ∀ d ∈ last.warns, d.severity ≠ .error := by
    intro d hd
    rw [← h.isFixedPt] at hd
    simp [severity_of_mem_warns_round hd]
  have hchosen : (PackageSelection.resolve scan doc registry diagnostics).1.chosen =
      last.chosen := by
    simp only [PackageSelection.resolve, hrounds]
  have hdiagnostics : (PackageSelection.resolve scan doc registry diagnostics).2 =
      diagnostics ++ last.warns := by
    simp [PackageSelection.resolve, hrounds, h.errs]
  exact ⟨_, ⟨last.warns, Prod.ext rfl hdiagnostics, hwarns⟩, hchosen⟩

end LastRound

end Dryer.MachineResolver
