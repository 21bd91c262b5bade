import Dryer.MachineLock.Generate
import Dryer.MachineResolver.Phases
import Dryer.MachineResolver.Soundness

/-!
# Pinned packages

The packages that a lockfile pins: those of the closure whose references parse. The safety profile
is always one of them.
-/
namespace Dryer.MachineLock
open Library MachineSchema MachineParser MachineResolver PackageModel

variable {ν ρ : Type} [LinearOrder ν] [Semver ν ρ] {sha256 : Bytes → String} {roots : PackageRoots}
  {registry : LocalRegistry ν} {resolved : ResolvedGraph} {pkg : String}

variable (ν) in
/-- An entry of the closure reads as the reference. -/
def Pinned (resolved : ResolvedGraph) (id : String) : Prop :=
  ∃ pkg ∈ resolved.packages, ∃ r : PackageRef ν, PackageRef.parse pkg = .ok r ∧ r.toText = id

/-- The package of every reference in the closure is there, and its files can be read. -/
def Contents (roots : PackageRoots) (registry : LocalRegistry ν) (resolved : ResolvedGraph) :
    Prop :=
  ∀ pkg ∈ resolved.packages, ∀ r : PackageRef ν, PackageRef.parse pkg = .ok r →
    ∃ package snapshot, registry.findVersion r.namespace r.name r.version = some package ∧
      package.snapshot roots = .ok snapshot

/-! ## One package -/

theorem isEmpty_sha256Hex (sha256 : Bytes → String) (bytes : Bytes) :
    (sha256Hex sha256 bytes).isEmpty = false := by
  rw [String.isEmpty_eq_false_iff]
  intro h
  have hlist := congrArg String.toList h
  simp [sha256Hex, toString] at hlist

theorem exists_pinPackage (hunchanged : ∀ package ∈ registry.packages, package.isUnchanged roots) :
    (∃ locked, pinPackage sha256 roots registry pkg = .ok locked) ↔
      ∀ r : PackageRef ν, PackageRef.parse pkg = .ok r → ∃ package snapshot,
        registry.findVersion r.namespace r.name r.version = some package ∧
        package.snapshot roots = .ok snapshot := by
  unfold pinPackage
  cases hparse : (PackageRef.parse pkg : Except RefParseError (PackageRef ν)) with
  | error e => simp
  | ok r =>
    simp only [bind_eq_ok, okOr_eq_ok, mapError_eq_ok, Except.ok.injEq, forall_eq']
    constructor
    · rintro ⟨_, package, hpackage, snapshot, hsnapshot, -⟩
      exact ⟨package, snapshot, hpackage, hsnapshot⟩
    · rintro ⟨package, snapshot, hpackage, hsnapshot⟩
      have hmem := (LocalRegistry.findVersion_eq_some hpackage).1
      obtain ⟨bytes, hbytes⟩ := exists_manifestBytes (hunchanged package hmem) hsnapshot
      exact ⟨_, package, hpackage, snapshot, hsnapshot, bytes, hbytes, rfl⟩

/-- What is pinned has the reference that was parsed, and a hash. -/
theorem of_pinPackage {pinned : Option LockedPackage}
    (h : pinPackage sha256 roots registry pkg = .ok pinned) :
    pinned.map LockedPackage.id =
      (PackageRef.parse pkg : Except RefParseError (PackageRef ν)).toOption.map PackageRef.toText ∧
    ∀ locked ∈ pinned, ¬ locked.contentHash.isEmpty := by
  unfold pinPackage at h
  cases hparse : (PackageRef.parse pkg : Except RefParseError (PackageRef ν)) with
  | error e =>
    rw [hparse] at h
    obtain rfl := Except.ok.inj h
    exact ⟨rfl, by simp⟩
  | ok r =>
    rw [hparse] at h
    simp only [bind_eq_ok, okOr_eq_ok, mapError_eq_ok] at h
    obtain ⟨package, hpackage, snapshot, -, bytes, -, h⟩ := h
    obtain rfl := Except.ok.inj h
    have hreference := (LocalRegistry.findVersion_eq_some hpackage).2
    refine ⟨?_, ?_⟩
    · rw [Option.map_some, hreference]
      rfl
    · intro locked hlocked
      obtain rfl := Option.mem_some_iff.mp hlocked
      exact ne_true_of_eq_false (isEmpty_sha256Hex _ _)

/-! ## The closure -/

theorem exists_pinPackages
    (hunchanged : ∀ package ∈ registry.packages, package.isUnchanged roots) :
    (∃ packages, pinPackages sha256 roots registry resolved = .ok packages) ↔
      Contents roots registry resolved := by
  have hall : (∃ pinned, resolved.packages.mapM (pinPackage sha256 roots registry) = .ok pinned) ↔
      Contents roots registry resolved := by
    rw [exists_mapM_eq_ok]
    exact forall₂_congr fun pkg _ => exists_pinPackage hunchanged
  rw [← hall]
  simp only [pinPackages, bind_eq_ok]
  constructor
  · rintro ⟨_, pinned, hpinned, -⟩
    exact ⟨pinned, hpinned⟩
  · rintro ⟨pinned, hpinned⟩
    exact ⟨_, pinned, hpinned, rfl⟩

section Pinned

variable {packages : List LockedPackage}
  (h : pinPackages sha256 roots registry resolved = .ok packages)
include h

theorem mem_pinPackages {locked : LockedPackage} : locked ∈ packages ↔
    ∃ pkg ∈ resolved.packages, pinPackage sha256 roots registry pkg = .ok (some locked) := by
  obtain ⟨pinned, hpinned, h⟩ := bind_eq_ok.mp h
  obtain rfl := Except.ok.inj h
  rw [List.mem_insertionSort, ← mem_of_mapM_eq_ok hpinned]
  simp

theorem mem_ids_iff {id : String} : id ∈ packages.map LockedPackage.id ↔ Pinned ν resolved id := by
  have hread (pkg : String) (hpkg : pkg ∈ resolved.packages) :
      ∃ pinned, pinPackage sha256 roots registry pkg = .ok pinned := by
    obtain ⟨pinned, hpinned, -⟩ := bind_eq_ok.mp h
    exact exists_mapM_eq_ok.mp ⟨pinned, hpinned⟩ pkg hpkg
  simp only [List.mem_map, mem_pinPackages h]
  constructor
  · rintro ⟨locked, ⟨pkg, hpkg, hpinned⟩, rfl⟩
    have hid := (of_pinPackage hpinned).1
    cases hparse : (PackageRef.parse pkg : Except RefParseError (PackageRef ν)) with
    | error e =>
      rw [hparse] at hid
      cases hid
    | ok r =>
      rw [hparse] at hid
      exact ⟨pkg, hpkg, r, hparse, (Option.some.inj hid).symm⟩
  · rintro ⟨pkg, hpkg, r, hparse, rfl⟩
    obtain ⟨pinned, hpinned⟩ := hread pkg hpkg
    have hid := (of_pinPackage hpinned).1
    rw [hparse] at hid
    obtain ⟨locked, rfl, hlocked⟩ := Option.map_eq_some_iff.mp hid
    exact ⟨locked, ⟨pkg, hpkg, hpinned⟩, hlocked⟩

theorem contentHash_of_pinPackages {locked : LockedPackage} (hlocked : locked ∈ packages) :
    ¬ locked.contentHash.isEmpty := by
  obtain ⟨pkg, -, hpinned⟩ := (mem_pinPackages h).mp hlocked
  exact (of_pinPackage hpinned).2 locked rfl

end Pinned

/-! ## The safety profile -/

variable [DecidableEq ρ] {κ : Type} [Numbers κ] {files : PackageFiles ν} {graph : MachineGraph}
  {profile : SafetyProfileFile}

theorem packages_eq_closureRefs (h : Resolves κ files graph registry profile resolved) :
    resolved.packages = (selectionOf files graph registry).closureRefs := by
  rw [h.graphEq]
  rfl

omit [LinearOrder ν] [DecidableEq ρ] in
/-- A valid name with a version that reads back is a reference. -/
theorem exists_parse_of_validPackageRefName {path : String} {version : ν}
    (hvalid : validPackageRefName path)
    (hversion : Semver.parseVersion (Semver.versionText version) = .ok version) :
    ∃ r : PackageRef ν, PackageRef.parse s!"{path}@{Semver.versionText version}" = .ok r ∧
      r.toText = s!"{path}@{Semver.versionText version}" := by
  unfold validPackageRefName at hvalid
  split at hvalid
  · cases hvalid
  · rename_i ns name hsplit
    obtain ⟨hns, hname⟩ := Bool.and_eq_true_iff.mp hvalid
    obtain ⟨-, hlist⟩ := splitOnce_eq_some.mp hsplit
    have hpath : path = s!"{ns}/{name}" := by
      apply String.toList_inj.mp
      simp [hlist, toString]
    have hat : splitOnce s!"{path}@{Semver.versionText version}" '@' =
        some (path, Semver.versionText version) := by
      refine splitOnce_eq_some.mpr ⟨?_, by simp [toString]⟩
      rw [hlist, List.mem_append, List.mem_cons, not_or, not_or]
      exact ⟨notMem_of_validIdentifier hns rfl, by decide, notMem_of_validIdentifier hname rfl⟩
    refine ⟨⟨ns, name, version⟩, ?_, ?_⟩
    · simp only [PackageRef.parse, hat, hsplit, hns, hname, hversion, Bool.not_true, Bool.or_self,
        Bool.false_eq_true, if_false]
    · rw [PackageRef.toText, PackageRef.path, ← hpath]

/-- What the closure chooses for a valid name is pinned. -/
theorem pinned_of_chosen (h : Resolves κ files graph registry profile resolved)
    (hversions : ∀ package ∈ registry.packages, Semver.parseVersion
      (Semver.versionText package.reference.version) = .ok package.reference.version)
    {path : String} {version : ν} (hvalid : validPackageRefName path)
    (hchosen : (selectionOf files graph registry).chosen[path]? = some version) :
    Pinned ν resolved s!"{path}@{Semver.versionText version}" := by
  obtain ⟨ns, name, hsplit, havailable⟩ := available_of_closure h.closure hchosen
  obtain ⟨package, hmem, hreference⟩ := LocalRegistry.mem_versions.mp havailable
  have hversion := hversions package hmem
  rw [hreference] at hversion
  obtain ⟨r, hparse, htext⟩ := exists_parse_of_validPackageRefName hvalid hversion
  exact ⟨_, packages_eq_closureRefs h ▸ (mem_closureRefs h.closure).mpr ⟨_, _, hchosen, rfl⟩, r,
    hparse, htext⟩

theorem exists_selectSafetyProfile (h : Resolves κ files graph registry profile resolved)
    (hversions : ∀ package ∈ registry.packages, Semver.parseVersion
      (Semver.versionText package.reference.version) = .ok package.reference.version)
    {packages : List LockedPackage}
    (hpinned : pinPackages sha256 roots registry resolved = .ok packages) :
    ∃ package, selectSafetyProfile packages graph.safety.profile = .ok package := by
  have hname : validPackageRefName graph.safety.profile := by
    have hloads := h.profileLoads
    rw [safety_expandedOf] at hloads
    unfold loadProfile at hloads
    split at hloads
    · cases hloads
    · rename_i hvalid
      simpa using hvalid
  have hroot : graph.safety.profile ∈ rootPaths ν graph.doc := by
    refine .inl ?_
    rw [implicitRoots, Std.TreeSet.mem_ofList, List.contains_iff_mem]
    exact List.mem_filter.mpr ⟨by simp [MachineGraph.doc], hname⟩
  have hchosen := (closure_sound h.closure).roots _ hroot
  have hid := pinned_of_chosen h hversions hname (Std.TreeMap.getElem?_eq_some_getElem hchosen)
  obtain ⟨locked, hlocked, hidEq⟩ := List.mem_map.mp ((mem_ids_iff hpinned).mpr hid)
  have hfound : (packages.find? fun package =>
      startsWith package.id s!"{graph.safety.profile}@").isSome := by
    refine List.find?_isSome.mpr ⟨locked, hlocked, ?_⟩
    rw [hidEq]
    simp [startsWith, toString]
  obtain ⟨package, hpackage⟩ := Option.isSome_iff_exists.mp hfound
  exact ⟨package, okOr_eq_ok.mpr hpackage⟩

theorem mem_of_selectSafetyProfile {packages : List LockedPackage} {package : LockedPackage}
    {path : String} (h : selectSafetyProfile packages path = .ok package) : package ∈ packages :=
  List.mem_of_find?_eq_some (okOr_eq_ok.mp h)

end Dryer.MachineLock
