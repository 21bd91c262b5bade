import Dryer.MachineLock.Lockfile
import Dryer.PackageModel.PackageFiles

/-!
# Verifying a lockfile

The command that compares the packages of a lockfile with those of a registry. It looks at the
highest version of each package, whatever version is locked.
-/
namespace Dryer.Cli
open Library MachineLock PackageModel

variable {ν ρ : Type} [LinearOrder ν] [Semver ν ρ]

/-- What is found of a locked package. -/
inductive PackageStatus where
  | ok
  | drift (found : String)
  | missing
  deriving DecidableEq

/-- The line that is printed for a package. -/
def PackageStatus.line (locked : LockedPackage) : PackageStatus → String
  | ok => s!"   [OK] {locked.id} matches content digest {locked.contentHash}"
  | drift found => s!"   [DRIFT] {locked.id} content digest mismatch! Expected " ++
      s!"{locked.contentHash}, found {found}"
  | missing => s!"   [MISSING] {locked.id} not found in local registry!"

def PackageStatus.mismatched : PackageStatus → ℕ
  | ok => 0
  | drift _ => 1
  | missing => 1

inductive VerifyFailure where
  | error (message : String)
  /-- The command ends itself, with an exit code. -/
  | exit (code : ℕ)
  deriving DecidableEq

section Verify

variable (sha256 : Bytes → String) (roots : PackageRoots) (registry : LocalRegistry ν)

def verifyPackage (locked : LockedPackage) : Except String PackageStatus := do
  let parsedRef : PackageRef ν ← (PackageRef.parse locked.id).mapError fun e =>
    s!"invalid locked package ref '{locked.id}': invalid package reference: {e.message}"
  match registry.find parsedRef.namespace parsedRef.name with
  | none => return .missing
  | some loadedPkg =>
    let diskHash ← loadedPkg.contentHash sha256 roots
    return if diskHash = locked.contentHash then .ok else .drift diskHash

/-- The lines of the packages, and how many are off. What cannot be checked ends the loop. -/
def verifyPackages : List LockedPackage → List String × Except String ℕ
  | [] => ([], .ok 0)
  | locked :: rest =>
    match verifyPackage sha256 roots registry locked with
    | .error e => ([], .error e)
    | .ok status =>
      let (printed, mismatched) := verifyPackages rest
      (status.line locked :: printed, mismatched.map (status.mismatched + ·))

def verifyLock (lockfile : Lockfile) : List String × Except VerifyFailure Unit :=
  let (printed, mismatched) := verifyPackages sha256 roots registry lockfile.packages
  match mismatched with
  | .error e => (printed, .error (.error e))
  | .ok 0 =>
    (printed ++ [s!"✅ Lockfile verification passed! All {lockfile.packages.length} locked " ++
      "packages matched."], .ok ())
  | .ok (n + 1) =>
    (printed ++ [s!"❌ Lockfile verification failed with {n + 1} package mismatches/drift."],
      .error (.exit 1))

/-! ## What is verified -/

/-- The locked version is in the registry, with the locked content. -/
def Exact (locked : LockedPackage) : Prop :=
  ∃ package ∈ registry.packages, PackageRef.parse locked.id = .ok package.reference ∧
    package.contentHash sha256 roots = .ok locked.contentHash

/-- The locked version is in the registry with the locked content, but the highest version there
has another content. -/
def Hidden (locked : LockedPackage) : Prop :=
  ∃ package ∈ registry.packages, PackageRef.parse locked.id = .ok package.reference ∧
    package.contentHash sha256 roots = .ok locked.contentHash ∧
    ∃ newest, registry.find package.reference.namespace package.reference.name = some newest ∧
      package.reference.version ≤ newest.reference.version ∧
      newest.contentHash sha256 roots ≠ .ok locked.contentHash

/-- The locked version is not in the registry with the locked content, but the highest version
there, another one, has this content. -/
def Replaced (locked : LockedPackage) : Prop :=
  ¬ Exact sha256 roots registry locked ∧
    ∃ r : PackageRef ν, PackageRef.parse locked.id = .ok r ∧
      ∃ newest, registry.find r.namespace r.name = some newest ∧
        newest.reference.version ≠ r.version ∧
        newest.contentHash sha256 roots = .ok locked.contentHash

/-- Other versions do not change the result: there are none that matter, or they cannot hide all
that is off, or they make up for one another. -/
def OthersDoNotMatter (lockfile : Lockfile) : Prop :=
  (∀ locked ∈ lockfile.packages, ¬ Hidden sha256 roots registry locked ∧
    ¬ Replaced sha256 roots registry locked) ∨
  (∃ locked ∈ lockfile.packages, ¬ Exact sha256 roots registry locked ∧
    ¬ Replaced sha256 roots registry locked) ∨
  (∃ locked ∈ lockfile.packages, Hidden sha256 roots registry locked) ∧
    ∃ locked ∈ lockfile.packages, Replaced sha256 roots registry locked

end Verify

variable {sha256 : Bytes → String} {roots : PackageRoots} {registry : LocalRegistry ν}
  {locked : LockedPackage} {lockfile : Lockfile}

/-- A package is taken for the locked one when the highest version has the locked content. -/
theorem verifyPackage_eq_ok :
    verifyPackage sha256 roots registry locked = .ok .ok ↔
      ∃ r : PackageRef ν, PackageRef.parse locked.id = .ok r ∧
        ∃ newest, registry.find r.namespace r.name = some newest ∧
          newest.contentHash sha256 roots = .ok locked.contentHash := by
  simp only [verifyPackage, bind_eq_ok, mapError_eq_ok]
  refine exists_congr fun r => and_congr_right fun _ => ?_
  cases registry.find r.namespace r.name with
  | none => simp [pure, Except.pure]
  | some newest =>
    simp only [bind_eq_ok, Option.some.injEq, exists_eq_left']
    constructor
    · rintro ⟨diskHash, hdisk, h⟩
      split at h
      · rename_i heq
        rw [hdisk, heq]
      · cases h
    · intro h
      exact ⟨_, h, by simp [pure, Except.pure]⟩

theorem verifyPackage_eq_ok_iff :
    verifyPackage sha256 roots registry locked = .ok .ok ↔
      (Exact sha256 roots registry locked ∧ ¬ Hidden sha256 roots registry locked) ∨
        Replaced sha256 roots registry locked := by
  rw [verifyPackage_eq_ok]
  constructor
  · rintro ⟨r, hparse, newest, hnewest, hhash⟩
    by_cases hexact : Exact sha256 roots registry locked
    · refine .inl ⟨hexact, ?_⟩
      rintro ⟨package, -, hpackage, -, newest', hnewest', -, hother⟩
      obtain rfl := Except.ok.inj (hparse.symm.trans hpackage)
      obtain rfl := Option.some.inj (hnewest.symm.trans hnewest')
      exact hother hhash
    · refine .inr ⟨hexact, r, hparse, newest, hnewest, ?_, hhash⟩
      intro hversion
      obtain ⟨hmem, hns, hname⟩ := LocalRegistry.find_eq_some hnewest
      have hreference : r = newest.reference := by
        obtain ⟨_, _, _⟩ := r
        subst hns hname hversion
        rfl
      exact hexact ⟨newest, hmem, hreference ▸ hparse, hhash⟩
  · rintro (⟨⟨package, hmem, hparse, hhash⟩, hshown⟩ | ⟨-, r, hparse, newest, hnewest, -, hhash⟩)
    · obtain ⟨newest, hnewest, hle⟩ := LocalRegistry.exists_find hmem
      refine ⟨_, hparse, newest, hnewest, ?_⟩
      by_contra hother
      exact hshown ⟨package, hmem, hparse, hhash, newest, hnewest, hle, hother⟩
    · exact ⟨r, hparse, newest, hnewest, hhash⟩

theorem verifyPackages_eq_ok {packages : List LockedPackage} :
    (verifyPackages sha256 roots registry packages).2 = .ok 0 ↔
      ∀ locked ∈ packages, verifyPackage sha256 roots registry locked = .ok .ok := by
  induction packages with
  | nil => simp [verifyPackages]
  | cons locked rest ih =>
    rw [List.forall_mem_cons, ← ih, verifyPackages]
    cases verifyPackage sha256 roots registry locked with
    | error e => simp
    | ok status =>
      rcases verifyPackages sha256 roots registry rest with ⟨printed, e | mismatched⟩
      · simp [Except.map]
      · cases status <;> simp [Except.map, PackageStatus.mismatched]

theorem verifyLock_eq_ok :
    (verifyLock sha256 roots registry lockfile).2 = .ok () ↔
      ∀ locked ∈ lockfile.packages, verifyPackage sha256 roots registry locked = .ok .ok := by
  rw [← verifyPackages_eq_ok, verifyLock]
  rcases verifyPackages sha256 roots registry lockfile.packages with ⟨printed, e | mismatched⟩
  · simp
  · cases mismatched <;> simp

theorem Hidden.exact (h : Hidden sha256 roots registry locked) :
    Exact sha256 roots registry locked := by
  obtain ⟨package, hmem, hparse, hhash, -⟩ := h
  exact ⟨package, hmem, hparse, hhash⟩

theorem Replaced.not_exact (h : Replaced sha256 roots registry locked) :
    ¬ Exact sha256 roots registry locked := h.1

/-- A hidden package is never taken for the locked one. -/
theorem Hidden.not_verified (h : Hidden sha256 roots registry locked) :
    verifyPackage sha256 roots registry locked ≠ .ok .ok := by
  rw [Ne, verifyPackage_eq_ok_iff]
  rintro (⟨-, hshown⟩ | hreplaced)
  · exact hshown h
  · exact hreplaced.not_exact h.exact

/-- Verification tells whether everything is as locked exactly when other versions do not matter. -/
theorem verifyLock_exact_iff :
    ((verifyLock sha256 roots registry lockfile).2 = .ok () ↔
      ∀ locked ∈ lockfile.packages, Exact sha256 roots registry locked) ↔
    OthersDoNotMatter sha256 roots registry lockfile := by
  rw [verifyLock_eq_ok]
  constructor
  · intro h
    by_cases hall : ∀ locked ∈ lockfile.packages, Exact sha256 roots registry locked
    · refine .inl fun locked hlocked => ⟨?_, ?_⟩
      · exact fun hhidden => hhidden.not_verified (h.mpr hall locked hlocked)
      · exact fun hreplaced => hreplaced.not_exact (hall locked hlocked)
    · -- Both answers are no, for a package that is not exact and one that is not verified.
      have hfails := mt h.mp hall
      push Not at hall hfails
      obtain ⟨inexact, hinexact, hnot⟩ := hall
      obtain ⟨unverified, hunverified, hoff⟩ := hfails
      rw [Ne, verifyPackage_eq_ok_iff, not_or, not_and_not_right] at hoff
      by_cases hexact : Exact sha256 roots registry unverified
      · by_cases hreplaced : Replaced sha256 roots registry inexact
        · exact .inr (.inr ⟨⟨unverified, hunverified, hoff.1 hexact⟩, inexact, hinexact, hreplaced⟩)
        · exact .inr (.inl ⟨inexact, hinexact, hnot, hreplaced⟩)
      · exact .inr (.inl ⟨unverified, hunverified, hexact, hoff.2⟩)
  · rintro (hnone | ⟨off, hoff, hnot, hreplaced⟩ |
      ⟨⟨hidden, hhidden, hhides⟩, replaced, hreplaced, hreplaces⟩)
    · refine forall₂_congr fun locked hlocked => ?_
      obtain ⟨hshown, hkept⟩ := hnone locked hlocked
      rw [verifyPackage_eq_ok_iff, or_iff_left hkept, and_iff_left hshown]
    · refine iff_of_false (fun h => ?_) fun h => hnot (h off hoff)
      obtain ⟨hexact, -⟩ | hreplaces := verifyPackage_eq_ok_iff.mp (h off hoff)
      · exact hnot hexact
      · exact hreplaced hreplaces
    · exact iff_of_false (fun h => hhides.not_verified (h hidden hhidden))
        fun h => hreplaces.not_exact (h replaced hreplaced)

/-! ## A newer version -/

/-- Each package has its directory as its only text. -/
def dirRoots : PackageRoots := fun dir =>
  .ok (.directory (.cons ⟨"package.yaml", true⟩ (.file (.ok (utf8Bytes dir))) .nil))

def textOf (bytes : Bytes) : String := String.ofList (bytes.map fun byte => Char.ofNat byte.toNat)

def driver (version : CoreVersion) : LoadedPackage CoreVersion where
  reference := ⟨"drivers", "spi", version⟩
  dir := s!"packages/drivers/spi/{Semver.versionText version}"
  manifest := { dependencies := ∅ }

/-- The lock of the driver in version 1.0.0. -/
def driverLock : Lockfile where
  lockVersion := 2
  machineHash := ""
  resolverVersion := ""
  registrySource := none
  packages := [
    { id := "drivers/spi@1.0.0"
      manifestHash := ""
      contentHash := ((driver (.ofNumbers 1 0 0)).contentHash textOf dirRoots).toOption.getD "" }]
  safetyProfile := { id := "", manifestHash := "", contentHash := "sha256:" }
  controllers := ∅

/-- The registry has the driver as locked, but a newer version beside it. -/
theorem newer_version_not_verified : driverLock.validate = .ok () ∧
    ¬ ((verifyLock textOf dirRoots ⟨[driver (.ofNumbers 1 0 0), driver (.ofNumbers 2 0 0)]⟩
        driverLock).2 = .ok () ↔
      ∀ locked ∈ driverLock.packages, Exact textOf dirRoots
        ⟨[driver (.ofNumbers 1 0 0), driver (.ofNumbers 2 0 0)]⟩ locked) := by
  have hfails : (verifyLock textOf dirRoots
      ⟨[driver (.ofNumbers 1 0 0), driver (.ofNumbers 2 0 0)]⟩ driverLock).2 ≠ .ok () := by
    decide +kernel
  have hexact : ∀ locked ∈ driverLock.packages, Exact textOf dirRoots
      ⟨[driver (.ofNumbers 1 0 0), driver (.ofNumbers 2 0 0)]⟩ locked := by
    intro locked hlocked
    obtain rfl := List.mem_singleton.mp hlocked
    exact ⟨driver (.ofNumbers 1 0 0), List.mem_cons_self, by decide +kernel, by decide +kernel⟩
  exact ⟨by rfl, fun h => hfails (h.mpr hexact)⟩

end Dryer.Cli
