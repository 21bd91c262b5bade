import Dryer.Library.Result
import Dryer.Library.Text
import Dryer.PackageModel.Registry
import Mathlib.Data.List.Sort
import Mathlib.Data.String.Basic

/-!
# Registry sources and package contents

Where a registry comes from, as a lockfile records it, and the content of a package, of which the
bytes are hashed. The files of a package do not change between two reads.
-/
namespace Dryer.PackageModel
open Library MachineSchema

/-! ## Sources -/

def registrySourceSchema : String := "dryer.registry-source/v1"

structure RegistrySource where
  schema : String
  id : String
  uri : String
  descriptorHash : String
  deriving DecidableEq

def isAsciiWhitespace (c : Char) : Bool := c.toNat ∈ [0x20, 0x9, 0xa, 0xc, 0xd]

/-- The character of a URI scheme at a position. -/
def isSchemeChar : Char × ℕ → Bool
  | (c, index) =>
    isAsciiLowercase c || ((isAsciiDigit c || c = '+' || c = '-' || c = '.') && 0 < index)

def portableRegistryUri (uri : String) : Bool :=
  if uri.isEmpty || trim uri ≠ uri || uri.toList.any isAsciiWhitespace ||
      uri.toList.contains (Char.ofNat 0x5c) then false
  else
    match splitOnce uri ':' with
    | none => false
    | some (scheme, location) =>
      !location.isEmpty && scheme ≠ "file" && scheme.toList.zipIdx.all isSchemeChar

def validSha256 (value : String) : Bool :=
  (stripPrefix value "sha256:").any fun digest =>
    digest.toList.length = 64 &&
      digest.toList.all fun c => isAsciiDigit c || ('a' ≤ c && c ≤ 'f')

def RegistrySource.validate (source : RegistrySource) : Except String Unit := do
  reject (source.schema ≠ registrySourceSchema)
    s!"registry source schema '{source.schema}' is not '{registrySourceSchema}'"
  reject (!validIdentifier source.id)
    s!"registry source id '{source.id}' is not a valid identifier"
  reject (!portableRegistryUri source.uri)
    s!"registry source URI '{source.uri}' is not a portable absolute URI"
  reject (!validSha256 source.descriptorHash)
    "registry descriptor_hash is not a lowercase sha256 digest"

/-- A registry with the source that its descriptor gives, if it is valid. -/
structure SourcedRegistry (ν : Type) extends LocalRegistry ν where
  source : Option RegistrySource

/-! ## Contents -/

/-- A name in a directory, which need not be UTF-8. -/
structure FileName where
  display : String
  isUtf8 : Bool

abbrev Bytes := List UInt8

mutual

/-- What is found at a path. Reading a file or a directory may fail. -/
inductive FileNode where
  | file (content : Except String Bytes)
  | directory (entries : FileEntries)
  | symlink
  | other
  | unreadable (e : String)

inductive FileEntries where
  | nil
  | cons (name : FileName) (node : FileNode) (rest : FileEntries)

end

def displayPath (root : String) (names : List FileName) : String :=
  names.foldl (fun path name => s!"{path}/{name.display}") root

def portableRelativePath (root : String) (names : List FileName) : Except String String := do
  reject (!names.all FileName.isUtf8)
    s!"package path '{displayPath root names}' is not valid UTF-8"
  return String.intercalate "/" (names.map FileName.display)

mutual

/-- All files under a node, with their paths. -/
def contentFilesOf (root : String) (names : List FileName) :
    FileNode → Except String (List (String × Except String Bytes))
  | .file content => do return [(← portableRelativePath root names, content)]
  | .directory entries => collectContentFiles root names entries
  | .symlink =>
    .error s!"package content may not contain symlink '{displayPath root names}'"
  | .other =>
    .error s!"package content contains unsupported entry '{displayPath root names}'"
  | .unreadable e => .error e

def collectContentFiles (root : String) (names : List FileName) :
    FileEntries → Except String (List (String × Except String Bytes))
  | .nil => .ok []
  | .cons name node rest => do
    let files ← contentFilesOf root (names ++ [name]) node
    return files ++ (← collectContentFiles root names rest)

end

/-- The regular files of a package, by their paths. -/
abbrev PackageSnapshot := Std.TreeMap String Bytes

def readFile : String × Except String Bytes → Except String (String × Bytes)
  | (relative, content) => do return (relative, ← content)

def readPackageTree (root : String) (node : Except String FileNode) :
    Except String PackageSnapshot := do
  match ← node with
  | .directory entries =>
    let files ← collectContentFiles root [] entries
    let sorted := files.insertionSort fun left right => left.1 ≤ right.1
    return .ofList (← sorted.mapM readFile)
  | _ => .error s!"package root '{root}' must be a directory, not a symlink"

/-- The directories of the packages. -/
abbrev PackageRoots := String → Except String FileNode

/-- Two reads of a package that does not change agree at once. -/
def LoadedPackage.snapshot {ν : Type} (roots : PackageRoots) (package : LoadedPackage ν) :
    Except String PackageSnapshot :=
  readPackageTree package.dir (roots package.dir)

def PackageSnapshot.manifestBytes (snapshot : PackageSnapshot) : Except String Bytes :=
  okOr snapshot["package.yaml"]? "package snapshot contains no package.yaml"

def utf8Bytes (s : String) : Bytes := s.toUTF8.toList

/-- A length as a `u64` in big-endian order. -/
def lengthBytes (n : ℕ) : Bytes :=
  (List.range 8).map fun i => UInt8.ofNat (n / 256 ^ (7 - i))

def contentHashDomain : Bytes := utf8Bytes "dryer-package-content-v1" ++ [0]

/-- The bytes of the digest of a whole package. -/
def PackageSnapshot.digested (snapshot : PackageSnapshot) : Bytes :=
  contentHashDomain ++ snapshot.toList.flatMap fun (relative, bytes) =>
    let path := utf8Bytes relative
    lengthBytes path.length ++ path ++ lengthBytes bytes.length ++ bytes

/-- A digest as text, from the hexadecimal digits of SHA-256. -/
def sha256Hex (sha256 : Bytes → String) (bytes : Bytes) : String := s!"sha256:{sha256 bytes}"

def PackageSnapshot.contentHash (sha256 : Bytes → String) (snapshot : PackageSnapshot) : String :=
  sha256Hex sha256 snapshot.digested

/-- The digest of every regular file of a package. -/
def LoadedPackage.contentHash {ν : Type} (sha256 : Bytes → String) (roots : PackageRoots)
    (package : LoadedPackage ν) : Except String String :=
  (package.snapshot roots).map (PackageSnapshot.contentHash sha256)

/-! ## Packages that have not changed -/

/-- The node of a name in a directory. -/
def FileEntries.entry? (name : String) : FileEntries → Option FileNode
  | .nil => none
  | .cons file node rest =>
    if file.isUtf8 && file.display = name then some node else rest.entry? name

/-- A file that can be read, or a link, behind which there may be one. -/
def FileNode.isReadable : FileNode → Bool
  | .file content => content.isOk
  | .symlink => true
  | _ => false

/-- What loading has read of a package is still there: its directory, or a link in its place, with
the `package.yaml`. -/
def LoadedPackage.isUnchanged {ν : Type} (roots : PackageRoots) (package : LoadedPackage ν) :
    Bool :=
  match roots package.dir with
  | .ok (.directory entries) => (entries.entry? "package.yaml").any FileNode.isReadable
  | .ok .symlink => true
  | _ => false

/-- A file of the directory itself is collected under its name. -/
theorem mem_collectContentFiles {root name : String} {node : FileNode} (hnode : node.isReadable) :
    ∀ {entries : FileEntries} {files : List (String × Except String Bytes)},
      collectContentFiles root [] entries = .ok files → entries.entry? name = some node →
      ∃ bytes, (name, .ok bytes) ∈ files
  | .nil, files, _, hentry => by cases hentry
  | .cons file first rest, files, h, hentry => by
    unfold collectContentFiles at h
    obtain ⟨own, hown, h⟩ := bind_eq_ok.mp h
    obtain ⟨others, hothers, h⟩ := bind_eq_ok.mp h
    obtain rfl := Except.ok.inj h
    unfold FileEntries.entry? at hentry
    split at hentry
    · rename_i hfound
      obtain rfl := Option.some.inj hentry
      obtain ⟨hutf8, hname⟩ := Bool.and_eq_true_iff.mp hfound
      cases first with
      | file content =>
        cases content with
        | error e => cases hnode
        | ok bytes =>
          refine ⟨bytes, List.mem_append_left _ ?_⟩
          obtain ⟨relative, hrelative, h⟩ := bind_eq_ok.mp hown
          obtain ⟨_, -, hrelative⟩ := bind_eq_ok.mp hrelative
          obtain rfl := Except.ok.inj hrelative
          obtain rfl := Except.ok.inj h
          simp [of_decide_eq_true hname]
      | symlink => cases hown
      | directory _ | other | unreadable _ => cases hnode
    · obtain ⟨bytes, hbytes⟩ := mem_collectContentFiles hnode hothers hentry
      exact ⟨bytes, List.mem_append_right _ hbytes⟩

/-- The snapshot of a package that has not changed has its manifest. -/
theorem exists_manifestBytes {ν : Type} {roots : PackageRoots} {package : LoadedPackage ν}
    {snapshot : PackageSnapshot} (hunchanged : package.isUnchanged roots)
    (h : package.snapshot roots = .ok snapshot) :
    ∃ bytes, snapshot.manifestBytes = .ok bytes := by
  obtain ⟨node, hnode, h⟩ := bind_eq_ok.mp h
  unfold LoadedPackage.isUnchanged at hunchanged
  rw [hnode] at hunchanged
  cases node with
  | directory entries =>
    obtain ⟨files, hfiles, h⟩ := bind_eq_ok.mp h
    obtain ⟨contents, hcontents, h⟩ := bind_eq_ok.mp h
    obtain rfl := Except.ok.inj h
    obtain ⟨manifest, hmanifest, hreadable⟩ := (Option.any_eq_true _ _).mp hunchanged
    obtain ⟨bytes, hbytes⟩ := mem_collectContentFiles hreadable hfiles hmanifest
    have hread : ("package.yaml", bytes) ∈ contents :=
      (mem_of_mapM_eq_ok hcontents).mpr
        ⟨_, (List.mem_insertionSort _).mpr hbytes, rfl⟩
    have hkey : "package.yaml" ∈ (Std.TreeMap.ofList contents : PackageSnapshot) := by
      rw [Std.TreeMap.mem_ofList, List.contains_iff_mem]
      exact List.mem_map_of_mem hread
    exact ⟨_, okOr_eq_ok.mpr (Std.TreeMap.getElem?_eq_some_getElem hkey)⟩
  | file _ | symlink | other | unreadable _ => cases h

end Dryer.PackageModel
