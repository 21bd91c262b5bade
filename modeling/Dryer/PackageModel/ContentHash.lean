import Dryer.Library.LittleEndian
import Dryer.Library.OrderedMaps
import Dryer.Library.PrefixFree
import Dryer.PackageModel.RegistrySources

/-!
# Content hashes

What the hash of a package commits to: each path and each file stands behind its length, so that
the digested bytes give back the files.
-/
namespace Dryer.PackageModel
open Library

/-! ## Framing -/

theorem lengthBytes_eq (n : ℕ) : lengthBytes n = (LittleEndian.encode 8 n).reverse := by
  simp [lengthBytes, LittleEndian.encode, List.range_succ, Nat.div_div_eq_div_mul]

theorem prefixFree_lengthBytes : PrefixFree (· < 2 ^ 64) lengthBytes := by
  refine .of_length (n := 8) (fun n => by simp [lengthBytes]) ?_
  intro n m hn hm heq
  rw [lengthBytes_eq, lengthBytes_eq, List.reverse_inj] at heq
  have hdecode := congrArg LittleEndian.decode heq
  rwa [LittleEndian.decode_encode_of_lt (by omega), LittleEndian.decode_encode_of_lt (by omega)]
    at hdecode

theorem toList_loop (bytes : ByteArray) (i : ℕ) (read : List UInt8) :
    ByteArray.toList.loop bytes i read = read.reverse ++ bytes.data.toList.drop i := by
  fun_induction ByteArray.toList.loop bytes i read with
  | case1 i read hlt ih =>
    have hcell : i < bytes.data.toList.length := hlt
    have hget : bytes.get! i = bytes.data.toList[i] := by
      simp [ByteArray.get!, getElem!_pos bytes.data i hlt]
    rw [ih, List.drop_eq_getElem_cons hcell, hget, List.reverse_cons, List.append_assoc,
      List.singleton_append]
  | case2 i read hend =>
    rw [List.drop_eq_nil_of_le (Nat.not_lt.mp hend), List.append_nil]

theorem utf8Bytes_injective : Function.Injective utf8Bytes := by
  intro s t h
  simp only [utf8Bytes, ByteArray.toList, toList_loop] at h
  apply String.toByteArray_inj.mp
  exact ByteArray.ext (Array.toList_inj.mp (by simpa using h))

/-! ## Files -/

/-- The path and the content are shorter than `2 ^ 64` bytes. -/
def FileFits (file : String × Bytes) : Prop :=
  (utf8Bytes file.1).length < 2 ^ 64 ∧ file.2.length < 2 ^ 64

instance (file : String × Bytes) : Decidable (FileFits file) :=
  inferInstanceAs (Decidable (_ ∧ _))

/-- The digested bytes of one file. -/
def fileBytes (file : String × Bytes) : Bytes :=
  let path := utf8Bytes file.1
  lengthBytes path.length ++ path ++ lengthBytes file.2.length ++ file.2

theorem prefixFree_fileBytes : PrefixFree FileFits fileBytes := by
  have hblob := prefixFree_lengthBytes.lengthPrefixed
  have hpair := (hblob.comp utf8Bytes_injective).prod hblob
  intro left right rest rest' hleft hright heq
  have hparts : lengthBytes (utf8Bytes left.1).length ++ utf8Bytes left.1 ++
      (lengthBytes left.2.length ++ left.2) ++ rest =
      lengthBytes (utf8Bytes right.1).length ++ utf8Bytes right.1 ++
      (lengthBytes right.2.length ++ right.2) ++ rest' := by
    simpa [fileBytes] using heq
  exact hpair hleft hright hparts

theorem fileBytes_ne_nil (file : String × Bytes) : fileBytes file ≠ [] := by
  intro h
  have hlength := congrArg List.length h
  simp [fileBytes, lengthBytes] at hlength

/-! ## Snapshots -/

namespace PackageSnapshot

def Fits (snapshot : PackageSnapshot) : Prop :=
  ∀ (path : String) bytes, snapshot[path]? = some bytes → FileFits (path, bytes)

theorem fits_iff {snapshot : PackageSnapshot} :
    snapshot.Fits ↔ ∀ file ∈ snapshot.toList, FileFits file := by
  simp only [Fits, Prod.forall, Std.TreeMap.mem_toList_iff_getElem?_eq_some]

theorem digested_eq (snapshot : PackageSnapshot) :
    snapshot.digested = contentHashDomain ++ snapshot.toList.flatMap fileBytes := rfl

variable {left right : PackageSnapshot}

/-- The digested bytes are the same only for the same files. -/
theorem digested_inj (hleft : left.Fits) (hright : right.Fits) :
    left.digested = right.digested ↔ ∀ path : String, left[path]? = right[path]? := by
  rw [digested_eq, digested_eq, List.append_cancel_left_eq, ← toList_eq_iff]
  constructor
  · intro h
    exact prefixFree_fileBytes.flatMap_injective fileBytes_ne_nil (fits_iff.mp hleft)
      (fits_iff.mp hright) h
  · intro h
    rw [h]

/-- Packages with different files have the same hash only where SHA-256 has a collision. -/
theorem contentHash_collision (hleft : left.Fits) (hright : right.Fits)
    (hdiffer : ∃ path : String, left[path]? ≠ right[path]?) :
    left.digested ≠ right.digested ∧ ∀ sha256 : Bytes → String,
      left.contentHash sha256 = right.contentHash sha256 →
        sha256 left.digested = sha256 right.digested := by
  refine ⟨?_, ?_⟩
  · intro heq
    obtain ⟨path, hpath⟩ := hdiffer
    exact hpath ((digested_inj hleft hright).mp heq path)
  · intro sha256 h
    simpa [contentHash, sha256Hex, toString] using h

/-- A path that ends earlier, with a file that begins earlier. -/
theorem shifted_files_differ :
    let left : PackageSnapshot := .ofList [("a", ([98, 99] : Bytes))]
    let right : PackageSnapshot := .ofList [("ab", ([99] : Bytes))]
    left.digested ≠ right.digested ∧ ∀ sha256 : Bytes → String,
      left.contentHash sha256 = right.contentHash sha256 →
        sha256 left.digested = sha256 right.digested := by
  refine contentHash_collision (fits_iff.mpr ?_) (fits_iff.mpr ?_) ⟨"a", ?_⟩ <;> decide +kernel

end PackageSnapshot

end Dryer.PackageModel
