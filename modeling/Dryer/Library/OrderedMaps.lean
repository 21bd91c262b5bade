import Dryer.Library.Result
import Mathlib.Data.List.Basic
import Mathlib.Data.List.Induction
import Mathlib.Data.Set.Finite.List
import Std.Data.TreeMap.Lemmas
import Std.Data.TreeSet.Lemmas

/-!
# Ordered maps

Ordered maps that are compared entry by entry, built from a list of keys, or collected from
entries of which several have one key.
-/
namespace Dryer.Library

variable {α β : Type} {cmp : α → α → Ordering} [Std.TransCmp cmp] [Std.LawfulEqCmp cmp]

/-- Two maps have the same entries in order exactly when they have the same values. -/
theorem toList_eq_iff {t₁ t₂ : Std.TreeMap α β cmp} :
    t₁.toList = t₂.toList ↔ ∀ k : α, t₁[k]? = t₂[k]? := by
  rw [← Std.TreeMap.equiv_iff_toList_eq]
  exact ⟨fun h k => h.getElem?_eq, Std.TreeMap.Equiv.of_forall_constGet?_eq⟩

omit [Std.TransCmp cmp] [Std.LawfulEqCmp cmp] in
theorem values_eq_map_toList (t : Std.TreeMap α β cmp) : t.values = t.toList.map Prod.snd := by
  have hvalues : t.values = t.foldr (fun _ v l => v :: l) [] := rfl
  rw [hvalues, Std.TreeMap.foldr_eq_foldr_toList, List.map_eq_foldr]

theorem mem_values {t : Std.TreeMap α β cmp} {value : β} :
    value ∈ t.values ↔ ∃ key : α, t[key]? = some value := by
  rw [values_eq_map_toList, List.mem_map]
  constructor
  · rintro ⟨⟨key, _⟩, hmem, rfl⟩
    exact ⟨key, Std.TreeMap.mem_toList_iff_getElem?_eq_some.mp hmem⟩
  · rintro ⟨key, hkey⟩
    exact ⟨(key, value), Std.TreeMap.mem_toList_iff_getElem?_eq_some.mpr hkey, rfl⟩

theorem getElem?_filterMap_eq_some {γ : Type} {t : Std.TreeMap α β cmp} {f : α → β → Option γ}
    {key : α} {value : γ} :
    (t.filterMap f)[key]? = some value ↔ ∃ b, t[key]? = some b ∧ f key b = some value := by
  simp only [← Std.TreeMap.mem_toList_iff_getElem?_eq_some, Std.TreeMap.toList_filterMap,
    List.mem_filterMap, Option.map_eq_some_iff, Prod.mk.injEq]
  constructor
  · rintro ⟨⟨k, b⟩, hmem, _, hf, rfl, rfl⟩
    exact ⟨b, hmem, hf⟩
  · rintro ⟨b, hmem, hf⟩
    exact ⟨(key, b), hmem, value, hf, rfl, rfl⟩

/-! ## Sorted lists -/

/-- The elements in ascending order, each one once. -/
def sortedUnique (xs : List String) : List String := (Std.TreeSet.ofList xs).toList

@[simp] theorem mem_sortedUnique {xs : List String} {x : String} :
    x ∈ sortedUnique xs ↔ x ∈ xs := by
  rw [sortedUnique, Std.TreeSet.mem_toList, Std.TreeSet.mem_ofList, List.contains_iff_mem]

theorem pairwise_sortedUnique (xs : List String) :
    (sortedUnique xs).Pairwise fun a b => compare a b = .lt :=
  Std.TreeSet.ordered_toList

/-! ## Maps over keys -/

/-- The map of the keys of a list that a function is defined on. -/
def mapOfKeys (cmp : α → α → Ordering) (f : α → Option β) (keys : List α) :
    Std.TreeMap α β cmp :=
  .ofList (keys.filterMap fun key => (f key).map (key, ·)) cmp

theorem mem_entriesOfKeys {f : α → Option β} {keys : List α} {key : α} {value : β} :
    (key, value) ∈ keys.filterMap (fun key => (f key).map (key, ·)) ↔
      key ∈ keys ∧ f key = some value := by
  simp only [List.mem_filterMap, Option.map_eq_some_iff, Prod.mk.injEq]
  constructor
  · rintro ⟨_, hkey, _, hvalue, rfl, rfl⟩
    exact ⟨hkey, hvalue⟩
  · rintro ⟨hkey, hvalue⟩
    exact ⟨key, hkey, value, hvalue, rfl, rfl⟩

theorem getElem?_mapOfKeys [DecidableEq α] {f : α → Option β} {keys : List α}
    (hdistinct : keys.Pairwise fun a b => cmp a b ≠ .eq) {key : α} {value : β} :
    (mapOfKeys cmp f keys)[key]? = some value ↔ key ∈ keys ∧ f key = some value := by
  have hpairs : (keys.filterMap fun key => (f key).map (key, ·)).Pairwise
      fun a b => ¬ cmp a.1 b.1 = .eq := by
    apply List.pairwise_filterMap.mpr
    apply hdistinct.imp
    intro a b hne
    simp only [Option.map_eq_some_iff]
    rintro _ ⟨_, -, rfl⟩ _ ⟨_, -, rfl⟩
    exact hne
  have hget {v : β} (h : (key, v) ∈ keys.filterMap fun key => (f key).map (key, ·)) :
      (mapOfKeys cmp f keys)[key]? = some v :=
    Std.TreeMap.getElem?_ofList_of_mem Std.ReflCmp.compare_self hpairs h
  rw [← mem_entriesOfKeys]
  refine ⟨?_, hget⟩
  intro hsome
  have hkey : key ∈ mapOfKeys cmp f keys := (Std.TreeMap.getElem?_eq_some_iff.mp hsome).1
  rw [mapOfKeys, Std.TreeMap.mem_ofList, List.contains_iff_mem] at hkey
  obtain ⟨⟨k, v⟩, hin, rfl⟩ := List.mem_map.mp hkey
  obtain rfl := Option.some.inj ((hget hin).symm.trans hsome)
  exact hin

/-- An entry is kept when no other one of its key brings another value. -/
theorem getElem?_foldl_insert_of_mem {entries : List (α × β)} {m : Std.TreeMap α β cmp} {key : α}
    {value : β} (hmem : (key, value) ∈ entries) (hsame : ∀ v, (key, v) ∈ entries → v = value) :
    (entries.foldl (fun m entry => m.insert entry.1 entry.2) m)[key]? = some value := by
  induction entries using List.reverseRecOn with
  | nil => cases hmem
  | append_singleton entries entry ih =>
    rw [List.foldl_append, List.foldl_cons, List.foldl_nil, Std.TreeMap.getElem?_insert]
    split
    · rename_i heq
      have hentry : entry = (key, entry.2) := by rw [← Std.LawfulEqCmp.eq_of_compare heq]
      rw [hsame entry.2 (by simp [← hentry])]
    · rename_i hne
      apply ih
      · obtain hold | hlast := List.mem_append.mp hmem
        · exact hold
        · refine absurd ?_ hne
          rw [← List.mem_singleton.mp hlast]
          exact Std.ReflCmp.compare_self
      · intro v hv
        exact hsame v (List.mem_append_left _ hv)

/-- What is found was inserted, or was there before. -/
theorem mem_of_getElem?_foldl_insert {entries : List (α × β)} {m : Std.TreeMap α β cmp} {key : α}
    {value : β}
    (h : (entries.foldl (fun m entry => m.insert entry.1 entry.2) m)[key]? = some value) :
    (key, value) ∈ entries ∨ m[key]? = some value := by
  induction entries generalizing m with
  | nil => exact Or.inr h
  | cons entry entries ih =>
    rcases ih h with hmem | hfound
    · exact Or.inl (List.mem_cons_of_mem _ hmem)
    · rw [Std.TreeMap.getElem?_insert] at hfound
      split at hfound
      · rename_i heq
        obtain rfl := Std.LawfulEqCmp.eq_of_compare heq
        obtain rfl := Option.some.inj hfound
        exact Or.inl List.mem_cons_self
      · exact Or.inr hfound

/-! ## Collecting -/

/-- Add a value behind the values of its key. -/
def addValue (groups : Std.TreeMap α (List β) cmp) (entry : α × β) : Std.TreeMap α (List β) cmp :=
  groups.alter entry.1 fun values => some (values.getD [] ++ [entry.2])

/-- The values of each key, in the order of the entries. -/
def collect (cmp : α → α → Ordering) (entries : List (α × β)) : Std.TreeMap α (List β) cmp :=
  entries.foldl addValue ∅

theorem getElem?_addValue [DecidableEq α] (groups : Std.TreeMap α (List β) cmp) (entry : α × β)
    (key : α) : (addValue groups entry)[key]? =
      if entry.1 = key then some (groups[key]?.getD [] ++ [entry.2]) else groups[key]? := by
  simp only [addValue, Std.TreeMap.getElem?_alter, Std.LawfulEqCmp.compare_eq_iff_eq]
  split
  · rename_i heq
    rw [heq]
  · rfl

/-- The values that the entries of a key bring come behind those it has. -/
theorem getElem?_foldl_addValue [DecidableEq α] (entries : List (α × β))
    (groups : Std.TreeMap α (List β) cmp) (key : α) :
    (entries.foldl addValue groups)[key]? =
      if key ∈ entries.map Prod.fst then
        some (groups[key]?.getD [] ++ (entries.filter (·.1 = key)).map Prod.snd)
      else groups[key]? := by
  induction entries generalizing groups with
  | nil => simp
  | cons entry entries ih =>
    rw [List.foldl_cons, ih, getElem?_addValue]
    by_cases heq : entry.1 = key
    · subst heq
      by_cases hrest : entry.1 ∈ entries.map Prod.fst
      · simp [hrest]
      · have hnone : entries.filter (·.1 = entry.1) = [] := by
          apply List.filter_eq_nil_iff.mpr
          intro other hother hkey
          exact hrest (List.mem_map.mpr ⟨other, hother, of_decide_eq_true hkey⟩)
        simp [hrest, hnone]
    · have hkey : key ∈ (entry :: entries).map Prod.fst ↔ key ∈ entries.map Prod.fst := by
        rw [List.map_cons, List.mem_cons, or_iff_right (Ne.symm heq)]
      simp only [hkey, List.filter_cons, heq, decide_false, if_false, Bool.false_eq_true]

/-- A key has a value exactly when an entry brings it. -/
theorem mem_getD_collect [DecidableEq α] {entries : List (α × β)} {key : α} {value : β} :
    value ∈ (collect cmp entries)[key]?.getD [] ↔ (key, value) ∈ entries := by
  rw [collect, getElem?_foldl_addValue]
  split
  · simp
  · rename_i hnone
    have hnot : (key, value) ∉ entries := fun h => hnone (List.mem_map_of_mem h)
    simp [hnot]

theorem mem_collect [DecidableEq α] {entries : List (α × β)} {key : α} :
    key ∈ collect cmp entries ↔ ∃ value, (key, value) ∈ entries := by
  rw [Std.TreeMap.mem_iff_isSome_getElem?, collect, getElem?_foldl_addValue]
  split <;> simp_all

/-! ## Adding what is missing -/

/-- Add a value where its key has none. -/
def insertNew (m : Std.TreeMap α β cmp) (entry : α × β) : Std.TreeMap α β cmp :=
  if entry.1 ∈ m then m else m.insert entry.1 entry.2

theorem getElem?_insertNew [DecidableEq α] (m : Std.TreeMap α β cmp) (entry : α × β) (key : α) :
    (insertNew m entry)[key]? = m[key]?.or (if entry.1 = key then some entry.2 else none) := by
  unfold insertNew
  split
  · rename_i hmem
    split
    · rename_i heq
      obtain ⟨value, hvalue⟩ :=
        Option.isSome_iff_exists.mp (Std.TreeMap.mem_iff_isSome_getElem?.mp hmem)
      rw [← heq, hvalue]
      rfl
    · rw [Option.or_none]
  · rename_i hnone
    rw [Std.TreeMap.getElem?_insert]
    simp only [Std.LawfulEqCmp.compare_eq_iff_eq]
    split
    · rename_i heq
      rw [← heq, Std.TreeMap.getElem?_eq_none hnone, Option.none_or]
    · rw [Option.or_none]

theorem getElem?_foldl_insertNew [DecidableEq α] (entries : List (α × β))
    (m : Std.TreeMap α β cmp) (key : α) : (entries.foldl insertNew m)[key]? =
      m[key]?.or (entries.findSome? fun entry => if entry.1 = key then some entry.2 else none) := by
  induction entries generalizing m with
  | nil => simp
  | cons entry entries ih =>
    rw [List.foldl_cons, ih, getElem?_insertNew, List.findSome?_cons, Option.or_assoc]
    congr 1
    split
    · rfl
    · rfl

/-- A map gets the entries of another one whose keys it does not have. -/
theorem getElem?_foldl_insertNew_toList [DecidableEq α] (m added : Std.TreeMap α β cmp) (key : α) :
    (added.toList.foldl insertNew m)[key]? = m[key]?.or added[key]? := by
  rw [getElem?_foldl_insertNew]
  congr 1
  cases hkey : added[key]? with
  | none =>
    apply List.findSome?_eq_none_iff.mpr
    rintro ⟨k, value⟩ hmem
    have hvalue := Std.TreeMap.mem_toList_iff_getElem?_eq_some.mp hmem
    apply if_neg
    rintro rfl
    rw [hkey] at hvalue
    cases hvalue
  | some value =>
    have hmem := Std.TreeMap.mem_toList_iff_getElem?_eq_some.mpr hkey
    have hfound : (added.toList.findSome? fun entry =>
        if entry.1 = key then some entry.2 else none).isSome :=
      List.findSome?_isSome_iff.mpr ⟨(key, value), hmem, by simp⟩
    obtain ⟨other, hother⟩ := Option.isSome_iff_exists.mp hfound
    obtain ⟨⟨k, v⟩, hentry, hsome⟩ := List.exists_of_findSome?_eq_some hother
    dsimp only at hsome
    split at hsome
    · rename_i heq
      obtain rfl := Option.some.inj hsome
      have hvalue := Std.TreeMap.mem_toList_iff_getElem?_eq_some.mp hentry
      rw [heq, hkey] at hvalue
      rw [hother, hvalue]
    · cases hsome

/-! ## Updating entries -/

section Update

variable {γ ε : Type} (missing : α → ε) (update : α → γ → β → Except ε β)

/-- Update the value of one key, which must have one. -/
def updateEntry (m : Std.TreeMap α β cmp) (entry : α × γ) : Except ε (Std.TreeMap α β cmp) := do
  let value ← okOr m[entry.1]? (missing entry.1)
  return m.insert entry.1 (← update entry.1 entry.2 value)

def updateAll (m : Std.TreeMap α β cmp) (entries : List (α × γ)) :
    Except ε (Std.TreeMap α β cmp) :=
  entries.foldlM (updateEntry missing update) m

variable {missing update} {m updated : Std.TreeMap α β cmp} {entries : List (α × γ)} {key : α}

omit [Std.TransCmp cmp] [Std.LawfulEqCmp cmp] in
theorem updateEntry_eq_ok {entry : α × γ} :
    updateEntry missing update m entry = .ok updated ↔ ∃ old new, m[entry.1]? = some old ∧
      update entry.1 entry.2 old = .ok new ∧ m.insert entry.1 new = updated := by
  simp only [updateEntry, bind_eq_ok, okOr_eq_ok]
  constructor
  · rintro ⟨old, hold, new, hnew, h⟩
    exact ⟨old, new, hold, hnew, Except.ok.inj h⟩
  · rintro ⟨old, new, hold, hnew, rfl⟩
    exact ⟨old, hold, new, hnew, rfl⟩

theorem getElem?_updateAll_of_notMem [DecidableEq α]
    (h : updateAll missing update m entries = .ok updated)
    (hkey : ∀ x, (key, x) ∉ entries) : updated[key]? = m[key]? := by
  induction entries generalizing m with
  | nil =>
    obtain rfl := Except.ok.inj h
    rfl
  | cons entry entries ih =>
    obtain ⟨next, hnext, hrest⟩ := bind_eq_ok.mp h
    obtain ⟨old, new, -, -, rfl⟩ := updateEntry_eq_ok.mp hnext
    rw [ih hrest fun x hx => hkey x (List.mem_cons_of_mem _ hx), Std.TreeMap.getElem?_insert,
      if_neg]
    intro heq
    have hfirst : entry = (key, entry.2) := by
      rw [← Std.LawfulEqCmp.eq_of_compare heq]
    exact hkey entry.2 (hfirst ▸ List.mem_cons_self)

/-- Every entry updates the value that its key had at the start. -/
theorem getElem?_updateAll_of_mem [DecidableEq α]
    (hdistinct : entries.Pairwise fun a b => cmp a.1 b.1 ≠ .eq)
    (h : updateAll missing update m entries = .ok updated) {x : γ} (hx : (key, x) ∈ entries) :
    ∃ old new, m[key]? = some old ∧ update key x old = .ok new ∧ updated[key]? = some new := by
  induction entries generalizing m with
  | nil => cases hx
  | cons entry entries ih =>
    obtain ⟨hfirst, hdistinct⟩ := List.pairwise_cons.mp hdistinct
    obtain ⟨next, hnext, hrest⟩ := bind_eq_ok.mp h
    obtain ⟨old, new, hold, hnew, rfl⟩ := updateEntry_eq_ok.mp hnext
    obtain rfl | hlater := List.mem_cons.mp hx
    · refine ⟨old, new, hold, hnew, ?_⟩
      rw [getElem?_updateAll_of_notMem hrest, Std.TreeMap.getElem?_insert_self]
      intro y hy
      exact hfirst _ hy Std.ReflCmp.compare_self
    · obtain ⟨old', new', hold', hnew', hupdated⟩ := ih hdistinct hrest hlater
      refine ⟨old', new', ?_, hnew', hupdated⟩
      rwa [Std.TreeMap.getElem?_insert, if_neg (hfirst _ hlater)] at hold'

omit [Std.LawfulEqCmp cmp] in
theorem exists_updateAll [DecidableEq α]
    (hdistinct : entries.Pairwise fun a b => cmp a.1 b.1 ≠ .eq)
    (h : ∀ entry ∈ entries, ∃ old new, m[entry.1]? = some old ∧
      update entry.1 entry.2 old = .ok new) :
    ∃ updated, updateAll missing update m entries = .ok updated := by
  induction entries generalizing m with
  | nil => exact ⟨m, rfl⟩
  | cons entry entries ih =>
    obtain ⟨hfirst, hdistinct⟩ := List.pairwise_cons.mp hdistinct
    obtain ⟨old, new, hold, hnew⟩ := h entry List.mem_cons_self
    obtain ⟨updated, hupdated⟩ := ih (m := m.insert entry.1 new) hdistinct (by
      intro other hother
      obtain ⟨old, new, hold, hnew⟩ := h other (List.mem_cons_of_mem _ hother)
      refine ⟨old, new, ?_, hnew⟩
      rw [Std.TreeMap.getElem?_insert, if_neg (hfirst other hother), hold])
    exact ⟨updated, bind_eq_ok.mpr ⟨_, updateEntry_eq_ok.mpr ⟨old, new, hold, hnew, rfl⟩, hupdated⟩⟩

end Update

/-! ## All values -/

omit [Std.TransCmp cmp] [Std.LawfulEqCmp cmp] in
/-- Values may be reordered under their keys. -/
theorem perm_flatten_values_map (groups : Std.TreeMap α (List β) cmp) {f : List β → List β}
    (hf : ∀ values, (f values).Perm values) :
    (groups.map fun _ => f).values.flatten.Perm groups.values.flatten := by
  have hall (lists : List (List β)) : (lists.map f).flatten.Perm lists.flatten := by
    induction lists with
    | nil => exact .refl _
    | cons values lists ih => exact (hf values).append ih
  rw [values_eq_map_toList, values_eq_map_toList, Std.TreeMap.toList_map, List.map_map,
    show Prod.snd ∘ (fun entry : α × List β => (entry.1, f entry.2)) = f ∘ Prod.snd from rfl,
    ← List.map_map]
  exact hall _

section Flatten

variable [BEq α] [LawfulBEq α]

theorem perm_flatten_values_insert (groups : Std.TreeMap α (List β) cmp) (key : α)
    (values : List β) : (groups.insert key values).values.flatten.Perm
      (values ++ ((groups.toList.filter fun entry => !(key == entry.1)).map Prod.snd).flatten) := by
  have hinsert : (groups.insert key values).toList.Perm
      ((key, values) :: groups.toList.filter (¬ key == ·.1)) := Std.TreeMap.toList_insert_perm
  rw [values_eq_map_toList]
  simpa using (hinsert.map Prod.snd).flatten

/-- The values of one key, and those of all others. -/
theorem perm_flatten_values (groups : Std.TreeMap α (List β) cmp) (key : α) :
    groups.values.flatten.Perm (groups[key]?.getD [] ++
      ((groups.toList.filter fun entry => !(key == entry.1)).map Prod.snd).flatten) := by
  cases hkey : groups[key]? with
  | none =>
    have hall : groups.toList.filter (fun entry => !(key == entry.1)) = groups.toList := by
      apply List.filter_eq_self.mpr
      rintro ⟨k, values⟩ hmem
      have hk := Std.TreeMap.mem_toList_iff_getElem?_eq_some.mp hmem
      simp only [Bool.not_eq_true', beq_eq_false_iff_ne]
      rintro rfl
      rw [hkey] at hk
      cases hk
    rw [hall, ← values_eq_map_toList]
    exact .refl _
  | some values =>
    have hsame : (groups.insert key values).toList = groups.toList := by
      apply toList_eq_iff.mpr
      intro k
      rw [Std.TreeMap.getElem?_insert]
      split
      · rename_i heq
        rw [← Std.LawfulEqCmp.eq_of_compare heq, hkey]
      · rfl
    have hperm := perm_flatten_values_insert groups key values
    rwa [values_eq_map_toList, hsame, ← values_eq_map_toList] at hperm

theorem perm_flatten_values_addValue [DecidableEq α] (groups : Std.TreeMap α (List β) cmp)
    (entry : α × β) :
    (addValue groups entry).values.flatten.Perm (groups.values.flatten ++ [entry.2]) := by
  have hinsert : (addValue groups entry).toList =
      (groups.insert entry.1 (groups[entry.1]?.getD [] ++ [entry.2])).toList := by
    apply toList_eq_iff.mpr
    intro k
    rw [getElem?_addValue, Std.TreeMap.getElem?_insert]
    simp only [Std.LawfulEqCmp.compare_eq_iff_eq]
    split
    · rename_i heq
      rw [heq]
    · rfl
  have hnew := perm_flatten_values_insert groups entry.1 (groups[entry.1]?.getD [] ++ [entry.2])
  rw [values_eq_map_toList, ← hinsert, ← values_eq_map_toList] at hnew
  have hold := (perm_flatten_values groups entry.1).append_right [entry.2]
  refine hnew.trans (.trans ?_ hold.symm)
  simp only [List.append_assoc]
  exact List.perm_append_comm.append_left _

/-- All values of the collected entries are their values. -/
theorem perm_flatten_values_collect [DecidableEq α] (entries : List (α × β)) :
    (collect cmp entries).values.flatten.Perm (entries.map Prod.snd) := by
  induction entries using List.reverseRecOn with
  | nil => exact .refl _
  | append_singleton entries entry ih =>
    rw [collect, List.foldl_append, List.map_append]
    exact (perm_flatten_values_addValue _ entry).trans (ih.append_right _)

end Flatten

end Dryer.Library
