import Dryer.Library.OrderedMaps

/-!
# Results by key

A computation that can fail, run for every key of a list. The first failure ends the run, and the
results of a run without one make a map.
-/
namespace Dryer.Library

variable {ε α β γ : Type} {cmp : α → α → Ordering} {f : α → Except ε β} {keys : List α}

/-- The results by key, or the first error. -/
def resultsByKey (cmp : α → α → Ordering) (f : α → Except ε β) (keys : List α) :
    Except ε (Std.TreeMap α β cmp) := do
  let entries ← keys.mapM fun key => do
    let result ← f key
    return (key, result)
  return .ofList entries cmp

theorem entriesByKey_eq_ok {entries : List (α × β)} :
    (keys.mapM fun key => do
      let result ← f key
      return (key, result)) = .ok entries ↔
      (∀ key ∈ keys, ∃ result, f key = .ok result) ∧
      entries = keys.filterMap fun key => (f key).toOption.map (key, ·) := by
  induction keys generalizing entries with
  | nil => simp [pure, Except.pure, eq_comm]
  | cons key keys ih =>
    rw [List.mapM_cons, bind_eq_ok, List.forall_mem_cons, List.filterMap_cons]
    constructor
    · rintro ⟨entry, hentry, hrest⟩
      obtain ⟨result, hresult, hentry⟩ := bind_eq_ok.mp hentry
      obtain ⟨rest, hentries, h⟩ := bind_eq_ok.mp hrest
      obtain rfl := Except.ok.inj hentry
      obtain rfl := Except.ok.inj h
      obtain ⟨hall, rfl⟩ := ih.mp hentries
      refine ⟨⟨⟨result, hresult⟩, hall⟩, ?_⟩
      rw [hresult]
      rfl
    · rintro ⟨⟨⟨result, hresult⟩, hall⟩, rfl⟩
      rw [hresult]
      exact ⟨(key, result), rfl, bind_eq_ok.mpr ⟨_, ih.mpr ⟨hall, rfl⟩, rfl⟩⟩

/-- A run goes through when no key fails, and has the results of all keys. -/
theorem resultsByKey_eq_ok {results : Std.TreeMap α β cmp} :
    resultsByKey cmp f keys = .ok results ↔
      (∀ key ∈ keys, ∃ result, f key = .ok result) ∧
      results = mapOfKeys cmp (fun key => (f key).toOption) keys := by
  rw [resultsByKey, bind_eq_ok]
  constructor
  · rintro ⟨entries, hentries, h⟩
    obtain ⟨hall, rfl⟩ := entriesByKey_eq_ok.mp hentries
    exact ⟨hall, (Except.ok.inj h).symm⟩
  · rintro ⟨hall, rfl⟩
    exact ⟨_, entriesByKey_eq_ok.mpr ⟨hall, rfl⟩, rfl⟩

variable {δ : Type} {m : Std.TreeMap α γ cmp} {n : Std.TreeMap α δ cmp} {key : α}

theorem mem_iff_of_rel [Std.TransCmp cmp] {R : γ → δ → Prop} (h : Option.Rel R m[key]? n[key]?) :
    key ∈ m ↔ key ∈ n := by
  rw [Std.TreeMap.mem_iff_isSome_getElem?, Std.TreeMap.mem_iff_isSome_getElem?]
  generalize m[key]? = value at h ⊢
  generalize n[key]? = value' at h ⊢
  cases h with
  | none => rfl
  | some _ => rfl

/-- A run over the keys of a map puts a result beside each value of a map with the same keys. -/
theorem exists_resultsByKey [Std.TransCmp cmp] [Std.LawfulEqCmp cmp] [DecidableEq α]
    {R : α → δ → β → Prop}
    (hsame : ∀ key : α, key ∈ m ↔ key ∈ n)
    (h : ∀ (key : α) value, n[key]? = some value →
      ∃ result, f key = .ok result ∧ R key value result) :
    ∃ results, resultsByKey cmp f m.keys = .ok results ∧
      ∀ key : α, Option.Rel (R key) n[key]? results[key]? := by
  have hall : ∀ key ∈ m.keys, ∃ result, f key = .ok result := by
    intro key hkey
    obtain ⟨value, hvalue⟩ := Option.isSome_iff_exists.mp
      (Std.TreeMap.mem_iff_isSome_getElem?.mp ((hsame key).mp (Std.TreeMap.mem_keys.mp hkey)))
    obtain ⟨result, hresult, -⟩ := h key value hvalue
    exact ⟨result, hresult⟩
  have hdistinct : m.keys.Pairwise fun a b => cmp a b ≠ .eq := Std.TreeMap.distinct_keys
  refine ⟨_, resultsByKey_eq_ok.mpr ⟨hall, rfl⟩, ?_⟩
  intro key
  cases hvalue : n[key]? with
  | none =>
    have hnone : (mapOfKeys cmp (fun key => (f key).toOption) m.keys)[key]? = none := by
      rw [Option.eq_none_iff_forall_ne_some]
      intro result hresult
      obtain ⟨hkey, -⟩ := (getElem?_mapOfKeys hdistinct).mp hresult
      rw [Std.TreeMap.mem_keys, hsame, Std.TreeMap.mem_iff_isSome_getElem?, hvalue] at hkey
      cases hkey
    rw [hnone]
    exact .none
  | some value =>
    obtain ⟨result, hresult, hrel⟩ := h key value hvalue
    have hkey : key ∈ m := (hsame key).mpr
      (Std.TreeMap.mem_iff_isSome_getElem?.mpr (Option.isSome_of_eq_some hvalue))
    have hfound : (mapOfKeys cmp (fun key => (f key).toOption) m.keys)[key]? = some result :=
      (getElem?_mapOfKeys hdistinct).mpr ⟨Std.TreeMap.mem_keys.mpr hkey, by rw [hresult]; rfl⟩
    rw [hfound]
    exact .some hrel

end Dryer.Library
