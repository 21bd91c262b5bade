import Mathlib.Data.List.Basic
import Mathlib.Data.List.Infix
import Mathlib.Order.Bounds.Basic

/-!
# Lists

Updating the first element that satisfies a predicate, choosing an element by a fold, and
taking a list apart at its last element, which is the greatest of an ascending list.
-/
namespace Dryer.Library

variable {α β : Type}

/-- A last element is the one that is looked for, or comes after it. -/
theorem append_singleton_cases {before later trace : List α} {last found : α}
    (h : trace ++ [last] = before ++ found :: later) :
    (trace = before ∧ last = found ∧ later = []) ∨
      ∃ later', trace = before ++ found :: later' ∧ later = later' ++ [last] := by
  obtain rfl | ⟨later', last', rfl⟩ := List.eq_nil_or_concat later
  · obtain ⟨rfl, hlast⟩ := List.append_inj' h rfl
    exact .inl ⟨rfl, List.singleton_inj.mp hlast, rfl⟩
  · rw [List.concat_eq_append, ← List.cons_append, ← List.append_assoc] at h
    obtain ⟨rfl, hlast⟩ := List.append_inj' h rfl
    refine .inr ⟨later', rfl, ?_⟩
    rw [List.concat_eq_append, List.singleton_inj.mp hlast]

theorem getLast?_filterMap_append (f : α → Option β) (xs : List α) (x : α) :
    ((xs ++ [x]).filterMap f).getLast? = (f x).orElse fun _ => (xs.filterMap f).getLast? := by
  rw [List.filterMap_append]
  cases hx : f x <;> simp [hx]

/-- The last element of an ascending list is its greatest. -/
theorem getLast?_eq_some_iff_isGreatest [PartialOrder α] {l : List α}
    (hsorted : l.Pairwise (· ≤ ·)) {a : α} : l.getLast? = some a ↔ IsGreatest {x | x ∈ l} a := by
  have hlast {b : α} (h : l.getLast? = some b) : IsGreatest {x | x ∈ l} b := by
    obtain ⟨front, rfl⟩ := List.getLast?_eq_some_iff.mp h
    refine ⟨by simp, fun x hx => ?_⟩
    obtain hx | rfl := List.mem_append.mp hx |>.imp_right List.mem_singleton.mp
    · exact (List.pairwise_append.mp hsorted).2.2 x hx b (by simp)
    · exact le_rfl
  refine ⟨hlast, fun h => ?_⟩
  have hb := List.getLast?_eq_some_getLast (List.ne_nil_of_mem h.1)
  rw [hb, (hlast hb).unique h]

/-- A fold that keeps one of its two arguments in every step ends with an element. -/
theorem foldl_mem_cons {f : α → α → α} (h : ∀ x y, f x y = x ∨ f x y = y) (x : α) (xs : List α) :
    xs.foldl f x ∈ x :: xs := by
  induction xs generalizing x with
  | nil => exact .head _
  | cons y ys ih =>
    rw [List.foldl_cons]
    obtain hfirst | hsecond := h x y
    · rw [hfirst]
      exact List.cons_subset_cons x (List.subset_cons_self y ys) (ih x)
    · rw [hsecond]
      exact .tail x (ih y)

/-- A fold that keeps the less of its two arguments ends with a least element. -/
theorem foldl_min_le {κ : Type} [LinearOrder κ] {r : α → α → Prop} [DecidableRel r] {key : α → κ}
    (hr : ∀ x y, r x y ↔ key x < key y) (x : α) (xs : List α) :
    ∀ y ∈ x :: xs, key (xs.foldl (fun best y => if r y best then y else best) x) ≤ key y := by
  induction xs generalizing x with
  | nil => exact List.forall_mem_singleton.mpr le_rfl
  | cons z zs ih =>
    rw [List.foldl_cons]
    obtain ⟨hbest, hrest⟩ := List.forall_mem_cons.mp (ih (if r z x then z else x))
    have hboth : key (if r z x then z else x) ≤ key x ∧ key (if r z x then z else x) ≤ key z := by
      split
      · rename_i hless
        exact ⟨((hr z x).mp hless).le, le_rfl⟩
      · rename_i hnot
        exact ⟨le_rfl, not_lt.mp (mt (hr z x).mpr hnot)⟩
    exact List.forall_mem_cons.mpr ⟨hbest.trans hboth.1,
      List.forall_mem_cons.mpr ⟨hbest.trans hboth.2, hrest⟩⟩

/-- Either no element of a list satisfies a predicate, or there is a first one that does. -/
theorem forall_not_or_first (P : α → Prop) (xs : List α) :
    (∀ x ∈ xs, ¬ P x) ∨
      ∃ before x after, xs = before ++ x :: after ∧ P x ∧ ∀ y ∈ before, ¬ P y := by
  induction xs with
  | nil => exact .inl nofun
  | cons x xs ih =>
    by_cases hx : P x
    · exact .inr ⟨[], x, xs, rfl, hx, nofun⟩
    · obtain hnone | ⟨before, y, after, rfl, hy, hbefore⟩ := ih
      · exact .inl (List.forall_mem_cons.mpr ⟨hx, hnone⟩)
      · exact .inr ⟨x :: before, y, after, rfl, hy, List.forall_mem_cons.mpr ⟨hx, hbefore⟩⟩

/-! ## Partial maps -/

section MapM

variable {f : α → Option β} {xs : List α}

/-- A partial map that is defined on all elements. -/
theorem exists_mapM_eq_some {P : β → Prop} (h : ∀ x ∈ xs, ∃ y, f x = some y ∧ P y) :
    ∃ ys, xs.mapM f = some ys ∧ ∀ y ∈ ys, P y := by
  induction xs with
  | nil => exact ⟨[], rfl, List.forall_mem_nil P⟩
  | cons x xs ih =>
    obtain ⟨⟨y, hy, hPy⟩, hrest⟩ := List.forall_mem_cons.mp h
    obtain ⟨ys, hys, hP⟩ := ih hrest
    exact ⟨y :: ys, by simp [hy, hys], List.forall_mem_cons.mpr ⟨hPy, hP⟩⟩

theorem eq_map_of_mapM_eq_some {g : α → β} {ys : List β} (h : xs.mapM f = some ys)
    (hg : ∀ x y, f x = some y → g x = y) : xs.map g = ys := by
  induction xs generalizing ys with
  | nil =>
    obtain rfl := Option.some.inj h
    rfl
  | cons x xs ih =>
    rw [List.mapM_cons] at h
    obtain ⟨y, hy, hrest⟩ := Option.bind_eq_some_iff.mp h
    obtain ⟨later, hlater, hys⟩ := Option.bind_eq_some_iff.mp hrest
    obtain rfl := Option.some.inj hys
    rw [List.map_cons, hg x y hy, ih hlater]

theorem exists_of_mapM_eq_some {ys : List β} (h : xs.mapM f = some ys) :
    ∀ x ∈ xs, ∃ y, f x = some y := by
  induction xs generalizing ys with
  | nil => exact List.forall_mem_nil _
  | cons x xs ih =>
    rw [List.mapM_cons] at h
    obtain ⟨y, hy, hrest⟩ := Option.bind_eq_some_iff.mp h
    obtain ⟨later, hlater, -⟩ := Option.bind_eq_some_iff.mp hrest
    exact List.forall_mem_cons.mpr ⟨⟨y, hy⟩, ih hlater⟩

end MapM

/-! ## The first that satisfies a predicate -/

/-- Update the first element that satisfies `p`. -/
def modifyFirst (p : α → Bool) (f : α → α) : List α → List α
  | [] => []
  | x :: xs => if p x then f x :: xs else x :: modifyFirst p f xs

section ModifyFirst

variable {p : α → Bool} {f : α → α}

theorem mem_modifyFirst {xs : List α} {x : α} (h : x ∈ modifyFirst p f xs) :
    x ∈ xs ∨ ∃ y, xs.find? p = some y ∧ x = f y := by
  induction xs with
  | nil => exact Or.inl h
  | cons y xs ih =>
    rw [modifyFirst] at h
    by_cases hy : p y
    · rw [if_pos hy] at h
      obtain rfl | hx := List.mem_cons.mp h
      · exact Or.inr ⟨y, List.find?_cons_of_pos hy, rfl⟩
      · exact Or.inl (List.mem_cons_of_mem y hx)
    · rw [if_neg hy] at h
      obtain rfl | hx := List.mem_cons.mp h
      · exact Or.inl List.mem_cons_self
      · obtain hin | ⟨z, hz, hxz⟩ := ih hx
        · exact Or.inl (List.mem_cons_of_mem y hin)
        · exact Or.inr ⟨z, by rw [List.find?_cons_of_neg hy, hz], hxz⟩

theorem modifyFirst_of_find?_eq_none {xs : List α} (h : xs.find? p = none) :
    modifyFirst p f xs = xs := by
  induction xs with
  | nil => rfl
  | cons x xs ih =>
    rw [List.find?_eq_none] at h
    rw [modifyFirst, if_neg (h x List.mem_cons_self), ih]
    exact List.find?_eq_none.mpr fun y hy => h y (List.mem_cons_of_mem _ hy)

theorem find?_modifyFirst_self (h : ∀ x, p (f x) = p x) (xs : List α) :
    (modifyFirst p f xs).find? p = (xs.find? p).map f := by
  induction xs with
  | nil => rfl
  | cons x xs ih =>
    rw [modifyFirst]
    by_cases hx : p x
    · simp [hx, h]
    · simp [hx, ih]

theorem find?_modifyFirst_of_disjoint {q : α → Bool} (h : ∀ x, q (f x) = q x)
    (hpq : ∀ x, p x → q x = false) (xs : List α) :
    (modifyFirst p f xs).find? q = xs.find? q := by
  induction xs with
  | nil => rfl
  | cons x xs ih =>
    rw [modifyFirst]
    by_cases hx : p x
    · simp [hx, h, hpq x hx]
    · simp [hx, List.find?_cons, ih]

end ModifyFirst

end Dryer.Library
