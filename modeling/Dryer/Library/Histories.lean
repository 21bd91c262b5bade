import Mathlib.Data.List.Basic
import Mathlib.Order.Lattice

/-!
# Histories

Lists in the order of a key, such as the time of an event. Two of them agree on every key below
the one where they first differ, and not on that.
-/
namespace Dryer.Library

variable {α κ : Type} [LinearOrder κ] {key : α → κ}

/-- Nothing in a history has a key before its first. -/
theorem filter_eq_nil_of_lt {xs : List α} (hxs : xs.Pairwise fun a b => key a ≤ key b) {k : κ}
    (hfirst : ∀ x ∈ xs.head?, k < key x) : xs.filter (key · = k) = [] := by
  cases xs with
  | nil => rfl
  | cons x xs =>
    have hlt : k < key x := hfirst x rfl
    refine List.filter_eq_nil_iff.mpr (List.forall_mem_cons.mpr ⟨by simp [hlt.ne'], ?_⟩)
    intro y hy
    have hle := List.rel_of_pairwise_cons hxs hy
    simp [(hlt.trans_le hle).ne']

/-- What comes up to a key is a prefix of a history. -/
theorem filter_append_filter_not {xs : List α} (hxs : xs.Pairwise fun a b => key a ≤ key b)
    (k : κ) : xs.filter (key · ≤ k) ++ xs.filter (¬ key · ≤ k) = xs := by
  induction xs with
  | nil => rfl
  | cons x xs ih =>
    obtain ⟨hx, hxs⟩ := List.pairwise_cons.mp hxs
    by_cases hle : key x ≤ k
    · simpa [hle] using ih hxs
    · have hnone : xs.filter (key · ≤ k) = [] :=
        List.filter_eq_nil_iff.mpr fun y hy => by simpa using (not_le.mp hle).trans_le (hx y hy)
      have hall : xs.filter (¬ key · ≤ k) = xs := by simpa [hnone] using ih hxs
      rw [List.filter_cons_of_neg (by simpa using hle),
        List.filter_cons_of_pos (by simpa using hle),
        hnone, hall, List.nil_append]

/-- Two histories that begin with different elements differ at the earlier of the two keys. -/
theorem filter_ne_of_head_ne {xs ys : List α} (hys : ys.Pairwise fun a b => key a ≤ key b) {x : α}
    (hx : xs.head? = some x) (hfirst : ∀ y ∈ ys.head?, key x ≤ key y) (hne : ys.head? ≠ some x) :
    xs.filter (key · = key x) ≠ ys.filter (key · = key x) := by
  obtain ⟨later, rfl⟩ : ∃ later, xs = x :: later := List.head?_eq_some_iff.mp hx
  rw [List.filter_cons_of_pos (by simp)]
  cases ys with
  | nil => simp
  | cons y ys =>
    have hle : key x ≤ key y := hfirst y rfl
    obtain heq | hlt := hle.eq_or_lt
    · rw [List.filter_cons_of_pos (by simp [heq])]
      rintro h
      obtain ⟨rfl, -⟩ := List.cons.inj h
      exact hne rfl
    · rw [filter_eq_nil_of_lt hys (by simpa using hlt)]
      exact List.cons_ne_nil _ _

/-- Two histories with a common prefix of a length, where one has an element that is not at that
place in the other and whose key is not after the key there: they first differ at its key. -/
theorem first_difference {xs ys : List α} (hxs : xs.Pairwise fun a b => key a ≤ key b)
    (hys : ys.Pairwise fun a b => key a ≤ key b) {n : ℕ} (htake : xs.take n = ys.take n) {x : α}
    (hx : xs[n]? = some x) (hfirst : ∀ y ∈ ys[n]?, key x ≤ key y) (hne : ys[n]? ≠ some x) :
    xs.filter (key · = key x) ≠ ys.filter (key · = key x) ∧
      ∀ k < key x, xs.filter (key · = k) = ys.filter (key · = k) := by
  rw [← List.head?_drop] at hx hfirst hne
  have hsplit (k : κ) (zs : List α) : zs.filter (key · = k) =
      (zs.take n).filter (key · = k) ++ (zs.drop n).filter (key · = k) := by
    rw [← List.filter_append, List.take_append_drop]
  constructor
  · rw [hsplit _ xs, hsplit _ ys, htake]
    intro h
    exact filter_ne_of_head_ne (hys.sublist (List.drop_sublist n ys)) hx hfirst hne
      (List.append_cancel_left h)
  · intro k hk
    rw [hsplit k xs, hsplit k ys, htake,
      filter_eq_nil_of_lt (hxs.sublist (List.drop_sublist n xs)) (by simpa [hx] using hk),
      filter_eq_nil_of_lt (hys.sublist (List.drop_sublist n ys))
        fun y hy => hk.trans_le (hfirst y hy)]

end Dryer.Library
