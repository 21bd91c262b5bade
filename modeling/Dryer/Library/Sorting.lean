import Mathlib.Data.List.Sort

/-!
# Sorting by a key

The sort is stable: elements with the same key stay in the order in which they came. So the result
tells that order wherever two different elements have one key, and only there.
-/
namespace Dryer.Library

variable {α κ : Type} [LinearOrder κ] {key : α → κ}

/-- In the order of the keys. -/
def sortBy (key : α → κ) (l : List α) : List α := l.insertionSort fun a b => key a ≤ key b

theorem perm_sortBy (l : List α) : (sortBy key l).Perm l := List.perm_insertionSort _ l

@[simp] theorem mem_sortBy {l : List α} {a : α} : a ∈ sortBy key l ↔ a ∈ l :=
  (perm_sortBy l).mem_iff

theorem pairwise_sortBy (l : List α) : (sortBy key l).Pairwise fun a b => key a ≤ key b := by
  have : Std.Total fun a b : α => key a ≤ key b := ⟨fun a b => le_total (key a) (key b)⟩
  have : IsTrans α fun a b => key a ≤ key b := ⟨fun _ _ _ => le_trans⟩
  exact List.pairwise_insertionSort _ l

/-- The elements of one key, in their order. -/
theorem filter_sortBy (l : List α) (k : κ) :
    (sortBy key l).filter (fun a => key a = k) = l.filter fun a => key a = k := by
  have hsame : (l.filter fun a => key a = k).Pairwise fun a b => key a ≤ key b := by
    rw [List.pairwise_filter]
    refine List.Pairwise.imp ?_ (List.pairwise_of_forall fun _ _ => trivial)
    intro a b _ ha hb
    rw [of_decide_eq_true ha, of_decide_eq_true hb]
  have hsub : (l.filter fun a => key a = k).Sublist (sortBy key l) :=
    List.sublist_insertionSort hsame List.filter_sublist
  have hfilter := hsub.filter fun a => decide (key a = k)
  rw [List.filter_filter] at hfilter
  simp only [Bool.and_self] at hfilter
  exact (hfilter.eq_of_length ((perm_sortBy l).filter _).length_eq.symm).symm

/-- Where the key tells the elements apart, the order in which they came is lost. -/
theorem sortBy_eq_of_perm {l l' : List α} (hperm : l.Perm l')
    (hkey : ∀ a ∈ l, ∀ b ∈ l, key a = key b → a = b) : sortBy key l = sortBy key l' := by
  refine List.Perm.eq_of_pairwise ?_ (pairwise_sortBy l) (pairwise_sortBy l')
    ((perm_sortBy l).trans (hperm.trans (perm_sortBy l').symm))
  intro a b ha hb hab hba
  exact hkey a (mem_sortBy.mp ha) b (hperm.mem_iff.mpr (mem_sortBy.mp hb)) (le_antisymm hab hba)

/-- Two elements of one key that can change places without a change of the result. -/
theorem eq_of_sortBy_swap {a b : α} {l : List α} (hkey : key a = key b)
    (h : sortBy key (a :: b :: l) = sortBy key (b :: a :: l)) : a = b := by
  have hfilter := congrArg (List.filter fun c => decide (key c = key b)) h
  rw [filter_sortBy, filter_sortBy] at hfilter
  simp only [List.filter_cons, hkey, decide_true, if_true, List.cons.injEq] at hfilter
  exact hfilter.1

end Dryer.Library
