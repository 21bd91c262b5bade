import Dryer.Library.Machine

/-!
# Components of a machine

A system whose inputs are each addressed to one of its parts. What a run of the system does to a
part is what the part does on its own inputs.
-/
namespace Dryer.Library

/-- A machine as a part of a larger one: which inputs and outputs of the system are its own, and
when a state of the system contains a state of the part. -/
structure Component {σ ι ο τ κ γ : Type} (M : Machine σ ι ο) (N : Machine τ κ γ) where
  input : ι → Option κ
  output : ο → Option γ
  contains : σ → τ → Prop
  mine : ∀ s t i j, contains s t → input i = some j →
    contains (M.step s i).1 (N.step t j).1 ∧ (M.step s i).2.filterMap output = (N.step t j).2
  others : ∀ s t i, contains s t → input i = none →
    contains (M.step s i).1 t ∧ (M.step s i).2.filterMap output = []

namespace Component

variable {σ ι ο τ κ γ : Type} {M : Machine σ ι ο} {N : Machine τ κ γ} (part : Component M N)
  {s : σ} {t : τ}

/-- A run of the system is, for a part, a run on the inputs of the part. -/
theorem run (h : part.contains s t) (is : List ι) :
    part.contains (M.run s is).1 (N.run t (is.filterMap part.input)).1 ∧
      (M.run s is).2.filterMap part.output = (N.run t (is.filterMap part.input)).2 := by
  induction is generalizing s t with
  | nil => exact ⟨h, rfl⟩
  | cons i is ih =>
    cases hinput : part.input i with
    | none =>
      obtain ⟨hnext, hout⟩ := part.others s t i h hinput
      simpa [hinput, hout] using ih hnext
    | some j =>
      obtain ⟨hnext, hout⟩ := part.mine s t i j h hinput
      simpa [hinput, hout] using ih hnext

/-- A condition on the steps of a part, from one on the steps of the system. -/
theorem along {C : σ → ι → Prop} {D : τ → κ → Prop}
    (hC : ∀ s t i j, part.contains s t → part.input i = some j → C s i → D t j)
    (h : part.contains s t) {is : List ι} (hAlong : M.Along C s is) :
    N.Along D t (is.filterMap part.input) := by
  induction is generalizing s t with
  | nil => trivial
  | cons i is ih =>
    cases hinput : part.input i with
    | none =>
      rw [List.filterMap_cons_none hinput]
      exact ih (part.others s t i h hinput).1 hAlong.2
    | some j =>
      rw [List.filterMap_cons_some hinput]
      exact ⟨hC s t i j h hinput hAlong.1, ih (part.mine s t i j h hinput).1 hAlong.2⟩

end Component

end Dryer.Library
