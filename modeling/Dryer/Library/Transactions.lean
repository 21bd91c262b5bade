import Mathlib.Init

/-!
# Transactions

An action that changes a state in place leaves it half changed where it fails. Run on a copy of
the state it changes everything or nothing, and is a function from states to a result.
-/
namespace Dryer.Library

/-- An action that changes a state in place, up to where it fails. -/
abbrev InPlace (σ ε α : Type) := ExceptT ε (StateM σ) α

namespace InPlace

variable {σ ε α β : Type} {m : InPlace σ ε α} {f g : σ → Except ε (α × σ)}

/-- Run an action on a copy of the state, which replaces the state when the action succeeds. -/
def onCopy (m : InPlace σ ε α) (s : σ) : Except ε α × σ :=
  match m.run.run s with
  | (.error e, _) => (.error e, s)
  | (.ok x, copy) => (.ok x, copy)

/-- The value or error of a function, and its state where it has one. -/
def Computes (m : InPlace σ ε α) (f : σ → Except ε (α × σ)) : Prop :=
  ∀ s, match f s with
    | .error e => (m.run.run s).1 = .error e
    | .ok (x, t) => m.run.run s = (.ok x, t)

/-- A result that does not depend on the state. -/
def check (r : Except ε α) : InPlace σ ε α := ExceptT.mk (pure r)

theorem onCopy_eq (h : m.Computes f) (s : σ) :
    m.onCopy s = match f s with
      | .error e => (.error e, s)
      | .ok (x, t) => (.ok x, t) := by
  have hs := h s
  unfold onCopy
  split at hs
  · rename_i e _
    generalize m.run.run s = outcome at hs
    obtain ⟨r, copy⟩ := outcome
    obtain rfl : r = .error e := hs
    rfl
  · rw [hs]

namespace Computes

theorem pure (x : α) : (Pure.pure x : InPlace σ ε α).Computes fun s => .ok (x, s) := fun _ => rfl

theorem bind {k : α → InPlace σ ε β} {g : α → σ → Except ε (β × σ)} (h : m.Computes f)
    (hk : ∀ x, (k x).Computes (g x)) :
    (m >>= k).Computes fun s => f s >>= fun next => g next.1 next.2 := by
  intro s
  have hs := h s
  have hrun : (m >>= k).run.run s = (ExceptT.bindCont k (m.run.run s).1).run (m.run.run s).2 := rfl
  rw [hrun]
  dsimp only
  cases hf : f s with
  | error e =>
    rw [hf] at hs
    dsimp only at hs
    rw [hs]
    rfl
  | ok next =>
    rw [hf] at hs
    dsimp only at hs
    rw [hs]
    exact hk next.1 next.2

theorem check_bind {k : α → InPlace σ ε β} {g : α → σ → Except ε (β × σ)} (r : Except ε α)
    (hk : ∀ x, (k x).Computes (g x)) :
    (check r >>= k).Computes fun s => r >>= fun x => g x s := by
  cases r with
  | error e => exact fun _ => rfl
  | ok x => exact hk x

theorem get_bind {k : σ → InPlace σ ε β} {g : σ → σ → Except ε (β × σ)}
    (hk : ∀ s, (k s).Computes (g s)) : (get >>= k).Computes fun s => g s s :=
  fun s => hk s s

theorem modifyGet_bind {k : α → InPlace σ ε β} {g : α → σ → Except ε (β × σ)} (f : σ → α × σ)
    (hk : ∀ x, (k x).Computes (g x)) :
    (modifyGet f >>= k).Computes fun s => g (f s).1 (f s).2 :=
  fun s => hk (f s).1 (f s).2

theorem modifyGet (f : σ → α × σ) :
    (MonadStateOf.modifyGet f : InPlace σ ε α).Computes fun s => .ok (f s) := fun _ => rfl

theorem ite {c : Prop} [Decidable c] {n : InPlace σ ε α} (hm : c → m.Computes f)
    (hn : ¬ c → n.Computes g) :
    (if c then m else n).Computes fun s => if c then f s else g s := by
  intro s
  by_cases hc : c
  · simpa [hc] using hm hc s
  · simpa [hc] using hn hc s

theorem congr (h : m.Computes f) (hfg : ∀ s, f s = g s) : m.Computes g := by
  rwa [← funext hfg]

end Computes
end InPlace
end Dryer.Library
