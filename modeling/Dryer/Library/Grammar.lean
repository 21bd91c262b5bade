import Mathlib.Data.List.Basic

/-!
# Readers and writers of a grammar

A grammar relates a value to the words that spell it. `Reads view m G` says that the
fallible state transformer `m` consumes exactly the words of `G` from what `view` shows
of its state; `Writes written free m a word` says that `m`, given room, appends `word`
and returns `a`. Both are stated for any state, so a cursor into a slice, a suffix of
the input or a buffer with a position are all covered, and both are closed under the
monad's operations: a composite reader is verified by composing the facts of its parts.
-/
namespace Dryer.Library

variable {β σ ε α γ : Type}

/-- The words that spell each value. -/
abbrev Grammar (β α : Type) := α → List β → Prop

namespace Grammar

/-- Exactly one word for each value. -/
def exact (write : α → List β) : Grammar β α := fun a word => word = write a

/-- Exactly one word for each value that fits. -/
def fitting (fits : α → Prop) (write : α → List β) : Grammar β α :=
  fun a word => fits a ∧ word = write a

/-- The empty word spells `a`. -/
def value (a : α) : Grammar β α := fun b word => b = a ∧ word = []

/-- No value has a word. -/
def empty : Grammar β α := fun _ _ => False

/-- A word of `G` followed by a word of the grammar its value selects. -/
def bind (G : Grammar β α) (H : α → Grammar β γ) : Grammar β γ :=
  fun c word => ∃ a front back, G a front ∧ H a c back ∧ word = front ++ back

/-- The same words, for the image of the value. -/
def map (f : α → γ) (G : Grammar β α) : Grammar β γ := fun c word => ∃ a, G a word ∧ c = f a

@[simp] theorem exact_iff {write : α → List β} {a : α} {word : List β} :
    exact write a word ↔ word = write a := Iff.rfl

@[simp] theorem fitting_iff {fits : α → Prop} {write : α → List β} {a : α} {word : List β} :
    fitting fits write a word ↔ fits a ∧ word = write a := Iff.rfl

@[simp] theorem value_iff {a b : α} {word : List β} :
    value a b word ↔ b = a ∧ word = [] := Iff.rfl

@[simp] theorem empty_iff {a : α} {word : List β} : empty a word ↔ False := Iff.rfl

@[simp] theorem exact_bind_iff {write : α → List β} {H : α → Grammar β γ} {c : γ}
    {word : List β} :
    bind (exact write) H c word ↔ ∃ a back, H a c back ∧ word = write a ++ back := by
  constructor
  · rintro ⟨a, front, back, rfl, h, rfl⟩
    exact ⟨a, back, h, rfl⟩
  · rintro ⟨a, back, h, rfl⟩
    exact ⟨a, _, back, rfl, h, rfl⟩

@[simp] theorem fitting_bind_iff {fits : α → Prop} {write : α → List β}
    {H : α → Grammar β γ} {c : γ} {word : List β} :
    bind (fitting fits write) H c word ↔
      ∃ a back, fits a ∧ H a c back ∧ word = write a ++ back := by
  constructor
  · rintro ⟨a, front, back, ⟨hfits, rfl⟩, h, rfl⟩
    exact ⟨a, back, hfits, h, rfl⟩
  · rintro ⟨a, back, hfits, h, rfl⟩
    exact ⟨a, _, back, ⟨hfits, rfl⟩, h, rfl⟩

@[simp] theorem value_bind_iff {a : α} {H : α → Grammar β γ} {c : γ} {word : List β} :
    bind (value a) H c word ↔ H a c word := by
  constructor
  · rintro ⟨b, front, back, ⟨rfl, rfl⟩, h, rfl⟩
    exact h
  · intro h
    exact ⟨a, [], word, ⟨rfl, rfl⟩, h, rfl⟩

@[simp] theorem bind_value_iff {G : Grammar β α} {f : α → γ} {c : γ} {word : List β} :
    bind G (fun a => value (f a)) c word ↔ map f G c word := by
  constructor
  · rintro ⟨a, front, back, h, ⟨rfl, rfl⟩, rfl⟩
    exact ⟨a, (List.append_nil front).symm ▸ h, rfl⟩
  · rintro ⟨a, h, rfl⟩
    exact ⟨a, word, [], h, ⟨rfl, rfl⟩, (List.append_nil word).symm⟩

@[simp] theorem map_iff {G : Grammar β α} {f : α → γ} {c : γ} {word : List β} :
    map f G c word ↔ ∃ a, G a word ∧ c = f a := Iff.rfl

@[simp] theorem map_bind_iff {δ : Type} {G : Grammar β α} {f : α → γ} {H : γ → Grammar β δ}
    {d : δ} {word : List β} :
    bind (map f G) H d word ↔ bind G (fun a => H (f a)) d word := by
  constructor
  · rintro ⟨c, front, back, ⟨a, h, rfl⟩, hback, rfl⟩
    exact ⟨a, front, back, h, hback, rfl⟩
  · rintro ⟨a, front, back, h, hback, rfl⟩
    exact ⟨f a, front, back, ⟨a, h, rfl⟩, hback, rfl⟩

end Grammar

/-! ## Reading -/

/-- `m` reads exactly the words of `G`: what it returns spells what it consumed, and it
succeeds in front of every word. -/
structure Reads (view : σ → List β) (m : StateT σ (Except ε) α) (G : Grammar β α) : Prop where
  sound : ∀ {s a t}, m.run s = .ok (a, t) → ∃ word, G a word ∧ view s = word ++ view t
  complete : ∀ {s a word rest}, G a word → view s = word ++ rest →
    ∃ t, m.run s = .ok (a, t) ∧ view t = rest

namespace Reads

variable {view : σ → List β} {m : StateT σ (Except ε) α} {G : Grammar β α}

theorem pure (a : α) :
    Reads view (pure a : StateT σ (Except ε) α) (Grammar.value a) where
  sound := by
    intro s b t h
    obtain ⟨rfl, rfl⟩ := Prod.mk.inj (Except.ok.inj h)
    exact ⟨[], ⟨rfl, rfl⟩, rfl⟩
  complete := by
    rintro s b word rest ⟨rfl, rfl⟩ h
    exact ⟨s, rfl, h⟩

theorem throw (e : ε) :
    Reads view (throw e : StateT σ (Except ε) α) Grammar.empty where
  sound h := nomatch h
  complete h := h.elim

theorem bind {k : α → StateT σ (Except ε) γ} {H : α → Grammar β γ}
    (hm : Reads view m G) (hk : ∀ a, Reads view (k a) (H a)) :
    Reads view (m >>= k) (G.bind H) where
  sound := by
    intro s c t h
    rw [StateT.run_bind] at h
    cases hs : m.run s with
    | error e => rw [hs] at h; cases h
    | ok p =>
      rw [hs] at h
      obtain ⟨front, hfront, hview⟩ := hm.sound hs
      obtain ⟨back, hback, hview'⟩ := (hk p.1).sound h
      exact ⟨front ++ back, ⟨p.1, front, back, hfront, hback, rfl⟩,
        by rw [hview, hview', List.append_assoc]⟩
  complete := by
    rintro s c word rest ⟨a, front, back, hfront, hback, rfl⟩ hview
    rw [List.append_assoc] at hview
    obtain ⟨u, hu, hrest⟩ := hm.complete hfront hview
    obtain ⟨t, ht, hrest'⟩ := (hk a).complete hback hrest
    refine ⟨t, ?_, hrest'⟩
    rw [StateT.run_bind, hu]
    exact ht

theorem congr {H : Grammar β α} (hm : Reads view m G)
    (h : ∀ a word, G a word ↔ H a word) : Reads view m H := by
  have : G = H := by funext a word; exact propext (h a word)
  exact this ▸ hm

theorem map {f : α → γ} (hm : Reads view m G) : Reads view (f <$> m) (G.map f) := by
  rw [← bind_pure_comp]
  exact (hm.bind fun a => Reads.pure (f a)).congr fun c word => Grammar.bind_value_iff

theorem ite {c : Prop} [Decidable c] {n : StateT σ (Except ε) α} {H : Grammar β α}
    (hm : Reads view m G) (hn : Reads view n H) :
    Reads view (if c then m else n) (if c then G else H) := by
  split <;> assumption

/-- A reader that leaves nothing has read a whole word. -/
theorem whole_iff (hm : Reads view m G) {s : σ} {a : α} :
    (∃ t, m.run s = .ok (a, t) ∧ view t = []) ↔ G a (view s) := by
  constructor
  · rintro ⟨t, ht, hnil⟩
    obtain ⟨word, hword, hview⟩ := hm.sound ht
    rwa [hview, hnil, List.append_nil]
  · intro h
    exact hm.complete h (List.append_nil _).symm

/-- When all words have one length, reading a word of that length needs no check that
nothing is left. -/
theorem fixed_iff {write : α → List β} (hm : Reads view m (Grammar.exact write)) {n : Nat}
    (hwidth : ∀ a, (write a).length = n) {s : σ} (hs : (view s).length = n) {a : α} :
    (∃ t, m.run s = .ok (a, t)) ↔ view s = write a := by
  constructor
  · rintro ⟨t, ht⟩
    obtain ⟨word, rfl, hview⟩ := hm.sound ht
    have hlength := congrArg List.length hview
    rw [List.length_append, hs, hwidth] at hlength
    have hnil : view t = [] := List.eq_nil_of_length_eq_zero (by omega)
    rw [hview, hnil, List.append_nil]
  · intro h
    obtain ⟨t, ht, -⟩ := hm.complete (show Grammar.exact write a (view s) from h)
      (List.append_nil _).symm
    exact ⟨t, ht⟩

end Reads

/-! ## Writing -/

theorem run_bind_of_ok {m : ExceptT ε (StateM σ) α} (k : α → ExceptT ε (StateM σ) γ) {a : α}
    {s t : σ} (h : m.run.run s = (.ok a, t)) : (m >>= k).run.run s = (k a).run.run t := by
  simp only [ExceptT.run_bind, StateT.run_bind]
  rw [h]
  rfl

/-- Given room for `word`, `m` appends it to what is written and returns `a`. -/
def Writes (written free : σ → List β) (m : ExceptT ε (StateM σ) α) (a : α)
    (word : List β) : Prop :=
  ∀ s, word.length ≤ (free s).length →
    ∃ t, m.run.run s = (.ok a, t) ∧ written t = written s ++ word ∧
      free t = (free s).drop word.length

namespace Writes

variable {written free : σ → List β} {m : ExceptT ε (StateM σ) α} {a : α} {word : List β}

/-- What follows a writer starts from the state the writer left. -/
theorem run_bind (hm : Writes written free m a word) (k : α → ExceptT ε (StateM σ) γ) {s : σ}
    (hroom : word.length ≤ (free s).length) :
    ∃ t, (m >>= k).run.run s = (k a).run.run t ∧ written t = written s ++ word ∧
      free t = (free s).drop word.length := by
  obtain ⟨t, ht, hwritten, hfree⟩ := hm s hroom
  exact ⟨t, run_bind_of_ok k ht, hwritten, hfree⟩

theorem bind {k : α → ExceptT ε (StateM σ) γ} {c : γ} {more : List β}
    (hm : Writes written free m a word) (hk : Writes written free (k a) c more) :
    Writes written free (m >>= k) c (word ++ more) := by
  intro s hroom
  rw [List.length_append] at hroom
  obtain ⟨u, hu, hwritten, hfree⟩ := hm.run_bind k (s := s) (by omega)
  obtain ⟨t, ht, hwritten', hfree'⟩ := hk u (by rw [hfree, List.length_drop]; omega)
  refine ⟨t, hu.trans ht, ?_, ?_⟩
  · rw [hwritten', hwritten, List.append_assoc]
  · rw [hfree', hfree, List.drop_drop, List.length_append]

end Writes

end Dryer.Library
