/-!
# Fallible computations

Names for the ways a fallible function leaves early, with the equation each one gives when
it did not. A chain of `Except` steps that returned a value is taken apart by these alone.
-/
namespace Dryer.Library

variable {ε α γ : Type}

/-- Leave with `e` when `c` holds. -/
def reject (c : Prop) [Decidable c] (e : ε) : Except ε Unit :=
  if c then .error e else .ok ()

/-- The value of an option, or the error `e`. -/
def okOr (o : Option α) (e : ε) : Except ε α :=
  match o with
  | some a => .ok a
  | none => .error e

@[simp] theorem reject_eq_ok {c : Prop} [Decidable c] {e : ε} {u : Unit} :
    reject c e = .ok u ↔ ¬ c := by
  unfold reject
  split <;> simp_all

@[simp] theorem okOr_eq_ok {o : Option α} {e : ε} {a : α} : okOr o e = .ok a ↔ o = some a := by
  cases o <;> simp [okOr]

@[simp] theorem mapError_eq_ok {δ : Type} {x : Except ε α} {f : ε → δ} {a : α} :
    x.mapError f = .ok a ↔ x = .ok a := by
  cases x with
  | error e =>
    constructor
    · intro h
      cases h
    · intro h
      cases h
  | ok b =>
    constructor
    · intro h
      cases h
      rfl
    · intro h
      cases h
      rfl

theorem bind_eq_ok {x : Except ε α} {f : α → Except ε γ} {b : γ} :
    x >>= f = .ok b ↔ ∃ a, x = .ok a ∧ f a = .ok b := by
  cases x with
  | error e =>
    constructor
    · intro h
      cases h
    · rintro ⟨_, h, _⟩
      cases h
  | ok a =>
    constructor
    · intro h
      exact ⟨a, rfl, h⟩
    · rintro ⟨_, h, hf⟩
      cases h
      exact hf

theorem bind_eq_error {x : Except ε α} {f : α → Except ε γ} {e : ε} :
    x >>= f = .error e ↔ x = .error e ∨ ∃ a, x = .ok a ∧ f a = .error e := by
  cases x with
  | error e' =>
    constructor
    · intro h
      cases h
      exact Or.inl rfl
    · rintro (h | ⟨_, h, _⟩)
      · cases h
        rfl
      · cases h
  | ok a =>
    constructor
    · intro h
      exact Or.inr ⟨a, rfl, h⟩
    · rintro (h | ⟨_, h, hf⟩)
      · cases h
      · cases h
        exact hf

/-! ## Lists -/

/-- A check of all elements passes when each one does. -/
theorem forM_eq_ok {xs : List α} {f : α → Except ε Unit} {u : Unit} :
    xs.forM f = .ok u ↔ ∀ x ∈ xs, f x = .ok () := by
  induction xs with
  | nil => simp [List.forM, pure, Except.pure]
  | cons x xs ih =>
    change (f x >>= fun _ => xs.forM f) = _ ↔ _
    rw [bind_eq_ok, List.forall_mem_cons, ← ih]
    constructor
    · rintro ⟨_, hx, hrest⟩
      exact ⟨hx, hrest⟩
    · rintro ⟨hx, hrest⟩
      exact ⟨(), hx, hrest⟩

theorem mapM_eq_ok {xs : List α} {f : α → Except ε γ} {ys : List γ} :
    xs.mapM f = .ok ys ↔ xs.map f = ys.map .ok := by
  induction xs generalizing ys with
  | nil => simp [pure, Except.pure, eq_comm]
  | cons x xs ih =>
    rw [List.mapM_cons, bind_eq_ok]
    simp only [bind_eq_ok, ih]
    constructor
    · rintro ⟨y, hy, rest, hrest, h⟩
      obtain rfl := Except.ok.inj h
      rw [List.map_cons, List.map_cons, hy, hrest]
    · intro h
      cases ys with
      | nil => cases h
      | cons y ys =>
        obtain ⟨hy, hrest⟩ := List.cons.inj h
        exact ⟨y, hy, ys, hrest, rfl⟩

theorem exists_mapM_eq_ok {xs : List α} {f : α → Except ε γ} :
    (∃ ys, xs.mapM f = .ok ys) ↔ ∀ x ∈ xs, ∃ y, f x = .ok y := by
  simp only [mapM_eq_ok]
  constructor
  · rintro ⟨ys, h⟩ x hx
    have hmem : f x ∈ ys.map Except.ok := h ▸ List.mem_map_of_mem hx
    obtain ⟨y, -, hy⟩ := List.mem_map.mp hmem
    exact ⟨y, hy.symm⟩
  · intro h
    induction xs with
    | nil => exact ⟨[], rfl⟩
    | cons x xs ih =>
      obtain ⟨y, hy⟩ := h x List.mem_cons_self
      obtain ⟨ys, hys⟩ := ih fun x hx => h x (List.mem_cons_of_mem _ hx)
      exact ⟨y :: ys, by rw [List.map_cons, List.map_cons, hy, hys]⟩

theorem mem_of_mapM_eq_ok {xs : List α} {f : α → Except ε γ} {ys : List γ}
    (h : xs.mapM f = .ok ys) {y : γ} : y ∈ ys ↔ ∃ x ∈ xs, f x = .ok y := by
  have hmem : y ∈ ys ↔ (.ok y : Except ε γ) ∈ ys.map Except.ok := by simp
  rw [hmem, ← mapM_eq_ok.mp h, List.mem_map]

/-- What each element determines of its result, all elements do of all results. -/
theorem map_eq_of_mapM_eq_ok {δ : Type} {xs : List α} {f : α → Except ε γ} {ys : List γ}
    {before : α → δ} {after : γ → δ} (h : xs.mapM f = .ok ys)
    (hf : ∀ x y, f x = .ok y → after y = before x) : ys.map after = xs.map before := by
  rw [mapM_eq_ok] at h
  induction xs generalizing ys with
  | nil =>
    cases ys with
    | nil => rfl
    | cons y ys => cases h
  | cons x xs ih =>
    cases ys with
    | nil => cases h
    | cons y ys =>
      obtain ⟨hy, hrest⟩ := List.cons.inj h
      rw [List.map_cons, List.map_cons, hf x y hy, ih hrest]

/-! ## Errors of one kind -/

section FailsWith

variable {P : ε → Prop}

/-- If the computation fails, then with an error of this kind. -/
def FailsWith (P : ε → Prop) (x : Except ε α) : Prop := ∀ e, x = .error e → P e

theorem FailsWith.pure (a : α) : FailsWith P (Pure.pure a : Except ε α) := by
  intro e h
  cases h

theorem FailsWith.bind {x : Except ε α} {f : α → Except ε γ} (hx : FailsWith P x)
    (hf : ∀ a, x = .ok a → FailsWith P (f a)) : FailsWith P (x >>= f) := by
  intro e h
  rcases bind_eq_error.mp h with herror | ⟨a, hok, herror⟩
  · exact hx e herror
  · exact hf a hok e herror

theorem FailsWith.of_ok {x : Except ε α} {a : α} (h : x = .ok a) : FailsWith P x := by
  intro e herror
  rw [h] at herror
  cases herror

/-- A check that passes. -/
theorem FailsWith.reject {c : Prop} [Decidable c] {e : ε} (h : ¬ c) :
    FailsWith P (Library.reject c e) := FailsWith.of_ok (a := ()) (reject_eq_ok.mpr h)

theorem FailsWith.error {e : ε} (he : P e) : FailsWith P (.error e : Except ε α) := by
  intro e' h
  cases h
  exact he

/-- A check whose error is of the kind. -/
theorem FailsWith.reject_of {c : Prop} [Decidable c] {e : ε} (he : P e) :
    FailsWith P (Library.reject c e) := by
  unfold Library.reject
  split
  · exact .error he
  · exact .pure ()

theorem FailsWith.okOr {o : Option α} {e : ε} (he : P e) : FailsWith P (Library.okOr o e) := by
  cases o with
  | none => exact .error he
  | some a => exact .pure a

end FailsWith

section FailsOnly

variable {σ : Type} {P : ε → Prop}

/-- From every state, the computation fails with errors of this kind only. -/
def FailsOnly (P : ε → Prop) (m : StateT σ (Except ε) α) : Prop :=
  ∀ s e, m.run s = .error e → P e

theorem FailsOnly.pure (a : α) : FailsOnly P (Pure.pure a : StateT σ (Except ε) α) := by
  intro s e h
  cases h

theorem FailsOnly.throw {e : ε} (he : P e) :
    FailsOnly P (MonadExcept.throw e : StateT σ (Except ε) α) := by
  intro s e' h
  cases h
  exact he

theorem FailsOnly.bind {m : StateT σ (Except ε) α} {f : α → StateT σ (Except ε) γ}
    (hm : FailsOnly P m) (hf : ∀ a, FailsOnly P (f a)) : FailsOnly P (m >>= f) := by
  intro s e h
  rw [StateT.run_bind] at h
  rcases hrun : m.run s with e' | ⟨a, s'⟩
  · rw [hrun] at h
    cases h
    exact hm s e hrun
  · rw [hrun] at h
    exact hf a s' e h

theorem FailsOnly.map {m : StateT σ (Except ε) α} (hm : FailsOnly P m) (f : α → γ) :
    FailsOnly P (f <$> m) := by
  rw [map_eq_pure_bind]
  exact hm.bind fun _ => FailsOnly.pure _

end FailsOnly

end Dryer.Library
