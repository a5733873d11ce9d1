import Mathlib

/-!
# Computations on a part of the state

Code that takes `&mut` references to some fields of a larger state, and keeps what it wrote when it
fails, is a computation in `EStateM ε τ` on those fields. `EStateM.focus` runs it inside a larger
state `σ`, writing the fields back on both outcomes.

* `Result.state`, `state_map` : the state a computation ends in, on both outcomes;
* `Preserves p x` : `x` leaves `p` of the state alone, with its rules for `pure`, `throw`, bind
  and `if`, and `Preserves.run_pair` for the first component of a pair;
* `run_focus` : the result of a focused computation;
* `Spends m n x` : on success `x` lowers the measure `m` of the state by exactly `n`, with the
  rules for `pure`, `throw`, bind, `if`, `adaptExcept` and `focus`.
-/

namespace EStateM

variable {ε σ τ α : Type}

/-- The state of a result, on both outcomes. -/
def Result.state : Result ε σ α → σ
  | .ok _ s => s
  | .error _ s => s

@[simp] theorem Result.state_ok (a : α) (s : σ) : (Result.ok a s : Result ε σ α).state = s := rfl

@[simp] theorem Result.state_error (e : ε) (s : σ) : (Result.error e s : Result ε σ α).state = s :=
  rfl

theorem run_map_eq_match {β : Type} (f : α → β) (x : EStateM ε σ α) (s : σ) :
    (f <$> x).run s =
      match x.run s with
      | .ok a t => .ok (f a) t
      | .error e t => .error e t :=
  rfl

/-- Mapping the result does not change the state. -/
@[simp] theorem state_map {β : Type} (f : α → β) (x : EStateM ε σ α) (s : σ) :
    ((f <$> x).run s).state = (x.run s).state := by
  change (EStateM.map f x s).state = (x s).state
  unfold EStateM.map
  cases x s <;> rfl

/-! ## Frame rules -/

/-- `x` never changes `p` of the state, on either outcome. -/
def Preserves {β : Type} (p : σ → β) (x : EStateM ε σ α) : Prop := ∀ s, p (x.run s).state = p s

section Preserves

variable {β γ : Type} {p : σ → β}

theorem preserves_pure (a : α) : Preserves p (pure a : EStateM ε σ α) := fun _ => rfl

theorem preserves_throw (e : ε) : Preserves p (throw e : EStateM ε σ α) := fun _ => rfl

theorem Preserves.bind {x : EStateM ε σ α} {f : α → EStateM ε σ γ} (hx : Preserves p x)
    (hf : ∀ a, Preserves p (f a)) : Preserves p (x >>= f) := by
  intro s
  rw [EStateM.run_bind]
  cases hr : x.run s with
  | ok a t =>
    have := hx s
    rw [hr] at this
    exact (hf a t).trans this
  | error e t =>
    have := hx s
    rw [hr] at this
    exact this

theorem Preserves.map {x : EStateM ε σ α} (f : α → γ) (hx : Preserves p x) :
    Preserves p (f <$> x) := fun s => by rw [state_map]; exact hx s

theorem run_adaptExcept_eq_ok {ε' : Type} {f : ε → ε'} {x : EStateM ε σ α} {s t : σ} {a : α} :
    (EStateM.adaptExcept f x).run s = .ok a t ↔ x.run s = .ok a t := by
  rw [run_adaptExcept]
  cases x.run s <;> simp

/-- A computation on a pair that keeps the first component ends with it, on either outcome. -/
theorem Preserves.run_pair {ρ : Type} {x : EStateM ε (σ × ρ) α} (hx : Preserves Prod.fst x)
    (c : σ) (r : ρ) :
    (∃ a r', x.run (c, r) = .ok a (c, r')) ∨ (∃ e r', x.run (c, r) = .error e (c, r')) := by
  have h := hx (c, r)
  cases hr : x.run (c, r) with
  | ok a t =>
    obtain ⟨t₁, t₂⟩ := t
    rw [hr] at h
    cases h
    exact .inl ⟨a, t₂, rfl⟩
  | error e t =>
    obtain ⟨t₁, t₂⟩ := t
    rw [hr] at h
    cases h
    exact .inr ⟨e, t₂, rfl⟩

end Preserves

/-! ## Inversion rules -/

theorem run_bind_eq_ok {β : Type} {x : EStateM ε σ α} {f : α → EStateM ε σ β} {s t : σ} {b : β} :
    (x >>= f).run s = .ok b t ↔ ∃ a s', x.run s = .ok a s' ∧ (f a).run s' = .ok b t := by
  rw [run_bind]
  cases x.run s with
  | ok a s' =>
    constructor
    · intro h
      exact ⟨a, s', rfl, h⟩
    · rintro ⟨a', s'', h, hf⟩
      cases h
      exact hf
  | error e s' => simp

theorem run_bind_of_ok {β : Type} {x : EStateM ε σ α} {f : α → EStateM ε σ β} {s s' : σ} {a : α}
    (h : x.run s = .ok a s') : (x >>= f).run s = (f a).run s' := by
  rw [run_bind, h]

theorem run_bind_of_error {β : Type} {x : EStateM ε σ α} {f : α → EStateM ε σ β} {s s' : σ} {e : ε}
    (h : x.run s = .error e s') : (x >>= f).run s = .error e s' := by
  rw [run_bind, h]

theorem run_get_bind {β : Type} (f : σ → EStateM ε σ β) (s : σ) : (get >>= f).run s = (f s).run s :=
  rfl

theorem run_throw_ne_ok {e : ε} {s t : σ} {a : α} : (throw e : EStateM ε σ α).run s ≠ .ok a t :=
  nofun

theorem run_pure_eq_ok {a b : α} {s t : σ} :
    (pure a : EStateM ε σ α).run s = .ok b t ↔ a = b ∧ s = t := by
  simp [run_pure]

/-- Run `x` on the part of the state `view` reads, and write it back with `update`. -/
def focus (view : σ → τ) (update : σ → τ → σ) (x : EStateM ε τ α) : EStateM ε σ α := fun s =>
  match x.run (view s) with
  | .ok a t => .ok a (update s t)
  | .error e t => .error e (update s t)

theorem run_focus (view : σ → τ) (update : σ → τ → σ) (x : EStateM ε τ α) (s : σ) :
    (focus view update x).run s =
      match x.run (view s) with
      | .ok a t => .ok a (update s t)
      | .error e t => .error e (update s t) := rfl

/-- On success, `x` lowers the measure `m` of the state by exactly `n`. -/
def Spends (m : σ → Nat) (n : Nat) (x : EStateM ε σ α) : Prop :=
  ∀ s a t, x.run s = .ok a t → m s = m t + n

section Spends

variable {β : Type} {m : σ → Nat}

theorem Preserves.spends {x : EStateM ε σ α} (hx : Preserves m x) : Spends m 0 x := by
  intro s a t h
  have := hx s
  rw [h] at this
  exact this.symm

theorem spends_pure (a : α) : Spends m 0 (pure a : EStateM ε σ α) :=
  (preserves_pure a).spends

theorem spends_throw (e : ε) (n : Nat) : Spends m n (throw e : EStateM ε σ α) :=
  fun _ _ _ h => absurd h run_throw_ne_ok

theorem Spends.bind {x : EStateM ε σ α} {f : α → EStateM ε σ β} {n k : Nat} (hx : Spends m n x)
    (hf : ∀ a, Spends m k (f a)) : Spends m (n + k) (x >>= f) := by
  intro s b t h
  obtain ⟨a, s', hx', hf'⟩ := run_bind_eq_ok.mp h
  rw [hx s a s' hx', hf a s' b t hf', Nat.add_assoc, Nat.add_comm k]

theorem Spends.map (f : α → β) {x : EStateM ε σ α} {n : Nat} (hx : Spends m n x) :
    Spends m n (f <$> x) := by
  intro s b t h
  rw [run_map_eq_match] at h
  cases hr : x.run s with
  | ok a t' =>
    rw [hr] at h
    cases h
    exact hx s a t hr
  | error e t' =>
    rw [hr] at h
    cases h

theorem spends_ite {c : Prop} [Decidable c] {x y : EStateM ε σ α} {n : Nat} (hx : Spends m n x)
    (hy : Spends m n y) : Spends m n (if c then x else y) := by
  by_cases hc : c
  · rw [if_pos hc]
    exact hx
  · rw [if_neg hc]
    exact hy

theorem Spends.adaptExcept {ε' : Type} (f : ε → ε') {x : EStateM ε σ α} {n : Nat}
    (hx : Spends m n x) : Spends m n (EStateM.adaptExcept f x) :=
  fun s a t h => hx s a t (run_adaptExcept_eq_ok.mp h)

/-- A cost measured on the part of the state a focused computation runs on. -/
theorem Spends.focus {m' : τ → Nat} {view : σ → τ} {update : σ → τ → σ} {x : EStateM ε τ α}
    {n : Nat} (hx : Spends m' n x) (hview : ∀ s, m' (view s) = m s)
    (hupdate : ∀ s t, m (update s t) = m' t) : Spends m n (focus view update x) := by
  intro s a t h
  rw [run_focus] at h
  cases hr : x.run (view s) with
  | ok a' t' =>
    rw [hr] at h
    cases h
    rw [← hview, hupdate]
    exact hx _ _ _ hr
  | error e t' =>
    rw [hr] at h
    cases h

end Spends

end EStateM
