import Mathlib
import ZksyncOs.Lib.Checked

/-!
# What a successful `Except` computation went through

Inversion rules for `Except`: a sequence that succeeds succeeded at each step, a thrown error is
never a success. Tagged `@[simp]`, they turn a hypothesis `f x = .ok y` about a fallible function
written in `do` notation into the facts about each of its steps. The `StateT` rules do the same
for a computation that also threads a state; `mapM_except_eq_ok_iff` does it for a loop over a
list. `ThrowsOnly e` follows a computation's structure the other way: a sequence whose every step
fails only with `e` fails only with `e`.
-/

namespace Except

variable {ε α β : Type}

@[simp] theorem bind_eq_ok {x : Except ε α} {f : α → Except ε β} {b : β} :
    (x >>= f) = .ok b ↔ ∃ a, x = .ok a ∧ f a = .ok b := by
  cases x <;> simp [bind, Except.bind]

@[simp] theorem map_eq_ok {x : Except ε α} {f : α → β} {b : β} :
    (f <$> x) = .ok b ↔ ∃ a, x = .ok a ∧ f a = b := by
  cases x <;> simp [Functor.map, Except.map]

@[simp] theorem pure_eq_ok {a b : α} : (pure a : Except ε α) = .ok b ↔ a = b := by
  simp [pure, Except.pure]

@[simp] theorem throw_ne_ok {e : ε} {a : α} : (throw e : Except ε α) ≠ .ok a := by
  simp [throw, throwThe, MonadExceptOf.throw]

@[simp] theorem throw_bind (e : ε) (f : α → Except ε β) : (throw e >>= f) = throw e := rfl

/-- `x` fails, if it fails, with `e`. -/
def ThrowsOnly (e : ε) (x : Except ε α) : Prop := ∀ e', x = .error e' → e' = e

namespace ThrowsOnly

variable {e : ε}

theorem of_pure (a : α) : ThrowsOnly e (pure a) := fun _ h => nomatch h

theorem of_throw : ThrowsOnly e (throw e : Except ε α) := fun _ h => by cases h; rfl

theorem okOr (o : Option α) : ThrowsOnly e (Checked.okOr o e) := by
  cases o with
  | some a => exact of_pure a
  | none => exact of_throw

theorem bind {x : Except ε α} {f : α → Except ε β} (hx : ThrowsOnly e x)
    (hf : ∀ a, ThrowsOnly e (f a)) : ThrowsOnly e (x >>= f) := by
  intro e' h
  cases x with
  | error e'' => exact hx e' (by cases h; rfl)
  | ok a => exact hf a e' h

theorem map {x : Except ε α} (f : α → β) (hx : ThrowsOnly e x) : ThrowsOnly e (f <$> x) := by
  intro e' h
  cases x with
  | error e'' => exact hx e' (by cases h; rfl)
  | ok a => cases h

theorem ite {c : Prop} [Decidable c] {x y : Except ε α} (hx : ThrowsOnly e x) (hy : ThrowsOnly e y) :
    ThrowsOnly e (if c then x else y) := by
  split
  · exact hx
  · exact hy

end ThrowsOnly

end Except

namespace StateT

variable {ε σ α β : Type}

@[simp] theorem run_bind_eq_ok {x : StateT σ (Except ε) α} {f : α → StateT σ (Except ε) β}
    {s : σ} {b : β × σ} :
    (x >>= f).run s = .ok b ↔ ∃ a s', x.run s = .ok (a, s') ∧ (f a).run s' = .ok b := by
  rw [StateT.run_bind]
  constructor
  · intro h
    obtain ⟨⟨a, s'⟩, hx, hf⟩ := Except.bind_eq_ok.mp h
    exact ⟨a, s', hx, hf⟩
  · rintro ⟨a, s', hx, hf⟩
    exact Except.bind_eq_ok.mpr ⟨(a, s'), hx, hf⟩

@[simp] theorem run_throw_ne_ok {e : ε} {s : σ} {b : α × σ} :
    (throw e : StateT σ (Except ε) α).run s ≠ .ok b := by
  intro h
  cases h

theorem run_ok_bind {x : StateT σ (Except ε) α} {f : α → StateT σ (Except ε) β} {s s' : σ} {a : α}
    (hx : x.run s = .ok (a, s')) : (x >>= f).run s = (f a).run s' := by
  rw [StateT.run_bind, hx]
  rfl

end StateT

namespace List

variable {α β ε : Type}

/-- A loop into `Except` that succeeds gave one result per element, each the element's. -/
theorem mapM_except_eq_ok_iff {f : α → Except ε β} :
    ∀ {l : List α} {r : List β}, l.mapM f = .ok r ↔ List.Forall₂ (fun a b => f a = .ok b) l r
  | [], r => by
    cases r <;> simp [pure, Except.pure]
  | a :: l, r => by
    rw [List.mapM_cons]
    cases r with
    | nil => simp
    | cons b r => simp [mapM_except_eq_ok_iff]

theorem Forall₂.forall_mem_right {R : α → β → Prop} {P : β → Prop} (hR : ∀ a b, R a b → P b) :
    ∀ {l₁ : List α} {l₂ : List β}, List.Forall₂ R l₁ l₂ → ∀ b ∈ l₂, P b
  | _, _, .nil => fun _ h => absurd h List.not_mem_nil
  | _, _, .cons hab hrest => fun b hb => by
    rcases List.mem_cons.mp hb with rfl | hb
    · exact hR _ _ hab
    · exact Forall₂.forall_mem_right hR hrest b hb

end List
