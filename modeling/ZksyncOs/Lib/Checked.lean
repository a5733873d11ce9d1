import Mathlib

/-!
# Checked and wrapping arithmetic of fixed-width unsigned integers

Rust's `checked_add`, `checked_mul`, `checked_sub` and the `-` of a release build (no overflow
checks: it wraps) on unsigned integers of width `w`, whose values are natural numbers below `2 ^ w`.
A checked operation gives `none` where Rust gives `None`; its value carries its bound.
-/

namespace Checked

variable {w a b : Nat}

def checkedAdd (w a b : Nat) : Option (Fin (2 ^ w)) :=
  if h : a + b < 2 ^ w then some ⟨a + b, h⟩ else none

def checkedMul (w a b : Nat) : Option (Fin (2 ^ w)) :=
  if h : a * b < 2 ^ w then some ⟨a * b, h⟩ else none

def checkedSub (a b : Nat) : Option Nat :=
  if b ≤ a then some (a - b) else none

/-- `saturating_mul`: the product, or `2 ^ w - 1` when it does not fit. -/
def saturatingMul (w a b : Nat) : Nat := min (a * b) (2 ^ w - 1)

/-- `ok_or`: `none` becomes the error `e`. -/
def okOr {ε α : Type} {m : Type → Type} [Monad m] [MonadExceptOf ε m] (o : Option α) (e : ε) :
    m α :=
  match o with
  | some a => pure a
  | none => throw e

/-- `if c { return Err(e) }`. -/
def throwIf {ε : Type} {m : Type → Type} [Monad m] [MonadExceptOf ε m] (c : Prop) [Decidable c]
    (e : ε) : m Unit :=
  if c then throw e else pure ()

/-- The `-` of a release build: the difference modulo `2 ^ w`. -/
def wrappingSub (w a b : Nat) : Nat := (a + (2 ^ w - b % 2 ^ w)) % 2 ^ w

/-- The `+` of a release build: the sum modulo `2 ^ w`. -/
def wrappingAdd (w a b : Nat) : Nat := (a + b) % 2 ^ w

/-- `x as i64` and its kin: an unsigned `w`-bit value read in two's complement. -/
def toSigned (w x : Nat) : Int := if x < 2 ^ (w - 1) then x else (x : Int) - 2 ^ w

/-- The `-` of a release build on signed `w`-bit integers: the difference modulo `2 ^ w`, read in
two's complement. -/
def wrappingSubSigned (w : Nat) (a b : Int) : Int := toSigned w ((a - b) % 2 ^ w).toNat

@[simp]
theorem okOr_some {ε α : Type} {m : Type → Type} [Monad m] [MonadExceptOf ε m] (a : α) (e : ε) :
    (okOr (some a) e : m α) = pure a := rfl

@[simp]
theorem okOr_none {ε α : Type} {m : Type → Type} [Monad m] [MonadExceptOf ε m] (e : ε) :
    (okOr (none : Option α) e : m α) = throw e := rfl

theorem okOr_eq_ok_iff {ε α : Type} {o : Option α} {e : ε} {a : α} :
    (okOr o e : Except ε α) = .ok a ↔ o = some a := by
  cases o with
  | none => exact ⟨fun h => (nomatch h), fun h => (nomatch h)⟩
  | some b => exact ⟨fun h => by cases h; rfl, fun h => by cases h; rfl⟩

theorem throwIf_eq_ok_iff {ε : Type} {c : Prop} [Decidable c] {e : ε} {u : Unit} :
    (throwIf c e : Except ε Unit) = .ok u ↔ ¬c := by
  unfold throwIf
  by_cases hc : c
  · rw [if_pos hc]
    exact ⟨fun h => (nomatch h), fun h => absurd hc h⟩
  · rw [if_neg hc]
    exact ⟨fun _ => hc, fun _ => rfl⟩

theorem run_throwIf_eq_ok_iff {ε σ : Type} {c : Prop} [Decidable c] {e : ε} {s s' : σ} {u : Unit} :
    (throwIf c e : StateT σ (Except ε) Unit).run s = .ok (u, s') ↔ ¬c ∧ s' = s := by
  unfold throwIf
  by_cases hc : c
  · rw [if_pos hc]
    exact ⟨fun h => (nomatch h), fun h => absurd hc h.1⟩
  · rw [if_neg hc]
    exact ⟨fun h => by cases h; exact ⟨hc, rfl⟩, fun ⟨_, h⟩ => by rw [h]; rfl⟩

theorem run_throwIf_of_not {ε σ : Type} {c : Prop} [Decidable c] {e : ε} {s : σ} (hc : ¬c) :
    (throwIf c e : StateT σ (Except ε) Unit).run s = .ok ((), s) :=
  run_throwIf_eq_ok_iff.mpr ⟨hc, rfl⟩

@[simp]
theorem checkedAdd_eq_none_iff : checkedAdd w a b = none ↔ 2 ^ w ≤ a + b := by
  unfold checkedAdd
  split <;> simp_all

@[simp]
theorem checkedMul_eq_none_iff : checkedMul w a b = none ↔ 2 ^ w ≤ a * b := by
  unfold checkedMul
  split <;> simp_all

theorem val_of_checkedAdd_eq_some {c : Fin (2 ^ w)} (h : checkedAdd w a b = some c) :
    c.val = a + b := by
  unfold checkedAdd at h
  split at h
  · cases h; rfl
  · cases h

theorem val_of_checkedMul_eq_some {c : Fin (2 ^ w)} (h : checkedMul w a b = some c) :
    c.val = a * b := by
  unfold checkedMul at h
  split at h
  · cases h; rfl
  · cases h

theorem checkedAdd_of_lt (h : a + b < 2 ^ w) : checkedAdd w a b = some ⟨a + b, h⟩ := by
  simp [checkedAdd, h]

theorem checkedMul_of_lt (h : a * b < 2 ^ w) : checkedMul w a b = some ⟨a * b, h⟩ := by
  simp [checkedMul, h]

@[simp]
theorem checkedSub_eq_none_iff : checkedSub a b = none ↔ a < b := by
  unfold checkedSub
  split <;> simp_all

theorem checkedSub_of_le (h : b ≤ a) : checkedSub a b = some (a - b) := by
  simp [checkedSub, h]

theorem wrappingSub_of_le (hb : b ≤ a) (ha : a < 2 ^ w) : wrappingSub w a b = a - b := by
  have hb' : b % 2 ^ w = b := Nat.mod_eq_of_lt (by omega)
  unfold wrappingSub
  rw [hb']
  have : a + (2 ^ w - b) = (a - b) + 2 ^ w := by omega
  rw [this, Nat.add_mod_right, Nat.mod_eq_of_lt (by omega)]

theorem wrappingSub_of_lt (hab : a < b) (hb : b < 2 ^ w) : wrappingSub w a b = 2 ^ w + a - b := by
  have hb' : b % 2 ^ w = b := Nat.mod_eq_of_lt hb
  unfold wrappingSub
  rw [hb', Nat.mod_eq_of_lt (by omega)]
  omega

theorem wrappingAdd_of_lt (h : a + b < 2 ^ w) : wrappingAdd w a b = a + b := Nat.mod_eq_of_lt h

theorem toSigned_of_lt (h : a < 2 ^ (w - 1)) : toSigned w a = a := if_pos h

theorem wrappingSubSigned_of_lt (hw : 0 < w) (ha : a < 2 ^ (w - 1)) (hb : b < 2 ^ (w - 1)) :
    wrappingSubSigned w a b = (a : Int) - b := by
  have hpow : (2 : Int) ^ w = 2 * 2 ^ (w - 1) := by
    have hw' : w = (w - 1) + 1 := (Nat.sub_add_cancel hw).symm
    rw [hw', Int.pow_succ, Nat.add_sub_cancel]
    omega
  have hp : ((2 ^ (w - 1) : Nat) : Int) = 2 ^ (w - 1) := by push_cast; rfl
  unfold wrappingSubSigned toSigned
  by_cases hab : b ≤ a
  · have hmod : ((a : Int) - b) % 2 ^ w = a - b := Int.emod_eq_of_lt (by omega) (by omega)
    rw [hmod, if_pos (by omega)]
    omega
  · have hmod : ((a : Int) - b) % 2 ^ w = a - b + 2 ^ w := by
      rw [← Int.add_emod_right]
      exact Int.emod_eq_of_lt (by omega) (by omega)
    rw [hmod, if_neg (by omega)]
    omega

/-! ## Saturating, overflowing and rounding operations -/

/-- `saturating_add`: the sum, or `2 ^ w - 1` when it does not fit. -/
def saturatingAdd (w a b : Nat) : Nat := min (a + b) (2 ^ w - 1)

/-- `overflowing_add`: the sum modulo `2 ^ w`, and whether it wrapped. -/
def overflowingAdd (w a b : Nat) : Nat × Bool := (wrappingAdd w a b, decide (2 ^ w ≤ a + b))

/-- `next_multiple_of(m)`: `n` rounded up to a multiple of `m`, without the overflow a caller
rules out. -/
def nextMultipleOf (n m : Nat) : Nat := if n % m = 0 then n else n + (m - n % m)

/-- `checked_next_multiple_of(m)` on `w` bits: `none` when the multiple does not fit. -/
def checkedNextMultipleOf (w n m : Nat) : Option Nat :=
  if nextMultipleOf n m < 2 ^ w then some (nextMultipleOf n m) else none

theorem saturatingAdd_of_lt (h : a + b < 2 ^ w) : saturatingAdd w a b = a + b := by
  unfold saturatingAdd
  omega

theorem saturatingMul_of_lt (h : a * b < 2 ^ w) : saturatingMul w a b = a * b := by
  unfold saturatingMul
  omega

section NextMultipleOf

variable {n m : Nat}

theorem nextMultipleOf_eq (hm : 0 < m) : nextMultipleOf n m = (n + m - 1) / m * m := by
  have hdiv := Nat.div_add_mod n m
  have hlt := Nat.mod_lt n hm
  unfold nextMultipleOf
  split
  · -- `n = m q`, and `m - 1` more stays below `m (q + 1)`
    have he : n + m - 1 = m * (n / m) + (m - 1) := by omega
    rw [he, Nat.mul_add_div hm, Nat.div_eq_of_lt (show m - 1 < m by omega), Nat.add_zero,
      Nat.mul_comm]
    omega
  · -- `n = m q + r` with `0 < r`: the rounded quotient is `q + 1`
    have he : n + m - 1 = m * (n / m + 1) + (n % m - 1) := by rw [Nat.mul_add]; omega
    rw [he, Nat.mul_add_div hm, Nat.div_eq_of_lt (show n % m - 1 < m by omega), Nat.add_zero,
      Nat.mul_comm, Nat.mul_add, Nat.mul_one]
    omega

end NextMultipleOf

end Checked
