import Mathlib

/-!
# Limbs and top-bit masks of a word

A word is a natural number; its limbs are its digits in base `2 ^ b`, lowest first. Code that
writes a word limb by limb, or ORs a mask of top bits into it, is read back here as arithmetic.

* `limb b x i`, `setLimb b x i v` : limb `i` of `x`, and `x` with limb `i` replaced by `v`;
* `limbs b k x`, `ofLimbs b l` : the lowest `k` limbs of `x`, and the number with the limbs `l`,
  inverse to each other (`ofLimbs_limbs`, `limbs_ofLimbs`);
* `limbs_add`, `limbs_mul` : the limbs of a sum of counts, and of a product, where those of
  `b * j` bits are each split into `j` of `b` bits;
* `limb_add_mul` : limb `i` of a number below `2 ^ (b * (i + 1))` plus a multiple of that power
  reads the number's own limb;
* `setLimb_of_limb_eq_zero` : writing a limb that reads `0` adds;
* `or_two_pow_sub_two_pow` : the mask of the bits from `k` below `n`, ORed into a number below
  `2 ^ n`, keeps the number's bits below `k`; into a number below `2 ^ k` it is an addition.
-/

namespace Limbs

variable {b x i : Nat}

/-- Limb `i` of `x` in base `2 ^ b`. -/
def limb (b x i : Nat) : Nat := x / 2 ^ (b * i) % 2 ^ b

/-- `x` with limb `i` replaced by `v`. -/
def setLimb (b x i v : Nat) : Nat := x - limb b x i * 2 ^ (b * i) + v * 2 ^ (b * i)

theorem limb_lt (b x i : Nat) : limb b x i < 2 ^ b := Nat.mod_lt _ (Nat.pow_pos (by decide))

theorem setLimb_of_limb_eq_zero {v : Nat} (h : limb b x i = 0) :
    setLimb b x i v = x + v * 2 ^ (b * i) := by
  rw [setLimb, h, Nat.zero_mul, Nat.sub_zero]

/-- The limb of a number in the low `i + 1` limbs, plus anything above them. -/
theorem limb_add_mul (hx : x < 2 ^ (b * (i + 1))) (m : Nat) :
    limb b (x + 2 ^ (b * (i + 1)) * m) i = x / 2 ^ (b * i) := by
  have hpow : 2 ^ (b * (i + 1)) = 2 ^ (b * i) * 2 ^ b := by
    rw [Nat.mul_add, Nat.mul_one, Nat.pow_add]
  have hpos : 0 < 2 ^ (b * i) := Nat.pow_pos (by decide)
  have hlow : x / 2 ^ (b * i) < 2 ^ b := by
    rw [Nat.div_lt_iff_lt_mul hpos, Nat.mul_comm, ← hpow]
    exact hx
  unfold limb
  rw [hpow, Nat.mul_assoc, Nat.add_mul_div_left _ _ hpos, Nat.add_mul_mod_self_left,
    Nat.mod_eq_of_lt hlow]

/-- The number whose limbs in base `2 ^ b` are `l`, lowest first. -/
def ofLimbs (b : Nat) : List Nat → Nat
  | [] => 0
  | d :: l => d + 2 ^ b * ofLimbs b l

/-- The lowest `k` limbs of `x`, lowest first. -/
def limbs (b k x : Nat) : List Nat := (List.range k).map (limb b x)

@[simp] theorem length_limbs (b k x : Nat) : (limbs b k x).length = k := by
  rw [limbs, List.length_map, List.length_range]

theorem lt_of_mem_limbs {d : Nat} (h : d ∈ limbs b k x) : d < 2 ^ b := by
  obtain ⟨i, -, rfl⟩ := List.mem_map.mp h
  exact limb_lt b x i

theorem limbs_zero (b x : Nat) : limbs b 0 x = [] := rfl

theorem limbs_succ (b k x : Nat) : limbs b (k + 1) x = x % 2 ^ b :: limbs b k (x / 2 ^ b) := by
  rw [limbs, List.range_succ_eq_map, List.map_cons, List.map_map, limbs]
  congr 1
  · rw [limb, Nat.mul_zero, Nat.pow_zero, Nat.div_one]
  · apply List.map_congr_left
    intro i _
    rw [Function.comp_apply, limb, limb, Nat.div_div_eq_div_mul, ← Nat.pow_add, Nat.mul_succ,
      Nat.add_comm]

theorem ofLimbs_limbs (b k x : Nat) : ofLimbs b (limbs b k x) = x % 2 ^ (b * k) := by
  induction k generalizing x with
  | zero => rw [limbs_zero, ofLimbs, Nat.mul_zero, Nat.pow_zero, Nat.mod_one]
  | succ k ih =>
    rw [limbs_succ, ofLimbs, ih, Nat.mul_succ, Nat.add_comm (b * k), Nat.pow_add, Nat.mod_mul]

theorem ofLimbs_lt {l : List Nat} (h : ∀ d ∈ l, d < 2 ^ b) : ofLimbs b l < 2 ^ (b * l.length) := by
  induction l with
  | nil => exact Nat.one_pos
  | cons d l ih =>
    have hd := h d List.mem_cons_self
    have hl := ih fun d' hd' => h d' (List.mem_cons_of_mem _ hd')
    -- `d + 2^b * r < 2^b + 2^b * r ≤ 2^b * 2^(b * |l|)`
    calc ofLimbs b (d :: l) = d + 2 ^ b * ofLimbs b l := rfl
      _ < 2 ^ b * (ofLimbs b l + 1) := by rw [Nat.mul_succ]; omega
      _ ≤ 2 ^ b * 2 ^ (b * l.length) := Nat.mul_le_mul_left _ hl
      _ = 2 ^ (b * (d :: l).length) := by rw [← Nat.pow_add, List.length_cons, Nat.mul_succ, Nat.add_comm]

theorem limbs_ofLimbs {l : List Nat} (h : ∀ d ∈ l, d < 2 ^ b) : limbs b l.length (ofLimbs b l) = l := by
  induction l with
  | nil => rfl
  | cons d l ih =>
    have hd := h d List.mem_cons_self
    have hpos : 0 < 2 ^ b := Nat.two_pow_pos b
    rw [List.length_cons, limbs_succ, ofLimbs, Nat.add_mul_mod_self_left, Nat.mod_eq_of_lt hd,
      Nat.add_mul_div_left _ _ hpos, Nat.div_eq_of_lt hd, Nat.zero_add,
      ih fun d' hd' => h d' (List.mem_cons_of_mem _ hd')]

/-- The lowest `j + k` limbs are the lowest `j`, then the `k` above them. -/
theorem limbs_add (b j k x : Nat) : limbs b (j + k) x = limbs b j x ++ limbs b k (x / 2 ^ (b * j)) := by
  induction j generalizing x with
  | zero => rw [Nat.zero_add, limbs_zero, List.nil_append, Nat.mul_zero, Nat.pow_zero, Nat.div_one]
  | succ j ih =>
    rw [Nat.add_right_comm, limbs_succ, ih, limbs_succ, List.cons_append, Nat.div_div_eq_div_mul,
      ← Nat.pow_add, Nat.mul_succ, Nat.add_comm (b * j)]

theorem limbs_mod (b k x : Nat) : limbs b k (x % 2 ^ (b * k)) = limbs b k x := by
  induction k generalizing x with
  | zero => rfl
  | succ k ih =>
    rw [limbs_succ, limbs_succ, Nat.mul_succ, Nat.add_comm (b * k), Nat.pow_add,
      Nat.mod_mul_right_mod, Nat.mod_mul_right_div_self, ih]

/-- The limbs of `b` bits in groups of `j` are the limbs of `b * j` bits, each split in turn. -/
theorem limbs_mul (b j n x : Nat) :
    limbs b (j * n) x = (limbs (b * j) n x).flatMap (limbs b j) := by
  induction n generalizing x with
  | zero => rfl
  | succ n ih =>
    rw [Nat.mul_succ, Nat.add_comm (j * n), limbs_add, limbs_succ, List.flatMap_cons, limbs_mod, ih]

theorem testBit_two_pow_mul (k m j : Nat) :
    (2 ^ k * m).testBit j = (decide (k ≤ j) && m.testBit (j - k)) := by
  have h := Nat.testBit_two_pow_mul_add m (Nat.pow_pos (by decide) : 0 < 2 ^ k) j
  rw [Nat.add_zero, Nat.zero_testBit] at h
  rw [h]
  by_cases hj : j < k
  · simp [hj, Nat.not_le.mpr hj]
  · simp [hj, Nat.not_lt.mp hj]

/-- The mask of the bits from `k` below `n`, ORed into a number below `2 ^ n`: the number's
bits below `k`, and the mask. -/
theorem or_two_pow_sub_two_pow {x k n : Nat} (hx : x < 2 ^ n) (hk : k ≤ n) :
    x ||| (2 ^ n - 2 ^ k) = x % 2 ^ k + (2 ^ n - 2 ^ k) := by
  have hmask : 2 ^ n - 2 ^ k = 2 ^ k * (2 ^ (n - k) - 1) := by
    rw [Nat.mul_sub, Nat.mul_one, ← Nat.pow_add, Nat.add_sub_cancel' hk]
  rw [hmask, Nat.add_comm]
  apply Nat.eq_of_testBit_eq
  intro j
  rw [Nat.testBit_or, Nat.testBit_two_pow_mul_add _ (Nat.mod_lt _ (Nat.pow_pos (by decide))),
    testBit_two_pow_mul, Nat.testBit_mod_two_pow, Nat.testBit_two_pow_sub_one]
  by_cases hj : j < k
  · simp [hj, Nat.not_le.mpr hj]
  · by_cases hjn : j < n
    · simp [hj, Nat.not_lt.mp hj, show j - k < n - k by omega]
    -- above `n` neither the number nor the mask has a bit
    · have hbit : x.testBit j = false :=
        Nat.testBit_lt_two_pow (Nat.lt_of_lt_of_le hx (Nat.pow_le_pow_right (by decide) (by omega)))
      simp [hj, Nat.not_lt.mp hj, hbit, show ¬ j - k < n - k by omega]

end Limbs
