import Mathlib

/-!
# Big-endian byte strings of natural numbers

Fixed-width big-endian encoding of a number as a list of bytes, its decoding, and the number of
bytes a number needs.

* `toBeBytes k n` : the low `k` bytes of `n`, most significant first (`to_be_bytes` of a `k`-byte
  integer, and the tail `[32 - k ..]` of a 32-byte encoding);
* `ofBeBytes` : the number a byte string encodes;
* `byteLen n` : the number of bytes of `n` without leading zero bytes;
* `ofBeBytes_toBeBytes` : decoding the encoding gives `n` back modulo `256 ^ k`;
* `lt_pow_byteLen`, `byteLen_le_iff` : `byteLen` is the least width that encodes `n`;
* `toBeBytes_ofBeBytes`, `toBeBytes_of_lt` : a byte string is the encoding of its number, and a
  wide encoding of a small number is zero bytes followed by the narrow one.
-/

namespace BigEndian

/-- The low `k` bytes of `n`, most significant first. -/
def toBeBytes : Nat → Nat → List UInt8
  | 0, _ => []
  | k + 1, n => toBeBytes k (n / 256) ++ [UInt8.ofNat n]

/-- The number encoded by a big-endian byte string. -/
def ofBeBytes (l : List UInt8) : Nat := l.foldl (fun acc b => acc * 256 + b.toNat) 0

/-- Bytes needed for `n`: its bit length rounded up to whole bytes. -/
def byteLen (n : Nat) : Nat := (Nat.size n + 7) / 8

theorem toNat_uint8_ofNat (n : Nat) : (UInt8.ofNat n).toNat = n % 256 := UInt8.toNat_ofNat

@[simp] theorem length_toBeBytes (k n : Nat) : (toBeBytes k n).length = k := by
  induction k generalizing n with
  | zero => rfl
  | succ k ih => simp [toBeBytes, ih]

@[simp] theorem ofBeBytes_nil : ofBeBytes [] = 0 := rfl

theorem ofBeBytes_append_byte (l : List UInt8) (b : UInt8) :
    ofBeBytes (l ++ [b]) = ofBeBytes l * 256 + b.toNat := by
  simp [ofBeBytes, List.foldl_append]

theorem ofBeBytes_toBeBytes (k n : Nat) : ofBeBytes (toBeBytes k n) = n % 256 ^ k := by
  induction k generalizing n with
  | zero => simp [toBeBytes, Nat.mod_one]
  | succ k ih =>
    have hbyte : (UInt8.ofNat n).toNat = n % 256 := UInt8.toNat_ofNat
    rw [toBeBytes, ofBeBytes_append_byte, ih, hbyte]
    -- `n = 256 * q + r`: the low `k + 1` bytes are the low `k` bytes of `q` above `r`
    rw [Nat.pow_succ, Nat.mul_comm (256 ^ k) 256, Nat.mod_mul]
    omega

theorem ofBeBytes_toBeBytes_of_lt {k n : Nat} (h : n < 256 ^ k) : ofBeBytes (toBeBytes k n) = n := by
  rw [ofBeBytes_toBeBytes, Nat.mod_eq_of_lt h]

theorem toBeBytes_add (j k n : Nat) :
    toBeBytes (j + k) n = toBeBytes j (n / 256 ^ k) ++ toBeBytes k n := by
  induction k generalizing n with
  | zero => simp [toBeBytes]
  | succ k ih =>
    rw [← Nat.add_assoc, toBeBytes, ih, toBeBytes, Nat.div_div_eq_div_mul, ← Nat.pow_succ',
      List.append_assoc]

theorem drop_toBeBytes {k m : Nat} (h : k ≤ m) (n : Nat) :
    (toBeBytes m n).drop (m - k) = toBeBytes k n := by
  obtain ⟨j, rfl⟩ : ∃ j, m = j + k := ⟨m - k, by omega⟩
  rw [toBeBytes_add, Nat.add_sub_cancel, List.drop_left' (length_toBeBytes j _)]

theorem pow_eight_mul (k : Nat) : 2 ^ (8 * k) = 256 ^ k := by
  rw [pow_mul]
  rfl

theorem byteLen_le_iff (n k : Nat) : byteLen n ≤ k ↔ n < 256 ^ k := by
  rw [← pow_eight_mul, ← Nat.size_le]
  unfold byteLen
  omega

theorem lt_pow_byteLen (n : Nat) : n < 256 ^ byteLen n := (byteLen_le_iff n _).mp le_rfl

@[simp] theorem byteLen_zero : byteLen 0 = 0 := by simp [byteLen]

@[simp] theorem toBeBytes_zero (k : Nat) : toBeBytes k 0 = List.replicate k 0 := by
  induction k with
  | zero => rfl
  | succ k ih => rw [toBeBytes, Nat.zero_div, ih, List.replicate_succ']; rfl

/-- A number below `256 ^ k` encoded on `j + k` bytes: `j` zero bytes, then its `k` bytes. -/
theorem toBeBytes_of_lt {k n : Nat} (j : Nat) (h : n < 256 ^ k) :
    toBeBytes (j + k) n = List.replicate j 0 ++ toBeBytes k n := by
  rw [toBeBytes_add, Nat.div_eq_of_lt h, toBeBytes_zero]

theorem ofBeBytes_lt (l : List UInt8) : ofBeBytes l < 256 ^ l.length := by
  induction l using List.reverseRecOn with
  | nil => simp
  | append_singleton l b ih =>
    have hb := b.toNat_lt
    rw [ofBeBytes_append_byte, List.length_append, List.length_singleton, Nat.pow_succ]
    omega

/-- Every byte string is the encoding of the number it decodes to. -/
theorem toBeBytes_ofBeBytes (l : List UInt8) : toBeBytes l.length (ofBeBytes l) = l := by
  induction l using List.reverseRecOn with
  | nil => rfl
  | append_singleton l b ih =>
    have hdiv : (ofBeBytes l * 256 + b.toNat) / 256 = ofBeBytes l := by
      have := b.toNat_lt
      omega
    have hbyte : UInt8.ofNat (ofBeBytes l * 256 + b.toNat) = b := by
      apply UInt8.toNat.inj
      simp
    rw [ofBeBytes_append_byte, List.length_append, List.length_singleton, toBeBytes, hdiv, ih,
      hbyte]

theorem ofBeBytes_replicate_append (k : Nat) (l : List UInt8) :
    ofBeBytes (List.replicate k 0 ++ l) = ofBeBytes l := by
  have hlt := ofBeBytes_lt l
  calc ofBeBytes (List.replicate k 0 ++ l) = ofBeBytes (toBeBytes (k + l.length) (ofBeBytes l)) := by
        rw [toBeBytes_of_lt k hlt, toBeBytes_ofBeBytes]
    _ = ofBeBytes l :=
        ofBeBytes_toBeBytes_of_lt (Nat.lt_of_lt_of_le hlt (Nat.pow_le_pow_right (by decide) (by omega)))

end BigEndian
