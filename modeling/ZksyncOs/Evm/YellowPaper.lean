import Mathlib
import ZksyncOs.System.Types

/-!
# The Yellow Paper's 256-bit words

The arithmetic, comparison and bitwise operations of the Ethereum Yellow Paper (Appendix H.2,
with SHL, SHR and SAR of EIP-145), on words read as numbers below `2 ^ 256`. The signed ones read a
word as its two's complement (`toInt`, which is `BitVec.toInt`) and write an integer back modulo
`2 ^ 256` (`ofInt`). This is what the interpreter's instructions are meant to compute; the model of
the code is compared with it in `Evm/Words` and `Evm/Arithmetic`.

* SDIV and SMOD as the Yellow Paper states them: by signs and magnitudes, with `0` for a zero
  divisor and the special case `-2^255 / -1 = -2^255`;
* SIGNEXTEND: the low `b + 1` bytes read as a signed number;
* `shl_of_le`, `shr_of_le`, `sar_of_le` : a shift by `256` or more gives `0`, or `-1` for SAR of a
  negative word.
-/

namespace ZksyncOs.Evm.YellowPaper

/-- The two's-complement reading of a word. -/
def toInt (a : U256) : Int := (BitVec.ofFin a).toInt

/-- The word of an integer, modulo `2 ^ 256`. -/
def ofInt (n : Int) : U256 := (BitVec.ofInt 256 n).toFin

/-- A comparison's word. -/
def ofBool (p : Prop) [Decidable p] : U256 := if p then 1 else 0

theorem lt_word (n : Nat) : n % 2 ^ 256 < 2 ^ 256 := Nat.mod_lt _ (by decide)

def add (a b : U256) : U256 := ⟨(a.val + b.val) % 2 ^ 256, lt_word _⟩

def mul (a b : U256) : U256 := ⟨(a.val * b.val) % 2 ^ 256, lt_word _⟩

def sub (a b : U256) : U256 := ofInt ((a.val : Int) - b.val)

def div (a b : U256) : U256 :=
  if b.val = 0 then 0 else ⟨a.val / b.val, Nat.lt_of_le_of_lt (Nat.div_le_self _ _) a.isLt⟩

def sdiv (a b : U256) : U256 :=
  if b.val = 0 then 0
  else if toInt a = -2 ^ 255 ∧ toInt b = -1 then ofInt (-2 ^ 255)
  else ofInt ((toInt a * toInt b).sign * ((toInt a).natAbs / (toInt b).natAbs : Nat))

def mod (a b : U256) : U256 :=
  if b.val = 0 then 0 else ⟨a.val % b.val, Nat.lt_of_le_of_lt (Nat.mod_le _ _) a.isLt⟩

def smod (a b : U256) : U256 :=
  if b.val = 0 then 0
  else ofInt ((toInt a).sign * ((toInt a).natAbs % (toInt b).natAbs : Nat))

/-- `(a + b) mod n` of the unbounded sum. -/
def addmod (a b n : U256) : U256 :=
  if h : n.val = 0 then 0
  else ⟨(a.val + b.val) % n.val, Nat.lt_trans (Nat.mod_lt _ (Nat.pos_of_ne_zero h)) n.isLt⟩

/-- `(a * b) mod n` of the unbounded product. -/
def mulmod (a b n : U256) : U256 :=
  if h : n.val = 0 then 0
  else ⟨(a.val * b.val) % n.val, Nat.lt_trans (Nat.mod_lt _ (Nat.pos_of_ne_zero h)) n.isLt⟩

def exp (a b : U256) : U256 := ⟨a.val ^ b.val % 2 ^ 256, lt_word _⟩

/-- SIGNEXTEND `b x`: the low `b + 1` bytes of `x` read as a signed number, for `b < 32`. -/
def signextend (b x : U256) : U256 :=
  if b.val < 32 then ofInt (BitVec.ofNat (8 * (b.val + 1)) x.val).toInt else x

def lt (a b : U256) : U256 := ofBool (a.val < b.val)

def gt (a b : U256) : U256 := ofBool (b.val < a.val)

def slt (a b : U256) : U256 := ofBool (toInt a < toInt b)

def sgt (a b : U256) : U256 := ofBool (toInt b < toInt a)

def eq (a b : U256) : U256 := ofBool (a = b)

def iszero (a : U256) : U256 := ofBool (a.val = 0)

def and (a b : U256) : U256 := ⟨a.val &&& b.val, Nat.and_lt_two_pow _ b.isLt⟩

def or (a b : U256) : U256 := ⟨a.val ||| b.val, Nat.or_lt_two_pow a.isLt b.isLt⟩

def xor (a b : U256) : U256 := ⟨a.val ^^^ b.val, Nat.xor_lt_two_pow a.isLt b.isLt⟩

def not (a : U256) : U256 := ⟨2 ^ 256 - 1 - a.val, by omega⟩

/-- BYTE `i x`: byte `i` of `x`, counted from the most significant. -/
def byte (i x : U256) : U256 :=
  if i.val < 32 then ⟨x.val / 2 ^ (8 * (31 - i.val)) % 256, Nat.lt_trans (Nat.mod_lt _ (by decide))
    (by decide)⟩
  else 0

def shl (s v : U256) : U256 := ⟨(v.val <<< s.val) % 2 ^ 256, lt_word _⟩

def shr (s v : U256) : U256 := ⟨v.val >>> s.val, Nat.lt_of_le_of_lt (Nat.shiftRight_le _ _) v.isLt⟩

/-- SAR: the floor of the signed value divided by `2 ^ s`. -/
def sar (s v : U256) : U256 := ofInt (toInt v >>> s.val)

/-! ## The signed reading -/

theorem toInt_eq (a : U256) : toInt a = if a.val < 2 ^ 255 then (a.val : Int) else a.val - 2 ^ 256 := by
  rw [toInt, BitVec.toInt_eq_toNat_cond]
  have hiff : 2 * (BitVec.ofFin a).toNat < 2 ^ 256 ↔ a.val < 2 ^ 255 := by
    rw [BitVec.toNat_ofFin]
    omega
  by_cases h : a.val < 2 ^ 255
  · rw [if_pos (hiff.mpr h), if_pos h, BitVec.toNat_ofFin]
  · rw [if_neg (fun h' => h (hiff.mp h')), if_neg h, BitVec.toNat_ofFin, Nat.cast_pow,
      Nat.cast_ofNat]

theorem toInt_of_lt {a : U256} (h : a.val < 2 ^ 255) : toInt a = a.val := by
  rw [toInt_eq, if_pos h]

theorem toInt_of_le {a : U256} (h : 2 ^ 255 ≤ a.val) : toInt a = a.val - 2 ^ 256 := by
  rw [toInt_eq, if_neg (Nat.not_lt.mpr h)]

theorem val_ofInt (n : Int) : (ofInt n).val = (n % 2 ^ 256).toNat := by
  rw [ofInt, BitVec.val_toFin, BitVec.toNat_ofInt, Nat.cast_pow, Nat.cast_ofNat]

theorem ofInt_natCast {n : Nat} (h : n < 2 ^ 256) : ofInt n = ⟨n, h⟩ := by
  apply Fin.ext
  rw [val_ofInt]
  show _ = n
  omega

theorem toInt_eq_zero_iff (a : U256) : toInt a = 0 ↔ a.val = 0 := by
  rw [toInt_eq]
  split <;> omega

theorem sdiv_of_ne_zero (a : U256) {b : U256} (hb : b.val ≠ 0) :
    sdiv a b = ofInt ((toInt a * toInt b).sign * ((toInt a).natAbs / (toInt b).natAbs : Nat)) := by
  rw [sdiv, if_neg hb]
  split
  · case isTrue h =>
    rw [h.1, h.2]
    decide
  · rfl

/-! ## Shifts by the whole width -/

theorem val_shl (s v : U256) : (shl s v).val = v.val * 2 ^ s.val % 2 ^ 256 := by
  show v.val <<< s.val % 2 ^ 256 = _
  rw [Nat.shiftLeft_eq]

theorem val_shr (s v : U256) : (shr s v).val = v.val / 2 ^ s.val := by
  show v.val >>> s.val = _
  rw [Nat.shiftRight_eq_div_pow]

theorem sar_eq (s v : U256) : sar s v = ofInt (toInt v / 2 ^ s.val) := by
  rw [sar, Int.shiftRight_eq_div_pow, Nat.cast_pow, Nat.cast_ofNat]

theorem shl_of_le {s : U256} (h : 256 ≤ s.val) (v : U256) : shl s v = 0 := by
  apply Fin.ext
  rw [val_shl, Fin.val_zero]
  apply Nat.mod_eq_zero_of_dvd
  exact Dvd.dvd.mul_left (Nat.pow_dvd_pow 2 h) _

theorem shr_of_le {s : U256} (h : 256 ≤ s.val) (v : U256) : shr s v = 0 := by
  apply Fin.ext
  rw [val_shr, Fin.val_zero]
  apply Nat.div_eq_of_lt
  exact Nat.lt_of_lt_of_le v.isLt (Nat.pow_le_pow_right (by decide) h)

theorem val_sar_of_lt {v : U256} (h : v.val < 2 ^ 255) (s : U256) :
    (sar s v).val = v.val / 2 ^ s.val := by
  have e : (v.val : Int) / 2 ^ s.val = ((v.val / 2 ^ s.val : Nat) : Int) := by
    rw [Int.natCast_ediv, Nat.cast_pow, Nat.cast_ofNat]
  rw [sar_eq, toInt_of_lt h, val_ofInt, e]
  have hq : v.val / 2 ^ s.val < 2 ^ 256 := Nat.lt_of_le_of_lt (Nat.div_le_self _ _) v.isLt
  generalize v.val / 2 ^ s.val = q at hq ⊢
  omega

theorem val_sar_of_le {v : U256} (h : 2 ^ 255 ≤ v.val) {s : U256} (hs : s.val < 256) :
    (sar s v).val = v.val / 2 ^ s.val + (2 ^ 256 - 2 ^ (256 - s.val)) := by
  have hsplit : (2 : Int) ^ 256 = 2 ^ (256 - s.val) * 2 ^ s.val := by
    rw [← pow_add, Nat.sub_add_cancel (Nat.le_of_lt hs)]
  have hlt : v.val / 2 ^ s.val < 2 ^ (256 - s.val) := by
    rw [Nat.div_lt_iff_lt_mul (Nat.pow_pos (by decide)), ← Nat.pow_add,
      Nat.sub_add_cancel (Nat.le_of_lt hs)]
    exact v.isLt
  have hle : 2 ^ (256 - s.val) ≤ 2 ^ 256 := Nat.pow_le_pow_right (by decide) (by omega)
  have e : (v.val : Int) / 2 ^ s.val = ((v.val / 2 ^ s.val : Nat) : Int) := by
    rw [Int.natCast_ediv, Nat.cast_pow, Nat.cast_ofNat]
  have e2 : (2 : Int) ^ (256 - s.val) = ((2 ^ (256 - s.val) : Nat) : Int) := by
    rw [Nat.cast_pow, Nat.cast_ofNat]
  rw [sar_eq, toInt_of_le h, hsplit, sub_eq_add_neg, ← neg_mul,
    Int.add_mul_ediv_right _ _ (pow_ne_zero _ (by decide)), val_ofInt, e, e2]
  generalize v.val / 2 ^ s.val = q at hlt ⊢
  generalize 2 ^ (256 - s.val) = r at hlt hle ⊢
  omega

/-- SAR by `256` or more leaves the sign: `0` for a non-negative word, `-1` for a negative one. -/
theorem sar_of_le {s : U256} (h : 256 ≤ s.val) (v : U256) :
    sar s v = if v.val < 2 ^ 255 then 0 else ofInt (-1) := by
  have hpow : (2 : Int) ^ 256 ≤ 2 ^ s.val := by
    exact_mod_cast Nat.pow_le_pow_right (by decide) h
  rw [sar_eq, toInt_eq]
  have := v.isLt
  split
  · rw [Int.ediv_eq_zero_of_lt (by omega) (by omega)]
    rfl
  · rw [Int.ediv_eq_neg_one_of_neg_of_le (by omega) (by omega)]

end ZksyncOs.Evm.YellowPaper
