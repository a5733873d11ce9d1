import Mathlib
import ZksyncOs.Evm.YellowPaper
import ZksyncOs.Lib.Limbs
import ZksyncOs.System.Resources

/-!
# The word helpers of the interpreter

`evm_interpreter::i256`, `evm_interpreter::u256` and the operand conversions of
`zk_ee::utils::integer_utils`, with the word computations of the instructions that do more than one
`ruint` call (`signExtendOp`, `byteOp`, `shlOp`, `shrOp`, `sarOp`). The operations of `ruint` itself
are taken at their documented meaning: `+`, `*`, `-`, `pow` wrap modulo `2 ^ 256`, `bit` and `byte`
read a bit and a little-endian byte, a shift by `256` or more gives `0`, `add_mod` is the modular
sum of the unbounded sum.

Each helper is compared with the Yellow Paper word it computes:

* `i256Div_eq_sdiv`, `i256Mod_eq_smod`, `i256Cmp_eq` : SDIV, SMOD and the signed order;
* `signExtendOp_eq_signextend`, `byteOp_eq_byte`, `sarOp_eq_sar` : SIGNEXTEND, BYTE and SAR;
  `sarOp` sets the top bits of a negative word limb by limb;
* `shlOp_eq_shl`, `shrOp_eq_shr` : SHL and SHR shift by the operand's saturated `u64` cut to `u32`,
  which is the Yellow Paper's shift only below `2 ^ 32` or when the cut shift is `256` or more;
* `log2floor_eq` : the bit length the EXP cost is computed from.
-/

namespace ZksyncOs.Evm

open YellowPaper

/-! ## `ruint` operations -/

/-- `as_limbs()[i]`: limb `i` of a word, lowest first. -/
def U256.limb (x : U256) (i : Nat) : Nat := Limbs.limb 64 x.val i

/-- `as_limbs_mut()[i] = v`, for a limb `i < 4` and a `u64` value `v`. -/
def U256.setLimb (x : U256) (i v : Nat) : U256 := ⟨Limbs.setLimb 64 x.val i v % 2 ^ 256, lt_word _⟩

/-- `bit(i)`. -/
def U256.bit (x : U256) (i : Nat) : Bool := x.val.testBit i

/-- `byte(i)`: byte `i`, the least significant first. -/
def U256.byte (x : U256) (i : Nat) : Nat := x.val / 2 ^ (8 * i) % 256

theorem U256.not_lt (x : U256) : 2 ^ 256 - 1 - x.val < 2 ^ 256 := by omega

/-- `!x`: every bit flipped. -/
def U256.not (x : U256) : U256 := ⟨2 ^ 256 - 1 - x.val, U256.not_lt x⟩

/-- `wrapping_shl`: `0` for a shift of `256` or more. -/
def U256.wrappingShl (x : U256) (rhs : Nat) : U256 :=
  if rhs < 256 then ⟨(x.val <<< rhs) % 2 ^ 256, lt_word _⟩ else 0

/-- `wrapping_shr`: `0` for a shift of `256` or more. -/
def U256.wrappingShr (x : U256) (rhs : Nat) : U256 :=
  if rhs < 256 then ⟨x.val >>> rhs, Nat.lt_of_le_of_lt (Nat.shiftRight_le _ _) x.isLt⟩ else 0

/-- `overflowing_sub`: the wrapped difference, and whether it borrowed. -/
def U256.overflowingSub (a b : U256) : U256 × Bool := (a - b, decide (a.val < b.val))

/-- `checked_rem`: `None` for a zero divisor. -/
def U256.checkedRem (a b : U256) : Option U256 := if b = 0 then none else some (a % b)

theorem U256.addMod_lt (a b m : U256) (h : ¬m.val = 0) : (a.val + b.val) % m.val < 2 ^ 256 :=
  Nat.lt_trans (Nat.mod_lt _ (Nat.pos_of_ne_zero h)) m.isLt

/-- `add_mod`: `(a + b) mod m` of the unbounded sum, `0` for `m = 0`. -/
def U256.addMod (a b m : U256) : U256 :=
  if h : m.val = 0 then 0
  else ⟨(a.val + b.val) % m.val, U256.addMod_lt a b m h⟩

theorem U256.pow_lt (a b : U256) : a.val ^ b.val % 2 ^ 256 < 2 ^ 256 := lt_word _

/-- `pow`: the power modulo `2 ^ 256`. -/
def U256.pow (a b : U256) : U256 := ⟨a.val ^ b.val % 2 ^ 256, U256.pow_lt a b⟩

/-! ## `zk_ee::utils::integer_utils` -/

def u256ToU64Saturated (src : U256) : Nat :=
  if U256.limb src 3 ≠ 0 ∨ U256.limb src 2 ≠ 0 ∨ U256.limb src 1 ≠ 0 then u64Max
  else U256.limb src 0

/-- `u256_try_to_usize_capped::<CAP>`. -/
def u256TryToUsizeCapped (cap : Nat) (src : U256) : Option Nat :=
  if U256.limb src 3 ≠ 0 ∨ U256.limb src 2 ≠ 0 ∨ U256.limb src 1 ≠ 0 ∨ cap ≤ U256.limb src 0 then
    none
  else some (U256.limb src 0)

/-- `u256_to_usize_saturated`: the saturated `u64` as a `usize` of the 32-bit target, its low
32 bits. -/
def u256ToUsizeSaturated (src : U256) : Nat := u256ToU64Saturated src % 2 ^ 32

/-- `u256_try_to_usize`: the low limb, when the others are zero and it fits the `usize` of the
32-bit target (`try_into`). -/
def u256TryToUsize (src : U256) : Option Nat :=
  if U256.limb src 3 ≠ 0 ∨ U256.limb src 2 ≠ 0 ∨ U256.limb src 1 ≠ 0 then none
  else if U256.limb src 0 < 2 ^ 32 then some (U256.limb src 0) else none

/-! ## `i256` -/

inductive Sign where
  | plus
  | minus
  | zero
deriving DecidableEq, Repr

/-- The sign as an integer. -/
def Sign.toInt : Sign → Int
  | .plus => 1
  | .minus => -1
  | .zero => 0

/-- `two_compl`: `wrapping_neg`. -/
def twoCompl (op : U256) : U256 := -op

/-- `i256_sign::<DO_TWO_COMPL>`: the sign of `val` by its top bit, and `val` after the call,
negated when it is negative and `DO_TWO_COMPL`. -/
def i256Sign (doTwoCompl : Bool) (val : U256) : Sign × U256 :=
  if U256.limb val 3 >>> 63 = 0 then (if val = 0 then .zero else .plus, val)
  else (.minus, if doTwoCompl then twoCompl val else val)

/-- `i256_cmp`: by the sign bits, then by the difference, which orders two words of one sign. -/
def i256Cmp (first second : U256) : Ordering :=
  match U256.bit first 255, U256.bit second 255 with
  | true, false => .lt
  | false, true => .gt
  | _, _ =>
    let (tmp, uf) := U256.overflowingSub first second
    if uf then .lt else if tmp = 0 then .eq else .gt

/-- `MIN_NEGATIVE_VALUE_REPR`: the limbs of `-2^255`. -/
def minNegativeValueRepr : U256 := ⟨0x8000000000000000 * 2 ^ 192, by decide⟩

/-- The sign `i256_div` gives a non-zero quotient of magnitudes: kept for equal signs, negated
for different ones. -/
def i256DivApplySign (dividendSign divisorSign : Sign) (quotient : U256) : U256 :=
  match dividendSign, divisorSign with
  | .zero, .plus | .plus, .zero | .zero, .zero | .plus, .plus | .minus, .minus => quotient
  | .zero, .minus | .plus, .minus | .minus, .zero | .minus, .plus =>
    (U256.overflowingSub 0 quotient).1

/-- `i256_div`: the value `divisor_or_quotient` ends with. -/
def i256Div (dividend divisorOrQuotient : U256) : U256 :=
  let (divisorSign, divisor) := i256Sign true divisorOrQuotient
  if divisorSign = .zero then 0
  else
    let (dividendSign, dividend) := i256Sign true dividend
    if dividendSign = .minus ∧ dividend = minNegativeValueRepr ∧ divisor = 1 then
      -- signed division overflow: zero, its top limb set to `0x8000...`, negated
      twoCompl (U256.setLimb 0 3 0x8000000000000000)
    else
      let quotient := dividend / divisor
      if quotient = 0 then 0 else i256DivApplySign dividendSign divisorSign quotient

/-- `i256_mod`: the value `divisor_or_remainder` ends with. SMOD calls it only with a non-zero
divisor, where `div_rem` does not panic. -/
def i256Mod (dividend divisorOrRemainder : U256) : U256 :=
  let (dividendSign, dividend) := i256Sign true dividend
  if dividendSign = .zero then 0
  else
    let divisor := (i256Sign true divisorOrRemainder).2
    let r := dividend % divisor
    if r = 0 then r
    else if dividendSign = .minus then twoCompl r else r

/-! ## `u256` -/

theorem mulMod_lt (this other modulus : U256) (h : ¬modulus.val = 0) :
    this.val * other.val % modulus.val < 2 ^ 256 :=
  Nat.lt_trans (Nat.mod_lt _ (Nat.pos_of_ne_zero h)) modulus.isLt

/-- `mul_mod`: the full 512-bit product reduced by `modulus`, `0` for a zero modulus. -/
def mulMod (this other modulus : U256) : U256 :=
  if h : modulus.val = 0 then 0
  else ⟨this.val * other.val % modulus.val, mulMod_lt this other modulus h⟩

/-- `u64::leading_zeros`. -/
def leadingZeros64 (x : Nat) : Nat := if x = 0 then 64 else 63 - x.log2

/-- The loop of `log2floor` over the limbs `is`, the top one first: `l` drops by `64` for each zero
limb; at the first non-zero one by its leading zeros, and the result is one less. -/
def log2floorLoop (value : U256) : List Nat → Nat → Nat
  | [], l => l
  | i :: is, l =>
    if U256.limb value i = 0 then log2floorLoop value is (l - 64)
    else
      let l := l - leadingZeros64 (U256.limb value i)
      if l = 0 then l else l - 1

/-- `log2floor`: the position of the top set bit of a word that is not zero (`assert!`). -/
def log2floor (value : U256) (_ : value ≠ 0) : Nat := log2floorLoop value [3, 2, 1, 0] 256

/-! ## The word computations of the instructions -/

/-- What `sign_extend` leaves on the stack: `op2` extended from its byte `op1`, for `op1 < 32`. -/
def signExtendOp (op1 op2 : U256) : U256 :=
  match u256TryToUsizeCapped 32 op1 with
  | some shift =>
    let bitIndex := 8 * shift + 7
    let bit := U256.bit op2 bitIndex
    let mask := U256.wrappingShl 1 bitIndex - 1
    if bit then op2 ||| U256.not mask else op2 &&& mask
  | none => op2

/-- What `byte` leaves: byte `offset` of `src` counted from the most significant. -/
def byteOp (offset src : U256) : U256 :=
  match u256TryToUsizeCapped 32 offset with
  | some offset =>
    ⟨U256.byte src (31 - offset), Nat.lt_trans (Nat.mod_lt _ (by decide)) (by decide)⟩
  | none => 0

/-- What `shl` leaves: `op2` shifted by `u256_to_usize_saturated(op1) as u32`. -/
def shlOp (op1 op2 : U256) : U256 := U256.wrappingShl op2 (u256ToUsizeSaturated op1 % 2 ^ 32)

/-- What `shr` leaves. -/
def shrOp (op1 op2 : U256) : U256 := U256.wrappingShr op2 (u256ToUsizeSaturated op1 % 2 ^ 32)

/-- What `sar` leaves: the unsigned shift, then for a negative word the top `shift` bits set,
`words` whole limbs and the top `bits` bits of the next; every bit for a shift of `256` or more. -/
def sarOp (op1 op2 : U256) : U256 :=
  let signBit := U256.bit op2 255
  match u256TryToUsizeCapped 256 op1 with
  | some shift =>
    if signBit = false then U256.wrappingShr op2 shift
    else
      let op2 := U256.wrappingShr op2 shift
      let words := shift / 64
      let bits := shift % 64
      let op2 := (List.range words).foldl (fun op2 i => U256.setLimb op2 (3 - i) u64Max) op2
      if bits ≠ 0 then
        U256.setLimb op2 (3 - words)
          (U256.limb op2 (3 - words) ||| (u64Max <<< (64 - bits)) % 2 ^ 64)
      else op2
  | none =>
    -- every limb set to `u64::MAX`
    if signBit = false then 0 else ⟨2 ^ 256 - 1, by decide⟩

/-! ## Limbs, bits and the conversions -/

theorem U256.limb_zero (x : U256) : U256.limb x 0 = x.val % 2 ^ 64 := by
  show x.val / 2 ^ 0 % 2 ^ 64 = _
  rw [Nat.pow_zero, Nat.div_one]

theorem U256.limb_three (x : U256) : U256.limb x 3 = x.val / 2 ^ 192 := by
  have := x.isLt
  show x.val / 2 ^ 192 % 2 ^ 64 = _
  omega

theorem U256.high_limbs_eq_zero_iff (x : U256) :
    (U256.limb x 3 = 0 ∧ U256.limb x 2 = 0 ∧ U256.limb x 1 = 0) ↔ x.val < 2 ^ 64 := by
  have := x.isLt
  show (x.val / 2 ^ 192 % 2 ^ 64 = 0 ∧ x.val / 2 ^ 128 % 2 ^ 64 = 0 ∧
    x.val / 2 ^ 64 % 2 ^ 64 = 0) ↔ _
  omega

theorem U256.bit_255 (x : U256) : U256.bit x 255 = decide (2 ^ 255 ≤ x.val) := by
  have := x.isLt
  rw [U256.bit, Nat.testBit_eq_decide_div_mod_eq, decide_eq_decide]
  omega

theorem u256ToU64Saturated_eq (src : U256) : u256ToU64Saturated src = min src.val u64Max := by
  have hiff := U256.high_limbs_eq_zero_iff src
  unfold u256ToU64Saturated u64Max
  rw [U256.limb_zero]
  by_cases h : src.val < 2 ^ 64
  · rw [if_neg (by omega)]
    omega
  · rw [if_pos (by omega)]
    omega

theorem u256TryToUsizeCapped_eq {cap : Nat} (hcap : cap ≤ 2 ^ 64) (src : U256) :
    u256TryToUsizeCapped cap src = if src.val < cap then some src.val else none := by
  have hiff := U256.high_limbs_eq_zero_iff src
  unfold u256TryToUsizeCapped
  rw [U256.limb_zero]
  by_cases h : src.val < cap
  · rw [if_neg (by omega), if_pos h, Nat.mod_eq_of_lt (by omega)]
  · rw [if_pos (by omega), if_neg h]

theorem u256TryToUsize_eq (src : U256) :
    u256TryToUsize src = if src.val < 2 ^ 32 then some src.val else none := by
  have h : u256TryToUsize src = u256TryToUsizeCapped (2 ^ 32) src := by
    unfold u256TryToUsize u256TryToUsizeCapped
    split_ifs <;> first | rfl | omega
  rw [h, u256TryToUsizeCapped_eq (by decide)]

/-! ## The signed helpers -/

theorem Sign.toInt_eq_zero_iff (s : Sign) : s.toInt = 0 ↔ s = .zero := by
  cases s <;> decide

theorem limb_three_shiftRight_eq_zero_iff (a : U256) :
    U256.limb a 3 >>> 63 = 0 ↔ a.val < 2 ^ 255 := by
  rw [U256.limb_three, Nat.shiftRight_eq_div_pow]
  have := a.isLt
  omega

theorem i256Sign_of_lt (d : Bool) {a : U256} (h : a.val < 2 ^ 255) :
    i256Sign d a = (if a = 0 then .zero else .plus, a) := by
  rw [i256Sign, if_pos ((limb_three_shiftRight_eq_zero_iff a).mpr h)]

theorem i256Sign_of_le (d : Bool) {a : U256} (h : 2 ^ 255 ≤ a.val) :
    i256Sign d a = (.minus, if d then twoCompl a else a) := by
  have hne : ¬ U256.limb a 3 >>> 63 = 0 := fun h' =>
    absurd ((limb_three_shiftRight_eq_zero_iff a).mp h') (Nat.not_lt.mpr h)
  rw [i256Sign, if_neg hne]

theorem val_twoCompl (a : U256) : (twoCompl a).val = (2 ^ 256 - a.val) % 2 ^ 256 := rfl

theorem zero_sub_eq_twoCompl (q : U256) : 0 - q = twoCompl q := by
  apply Fin.ext
  rw [Fin.val_sub, val_twoCompl, Fin.val_zero, Nat.add_zero]

theorem ofInt_val (r : U256) : ofInt (r.val : Int) = r := ofInt_natCast r.isLt

theorem ofInt_neg_val (r : U256) : ofInt (-(r.val : Int)) = twoCompl r := by
  apply Fin.ext
  rw [val_ofInt, val_twoCompl]
  have := r.isLt
  omega

theorem val_i256Sign_snd (a : U256) : (i256Sign true a).2.val = (toInt a).natAbs := by
  have := a.isLt
  by_cases h : a.val < 2 ^ 255
  · rw [i256Sign_of_lt true h, toInt_of_lt h]
    show a.val = _
    omega
  · rw [i256Sign_of_le true (by omega), toInt_of_le (by omega)]
    show (twoCompl a).val = _
    rw [val_twoCompl]
    omega

theorem toInt_i256Sign_fst (d : Bool) (a : U256) : (i256Sign d a).1.toInt = (toInt a).sign := by
  have := a.isLt
  by_cases h : a.val < 2 ^ 255
  · rw [i256Sign_of_lt d h, toInt_of_lt h]
    by_cases h0 : a = 0
    · subst h0
      rfl
    · have hpos : 0 < a.val := Nat.pos_of_ne_zero (fun h' => h0 (Fin.ext h'))
      rw [if_neg h0, Int.sign_eq_one_of_pos (by omega)]
      rfl
  · rw [i256Sign_of_le d (by omega), toInt_of_le (by omega), Int.sign_eq_neg_one_of_neg (by omega)]
    rfl

theorem sign_ne_zero_of_val_ne_zero {s : Sign} {a : U256} (hs : s.toInt = (toInt a).sign)
    (ha : a.val ≠ 0) : s ≠ .zero := by
  intro h
  rw [h] at hs
  exact ha ((toInt_eq_zero_iff a).mp (Int.sign_eq_zero_iff_zero.mp hs.symm))

theorem i256DivApplySign_eq {sa sb : Sign} (ha : sa ≠ .zero) (hb : sb ≠ .zero) (q : U256) :
    i256DivApplySign sa sb q = ofInt (sa.toInt * sb.toInt * q.val) := by
  match sa, sb, ha, hb with
  | .plus, .plus, _, _ =>
    show q = ofInt (1 * 1 * q.val)
    rw [Int.one_mul, Int.one_mul, ofInt_val]
  | .minus, .minus, _, _ =>
    show q = ofInt (-1 * -1 * q.val)
    rw [show (-1 : Int) * -1 = 1 by decide, Int.one_mul, ofInt_val]
  | .plus, .minus, _, _ =>
    show 0 - q = ofInt (1 * -1 * q.val)
    rw [show (1 : Int) * -1 * q.val = -(q.val : Int) by omega, ofInt_neg_val, zero_sub_eq_twoCompl]
  | .minus, .plus, _, _ =>
    show 0 - q = ofInt (-1 * 1 * q.val)
    rw [show (-1 : Int) * 1 * q.val = -(q.val : Int) by omega, ofInt_neg_val, zero_sub_eq_twoCompl]
  | .zero, _, ha, _ => exact absurd rfl ha
  | _, .zero, _, hb => exact absurd rfl hb

/-- `i256_div` computes SDIV. The overflow branch gives `2^255`, which is also the signed
quotient of its operands modulo `2^256`, for the divisor `1` as for `-1`. -/
theorem i256Div_eq_sdiv (a b : U256) : i256Div a b = YellowPaper.sdiv a b := by
  have hsb := toInt_i256Sign_fst true b
  have hmb := val_i256Sign_snd b
  have hsa := toInt_i256Sign_fst true a
  have hma := val_i256Sign_snd a
  unfold i256Div
  generalize i256Sign true b = pb at hsb hmb
  generalize i256Sign true a = pa at hsa hma
  obtain ⟨sb, mb⟩ := pb
  obtain ⟨sa, ma⟩ := pa
  dsimp only at hsb hmb hsa hma ⊢
  by_cases hb : b.val = 0
  · have hsb0 : sb = .zero := by
      rw [← Sign.toInt_eq_zero_iff, hsb, Int.sign_eq_zero_iff_zero, toInt_eq_zero_iff]
      exact hb
    rw [if_pos hsb0, YellowPaper.sdiv, if_pos hb]
  · have hsb0 := sign_ne_zero_of_val_ne_zero hsb hb
    rw [if_neg hsb0, sdiv_of_ne_zero a hb, Int.sign_mul, ← hsa, ← hsb, ← hma, ← hmb]
    split
    · case isTrue hov =>
      obtain ⟨rfl, rfl, rfl⟩ := hov
      cases sb
      · decide
      · decide
      · exact absurd rfl hsb0
    · split
      · case isTrue hq =>
        have hq' : ma.val / mb.val = 0 := congrArg Fin.val hq
        rw [hq', Nat.cast_zero, Int.mul_zero]
        rfl
      · case isFalse hq =>
        -- a non-zero quotient has a non-zero dividend
        have hsa0 : sa ≠ .zero := by
          intro h
          rw [h] at hsa
          have hA := Int.sign_eq_zero_iff_zero.mp hsa.symm
          exact hq (Fin.ext (by
            show ma.val / mb.val = 0
            rw [hma, hA, Int.natAbs_zero, Nat.zero_div]))
        rw [i256DivApplySign_eq hsa0 hsb0]
        rfl

/-- `i256_mod` computes SMOD for a non-zero divisor. -/
theorem i256Mod_eq_smod (a : U256) {b : U256} (hb : b.val ≠ 0) :
    i256Mod a b = YellowPaper.smod a b := by
  have hsa := toInt_i256Sign_fst true a
  have hma := val_i256Sign_snd a
  have hmb := val_i256Sign_snd b
  unfold i256Mod
  rw [YellowPaper.smod, if_neg hb]
  generalize i256Sign true a = pa at hsa hma
  obtain ⟨sa, ma⟩ := pa
  dsimp only at hsa hma ⊢
  rw [← hsa, ← hma, ← hmb, ← Fin.val_mod]
  generalize ma % (i256Sign true b).2 = r
  match sa with
  | .zero =>
    show 0 = ofInt (0 * _)
    rw [Int.zero_mul]
    rfl
  | .plus =>
    show (if r = 0 then r else if Sign.plus = .minus then twoCompl r else r) = ofInt (1 * r.val)
    rw [Int.one_mul, ofInt_val, if_neg (by decide : ¬ Sign.plus = .minus), ite_self]
  | .minus =>
    show (if r = 0 then r else if Sign.minus = .minus then twoCompl r else r) = ofInt (-1 * r.val)
    rw [if_pos rfl, show (-1 : Int) * r.val = -(r.val : Int) by omega, ofInt_neg_val]
    split
    · case isTrue h =>
      subst h
      rfl
    · rfl

theorem sub_eq_zero_iff_of_not_lt {a b : U256} (h : ¬ a.val < b.val) : a - b = 0 ↔ a = b := by
  rw [Fin.ext_iff, Fin.ext_iff, Fin.val_sub, Fin.val_zero]
  have := a.isLt
  omega

theorem compare_of_same_sign {a b : U256} {A B : Int} (hAB : A - B = (a.val : Int) - b.val) :
    (if a.val < b.val then Ordering.lt else if a - b = 0 then .eq else .gt) = compare A B := by
  by_cases hlt : a.val < b.val
  · rw [if_pos hlt, Eq.comm, compare_lt_iff_lt]
    omega
  · simp only [if_neg hlt, sub_eq_zero_iff_of_not_lt hlt]
    by_cases heq : a = b
    · rw [if_pos heq, Eq.comm, compare_eq_iff_eq]
      rw [heq] at hAB
      omega
    · have hne : a.val ≠ b.val := fun h => heq (Fin.ext h)
      rw [if_neg heq, Eq.comm, compare_gt_iff_gt]
      omega

/-- `i256_cmp` is the order of the signed readings. -/
theorem i256Cmp_eq (a b : U256) : i256Cmp a b = compare (toInt a) (toInt b) := by
  have ha := a.isLt
  have hb := b.isLt
  unfold i256Cmp U256.overflowingSub
  rw [U256.bit_255, U256.bit_255, toInt_eq, toInt_eq]
  by_cases ha' : 2 ^ 255 ≤ a.val <;> by_cases hb' : 2 ^ 255 ≤ b.val
  · simp only [decide_eq_true ha', decide_eq_true hb', if_neg (Nat.not_lt.mpr ha'),
      if_neg (Nat.not_lt.mpr hb'), decide_eq_true_eq]
    apply compare_of_same_sign
    omega
  · simp only [decide_eq_true ha', decide_eq_false hb', if_neg (Nat.not_lt.mpr ha'),
      if_pos (Nat.not_le.mp hb')]
    rw [Eq.comm, compare_lt_iff_lt]
    omega
  · simp only [decide_eq_false ha', decide_eq_true hb', if_pos (Nat.not_le.mp ha'),
      if_neg (Nat.not_lt.mpr hb')]
    rw [Eq.comm, compare_gt_iff_gt]
    omega
  · simp only [decide_eq_false ha', decide_eq_false hb', if_pos (Nat.not_le.mp ha'),
      if_pos (Nat.not_le.mp hb'), decide_eq_true_eq]
    apply compare_of_same_sign
    omega

/-! ## SIGNEXTEND and BYTE -/

theorem val_or (a b : U256) : (a ||| b).val = a.val ||| b.val :=
  Nat.mod_eq_of_lt (Nat.or_lt_two_pow a.isLt b.isLt)

theorem val_and (a b : U256) : (a &&& b).val = a.val &&& b.val :=
  Nat.mod_eq_of_lt (Nat.and_lt_two_pow _ b.isLt)

theorem val_xor (a b : U256) : (a ^^^ b).val = a.val ^^^ b.val :=
  Nat.mod_eq_of_lt (Nat.xor_lt_two_pow a.isLt b.isLt)

theorem val_not (a : U256) : (U256.not a).val = 2 ^ 256 - 1 - a.val := rfl

theorem val_mask {k : Nat} (hk : k < 256) : (U256.wrappingShl 1 k - 1).val = 2 ^ k - 1 := by
  have hlt : 2 ^ k < 2 ^ 256 := Nat.pow_lt_pow_right (by decide) hk
  have hshl : (U256.wrappingShl 1 k).val = 2 ^ k := by
    rw [U256.wrappingShl, if_pos hk]
    show (1 <<< k) % 2 ^ 256 = _
    rw [Nat.shiftLeft_eq, Nat.one_mul, Nat.mod_eq_of_lt hlt]
  have hpos : 0 < 2 ^ k := Nat.pow_pos (by decide)
  rw [Fin.val_sub, hshl, show (1 : U256).val = 1 from rfl]
  omega

/-- `sign_extend` computes SIGNEXTEND: below the sign bit `8 b + 7` the word is kept, and from it
up every bit is the sign bit. -/
theorem signExtendOp_eq_signextend (b x : U256) :
    signExtendOp b x = YellowPaper.signextend b x := by
  unfold signExtendOp YellowPaper.signextend
  rw [u256TryToUsizeCapped_eq (by decide)]
  by_cases hb : b.val < 32
  · rw [if_pos hb, if_pos hb]
    dsimp only
    have hk : 8 * b.val + 7 < 256 := by omega
    have hmask := val_mask hk
    have hpow : 2 ^ (8 * b.val + 7) * 2 ≤ 2 ^ 256 := by
      rw [← Nat.pow_succ]
      exact Nat.pow_le_pow_right (by decide) (by omega)
    have hsucc : 2 ^ (8 * b.val + 7 + 1) = 2 ^ (8 * b.val + 7) * 2 := Nat.pow_succ _ _
    apply Fin.ext
    rw [val_ofInt, BitVec.toInt_eq_toNat_cond, BitVec.toNat_ofNat,
      show 8 * (b.val + 1) = 8 * b.val + 7 + 1 by omega, Nat.mod_pow_succ, hsucc, U256.bit,
      Nat.testBit_eq_decide_div_mod_eq]
    generalize 8 * b.val + 7 = k at hk hmask hpow ⊢
    have hpos : 0 < 2 ^ k := Nat.pow_pos (by decide)
    have hr : x.val % 2 ^ k < 2 ^ k := Nat.mod_lt _ hpos
    by_cases hbit : x.val / 2 ^ k % 2 = 1
    · -- a negative byte: the top bits are set from the sign bit up
      rw [if_pos (decide_eq_true hbit), val_or, val_not, hmask,
        show 2 ^ 256 - 1 - (2 ^ k - 1) = 2 ^ 256 - 2 ^ k by omega,
        Limbs.or_two_pow_sub_two_pow x.isLt (by omega), hbit]
      generalize x.val % 2 ^ k = r at hr ⊢
      generalize 2 ^ k = P at hpos hr hpow ⊢
      omega
    · have hbit0 : x.val / 2 ^ k % 2 = 0 := by omega
      rw [if_neg (by simp [hbit]), val_and, hmask, Nat.and_two_pow_sub_one_eq_mod, hbit0]
      generalize x.val % 2 ^ k = r at hr ⊢
      generalize 2 ^ k = P at hpos hr hpow ⊢
      omega
  · rw [if_neg hb, if_neg hb]

/-- `byte` computes BYTE. -/
theorem byteOp_eq_byte (i x : U256) : byteOp i x = YellowPaper.byte i x := by
  unfold byteOp YellowPaper.byte
  rw [u256TryToUsizeCapped_eq (by decide)]
  by_cases hi : i.val < 32
  · rw [if_pos hi, if_pos hi]
    rfl
  · rw [if_neg hi, if_neg hi]

/-! ## SHL and SHR -/

theorem u256ToUsizeSaturated_eq (s : U256) :
    u256ToUsizeSaturated s = min s.val u64Max % 2 ^ 32 := by
  rw [u256ToUsizeSaturated, u256ToU64Saturated_eq]

theorem u256ToUsizeSaturated_lt (s : U256) : u256ToUsizeSaturated s < 2 ^ 32 :=
  Nat.mod_lt _ (by decide)

theorem u256ToUsizeSaturated_le (s : U256) : u256ToUsizeSaturated s ≤ s.val := by
  rw [u256ToUsizeSaturated_eq]
  exact Nat.le_trans (Nat.mod_le _ _) (Nat.min_le_left _ _)

theorem u256ToUsizeSaturated_of_lt {s : U256} (h : s.val < 2 ^ 32) :
    u256ToUsizeSaturated s = s.val := by
  rw [u256ToUsizeSaturated_eq]
  unfold u64Max
  omega

/-- The shift operand as `shl` and `shr` use it, a word again. -/
def cutShift (s : U256) : U256 :=
  ⟨u256ToUsizeSaturated s, Nat.lt_trans (u256ToUsizeSaturated_lt s) (by decide)⟩

theorem shlOp_eq (s v : U256) : shlOp s v = YellowPaper.shl (cutShift s) v := by
  unfold shlOp U256.wrappingShl
  rw [Nat.mod_eq_of_lt (u256ToUsizeSaturated_lt s)]
  by_cases hn : u256ToUsizeSaturated s < 256
  · rw [if_pos hn]
    rfl
  · rw [if_neg hn, shl_of_le (by exact Nat.not_lt.mp hn)]

theorem shrOp_eq (s v : U256) : shrOp s v = YellowPaper.shr (cutShift s) v := by
  unfold shrOp U256.wrappingShr
  rw [Nat.mod_eq_of_lt (u256ToUsizeSaturated_lt s)]
  by_cases hn : u256ToUsizeSaturated s < 256
  · rw [if_pos hn]
    rfl
  · rw [if_neg hn, shr_of_le (by exact Nat.not_lt.mp hn)]

theorem cutShift_of_lt {s : U256} (h : s.val < 2 ^ 32) : cutShift s = s :=
  Fin.ext (u256ToUsizeSaturated_of_lt h)

theorem val_shl_one {s : U256} (h : s.val < 256) : (YellowPaper.shl s 1).val = 2 ^ s.val := by
  rw [val_shl, show (1 : U256).val = 1 from rfl, Nat.one_mul,
    Nat.mod_eq_of_lt (Nat.pow_lt_pow_right (by decide) h)]

/-- `shl` agrees with SHL at a shift operand exactly when the operand is below `2 ^ 32`, or its
saturated `u64` cut to 32 bits is `256` or more. -/
theorem shlOp_eq_shl_iff (s : U256) :
    (∀ v, shlOp s v = YellowPaper.shl s v) ↔ s.val < 2 ^ 32 ∨ 256 ≤ u256ToUsizeSaturated s := by
  constructor
  · intro h
    by_contra hne
    have hs : 2 ^ 32 ≤ s.val := by omega
    have hcut : (cutShift s).val < 256 := by
      show u256ToUsizeSaturated s < 256
      omega
    have h1 := congrArg Fin.val (h 1)
    rw [shlOp_eq, val_shl_one hcut, shl_of_le (by omega), Fin.val_zero] at h1
    exact absurd h1 (Nat.pow_pos (by decide)).ne'
  · rintro (h | h) v
    · rw [shlOp_eq, cutShift_of_lt h]
    · rw [shlOp_eq, shl_of_le h, shl_of_le (Nat.le_trans h (u256ToUsizeSaturated_le s))]

theorem val_shr_top {s : U256} (h : s.val < 256) :
    0 < (YellowPaper.shr s ⟨2 ^ 255, by decide⟩).val := by
  rw [val_shr]
  apply Nat.div_pos (Nat.pow_le_pow_right (by decide) (by omega)) (Nat.pow_pos (by decide))

/-- `shr` agrees with SHR at a shift operand exactly when `shl` agrees with SHL. -/
theorem shrOp_eq_shr_iff (s : U256) :
    (∀ v, shrOp s v = YellowPaper.shr s v) ↔ s.val < 2 ^ 32 ∨ 256 ≤ u256ToUsizeSaturated s := by
  constructor
  · intro h
    by_contra hne
    have hs : 2 ^ 32 ≤ s.val := by omega
    have hcut : (cutShift s).val < 256 := by
      show u256ToUsizeSaturated s < 256
      omega
    have h1 := congrArg Fin.val (h ⟨2 ^ 255, by decide⟩)
    have hpos := val_shr_top hcut
    rw [← shrOp_eq, h1, shr_of_le (by omega), Fin.val_zero] at hpos
    exact absurd hpos (Nat.lt_irrefl 0)
  · rintro (h | h) v
    · rw [shrOp_eq, cutShift_of_lt h]
    · rw [shrOp_eq, shr_of_le h, shr_of_le (Nat.le_trans h (u256ToUsizeSaturated_le s))]

/-! ## SAR -/

theorem val_wrappingShr {n : Nat} (h : n < 256) (x : U256) :
    (U256.wrappingShr x n).val = x.val / 2 ^ n := by
  rw [U256.wrappingShr, if_pos h]
  exact Nat.shiftRight_eq_div_pow _ _

theorem val_setLimb {x : U256} {i v : Nat} (h : Limbs.setLimb 64 x.val i v < 2 ^ 256) :
    (U256.setLimb x i v).val = Limbs.setLimb 64 x.val i v :=
  Nat.mod_eq_of_lt h

theorem val_foldl_setLimb_top (x : U256) : ∀ k, k ≤ 4 → x.val < 2 ^ (64 * (4 - k)) →
    ((List.range k).foldl (fun op2 i => U256.setLimb op2 (3 - i) u64Max) x).val =
      x.val + (2 ^ 256 - 2 ^ (64 * (4 - k)))
  | 0, _, _ => by simp
  | k + 1, hk, hx => by
    rw [show 4 - (k + 1) = 3 - k by omega] at hx
    have hpow : 2 ^ (64 * (3 - k + 1)) = 2 ^ (64 * (3 - k)) * 2 ^ 64 := by
      rw [Nat.mul_add, Nat.mul_one, Nat.pow_add]
    have hle : 2 ^ (64 * (3 - k + 1)) * 2 ^ (64 * k) = 2 ^ 256 := by
      rw [← Nat.pow_add, show 64 * (3 - k + 1) + 64 * k = 256 by omega]
    have hP : 0 < 2 ^ (64 * k) := Nat.pow_pos (by decide)
    have hx' : x.val < 2 ^ (64 * (3 - k + 1)) := by
      rw [hpow]
      exact Nat.lt_of_lt_of_le hx (Nat.le_mul_of_pos_right _ (Nat.pow_pos (by decide)))
    have ih := val_foldl_setLimb_top x k (by omega) (by rwa [show 4 - k = 3 - k + 1 by omega])
    rw [show 4 - k = 3 - k + 1 by omega] at ih
    rw [List.range_succ, List.foldl_append, List.foldl_cons, List.foldl_nil]
    generalize (List.range k).foldl _ x = y at ih ⊢
    -- below the limbs filled so far the word is `x`, which has nothing in limb `3 - k`
    have hy : y.val = x.val + 2 ^ (64 * (3 - k + 1)) * (2 ^ (64 * k) - 1) := by
      rw [ih, Nat.mul_sub_one, hle]
    have hlimb : Limbs.limb 64 y.val (3 - k) = 0 := by
      rw [hy, Limbs.limb_add_mul hx', Nat.div_eq_of_lt hx]
    have hQ : 2 ^ (64 * (3 - k + 1)) ≤ 2 ^ 256 := by
      rw [← hle]
      exact Nat.le_mul_of_pos_right _ hP
    have hval : Limbs.setLimb 64 y.val (3 - k) u64Max = x.val + (2 ^ 256 - 2 ^ (64 * (3 - k))) := by
      rw [Limbs.setLimb_of_limb_eq_zero hlimb, ih]
      unfold u64Max
      generalize 2 ^ (64 * (3 - k)) = P at hpow hx ⊢
      generalize 2 ^ (64 * (3 - k + 1)) = Q at hpow hQ ⊢
      omega
    have hlt : Limbs.setLimb 64 y.val (3 - k) u64Max < 2 ^ 256 := by
      rw [hval]
      omega
    rw [show 4 - (k + 1) = 3 - k by omega, val_setLimb hlt, hval]

theorem u64Max_shiftLeft {t : Nat} (h0 : 0 < t) (h : t < 64) :
    (u64Max <<< (64 - t)) % 2 ^ 64 = 2 ^ 64 - 2 ^ (64 - t) := by
  have hB : 2 ^ (64 - t) ≤ 2 ^ 63 := Nat.pow_le_pow_right (by decide) (by omega)
  have hB0 : 0 < 2 ^ (64 - t) := Nat.pow_pos (by decide)
  rw [Nat.shiftLeft_eq]
  unfold u64Max
  generalize 2 ^ (64 - t) = B at hB hB0 ⊢
  omega

theorem val_sarOp_of_le {v : U256} (hv : 2 ^ 255 ≤ v.val) {s : U256} (hs : s.val < 256) :
    (sarOp s v).val = v.val / 2 ^ s.val + (2 ^ 256 - 2 ^ (256 - s.val)) := by
  unfold sarOp
  rw [u256TryToUsizeCapped_eq (by decide), if_pos hs, U256.bit_255, decide_eq_true hv]
  dsimp only
  rw [if_neg Bool.noConfusion]
  generalize s.val = n at hs ⊢
  obtain ⟨w, t, rfl, ht⟩ : ∃ w t, n = 64 * w + t ∧ t < 64 :=
    ⟨n / 64, n % 64, by omega, Nat.mod_lt _ (by decide)⟩
  rw [show (64 * w + t) / 64 = w by omega, show (64 * w + t) % 64 = t by omega]
  have hw : w ≤ 3 := by omega
  -- `x`, the unsigned shift, has no bit from `256 - n` up
  have hx : (U256.wrappingShr v (64 * w + t)).val < 2 ^ (64 * (3 - w)) * 2 ^ (64 - t) := by
    rw [val_wrappingShr hs, Nat.div_lt_iff_lt_mul (Nat.pow_pos (by decide)), ← Nat.pow_add,
      ← Nat.pow_add, show 64 * (3 - w) + (64 - t) + (64 * w + t) = 256 by omega]
    exact v.isLt
  have hpow : 2 ^ (64 * (3 - w + 1)) = 2 ^ (64 * (3 - w)) * 2 ^ 64 := by
    rw [Nat.mul_add, Nat.mul_one, Nat.pow_add]
  have hB : 2 ^ (64 - t) ≤ 2 ^ 64 := Nat.pow_le_pow_right (by decide) (by omega)
  have hx' : (U256.wrappingShr v (64 * w + t)).val < 2 ^ (64 * (4 - w)) := by
    rw [show 4 - w = 3 - w + 1 by omega, hpow]
    exact Nat.lt_of_lt_of_le hx (Nat.mul_le_mul_left _ hB)
  have hfill := val_foldl_setLimb_top _ w (by omega) hx'
  rw [val_wrappingShr hs] at hfill hx hx'
  rw [show 4 - w = 3 - w + 1 by omega] at hfill hx'
  have hR : 2 ^ (256 - (64 * w + t)) = 2 ^ (64 * (3 - w)) * 2 ^ (64 - t) := by
    rw [← Nat.pow_add, show 64 * (3 - w) + (64 - t) = 256 - (64 * w + t) by omega]
  rw [hR]
  generalize (List.range w).foldl _ _ = y at hfill ⊢
  have hP : 0 < 2 ^ (64 * (3 - w)) := Nat.pow_pos (by decide)
  by_cases ht0 : t = 0
  · subst ht0
    rw [if_neg (by decide), hfill, hpow, Nat.sub_zero]
  · rw [if_pos ht0, u64Max_shiftLeft (by omega) ht]
    have hle : 2 ^ (64 * (3 - w + 1)) * 2 ^ (64 * w) = 2 ^ 256 := by
      rw [← Nat.pow_add, show 64 * (3 - w + 1) + 64 * w = 256 by omega]
    have hy : y.val = v.val / 2 ^ (64 * w + t) + 2 ^ (64 * (3 - w + 1)) * (2 ^ (64 * w) - 1) := by
      rw [hfill, Nat.mul_sub_one, hle]
    -- limb `3 - w` of `y` is the shifted word's, below `2 ^ (64 - t)`
    have hlimb : U256.limb y (3 - w) = v.val / 2 ^ (64 * w + t) / 2 ^ (64 * (3 - w)) := by
      rw [U256.limb, hy, Limbs.limb_add_mul hx']
    have hL : v.val / 2 ^ (64 * w + t) / 2 ^ (64 * (3 - w)) < 2 ^ (64 - t) := by
      rw [Nat.div_lt_iff_lt_mul hP, Nat.mul_comm (2 ^ (64 - t))]
      exact hx
    rw [hlimb, Limbs.or_two_pow_sub_two_pow (Nat.lt_of_lt_of_le hL hB) (by omega),
      Nat.mod_eq_of_lt hL]
    have hmul := Nat.div_mul_le_self (v.val / 2 ^ (64 * w + t)) (2 ^ (64 * (3 - w)))
    have hQ : 2 ^ (64 * (3 - w + 1)) ≤ 2 ^ 256 := by
      rw [← hle]
      exact Nat.le_mul_of_pos_right _ (Nat.pow_pos (by decide))
    have hPB : 2 ^ (64 * (3 - w)) * 2 ^ (64 - t) ≤ 2 ^ (64 * (3 - w)) * 2 ^ 64 :=
      Nat.mul_le_mul_left _ hB
    -- writing the limb adds the mask's `2 ^ 64 - 2 ^ (64 - t)` at limb `3 - w`
    show Limbs.setLimb 64 y.val (3 - w) _ % 2 ^ 256 = _
    rw [Limbs.setLimb, show Limbs.limb 64 y.val (3 - w) = _ from hlimb, Nat.add_mul, Nat.sub_mul,
      Nat.mul_comm (2 ^ (64 - t)), hfill]
    generalize v.val / 2 ^ (64 * w + t) / 2 ^ (64 * (3 - w)) * 2 ^ (64 * (3 - w)) = LP at hmul ⊢
    generalize 2 ^ (64 * (3 - w)) * 2 ^ (64 - t) = PB at hx hPB ⊢
    generalize v.val / 2 ^ (64 * w + t) = x at hx hmul ⊢
    generalize 2 ^ (64 * (3 - w)) = P at hpow hP hPB ⊢
    generalize 2 ^ (64 * (3 - w + 1)) = Q at hpow hQ ⊢
    omega

theorem val_sarOp_of_lt {v : U256} (hv : v.val < 2 ^ 255) {s : U256} (hs : s.val < 256) :
    (sarOp s v).val = v.val / 2 ^ s.val := by
  unfold sarOp
  rw [u256TryToUsizeCapped_eq (by decide), if_pos hs, U256.bit_255,
    decide_eq_false (Nat.not_le.mpr hv)]
  exact val_wrappingShr hs v

/-- `sar` computes SAR. -/
theorem sarOp_eq_sar (s v : U256) : sarOp s v = YellowPaper.sar s v := by
  by_cases hs : s.val < 256
  · apply Fin.ext
    by_cases hv : 2 ^ 255 ≤ v.val
    · rw [val_sarOp_of_le hv hs, val_sar_of_le hv hs]
    · rw [val_sarOp_of_lt (Nat.not_le.mp hv) hs, val_sar_of_lt (Nat.not_le.mp hv)]
  · rw [sar_of_le (Nat.not_lt.mp hs)]
    unfold sarOp
    rw [u256TryToUsizeCapped_eq (by decide), if_neg hs, U256.bit_255]
    dsimp only
    by_cases hv : 2 ^ 255 ≤ v.val
    · rw [decide_eq_true hv, if_neg (Nat.not_lt.mpr hv)]
      decide
    · rw [decide_eq_false hv, if_pos (Nat.not_le.mp hv)]
      rfl

/-! ## The bit length of the exponent -/

theorem log2_eq_add_of_div {v k : Nat} (h : v / 2 ^ k ≠ 0) : v.log2 = k + (v / 2 ^ k).log2 := by
  have hv : v ≠ 0 := fun h0 => h (by rw [h0, Nat.zero_div])
  have h1 := Nat.log2_self_le h
  have h2 := @Nat.lt_log2_self (v / 2 ^ k)
  rw [Nat.log2_eq_iff hv]
  constructor
  · rw [Nat.pow_add]
    calc 2 ^ k * 2 ^ (v / 2 ^ k).log2 ≤ 2 ^ k * (v / 2 ^ k) := Nat.mul_le_mul_left _ h1
      _ ≤ v := Nat.mul_div_le v (2 ^ k)
  · rw [show k + (v / 2 ^ k).log2 + 1 = k + ((v / 2 ^ k).log2 + 1) by omega, Nat.pow_add]
    calc v < 2 ^ k * (v / 2 ^ k + 1) := Nat.lt_mul_div_succ v (Nat.pow_pos (by decide))
      _ ≤ 2 ^ k * 2 ^ ((v / 2 ^ k).log2 + 1) := Nat.mul_le_mul_left _ h2

theorem log2floorLoop_of_ne {value : U256} {i : Nat} (is : List Nat)
    (h : U256.limb value i ≠ 0) : log2floorLoop value (i :: is) (64 * (i + 1)) =
      64 * i + (U256.limb value i).log2 := by
  have hlt := (Nat.log2_lt h).mpr (Limbs.limb_lt 64 value.val i)
  rw [log2floorLoop, if_neg h]
  dsimp only
  rw [leadingZeros64, if_neg h, if_neg (by omega)]
  omega

theorem U256.limb_of_lt {x : U256} {i : Nat} (h : x.val < 2 ^ (64 * (i + 1))) :
    U256.limb x i = x.val / 2 ^ (64 * i) := by
  have := Limbs.limb_add_mul h 0
  rwa [Nat.mul_zero, Nat.add_zero] at this

/-- `log2floor` is the floor of the binary logarithm. -/
theorem log2floor_eq (value : U256) (h : value ≠ 0) : log2floor value h = value.val.log2 := by
  have hv := value.isLt
  have hpos : value.val ≠ 0 := fun h' => h (Fin.ext h')
  unfold log2floor
  have hdiv : ∀ i, value.val < 2 ^ (64 * (i + 1)) → U256.limb value i ≠ 0 →
      64 * i + (U256.limb value i).log2 = value.val.log2 := by
    intro i hi hne
    rw [U256.limb_of_lt hi] at hne ⊢
    rw [log2_eq_add_of_div hne]
  by_cases h3 : U256.limb value 3 = 0
  · have h3' : value.val < 2 ^ 192 := by
      rw [U256.limb_three] at h3
      omega
    rw [log2floorLoop, if_pos h3]
    by_cases h2 : U256.limb value 2 = 0
    · have h2' : value.val < 2 ^ 128 := by
        rw [U256.limb_of_lt (i := 2) h3'] at h2
        omega
      rw [log2floorLoop, if_pos h2]
      by_cases h1 : U256.limb value 1 = 0
      · have h1' : value.val < 2 ^ 64 := by
          rw [U256.limb_of_lt (i := 1) h2'] at h1
          omega
        have h0 : U256.limb value 0 ≠ 0 := by
          rw [U256.limb_zero]
          omega
        rw [log2floorLoop, if_pos h1]
        exact (log2floorLoop_of_ne [] h0).trans (hdiv 0 h1' h0)
      · exact (log2floorLoop_of_ne [0] h1).trans (hdiv 1 h2' h1)
    · exact (log2floorLoop_of_ne [1, 0] h2).trans (hdiv 2 h3' h2)
  · exact (log2floorLoop_of_ne [2, 1, 0] h3).trans (hdiv 3 hv h3)

end ZksyncOs.Evm
