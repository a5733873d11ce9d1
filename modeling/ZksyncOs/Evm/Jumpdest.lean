import Mathlib
import ZksyncOs.Lib.Boundaries
import ZksyncOs.System.Resources

/-!
# Jump destinations

`evm_interpreter::BytecodePreprocessingData`: before a frame runs, `analyze` scans the padded
bytecode once and marks every `JUMPDEST` it meets at an instruction boundary in a `BitMap`, words
of `usize::BITS` bits; `is_valid_jumpdest` cuts the answer at the original length. Both index the
bitmap unchecked.

* `BitMap`, `BitMap.bit` : the words, and the bit at a position;
* `analyzeLoop`, `analyze` : the scan, with `advance_by` over the immediates of a `PUSHk`;
* `ValidJumpdest` : the EVM's definition, a `JUMPDEST` byte inside the code in the immediates of
  no `PUSH` at an instruction boundary (`Boundaries`);
* `analyzeLoop_spec` : from a boundary, the scan sets exactly the `JUMPDEST` boundaries from there
  on, every write inside the allocation;
* `isValidJumpdest`, `fromRawBytecode` : the checks the interpreter makes.
-/

namespace ZksyncOs.Evm

open Boundaries

/-- `opcodes::JUMPDEST`. -/
def jumpdestOp : UInt8 := 0x5B

/-- `opcodes::PUSH1`. -/
def push1Op : UInt8 := 0x60

def bytecodePreprocessingByteNativeCost : Nat := 6

/-- `BitMap`: bits packed into `usize` words. -/
structure BitMap where
  inner : List Nat
deriving DecidableEq, Repr

def nextMultipleOf (n m : Nat) : Nat := if n % m = 0 then n else n + (m - n % m)

namespace BitMap

variable (w : Nat)

def empty : BitMap := ⟨[]⟩

/-- `allocate_for_bit_capacity`: enough zero words for `capacity` bits. -/
def allocateForBitCapacity (capacity : Nat) : BitMap :=
  ⟨List.replicate (nextMultipleOf capacity w / w) 0⟩

/-- `set_bit_on_unchecked`, `none` where the word is past the allocation (undefined behaviour). -/
def setBitOnUnchecked (bm : BitMap) (pos : Nat) : Option BitMap :=
  let wordIdx := pos / w
  let bitIdx := pos % w
  if wordIdx < bm.inner.length then
    some ⟨bm.inner.set wordIdx (bm.inner.getD wordIdx 0 ||| 1 <<< bitIdx)⟩
  else none

/-- `get_bit_unchecked`, `none` where the word is past the allocation. -/
def getBitUnchecked (bm : BitMap) (pos : Nat) : Option Bool :=
  let wordIdx := pos / w
  let bitIdx := pos % w
  if wordIdx < bm.inner.length then some (bm.inner.getD wordIdx 0 &&& 1 <<< bitIdx != 0) else none

/-- The bit at `pos`. -/
def bit (bm : BitMap) (pos : Nat) : Bool := (bm.inner.getD (pos / w) 0).testBit (pos % w)

variable {w}

theorem testBit_one_shiftLeft (b c : Nat) : (1 <<< b).testBit c = decide (b = c) := by
  rw [Nat.shiftLeft_eq, Nat.one_mul, Nat.testBit_two_pow]

theorem getBitUnchecked_of_lt {bm : BitMap} {pos : Nat} (h : pos / w < bm.inner.length) :
    bm.getBitUnchecked w pos = some (bm.bit w pos) := by
  rw [getBitUnchecked, if_pos h, Nat.shiftLeft_eq, Nat.one_mul, Nat.and_two_pow, bit]
  cases (bm.inner.getD (pos / w) 0).testBit (pos % w) <;> simp

theorem setBitOnUnchecked_of_lt {bm : BitMap} {pos : Nat}
    (h : pos / w < bm.inner.length) :
    ∃ bm', bm.setBitOnUnchecked w pos = some bm' ∧ bm'.inner.length = bm.inner.length ∧
      ∀ q, bm'.bit w q = (bm.bit w q || decide (q = pos)) := by
  refine ⟨_, if_pos h, List.length_set, fun q => ?_⟩
  have hq : q = pos ↔ q / w = pos / w ∧ q % w = pos % w := by
    constructor
    · rintro rfl
      exact ⟨rfl, rfl⟩
    · rintro ⟨hd, hm⟩
      rw [← Nat.div_add_mod q w, ← Nat.div_add_mod pos w, hd, hm]
  simp only [bit, List.getD_eq_getElem?_getD, List.getElem?_set]
  by_cases hd : pos / w = q / w
  · rw [if_pos hd, if_pos (hd ▸ h), Option.getD_some, Nat.testBit_or, testBit_one_shiftLeft, ← hd]
    congr 1
    simp only [decide_eq_decide, hq, hd, true_and]
    exact eq_comm
  · rw [if_neg hd]
    have hne : ¬ q = pos := fun he => hd (he ▸ rfl)
    simp [hne]

theorem le_length_mul_allocateForBitCapacity (hw : 0 < w) (capacity : Nat) :
    capacity ≤ (allocateForBitCapacity w capacity).inner.length * w := by
  rw [allocateForBitCapacity, List.length_replicate, nextMultipleOf]
  split_ifs with h
  · rw [Nat.div_mul_cancel (Nat.dvd_of_mod_eq_zero h)]
  · have hdm := Nat.div_add_mod capacity w
    have hlt := Nat.mod_lt capacity hw
    have hmul : capacity + (w - capacity % w) = w * (capacity / w + 1) := by
      rw [Nat.mul_succ]
      omega
    rw [hmul, Nat.mul_div_cancel_left _ hw]
    rw [Nat.mul_comm] at hmul
    omega

theorem bit_allocateForBitCapacity (capacity q : Nat) :
    (allocateForBitCapacity w capacity).bit w q = false := by
  simp [bit, allocateForBitCapacity, List.getD_eq_getElem?_getD, List.getElem?_replicate]
  split_ifs <;> simp

end BitMap

/-! ## The scan -/

/-- The number of immediate bytes after an opcode: `k` after `PUSHk`. -/
def immediates (op : UInt8) : Nat :=
  if 0x60 ≤ op.toNat ∧ op.toNat ≤ 0x7F then op.toNat - 0x5F else 0

/-- The width of the instruction at `p` in `code`, read as padded with zeros. -/
def instrWidth (code : List UInt8) (p : Nat) : Nat := 1 + immediates (code.getD p 0)

theorem instrWidth_pos (code : List UInt8) (p : Nat) : 0 < instrWidth code p := by
  unfold instrWidth
  omega

/-- The EVM's valid jump destinations: a `JUMPDEST` byte inside the code that lies in the
immediate bytes of no `PUSH1`..`PUSH32` at an instruction boundary. -/
def ValidJumpdest (code : List UInt8) (o : Nat) : Prop :=
  ∃ h : o < code.length, code[o] = jumpdestOp ∧ ¬ Inside (instrWidth code) o

theorem pushBytes_eq_immediates (op : UInt8) :
    (if op - push1Op < 32 then (op - push1Op).toNat + 1 else 0) = immediates op := by
  have h := op.toNat_lt
  have hsub : (op - push1Op).toNat = (op.toNat + 160) % 256 := by
    rw [UInt8.toNat_sub]
    simp [push1Op]
    omega
  simp only [UInt8.lt_iff_toNat_lt, hsub, immediates]
  split_ifs <;> simp_all <;> omega

theorem immediates_jumpdestOp : immediates jumpdestOp = 0 := by decide

variable (w : Nat)

/-- The loop of `analyze`, at the byte `offset` (the `enumerate` counter) with the bytes the
iterator has left. -/
def analyzeLoop (jumps : BitMap) (offset : Nat) : List UInt8 → Option BitMap
  | [] => some jumps
  | opcode :: codeIter =>
    if opcode = jumpdestOp then
      match jumps.setBitOnUnchecked w offset with
      | some jumps => analyzeLoop jumps (offset + 1) codeIter
      | none => none
    else
      let pushBytes := opcode - push1Op
      if pushBytes < 32 then
        -- `advance_by(push_bytes + 1)`: a push running past the end only exhausts the iterator
        analyzeLoop jumps (offset + 1 + (pushBytes.toNat + 1)) (codeIter.drop (pushBytes.toNat + 1))
      else analyzeLoop jumps (offset + 1) codeIter
termination_by code => code.length
decreasing_by all_goals (simp only [List.length_cons, List.length_drop]; omega)

/-- `analyze`: the jump map of `code`. -/
def analyze (code : List UInt8) : Option BitMap :=
  analyzeLoop w (BitMap.allocateForBitCapacity w code.length) 0 code

/-- The `JUMPDEST` boundaries of `code` from `p` on. -/
def JumpdestFrom (code : List UInt8) (p q : Nat) : Prop :=
  p ≤ q ∧ q < code.length ∧ IsBoundary (instrWidth code) q ∧ code.getD q 0 = jumpdestOp

variable {w}

theorem analyzeLoop_cons (hw : 0 < w) (code : List UInt8) {p : Nat} (hp : p < code.length)
    (jumps : BitMap) (hcap : code.length ≤ jumps.inner.length * w) :
    ∃ jumps', jumps'.inner.length = jumps.inner.length ∧
      (∀ q, jumps'.bit w q = (jumps.bit w q || decide (q = p ∧ code.getD p 0 = jumpdestOp))) ∧
      analyzeLoop w jumps p (code.drop p) =
        analyzeLoop w jumps' (p + instrWidth code p) (code.drop (p + instrWidth code p)) := by
  have hdrop : code.drop p = code.getD p 0 :: code.drop (p + 1) := by
    rw [List.drop_eq_getElem_cons hp, List.getD_eq_getElem?_getD, List.getElem?_eq_getElem hp]
    rfl
  rw [hdrop, analyzeLoop]
  by_cases hj : code.getD p 0 = jumpdestOp
  · have hword : p / w < jumps.inner.length := by
      rw [Nat.div_lt_iff_lt_mul hw]
      omega
    obtain ⟨jumps', hset, hlen, hbit⟩ := BitMap.setBitOnUnchecked_of_lt hword
    refine ⟨jumps', hlen, fun q => by rw [hbit, hj]; simp only [and_true], ?_⟩
    rw [if_pos hj, hset, instrWidth, hj, immediates_jumpdestOp, Nat.add_comm 1 0]
  · refine ⟨jumps, rfl, fun q => by simp only [hj, and_false, decide_false, Bool.or_false], ?_⟩
    rw [if_neg hj]
    have hwidth := pushBytes_eq_immediates (code.getD p 0)
    dsimp only
    split_ifs at hwidth ⊢ with hpush
    · rw [instrWidth, ← hwidth, List.drop_drop, Nat.add_assoc p 1]
    · rw [instrWidth, ← hwidth]

/-- From a boundary `p`, the scan sets exactly the `JUMPDEST` boundaries from `p` on, and every
write is inside the allocation. -/
theorem analyzeLoop_spec (hw : 0 < w) (code : List UInt8) :
    ∀ (n : Nat) (jumps : BitMap) (p : Nat), code.length - p = n →
      IsBoundary (instrWidth code) p → code.length ≤ jumps.inner.length * w →
      ∃ jumps', analyzeLoop w jumps p (code.drop p) = some jumps' ∧
        jumps'.inner.length = jumps.inner.length ∧
        ∀ q, jumps'.bit w q = true ↔ jumps.bit w q = true ∨ JumpdestFrom code p q := by
  intro n
  induction n using Nat.strong_induction_on with
  | _ n ih =>
    intro jumps p hn hp hcap
    by_cases hend : code.length ≤ p
    · -- past the end: nothing left to scan, and no position of the code from `p` on
      rw [List.drop_eq_nil_of_le hend]
      refine ⟨jumps, by rw [analyzeLoop], rfl, fun q => ⟨Or.inl, ?_⟩⟩
      rintro (h | ⟨hpq, hq, -⟩)
      · exact h
      · omega
    · obtain ⟨jumps', hlen, hbit, hstep⟩ := analyzeLoop_cons hw code (show p < code.length by omega) jumps hcap
      have hwidth := instrWidth_pos code p
      obtain ⟨jumps'', hrun, hlen', hbits⟩ := ih (code.length - (p + instrWidth code p)) (by omega)
        jumps' (p + instrWidth code p) rfl hp.step (by rw [hlen]; exact hcap)
      refine ⟨jumps'', by rw [hstep, hrun], hlen'.trans hlen, fun q => ?_⟩
      rw [hbits q, hbit q, Bool.or_eq_true, decide_eq_true_iff, or_assoc]
      apply or_congr_right
      constructor
      · rintro (⟨rfl, hj⟩ | ⟨hpq, hq, hb, hj⟩)
        · exact ⟨le_rfl, by omega, hp, hj⟩
        · exact ⟨by omega, hq, hb, hj⟩
      · rintro ⟨hpq, hq, hb, hj⟩
        -- no boundary lies inside the instruction at `p`
        by_cases hq' : q < p + instrWidth code p
        · have := eq_of_isBoundary (instrWidth_pos code) hp hb hpq hq'
          subst this
          exact .inl ⟨rfl, hj⟩
        · exact .inr ⟨by omega, hq, hb, hj⟩

/-- `analyze` marks exactly the `JUMPDEST` boundaries of the code, every write inside the
allocation. -/
theorem analyze_spec (hw : 0 < w) (code : List UInt8) :
    ∃ bm, analyze w code = some bm ∧ code.length ≤ bm.inner.length * w ∧
      ∀ q, bm.bit w q = true ↔ JumpdestFrom code 0 q := by
  have hcap := BitMap.le_length_mul_allocateForBitCapacity hw code.length
  obtain ⟨bm, hrun, hlen, hbits⟩ := analyzeLoop_spec hw code _ _ 0 rfl .zero hcap
  refine ⟨bm, hrun, hlen ▸ hcap, fun q => ?_⟩
  rw [hbits q, BitMap.bit_allocateForBitCapacity]
  simp

/-! ## Cutting at the original length -/

theorem getD_of_isPrefix {b padded : List UInt8} (h : b <+: padded) {p : Nat} (hp : p < b.length) :
    padded.getD p 0 = b.getD p 0 := by
  have hp' := Nat.lt_of_lt_of_le hp h.length_le
  rw [List.getD_eq_getElem?_getD, List.getD_eq_getElem?_getD, List.getElem?_eq_getElem hp,
    List.getElem?_eq_getElem hp', h.getElem hp]

theorem isBoundary_padded {b padded : List UInt8} (h : b <+: padded) {o : Nat} (ho : o < b.length) :
    IsBoundary (instrWidth padded) o ↔ IsBoundary (instrWidth b) o :=
  isBoundary_congr (instrWidth_pos padded) (instrWidth_pos b)
    (fun p hp => by rw [instrWidth, instrWidth, getD_of_isPrefix h hp]) ho

theorem validJumpdest_iff {b : List UInt8} {o : Nat} (ho : o < b.length) :
    ValidJumpdest b o ↔ b.getD o 0 = jumpdestOp ∧ IsBoundary (instrWidth b) o := by
  rw [ValidJumpdest, isBoundary_iff_not_inside (instrWidth_pos b), List.getD_eq_getElem?_getD,
    List.getElem?_eq_getElem ho, Option.getD_some]
  exact ⟨fun ⟨_, hj, hin⟩ => ⟨hj, hin⟩, fun ⟨hj, hin⟩ => ⟨ho, hj, hin⟩⟩

structure BytecodePreprocessingData where
  originalBytecodeLen : Nat
  jumpdestBitmap : BitMap
deriving DecidableEq, Repr

variable (w) in
/-- `is_valid_jumpdest`, `none` where the bitmap read is past the allocation. -/
def BytecodePreprocessingData.isValidJumpdest (d : BytecodePreprocessingData) (offset : Nat) :
    Option Bool :=
  if offset ≥ d.originalBytecodeLen then some false
  else d.jumpdestBitmap.getBitUnchecked w offset

/-- On the bitmap of the padded code cut at the original length, `is_valid_jumpdest` is the EVM's
definition, every read inside the allocation. -/
theorem isValidJumpdest_spec (hw : 0 < w) {b padded : List UInt8} (h : b <+: padded) {bm : BitMap}
    (hbm : analyze w padded = some bm) (o : Nat) :
    ∃ v, (BytecodePreprocessingData.mk b.length bm).isValidJumpdest w o = some v ∧
      (v = true ↔ ValidJumpdest b o) := by
  obtain ⟨bm', hrun, hcap, hbits⟩ := analyze_spec hw padded
  obtain rfl : bm = bm' := Option.some_injective _ (hbm.symm.trans hrun)
  unfold BytecodePreprocessingData.isValidJumpdest
  dsimp only
  by_cases ho : o < b.length
  · -- the read is inside the allocation: `o < |b| ≤ |padded| ≤ words * w`
    have hword : o / w < bm.inner.length := by
      have := h.length_le
      rw [Nat.div_lt_iff_lt_mul hw]
      omega
    refine ⟨_, by rw [if_neg (by omega), BitMap.getBitUnchecked_of_lt hword], ?_⟩
    rw [hbits, validJumpdest_iff ho, ← isBoundary_padded h ho, ← getD_of_isPrefix h ho]
    exact ⟨fun ⟨_, _, hb, hj⟩ => ⟨hj, hb⟩,
      fun ⟨hj, hb⟩ => ⟨Nat.zero_le _, Nat.lt_of_lt_of_le ho h.length_le, hb, hj⟩⟩
  · refine ⟨false, by rw [if_pos (by omega)], ?_⟩
    exact ⟨nofun, fun ⟨ho', _⟩ => absurd ho' ho⟩

/-! ## `from_raw_bytecode` -/

/-- How `from_raw_bytecode` fails: a fatal error, or undefined behaviour in the scan. -/
inductive PreprocessingFault where
  | fatal (e : FatalError)
  | undefinedBehavior
deriving DecidableEq, Repr

/-- The error of the native charge of `from_raw_bytecode`. -/
def preprocessingChargeError : SystemError → FatalError
  | .internal e => .internal e
  | .outOfErgs => .internal ⟨"OOE when charging only native"⟩
  | .outOfNativeResources => .outOfNativeResources

variable (w) in
/-- `from_raw_bytecode`: charge `6` native per byte of the padded code (saturating), scan it, and
cut validity at the original length (`original_len: u32`, widened to `usize`). -/
def fromRawBytecode (paddedBytecode : List UInt8) (originalLen : Nat) (resources : Resources) :
    Resources × Except PreprocessingFault BytecodePreprocessingData :=
  let nativeCost := min (bytecodePreprocessingByteNativeCost * paddedBytecode.length) u64Max
  match resources.charge (Resources.fromNative nativeCost) with
  | (resources, .error e) => (resources, .error (.fatal (preprocessingChargeError e)))
  | (resources, .ok ()) =>
    match analyze w paddedBytecode with
    | some jumpMap => (resources, .ok ⟨originalLen, jumpMap⟩)
    | none => (resources, .error .undefinedBehavior)

theorem fromRawBytecode_eq (paddedBytecode : List UInt8) (originalLen : Nat) (r : Resources)
    {bm : BitMap} (hbm : analyze w paddedBytecode = some bm) :
    (∃ e, (fromRawBytecode w paddedBytecode originalLen r).2 = .error (.fatal e)) ∨
      (fromRawBytecode w paddedBytecode originalLen r).2 = .ok ⟨originalLen, bm⟩ := by
  unfold fromRawBytecode
  simp only [hbm]
  split
  · exact .inl ⟨_, rfl⟩
  · exact .inr rfl

/-- Jump-destination analysis is the EVM's at every offset, with no bitmap access outside the
allocation. -/
theorem is_valid_jumpdest_iff_evm_valid (hw : 0 < w) (b padded : List UInt8) (hpre : b <+: padded)
    (resources : Resources) :
    (fromRawBytecode w padded b.length resources).2 ≠ .error .undefinedBehavior ∧
      ∀ data, (fromRawBytecode w padded b.length resources).2 = .ok data →
        ∀ o, ∃ v, data.isValidJumpdest w o = some v ∧ (v = true ↔ ValidJumpdest b o) := by
  obtain ⟨bm, hbm, -, -⟩ := analyze_spec hw padded
  rcases fromRawBytecode_eq padded b.length resources hbm with ⟨e, he⟩ | hok
  · rw [he]
    exact ⟨nofun, nofun⟩
  · rw [hok]
    refine ⟨nofun, fun data hdata => ?_⟩
    cases hdata
    exact isValidJumpdest_spec hw hpre hbm

/-- A `PUSH1` whose immediate is a `JUMPDEST` byte, a `JUMPDEST`, and a `PUSH2` running past the
end, on 64-bit words. -/
theorem is_valid_jumpdest_iff_evm_valid_push_immediate :
    0 < 64 ∧ [0x60, 0x5B, 0x5B, 0x61] <+: ([0x60, 0x5B, 0x5B, 0x61, 0] : List UInt8) ∧
      ((fromRawBytecode 64 [0x60, 0x5B, 0x5B, 0x61, 0] 4 Resources.formalInfinite).2 ≠
          .error .undefinedBehavior ∧
        ∀ data, (fromRawBytecode 64 [0x60, 0x5B, 0x5B, 0x61, 0] 4 Resources.formalInfinite).2 =
            .ok data →
          ∀ o, ∃ v, data.isValidJumpdest 64 o = some v ∧
            (v = true ↔ ValidJumpdest [0x60, 0x5B, 0x5B, 0x61] o)) :=
  ⟨by decide, List.prefix_append _ _,
    is_valid_jumpdest_iff_evm_valid (by decide) [0x60, 0x5B, 0x5B, 0x61] [0x60, 0x5B, 0x5B, 0x61, 0]
      (List.prefix_append _ _) Resources.formalInfinite⟩

example : (fromRawBytecode 64 [0x60, 0x5B, 0x5B, 0x61, 0] 4 Resources.formalInfinite).2.toOption.map
    (fun d => (List.range 6).map (d.isValidJumpdest 64)) =
      some [some false, some false, some true, some false, some false, some false] := by
  decide +kernel

end ZksyncOs.Evm
