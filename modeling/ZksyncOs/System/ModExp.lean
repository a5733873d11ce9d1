import Mathlib
import ZksyncOs.System.Resources
import ZksyncOs.Lib.BigEndian
import ZksyncOs.Lib.Except

/-!
# The modexp system function

`basic_system::system_functions::modexp`: EIP-198's input, three 32-byte lengths and then the
base, the exponent and the modulus, each read as if the input went on with zeros; EIP-2565's
price, computed with checked `u64` arithmetic by `ergs_cost`, and charged in ergs and in native
(`MODEXP_WORST_CASE_NATIVE_PER_GAS` per ergs); the result left-padded to the modulus length.
`crypto::modexp::modexp` is a parameter of the model, as is the allocator.

* `ergsCost_eq` : `ergs_cost` is EIP-2565's gas in ergs, or `OutOfErgs` exactly when that does
  not fit in a `u64`, once the base or the modulus is not empty;
* `output_eq` : with a `modexp` that returns the minimal encoding, the output is the result in
  exactly as many bytes as the modulus has.
-/

namespace ZksyncOs

namespace ModExp

open Checked BigEndian

def modexpMinimalCostErgs : Nat := 200 * ergsPerGas

/-- `MODEXP_WORST_CASE_NATIVE_PER_GAS`: 200 with the `evm-compatibility` feature, 5600 without. -/
def modexpWorstCaseNativePerGas (evmCompatibility : Bool) : Nat :=
  if evmCompatibility then 200 else 5600

def headerLength : Nat := 96

/-- `resources_from_ergs`: native is the ergs times the native per gas, a `u64` product that wraps
in a release build. -/
def resourcesFromErgs (nativePerGas ergs : Nat) : Resources :=
  ⟨ergs, ergs * nativePerGas % 2 ^ 64⟩

/-- `n` bytes from `offset` on, zeros past the end: a zeroed buffer of `n` bytes filled through
`zip` from what an iterator has left. -/
def readPadded (bytes : List UInt8) (offset n : Nat) : List UInt8 :=
  (bytes.drop offset ++ List.replicate n 0).take n

/-- The `iteration_count` block of `ergs_cost`, with `bit_len` as `Nat.size`. -/
def ergsCostIterationCount (expSize expHighp : Nat) : Except SystemError Nat :=
  max 1 <$>
    if expSize ≤ 32 ∧ expHighp = 0 then pure 0
    else if expSize ≤ 32 then pure (Nat.size expHighp - 1)
    else do
      let bits ← okOr (checkedMul 64 8 (expSize - 32)) SystemError.outOfErgs
      let ic ← okOr (checkedAdd 64 bits (max 1 (Nat.size expHighp) - 1)) SystemError.outOfErgs
      pure ic.val

/-- `ergs_cost`: every overflow is `OutOfErgs`. -/
def ergsCost (baseSize expSize modSize expHighp : Nat) : Except SystemError Nat := do
  let maxLength := max baseSize modSize
  let words := (maxLength + 7) / 8
  let multiplicationComplexity ← okOr (checkedMul 64 words words) SystemError.outOfErgs
  let iterationCount ← ergsCostIterationCount expSize expHighp
  let computedGas ← okOr (checkedMul 64 multiplicationComplexity iterationCount) SystemError.outOfErgs
  -- `checked_div(3)` never fails
  let gas := max 200 (computedGas.val / 3)
  let ergs ← okOr (checkedMul 64 gas ergsPerGas) SystemError.outOfErgs
  pure ergs.val

/-- `modexp_as_system_function_inner` on a `usizeBits`-bit target: the resources after it, and the
bytes it appends. -/
def modexpAsSystemFunctionInner (usizeBits nativePerGas : Nat)
    (modexp : List UInt8 → List UInt8 → List UInt8 → List UInt8) (tryWithCapacity : Nat → Bool)
    (input : List UInt8) (resources : Resources) :
    Resources × Except SystemFunctionError (List UInt8) :=
  let minimalResources := resourcesFromErgs nativePerGas modexpMinimalCostErgs
  if !resources.hasEnough minimalResources then (resources, .error (.system .outOfErgs)) else
  -- one iterator over the input fills the three length buffers in turn
  let baseLen := ofBeBytes (readPadded input 0 32)
  let expLen := ofBeBytes (readPadded input 32 32)
  let modLen := ofBeBytes (readPadded input 64 32)
  if 2 ^ usizeBits ≤ baseLen then (resources, .error .invalidInput) else
  if 2 ^ usizeBits ≤ modLen then (resources, .error .invalidInput) else
  if baseLen = 0 ∧ modLen = 0 then
    match resources.charge minimalResources with
    | (r, .ok ()) => (r, .ok [])
    | (r, .error e) => (r, .error (.system e))
  else
  if 2 ^ usizeBits ≤ expLen then (resources, .error .invalidInput) else
  let expHighpLen := min expLen 32
  let input := input.drop headerLength
  -- the exponent's first bytes, right-padded from the input, left-padded to 32 bytes
  let expHighp := ofBeBytes (List.replicate (32 - expHighpLen) 0 ++ readPadded input baseLen expHighpLen)
  match ergsCost baseLen expLen modLen expHighp with
  | .error e => (resources, .error (.system e))
  | .ok ergs =>
    match resources.charge (resourcesFromErgs nativePerGas ergs) with
    | (r, .error e) => (r, .error (.system e))
    | (r, .ok ()) =>
      -- `tryWithCapacity n` is whether the allocator gives a vector of `n` bytes
      if !(tryWithCapacity baseLen && tryWithCapacity expLen && tryWithCapacity modLen) then
        (r, .error (.system (.internal ⟨"alloc"⟩)))
      else
        -- one iterator over the rest fills the base, the exponent and the modulus in turn
        let base := readPadded input 0 baseLen
        let exponent := readPadded input baseLen expLen
        let modulus := readPadded input (baseLen + expLen) modLen
        let output := modexp base exponent modulus
        -- the `usize` subtraction that pads the result wraps, as in a release build
        (r, .ok (List.replicate (wrappingSub usizeBits modLen output.length) 0 ++ output))

example : ergsCost 1 1 1 3 = .ok 51200 := by decide +kernel

/-! ## EIP-2565's price -/

/-- EIP-2565's iteration count: the bit length of the exponent's first 32 bytes less one (none
for a zero head), and 8 for each exponent byte past them. -/
def iterationCount (expLen expHead : Nat) : Nat :=
  if expLen ≤ 32 then Nat.size expHead - 1
  else 8 * (expLen - 32) + (max 1 (Nat.size expHead) - 1)

/-- EIP-2565's gas: the multiplication complexity times the iteration count, over 3, at least
200. -/
def eip2565Gas (baseLen expLen modLen expHead : Nat) : Nat :=
  max 200 (((max baseLen modLen + 7) / 8) ^ 2 * max 1 (iterationCount expLen expHead) / 3)

section ErgsCost

variable {baseLen expLen modLen expHead : Nat}

theorem eq_of_ergsCostIterationCount_eq_ok {n : Nat} (h : ergsCostIterationCount expLen expHead = .ok n) :
    n = max 1 (iterationCount expLen expHead) := by
  simp only [ergsCostIterationCount, Except.map_eq_ok] at h
  obtain ⟨ic, hic, rfl⟩ := h
  rw [iterationCount]
  -- the three branches of `iteration_count` all compute `iterationCount`
  split_ifs at hic with h0 h1
  · cases hic
    rw [if_pos h0.1, h0.2, Nat.size_zero]
  · cases hic
    rw [if_pos h1]
  · simp only [Except.bind_eq_ok, okOr_eq_ok_iff, Except.pure_eq_ok] at hic
    obtain ⟨bits, hbits, ic', hic', rfl⟩ := hic
    rw [if_neg h1, val_of_checkedAdd_eq_some hic', val_of_checkedMul_eq_some hbits]

theorem ergsCostIterationCount_of_lt (h : iterationCount expLen expHead < 2 ^ 64) :
    ergsCostIterationCount expLen expHead = pure (max 1 (iterationCount expLen expHead)) := by
  by_cases hE : expLen ≤ 32
  · rw [show iterationCount expLen expHead = Nat.size expHead - 1 from if_pos hE, ergsCostIterationCount]
    by_cases h0 : expHead = 0
    · rw [if_pos ⟨hE, h0⟩, h0, Nat.size_zero]
      rfl
    · rw [if_neg (fun h => h0 h.2), if_pos hE]
      rfl
  · rw [show iterationCount expLen expHead = 8 * (expLen - 32) + (max 1 (Nat.size expHead) - 1) from
      if_neg hE] at h ⊢
    have h8 : 8 * (expLen - 32) < 2 ^ 64 := by omega
    rw [ergsCostIterationCount, if_neg (fun h => hE h.1), if_neg hE, checkedMul_of_lt h8, okOr_some,
      pure_bind, checkedAdd_of_lt h, okOr_some, pure_bind]
    rfl

theorem throwsOnly_ergsCostIterationCount :
    Except.ThrowsOnly SystemError.outOfErgs (ergsCostIterationCount expLen expHead) :=
  .map _ <| .ite (.of_pure _) <| .ite (.of_pure _) <|
    .bind (.okOr _) fun _ => .bind (.okOr _) fun _ => .of_pure _

theorem eq_of_ergsCost_eq_ok {ergs : Nat} (h : ergsCost baseLen expLen modLen expHead = .ok ergs) :
    ergs = eip2565Gas baseLen expLen modLen expHead * ergsPerGas ∧ ergs < 2 ^ 64 := by
  simp only [ergsCost, Except.bind_eq_ok, okOr_eq_ok_iff, Except.pure_eq_ok] at h
  obtain ⟨mc, hmc, ic, hic, cg, hcg, e, he, rfl⟩ := h
  refine ⟨?_, e.isLt⟩
  rw [val_of_checkedMul_eq_some he, val_of_checkedMul_eq_some hcg, val_of_checkedMul_eq_some hmc,
    eq_of_ergsCostIterationCount_eq_ok hic, eip2565Gas, Nat.pow_two]

theorem throwsOnly_ergsCost :
    Except.ThrowsOnly SystemError.outOfErgs (ergsCost baseLen expLen modLen expHead) :=
  .bind (.okOr _) fun _ => .bind throwsOnly_ergsCostIterationCount fun _ =>
    .bind (.okOr _) fun _ => .bind (.okOr _) fun _ => .of_pure _

theorem ergsCost_eq_of_lt (h : 0 < max baseLen modLen)
    (hlt : eip2565Gas baseLen expLen modLen expHead * ergsPerGas < 2 ^ 64) :
    ergsCost baseLen expLen modLen expHead = .ok (eip2565Gas baseLen expLen modLen expHead * ergsPerGas) := by
  generalize hw : (max baseLen modLen + 7) / 8 = words
  generalize hm1 : max 1 (iterationCount expLen expHead) = m1
  have hG : max 200 (words * words * m1 / 3) = eip2565Gas baseLen expLen modLen expHead := by
    rw [eip2565Gas, hw, hm1, Nat.pow_two]
  -- the complexity and the iteration count are each at most their product, itself at most 3 gas
  have hw1 : 1 ≤ words := by omega
  have hwords : 1 ≤ words * words := Nat.mul_le_mul hw1 hw1
  have hww : words * words ≤ words * words * m1 := Nat.le_mul_of_pos_right _ (by omega)
  have hm1P : m1 ≤ words * words * m1 := Nat.le_mul_of_pos_left _ hwords
  have hP : words * words * m1 < 2 ^ 64 := by
    have := le_max_right 200 (words * words * m1 / 3)
    simp only [ergsPerGas] at hlt
    omega
  have hic : iterationCount expLen expHead < 2 ^ 64 := by omega
  rw [ergsCost]
  simp only [hw, checkedMul_of_lt (Nat.lt_of_le_of_lt hww hP), okOr_some, pure_bind,
    ergsCostIterationCount_of_lt hic, hm1, checkedMul_of_lt hP, hG, checkedMul_of_lt hlt]
  rfl

/-- `ergs_cost` of a base or a modulus is EIP-2565's gas in ergs, or `OutOfErgs` when that does
not fit in a `u64`. -/
theorem ergsCost_eq (h : 0 < max baseLen modLen) :
    ergsCost baseLen expLen modLen expHead =
      if eip2565Gas baseLen expLen modLen expHead * ergsPerGas < 2 ^ 64 then
        .ok (eip2565Gas baseLen expLen modLen expHead * ergsPerGas)
      else .error .outOfErgs := by
  split_ifs with hlt
  · exact ergsCost_eq_of_lt h hlt
  · rcases hc : ergsCost baseLen expLen modLen expHead with e | ergs
    · rw [throwsOnly_ergsCost e hc]
    · obtain ⟨he, hlt'⟩ := eq_of_ergsCost_eq_ok hc
      exact absurd (he ▸ hlt') hlt

end ErgsCost

/-! ## EIP-198's operands and result -/

/-- EIP-198's operands: three big-endian lengths in the first 96 bytes, then the base, the
exponent and the modulus of those lengths, the input read as if it went on with zeros. -/
structure Operands where
  baseLen : Nat
  expLen : Nat
  modLen : Nat
  base : List UInt8
  exp : List UInt8
  modulus : List UInt8

def operands (input : List UInt8) : Operands :=
  let baseLen := ofBeBytes (readPadded input 0 32)
  let expLen := ofBeBytes (readPadded input 32 32)
  let modLen := ofBeBytes (readPadded input 64 32)
  { baseLen, expLen, modLen
    base := readPadded input headerLength baseLen
    exp := readPadded input (headerLength + baseLen) expLen
    modulus := readPadded input (headerLength + baseLen + expLen) modLen }

/-- EIP-198's result: `base ^ exp mod modulus`, zero for a zero modulus. -/
def modexpValue (base exp modulus : Nat) : Nat :=
  if modulus = 0 then 0 else base ^ exp % modulus

/-- What `crypto::modexp::modexp` is trusted to return: the result, big-endian, no longer than the
modulus. -/
def Computes (modexp : List UInt8 → List UInt8 → List UInt8 → List UInt8) : Prop :=
  ∀ base exp modulus, ofBeBytes (modexp base exp modulus) =
      modexpValue (ofBeBytes base) (ofBeBytes exp) (ofBeBytes modulus) ∧
    (modexp base exp modulus).length ≤ modulus.length

/-- A `modexp` that `Computes`: the result in as many bytes as the modulus has. -/
def modexpReference (base exp modulus : List UInt8) : List UInt8 :=
  toBeBytes modulus.length (modexpValue (ofBeBytes base) (ofBeBytes exp) (ofBeBytes modulus))

theorem computes_modexpReference : Computes modexpReference := by
  intro base exp modulus
  refine ⟨ofBeBytes_toBeBytes_of_lt ?_, by rw [modexpReference, length_toBeBytes]⟩
  -- the result is below the modulus, itself below `256 ^ modulus.length`
  rw [modexpValue]
  split_ifs with hm
  · exact Nat.two_pow_pos _ |>.trans_le (Nat.pow_le_pow_left (by decide) _)
  · exact Nat.lt_trans (Nat.mod_lt _ (Nat.pos_of_ne_zero hm)) (ofBeBytes_lt modulus)

@[simp] theorem length_readPadded (bytes : List UInt8) (offset n : Nat) :
    (readPadded bytes offset n).length = n := by
  simp [readPadded]

theorem readPadded_drop (bytes : List UInt8) (a b n : Nat) :
    readPadded (bytes.drop a) b n = readPadded bytes (a + b) n := by
  rw [readPadded, readPadded, List.drop_drop]

theorem take_readPadded (bytes : List UInt8) (offset n k : Nat) :
    (readPadded bytes offset n).take k = readPadded bytes offset (min n k) := by
  rw [readPadded, readPadded, List.take_take, List.take_append, List.take_append, List.take_replicate,
    List.take_replicate, Nat.min_comm k n]
  -- both pad with the zeros the bytes left fall short of `min n k`
  congr 2
  omega

/-- The padding of the result: `modexp`'s bytes after as many zeros as the modulus has more
bytes. -/
theorem output_eq {modexp : List UInt8 → List UInt8 → List UInt8 → List UInt8} (hmodexp : Computes modexp)
    {usizeBits : Nat} (base exp modulus : List UInt8) (hlen : modulus.length < 2 ^ usizeBits) :
    List.replicate (wrappingSub usizeBits modulus.length (modexp base exp modulus).length) 0 ++
        modexp base exp modulus =
      toBeBytes modulus.length (modexpValue (ofBeBytes base) (ofBeBytes exp) (ofBeBytes modulus)) := by
  obtain ⟨hval, hle⟩ := hmodexp base exp modulus
  rw [wrappingSub_of_le hle hlen, ← hval, ← Nat.sub_add_cancel hle,
    toBeBytes_of_lt _ (ofBeBytes_lt _), toBeBytes_ofBeBytes, Nat.add_sub_cancel]

theorem ofBeBytes_expHighp (input : List UInt8) (baseLen expLen : Nat) :
    ofBeBytes (List.replicate (32 - min expLen 32) 0 ++
        readPadded (input.drop headerLength) baseLen (min expLen 32)) =
      ofBeBytes ((readPadded input (headerLength + baseLen) expLen).take 32) := by
  rw [ofBeBytes_replicate_append, readPadded_drop, take_readPadded]

/-! ## A run -/

section Run

variable {usizeBits nativePerGas : Nat} {modexp : List UInt8 → List UInt8 → List UInt8 → List UInt8}
  {tryWithCapacity : Nat → Bool} {input : List UInt8} {resources : Resources}

theorem modexpAsSystemFunctionInner_of_not_hasEnough
    (h : resources.hasEnough (resourcesFromErgs nativePerGas modexpMinimalCostErgs) = false) :
    modexpAsSystemFunctionInner usizeBits nativePerGas modexp tryWithCapacity input resources =
      (resources, .error (.system .outOfErgs)) := by
  simp [modexpAsSystemFunctionInner, h]

theorem modexpAsSystemFunctionInner_of_zero_lengths
    (h : resources.hasEnough (resourcesFromErgs nativePerGas modexpMinimalCostErgs) = true)
    (hB : (operands input).baseLen = 0) (hM : (operands input).modLen = 0) :
    modexpAsSystemFunctionInner usizeBits nativePerGas modexp tryWithCapacity input resources =
      ((resources.charge (resourcesFromErgs nativePerGas modexpMinimalCostErgs)).1, .ok []) := by
  simp only [operands] at hB hM
  have hc := h
  simp only [Resources.hasEnough, Bool.and_eq_true, decide_eq_true_eq] at hc
  simp [modexpAsSystemFunctionInner, h, hB, hM, Resources.charge_of_le hc.2 hc.1]

theorem modexpAsSystemFunctionInner_of_lengths (hmodexp : Computes modexp)
    (h : resources.hasEnough (resourcesFromErgs nativePerGas modexpMinimalCostErgs) = true)
    (hpos : 0 < max (operands input).baseLen (operands input).modLen)
    (hB : (operands input).baseLen < 2 ^ usizeBits) (hE : (operands input).expLen < 2 ^ usizeBits)
    (hM : (operands input).modLen < 2 ^ usizeBits) :
    modexpAsSystemFunctionInner usizeBits nativePerGas modexp tryWithCapacity input resources =
      match ergsCost (operands input).baseLen (operands input).expLen (operands input).modLen
          (ofBeBytes ((operands input).exp.take 32)) with
      | .error e => (resources, .error (.system e))
      | .ok ergs =>
        match resources.charge (resourcesFromErgs nativePerGas ergs) with
        | (r, .error e) => (r, .error (.system e))
        | (r, .ok ()) =>
          (r, if tryWithCapacity (operands input).baseLen && tryWithCapacity (operands input).expLen &&
              tryWithCapacity (operands input).modLen then
            .ok (toBeBytes (operands input).modLen (modexpValue (ofBeBytes (operands input).base)
              (ofBeBytes (operands input).exp) (ofBeBytes (operands input).modulus)))
          else .error (.system (.internal ⟨"alloc"⟩))) := by
  simp only [operands] at hpos hB hE hM ⊢
  have hnz : ¬(ofBeBytes (readPadded input 0 32) = 0 ∧ ofBeBytes (readPadded input 64 32) = 0) := by
    omega
  simp only [modexpAsSystemFunctionInner, h, Bool.not_true, Bool.false_eq_true, if_false,
    Nat.not_le.mpr hB, Nat.not_le.mpr hE, Nat.not_le.mpr hM, hnz, ofBeBytes_expHighp]
  have hout := output_eq hmodexp (readPadded input headerLength (ofBeBytes (readPadded input 0 32)))
    (readPadded input (headerLength + ofBeBytes (readPadded input 0 32)) (ofBeBytes (readPadded input 32 32)))
    (readPadded input (headerLength + ofBeBytes (readPadded input 0 32) + ofBeBytes (readPadded input 32 32))
      (ofBeBytes (readPadded input 64 32))) (by rw [length_readPadded]; exact hM)
  rw [length_readPadded] at hout
  simp only [readPadded_drop, Nat.add_zero, ← Nat.add_assoc, hout]
  split
  · rfl
  · split
    · rfl
    · by_cases hall : (tryWithCapacity (ofBeBytes (readPadded input 0 32)) &&
          tryWithCapacity (ofBeBytes (readPadded input 32 32)) &&
          tryWithCapacity (ofBeBytes (readPadded input 64 32))) = true <;>
        simp only [hall, Bool.not_true, Bool.not_false, if_true, if_false,
          Bool.false_eq_true]

end Run

theorem resourcesFromErgs_minimal (evmCompatibility : Bool) :
    resourcesFromErgs (modexpWorstCaseNativePerGas evmCompatibility) modexpMinimalCostErgs =
      ⟨200 * ergsPerGas, 200 * ergsPerGas * modexpWorstCaseNativePerGas evmCompatibility⟩ := by
  cases evmCompatibility <;> decide

theorem modexp_eip198_input_eip2565_price_with_native (usizeBits : Nat) (evmCompatibility : Bool)
    {modexp : List UInt8 → List UInt8 → List UInt8 → List UInt8} (hmodexp : Computes modexp)
    (tryWithCapacity : Nat → Bool) (input : List UInt8) (resources : Resources) :
    let nativePerGas := modexpWorstCaseNativePerGas evmCompatibility
    let x := operands input
    let result := modexpAsSystemFunctionInner usizeBits nativePerGas modexp tryWithCapacity input resources
    let ergs := eip2565Gas x.baseLen x.expLen x.modLen (ofBeBytes (x.exp.take 32)) * ergsPerGas
    let native := ergs * nativePerGas
    ((resources.ergs < 200 * ergsPerGas ∨ resources.native < 200 * ergsPerGas * nativePerGas) →
      result = (resources, .error (.system .outOfErgs))) ∧
    (200 * ergsPerGas ≤ resources.ergs → 200 * ergsPerGas * nativePerGas ≤ resources.native →
      x.baseLen = 0 → x.modLen = 0 →
      result = (⟨resources.ergs - 200 * ergsPerGas, resources.native - 200 * ergsPerGas * nativePerGas⟩,
        .ok [])) ∧
    (200 * ergsPerGas ≤ resources.ergs → 200 * ergsPerGas * nativePerGas ≤ resources.native →
      0 < max x.baseLen x.modLen → x.baseLen < 2 ^ usizeBits → x.expLen < 2 ^ usizeBits →
      x.modLen < 2 ^ usizeBits →
      (2 ^ 64 ≤ ergs → result = (resources, .error (.system .outOfErgs))) ∧
      (native < 2 ^ 64 → resources.native < native →
        result = ((resources.charge ⟨ergs, native⟩).1, .error (.system .outOfNativeResources))) ∧
      (native < 2 ^ 64 → native ≤ resources.native → resources.ergs < ergs →
        result = ((resources.charge ⟨ergs, native⟩).1, .error (.system .outOfErgs))) ∧
      (native < 2 ^ 64 → native ≤ resources.native → ergs ≤ resources.ergs →
        result = (⟨resources.ergs - ergs, resources.native - native⟩,
          if tryWithCapacity x.baseLen && tryWithCapacity x.expLen && tryWithCapacity x.modLen then
            .ok (toBeBytes x.modLen (modexpValue (ofBeBytes x.base) (ofBeBytes x.exp) (ofBeBytes x.modulus)))
          else .error (.system (.internal ⟨"alloc"⟩))))) := by
  intro nativePerGas x result ergs native
  have hmin := resourcesFromErgs_minimal evmCompatibility
  have henough : ∀ {a b : Nat}, a ≤ resources.ergs → b ≤ resources.native →
      resources.hasEnough ⟨a, b⟩ = true := by
    intro a b ha hb
    simp [Resources.hasEnough, ha, hb]
  refine ⟨fun hshort => ?_, fun he hn hB hM => ?_, fun he hn hpos hB hE hM => ?_⟩
  · apply modexpAsSystemFunctionInner_of_not_hasEnough
    rw [hmin]
    simp only [Resources.hasEnough, Bool.and_eq_false_iff, decide_eq_false_iff_not, Nat.not_le]
    exact hshort
  · rw [show result = _ from modexpAsSystemFunctionInner_of_zero_lengths (hmin ▸ henough he hn) hB hM,
      hmin, Resources.charge_of_le hn he]
  · have hrun : result = _ := modexpAsSystemFunctionInner_of_lengths hmodexp (hmin ▸ henough he hn) hpos
      hB hE hM
    rw [ergsCost_eq hpos] at hrun
    -- below `2 ^ 64` the `u64` product of `resources_from_ergs` does not wrap
    have hnpg : 1 ≤ nativePerGas := by cases evmCompatibility <;> decide
    have hlt_of : native < 2 ^ 64 → ergs < 2 ^ 64 := fun hnl =>
      lt_of_le_of_lt (Nat.le_mul_of_pos_right ergs hnpg) hnl
    refine ⟨fun hge => ?_, fun hnl hnat => ?_, fun hnl hnat herg => ?_, fun hnl hnat herg => ?_⟩
    · rw [hrun, if_neg (Nat.not_lt.mpr hge)]
    · have hc : resources.charge ⟨ergs, native⟩ =
          ((resources.charge ⟨ergs, native⟩).1, .error .outOfNativeResources) :=
        Prod.ext rfl (Resources.charge_of_native_lt hnat)
      rw [hrun, if_pos (hlt_of hnl)]
      simp only [resourcesFromErgs]
      rw [Nat.mod_eq_of_lt hnl]
      rw [hc]
    · have hc : resources.charge ⟨ergs, native⟩ =
          ((resources.charge ⟨ergs, native⟩).1, .error .outOfErgs) :=
        Prod.ext rfl (Resources.charge_of_ergs_lt hnat herg)
      rw [hrun, if_pos (hlt_of hnl)]
      simp only [resourcesFromErgs]
      rw [Nat.mod_eq_of_lt hnl]
      rw [hc]
    · rw [hrun, if_pos (hlt_of hnl)]
      simp only [resourcesFromErgs]
      rw [Nat.mod_eq_of_lt hnl]
      rw [Resources.charge_of_le hnat herg]

theorem modexp_eip198_input_eip2565_price_with_native_three_squared_mod_five :
    Computes modexpReference ∧
      modexpAsSystemFunctionInner 64 (modexpWorstCaseNativePerGas false) modexpReference (fun _ => true)
          (toBeBytes 32 1 ++ toBeBytes 32 1 ++ toBeBytes 32 1 ++ [3, 2, 5]) ⟨1000000, 1000000000⟩ =
        (⟨1000000 - 51200, 1000000000 - 51200 * 5600⟩, .ok [4]) :=
  ⟨computes_modexpReference,
    ((modexp_eip198_input_eip2565_price_with_native 64 false computes_modexpReference (fun _ => true)
      (toBeBytes 32 1 ++ toBeBytes 32 1 ++ toBeBytes 32 1 ++ [3, 2, 5]) ⟨1000000, 1000000000⟩).2.2
      (by decide) (by decide) (by decide +kernel) (by decide +kernel) (by decide +kernel)
      (by decide +kernel)).2.2.2 (by decide +kernel) (by decide +kernel) (by decide +kernel) |>.trans
      (by decide +kernel)⟩

/-- With the ergs for 200 gas but no native, an empty call fails: `has_enough` asks for both. -/
theorem modexp_without_native_fails_at_two_hundred_gas (usizeBits : Nat) (evmCompatibility : Bool)
    (modexp : List UInt8 → List UInt8 → List UInt8 → List UInt8) (tryWithCapacity : Nat → Bool) :
    modexpAsSystemFunctionInner usizeBits (modexpWorstCaseNativePerGas evmCompatibility) modexp
        tryWithCapacity [] ⟨200 * ergsPerGas, 0⟩ =
      (⟨200 * ergsPerGas, 0⟩, .error (.system .outOfErgs)) := by
  apply modexpAsSystemFunctionInner_of_not_hasEnough
  rw [resourcesFromErgs_minimal]
  cases evmCompatibility <;> decide

/-- On a 32-bit target and with any `modexp`, an EIP-198 call with the ergs of its minimum price and
no native fails. -/
theorem modexp_fails_with_ergs_for_two_hundred_gas_and_no_native :
    modexpAsSystemFunctionInner 32 (modexpWorstCaseNativePerGas true) (fun _ _ _ => [])
        (fun _ => true) [] ⟨200 * ergsPerGas, 0⟩ =
      (⟨200 * ergsPerGas, 0⟩, .error (.system .outOfErgs)) :=
  modexp_without_native_fails_at_two_hundred_gas 32 true _ _

end ModExp

end ZksyncOs
