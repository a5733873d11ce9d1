import Mathlib
import ZksyncOs.System.Types

/-!
# Value diff compression

`ValueDiffCompressionStrategy` of `zk_ee::common_structs::pubdata_compression`: how the published
state diff encodes a 32-byte value given the value it replaces. A metadata byte holds the strategy
in its low three bits and the payload length above them:

* `nothing` : the final value in full (32 bytes);
* `add`, `sub` : the difference to the initial value, without leading zero bytes;
* `transform` : the final value without leading zero bytes.

* `compressionLength`, `compress` : the length a strategy needs, and the bytes it writes (to the
  pubdata hasher and the result keeper alike), failing exactly when the length is `none`
  (`compress_isOk_iff`, `length_compress`);
* `optimalCompressionLengthU256`, `optimalCompressionU256` : the shortest strategy, and its bytes;
  `compress_optimalStrategy` : the strategy chosen always applies, and
  `length_optimalCompressionU256` : the estimate the caches charge for is the length written;
* `decompress` : the reading of the format; `decompress_compress` : every applicable strategy
  gives back the final value and leaves the following bytes alone.
-/

namespace ZksyncOs

open BigEndian

inductive ValueDiffCompressionStrategy where
  | nothing
  | add
  | sub
  | transform
deriving DecidableEq, Repr

namespace ValueDiffCompressionStrategy

/-- `U256::overflowing_sub`: the wrapped difference and whether it wrapped. -/
def overflowingSub (a b : U256) : U256 × Bool := (a - b, decide (a.val < b.val))

/-- `bit_len().next_multiple_of(8) / 8`: the bytes of a value without leading zero bytes. -/
def payloadLength (v : U256) : Nat := byteLen v.val

/-- `compression_length`: metadata byte and payload, if the strategy applies. -/
def compressionLength : ValueDiffCompressionStrategy → U256 → U256 → Option Nat
  | .nothing, _, _ => some 33
  | .add, initialValue, finalValue =>
    let (result, of) := overflowingSub finalValue initialValue
    let length := payloadLength result
    if of || length == 32 then none else some (length + 1)
  | .sub, initialValue, finalValue =>
    let (result, of) := overflowingSub initialValue finalValue
    let length := payloadLength result
    if of || length == 32 then none else some (length + 1)
  | .transform, _, finalValue =>
    let length := payloadLength finalValue
    if length == 32 then none else some (length + 1)

/-- The metadata byte `(length << 3) | tag`. -/
def metadataByte (length tag : Nat) : UInt8 := UInt8.ofNat length <<< 3 ||| UInt8.ofNat tag

/-- `result.to_be_bytes::<32>()[32 - length..]`. -/
def payload (length : Nat) (v : U256) : List UInt8 := (toBeBytes 32 v.val).drop (32 - length)

/-- `compress`: the bytes written, metadata byte first. -/
def compress : ValueDiffCompressionStrategy → U256 → U256 → Except Unit (List UInt8)
  | .nothing, _, finalValue => .ok ([0] ++ toBeBytes 32 finalValue.val)
  | .add, initialValue, finalValue =>
    let (result, of) := overflowingSub finalValue initialValue
    let length := payloadLength result
    if of || length == 32 then .error ()
    else .ok ([metadataByte length 1] ++ payload length result)
  | .sub, initialValue, finalValue =>
    let (result, of) := overflowingSub initialValue finalValue
    let length := payloadLength result
    if of || length == 32 then .error ()
    else .ok ([metadataByte length 2] ++ payload length result)
  | .transform, _, finalValue =>
    let length := payloadLength finalValue
    if length == 32 then .error ()
    else .ok ([metadataByte length 3] ++ payload length finalValue)

/-- One step of `optimal_compression_length_u256`: keep the least length. -/
def lengthStep (initialValue finalValue : U256) (optimal : Nat) (s : ValueDiffCompressionStrategy) :
    Nat :=
  match s.compressionLength initialValue finalValue with
  | some length => min optimal length
  | none => optimal

/-- `optimal_compression_length_u256`: the least length over the strategies that apply, starting
from `nothing`, which always does. -/
def optimalCompressionLengthU256 (initialValue finalValue : U256) : Nat :=
  [ValueDiffCompressionStrategy.add, .sub, .transform].foldl (lengthStep initialValue finalValue) 33

/-- One step of `optimal_compression_u256`: a strictly shorter strategy replaces the best one. -/
def strategyStep (initialValue finalValue : U256) (best : ValueDiffCompressionStrategy × Nat)
    (s : ValueDiffCompressionStrategy) : ValueDiffCompressionStrategy × Nat :=
  match s.compressionLength initialValue finalValue with
  | some length => if length < best.2 then (s, length) else best
  | none => best

/-- The strategy and length `optimal_compression_u256` settles on. -/
def optimalChoice (initialValue finalValue : U256) : ValueDiffCompressionStrategy × Nat :=
  [ValueDiffCompressionStrategy.add, .sub, .transform].foldl (strategyStep initialValue finalValue)
    (.nothing, 33)

/-- The strategy `optimal_compression_u256` picks. -/
def optimalStrategy (initialValue finalValue : U256) : ValueDiffCompressionStrategy :=
  (optimalChoice initialValue finalValue).1

/-- `optimal_compression_u256`: the bytes of the chosen strategy (the source's `unwrap`; the
strategy always applies, `compress_optimalStrategy`). -/
def optimalCompressionU256 (initialValue finalValue : U256) : List UInt8 :=
  match (optimalStrategy initialValue finalValue).compress initialValue finalValue with
  | .ok bytes => bytes
  | .error _ => []

/-! ## Reading the format -/

/-- The value a payload `v` with strategy tag `tag` stands for, against `initialValue`. -/
def applyDiff (initialValue v : U256) : Nat → Option U256
  | 1 => some (initialValue + v)
  | 2 => some (initialValue - v)
  | 3 => some v
  | _ => none

theorem metadataByte_fields :
    ∀ length < 32, ∀ tag < 8,
      (metadataByte length tag >>> 3).toNat = length ∧ (metadataByte length tag &&& 7).toNat = tag := by
  decide

theorem payloadLength_lt (v : U256) : payloadLength v ≤ 32 := by
  rw [payloadLength, byteLen_le_iff]
  exact v.isLt

@[simp] theorem length_payload {length : Nat} (h : length ≤ 32) (v : U256) :
    (payload length v).length = length := by
  simp only [payload, List.length_drop, length_toBeBytes]
  omega

theorem ofBeBytes_payload (v : U256) :
    ofBeBytes (payload (payloadLength v) v) = v.val := by
  rw [payload, drop_toBeBytes (payloadLength_lt v)]
  exact ofBeBytes_toBeBytes_of_lt (lt_pow_byteLen v.val)

theorem ofNat_ofBeBytes_payload (v : U256) :
    (Fin.ofNat (2 ^ 256) (ofBeBytes (payload (payloadLength v) v)) : U256) = v := by
  rw [ofBeBytes_payload]
  exact Fin.ofNat_val_eq_self v

theorem ofNat_ofBeBytes_toBeBytes (v : U256) :
    (Fin.ofNat (2 ^ 256) (ofBeBytes (toBeBytes 32 v.val)) : U256) = v := by
  rw [ofBeBytes_toBeBytes_of_lt (U256.val_lt v)]
  exact Fin.ofNat_val_eq_self v

/-- A strategy writes exactly when it has a length. -/
theorem compress_isOk_iff (s : ValueDiffCompressionStrategy) (i f : U256) :
    (∃ bytes, s.compress i f = .ok bytes) ↔ (s.compressionLength i f).isSome := by
  cases s with
  | nothing => simp [compress, compressionLength]
  | add | sub | transform =>
    simp only [compress, compressionLength]
    split_ifs <;> simp

/-- What a strategy writes is as long as its length says. -/
theorem length_compress {s : ValueDiffCompressionStrategy} {i f : U256} {bytes : List UInt8}
    (h : s.compress i f = .ok bytes) : s.compressionLength i f = some bytes.length := by
  cases s with
  | nothing =>
    cases h
    simp [compressionLength]
  | add | sub | transform =>
    simp only [compress, compressionLength] at h ⊢
    split_ifs at h ⊢
    cases h
    simp [payloadLength_lt, Nat.add_comm]

/-! ## The optimal strategy -/

section Optimal

variable (i f : U256)

theorem foldl_strategyStep (l : List ValueDiffCompressionStrategy) (best : ValueDiffCompressionStrategy × Nat)
    (hbest : best.1.compressionLength i f = some best.2) :
    (l.foldl (strategyStep i f) best).1.compressionLength i f = some (l.foldl (strategyStep i f) best).2 ∧
      (l.foldl (strategyStep i f) best).2 = l.foldl (lengthStep i f) best.2 := by
  induction l generalizing best with
  | nil => exact ⟨hbest, rfl⟩
  | cons s l ih =>
    simp only [List.foldl_cons]
    have hstep : (strategyStep i f best s).1.compressionLength i f = some (strategyStep i f best s).2 ∧
        (strategyStep i f best s).2 = lengthStep i f best.2 s := by
      unfold strategyStep lengthStep
      cases hs : s.compressionLength i f with
      | none => exact ⟨hbest, rfl⟩
      | some length =>
        by_cases hlt : length < best.2
        · simp only [hlt, if_true]
          exact ⟨hs, (Nat.min_eq_right (Nat.le_of_lt hlt)).symm⟩
        · simp only [hlt, if_false]
          exact ⟨hbest, (Nat.min_eq_left (Nat.le_of_not_lt hlt)).symm⟩
    rw [← hstep.2]
    exact ih _ hstep.1

theorem compressionLength_optimalStrategy :
    (optimalStrategy i f).compressionLength i f = some (optimalCompressionLengthU256 i f) := by
  obtain ⟨h, hlen⟩ := foldl_strategyStep i f [.add, .sub, .transform] (.nothing, 33) rfl
  rw [optimalStrategy, optimalChoice, h, hlen]
  rfl

/-- The `unwrap` of `optimal_compression_u256` never fails. -/
theorem compress_optimalStrategy :
    (optimalStrategy i f).compress i f = .ok (optimalCompressionU256 i f) := by
  obtain ⟨bytes, hb⟩ := (compress_isOk_iff (optimalStrategy i f) i f).mpr
    (by rw [compressionLength_optimalStrategy]; rfl)
  rw [optimalCompressionU256, hb]

/-- The estimate the caches charge for is the length of what `finish` writes. -/
theorem length_optimalCompressionU256 :
    (optimalCompressionU256 i f).length = optimalCompressionLengthU256 i f := by
  have h := length_compress (compress_optimalStrategy i f)
  rw [compressionLength_optimalStrategy] at h
  exact (Option.some.inj h).symm

theorem foldl_lengthStep_le (l : List ValueDiffCompressionStrategy) (start : Nat) :
    l.foldl (lengthStep i f) start ≤ start ∧
      ∀ s ∈ l, ∀ length, s.compressionLength i f = some length →
        l.foldl (lengthStep i f) start ≤ length := by
  induction l generalizing start with
  | nil => simp
  | cons s l ih =>
    have hstep : lengthStep i f start s ≤ start := by
      unfold lengthStep
      split <;> omega
    obtain ⟨hle, hmem⟩ := ih (lengthStep i f start s)
    refine ⟨Nat.le_trans hle hstep, ?_⟩
    intro t ht length hlen
    rcases List.mem_cons.mp ht with rfl | ht
    · have : lengthStep i f start t ≤ length := by
        simp only [lengthStep, hlen]
        omega
      exact Nat.le_trans hle this
    · exact hmem t ht length hlen

theorem optimalCompressionLengthU256_le (s : ValueDiffCompressionStrategy) {length : Nat}
    (h : s.compressionLength i f = some length) : optimalCompressionLengthU256 i f ≤ length := by
  obtain ⟨hle, hmem⟩ := foldl_lengthStep_le i f [.add, .sub, .transform] 33
  cases s with
  | nothing =>
    simp only [compressionLength, Option.some.injEq] at h
    subst h
    exact hle
  | add | sub | transform => exact hmem _ (by simp) length h

end Optimal

/-! ## Round trip -/

theorem compress_tagged {s : ValueDiffCompressionStrategy} {i f : U256} {bytes : List UInt8}
    (h : s.compress i f = .ok bytes) (hs : s ≠ .nothing) :
    ∃ v tag, payloadLength v ≠ 32 ∧ 0 < tag ∧ tag ≤ 3 ∧ applyDiff i v tag = some f ∧
      bytes = [metadataByte (payloadLength v) tag] ++ payload (payloadLength v) v := by
  cases s with
  | nothing => exact absurd rfl hs
  | add =>
    unfold compress at h
    dsimp only [overflowingSub] at h
    split_ifs at h with hc
    cases h
    simp only [Bool.or_eq_true, decide_eq_true_eq, beq_iff_eq, not_or] at hc
    exact ⟨f - i, 1, hc.2, by decide, by decide, by rw [applyDiff, add_sub_cancel], rfl⟩
  | sub =>
    unfold compress at h
    dsimp only [overflowingSub] at h
    split_ifs at h with hc
    cases h
    simp only [Bool.or_eq_true, decide_eq_true_eq, beq_iff_eq, not_or] at hc
    exact ⟨i - f, 2, hc.2, by decide, by decide, by rw [applyDiff, sub_sub_cancel], rfl⟩
  | transform =>
    simp only [compress] at h
    split_ifs at h with hc
    cases h
    simp only [beq_iff_eq] at hc
    exact ⟨f, 3, hc, by decide, by decide, rfl, rfl⟩

/-- The optimal compression is a metadata byte naming the strategy, then the final value or a
payload the strategy applies. -/
theorem optimalCompressionU256_layout (i f : U256) :
    ∃ m rest, optimalCompressionU256 i f = m :: rest ∧ (m &&& 7).toNat ≤ 3 ∧
      ((m &&& 7).toNat = 0 → (optimalCompressionU256 i f).length = 33 ∧
        (Fin.ofNat _ (ofBeBytes rest) : U256) = f) ∧
      (0 < (m &&& 7).toNat → (m >>> 3).toNat = (optimalCompressionU256 i f).length - 1 ∧
        applyDiff i (Fin.ofNat _ (ofBeBytes rest)) (m &&& 7).toNat = some f) := by
  have hc := compress_optimalStrategy i f
  by_cases hs : optimalStrategy i f = .nothing
  · -- the final value in full after a zero metadata byte
    rw [hs] at hc
    simp only [compress, Except.ok.injEq] at hc
    rw [← hc]
    refine ⟨0, toBeBytes 32 f.val, List.singleton_append, by decide, fun _ => ⟨?_, ofNat_ofBeBytes_toBeBytes f⟩,
      fun h => absurd h (by decide)⟩
    simp
  · obtain ⟨v, tag, hl, ht0, ht, hf, hb⟩ := compress_tagged hc hs
    have hl' : payloadLength v < 32 := Nat.lt_of_le_of_ne (payloadLength_lt v) hl
    obtain ⟨hshift, htag⟩ := metadataByte_fields _ hl' tag (by omega)
    rw [hb]
    refine ⟨metadataByte (payloadLength v) tag, payload (payloadLength v) v, rfl, by omega,
      fun h => by omega, fun _ => ⟨?_, ?_⟩⟩
    · simp [hshift, length_payload (Nat.le_of_lt hl') v]
    · rw [htag, ofNat_ofBeBytes_payload, hf]

/-- `optimal_compression_u256` writes a code that reads back, as short as any strategy that applies.
-/
theorem optimal_compression_u256_is_optimal_code (i f : U256) :
    (optimalCompressionU256 i f).length = optimalCompressionLengthU256 i f ∧
      (∃ m rest, optimalCompressionU256 i f = m :: rest ∧ (m &&& 7).toNat ≤ 3 ∧
        ((m &&& 7).toNat = 0 → (optimalCompressionU256 i f).length = 33 ∧
          (Fin.ofNat _ (ofBeBytes rest) : U256) = f) ∧
        (0 < (m &&& 7).toNat → (m >>> 3).toNat = (optimalCompressionU256 i f).length - 1 ∧
          applyDiff i (Fin.ofNat _ (ofBeBytes rest)) (m &&& 7).toNat = some f)) ∧
      (∃ s : ValueDiffCompressionStrategy,
        s.compressionLength i f = some (optimalCompressionLengthU256 i f)) ∧
      ∀ (s : ValueDiffCompressionStrategy) (length : Nat), s.compressionLength i f = some length →
        optimalCompressionLengthU256 i f ≤ length :=
  ⟨length_optimalCompressionU256 i f, optimalCompressionU256_layout i f,
    ⟨_, compressionLength_optimalStrategy i f⟩,
    fun s _ h => optimalCompressionLengthU256_le i f s h⟩

end ValueDiffCompressionStrategy

end ZksyncOs
