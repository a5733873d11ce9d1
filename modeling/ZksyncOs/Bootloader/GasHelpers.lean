import Mathlib
import ZksyncOs.Bootloader.Transaction
import ZksyncOs.System.Resources

/-!
# Gas helpers of the bootloader

`basic_bootloader::bootloader::gas_helpers` and the constants it reads:

* `getResourcesForTx` : the ergs and native a transaction starts with, after the intrinsic costs
  and the calldata, and the native withheld above `MAX_NATIVE_COMPUTATIONAL`;
* `getResourcesToChargeForPubdata`, `checkEnoughResourcesForPubdata` : the native owed for the
  pubdata a transaction used beyond a base. The subtraction `net_pubdata_used() - base` is the
  plain `u64` `-` of a release build: below the base it wraps (`getResourcesToChargeForPubdata_of_lt`).

`usize` is 32 bits wide, as on the prover's target.
-/

namespace ZksyncOs

open Checked

/-- `MAX_BLOCK_GAS_LIMIT`: the most gas whose ergs fit in a `u64`. -/
def maxBlockGasLimit : Nat := u64Max / ergsPerGas

def l2TxIntrinsicGas : Nat := 18000

def l2TxIntrinsicPubdata : Nat := 0

def l2TxIntrinsicNativeCost : Nat := 4000

def calldataZeroByteGasCost : Nat := 4

def calldataNonZeroByteGasCost : Nat := 16

def copyByteNativeCost : Nat := 1

def maxNativeComputational : Nat := 2 ^ 36

def u256ToU64Saturated (v : U256) : Nat := min v.val u64Max

/-- `cost_for_calldata`: the gas and the native of the calldata. -/
def costForCalldata (calldata : List UInt8) : Except InternalError (Nat × Nat) := do
  let zeroBytes := calldata.countP (· == 0)
  let nonZeroBytes := calldata.length - zeroBytes
  let zeroCost ← okOr (checkedMul 32 zeroBytes calldataZeroByteGasCost) (InternalError.mk "zb*CZBGC")
  let nonZeroCost ← okOr (checkedMul 32 nonZeroBytes calldataNonZeroByteGasCost) (InternalError.mk "nzb*CNZBGC")
  let gasCost ← okOr (checkedAdd 32 zeroCost.val nonZeroCost.val) (InternalError.mk "zc+nzc")
  let nativeCost ← okOr (checkedMul 64 calldata.length copyByteNativeCost) (InternalError.mk "cl*CBNC")
  pure (gasCost.val, nativeCost.val)

/-- `get_resources_for_tx`: the resources of the transaction and those withheld from it. -/
def getResourcesForTx (gasLimit : Nat) (nativePerPubdata nativePerGas : U256) (calldata : List UInt8)
    (intrinsicGas intrinsicPubdata intrinsicNative : Nat) :
    Except TxError (Resources × Resources) := do
  let nativeLimit := saturatingMul 64 gasLimit (u256ToU64Saturated nativePerGas)
  -- the pubdata overhead is taken before the cap, as it is not computational
  let intrinsicPubdataOverhead ←
    okOr (checkedMul 64 (u256ToU64Saturated nativePerPubdata) intrinsicPubdata)
      (TxError.internal ⟨"npp*ip"⟩)
  let nativeLimit ← okOr (checkedSub nativeLimit intrinsicPubdataOverhead.val)
    (TxError.validation .outOfNativeResourcesDuringValidation)
  let (nativeLimit, withheldResources) :=
    if nativeLimit ≤ maxNativeComputational then (nativeLimit, Resources.fromErgs 0)
    else (maxNativeComputational, Resources.fromNative (nativeLimit - maxNativeComputational))
  let (calldataGas, calldataNative) ← match costForCalldata calldata with
    | .ok c => pure c
    | .error e => throw (TxError.internal e)
  let nativeLimit ← okOr ((checkedSub nativeLimit calldataNative).bind (checkedSub · intrinsicNative))
    (TxError.validation .outOfNativeResourcesDuringValidation)
  let totalGasToCharge ← okOr (checkedAdd 64 calldataGas intrinsicGas) (TxError.internal ⟨"tuo+io"⟩)
  if totalGasToCharge.val > gasLimit then
    throw (TxError.validation .outOfGasDuringValidation)
  let gasLimitForTx := gasLimit - totalGasToCharge.val
  let ergs ← okOr (checkedMul 64 gasLimitForTx ergsPerGas) (TxError.internal ⟨"glft*EPF"⟩)
  pure (⟨ergs.val, nativeLimit⟩, withheldResources)

/-- `get_resources_to_charge_for_pubdata`: the pubdata spent beyond `basePubdata`, and its native
cost. `netPubdataUsed` is `net_pubdata_used()`. -/
def getResourcesToChargeForPubdata (netPubdataUsed : Nat) (nativePerPubdata : U256)
    (basePubdata : Option Nat) : Except InternalError (Nat × Resources) := do
  let currentPubdataSpent := wrappingSub 64 netPubdataUsed (basePubdata.getD 0)
  let nativePerPubdata := u256ToU64Saturated nativePerPubdata
  let native ← okOr (checkedMul 64 currentPubdataSpent nativePerPubdata) (InternalError.mk "cps*epp")
  pure (currentPubdataSpent, Resources.fromNative native.val)

def checkEnoughResourcesForPubdata (netPubdataUsed : Nat) (nativePerPubdata : U256)
    (resources : Resources) (basePubdata : Option Nat) : Except InternalError Bool := do
  let (_, resourcesForPubdata) ←
    getResourcesToChargeForPubdata netPubdataUsed nativePerPubdata basePubdata
  pure (resources.hasEnough resourcesForPubdata)

section Pubdata

variable {netPubdataUsed base : Nat} {nativePerPubdata : U256}

/-- Below the base the `u64` subtraction wraps: the increment is `2 ^ 64` less the shortfall. -/
theorem getResourcesToChargeForPubdata_of_lt (hlt : netPubdataUsed < base) (hb : base < 2 ^ 64) :
    getResourcesToChargeForPubdata netPubdataUsed nativePerPubdata (some base) =
      match checkedMul 64 (2 ^ 64 + netPubdataUsed - base) (u256ToU64Saturated nativePerPubdata) with
      | some native => .ok (2 ^ 64 + netPubdataUsed - base, Resources.fromNative native.val)
      | none => .error ⟨"cps*epp"⟩ := by
  simp only [getResourcesToChargeForPubdata, Option.getD_some, wrappingSub_of_lt hlt hb]
  cases checkedMul 64 (2 ^ 64 + netPubdataUsed - base) (u256ToU64Saturated nativePerPubdata) <;> rfl

end Pubdata

end ZksyncOs
