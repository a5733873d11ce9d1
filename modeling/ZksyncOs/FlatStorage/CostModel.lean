import Mathlib
import ZksyncOs.System.Resources
import ZksyncOs.System.Types

/-!
# Access costs of the storage model

The gas constants of `evm_interpreter::gas_constants` the storage model charges, the native costs
of `flat_storage_model::cost_constants`, and `EthereumLikeStorageAccessCostModel`, the
`StorageAccessPolicy` of the storage cache:

* `chargeWarmStorageRead` : every access, warm or cold;
* `chargeColdStorageReadExtra` : the first access of a slot in a transaction;
* `chargeStorageWriteExtra` : a write, with the EVM's set and reset surcharges.

Charges fail with `Unsupported EE` for the execution environments the model does not price.
-/

namespace ZksyncOs

def warmStorageReadCost : Nat := 100

def coldSloadCost : Nat := 2100

def sstoreSetExtra : Nat := 19900

def sstoreResetExtra : Nat := 2800

def addressAccessCostCold : Nat := 2600

def addressAccessCostWarm : Nat := 100

def selfbalance : Nat := 5

def newaccount : Nat := 25000

def codedeposit : Nat := 200

def bigintDelegationCoefficient : Nat := 4

def blakeDelegationCoefficient : Nat := 16

/-- `native_with_delegations!`: raw cycles plus the delegated big-integer and Blake2s rounds. -/
def nativeWithDelegations (raw bigint blake : Nat) : Nat :=
  raw + bigint * bigintDelegationCoefficient + blake * blakeDelegationCoefficient

def warmStorageReadNativeCost : Nat := 4000

def coldExistingStorageReadNativeCost : Nat := nativeWithDelegations 100000 0 1320

def coldNewStorageReadNativeCost : Nat := 2 * coldExistingStorageReadNativeCost

def coldExistingStorageWriteExtraNativeCost : Nat := nativeWithDelegations 40000 0 660

def coldNewStorageWriteExtraNativeCost : Nat := nativeWithDelegations 100000 0 1300

def warmAccountCacheAccessNativeCost : Nat := 4000

def warmAccountCacheWriteExtraNativeCost : Nat := 1000

def coldPropertiesAccessExtraCostErgs : Nat := (addressAccessCostCold - addressAccessCostWarm) * ergsPerGas

def warmPropertiesAccessCostErgs : Nat := addressAccessCostWarm * ergsPerGas

def knownToBeWarmPropertiesAccessCostErgs : Nat := selfbalance * ergsPerGas

/-- The error of an execution environment the model does not price. -/
def unsupportedEE : SystemError := .internal ⟨"Unsupported EE"⟩

namespace EthereumLikeStorageAccessCostModel

variable {σ : Type}

def chargeWarmStorageRead (eeType : ExecutionEnvironmentType) (isAccessList : Bool) :
    EStateM SystemError (σ × Resources) Unit := do
  let ergs ← match eeType with
    -- an access list pays the full cost as often as the slot is listed
    | .noEE => pure (if isAccessList then 1900 * ergsPerGas else 0)
    | .evm => pure (warmStorageReadCost * ergsPerGas)
    | _ => throw unsupportedEE
  chargeM ⟨ergs, warmStorageReadNativeCost⟩

def chargeColdStorageReadExtra (eeType : ExecutionEnvironmentType) (isNewSlot : Bool) :
    EStateM SystemError (σ × Resources) Unit := do
  let ergs ← match eeType with
    | .noEE => pure 0
    | .evm => pure ((coldSloadCost - warmStorageReadCost) * ergsPerGas)
    | _ => throw unsupportedEE
  let native := if isNewSlot then coldNewStorageReadNativeCost else coldExistingStorageReadNativeCost
  chargeM ⟨ergs, native⟩

/-- The EVM gas of a write beyond its read: a slot set from its transaction-start value pays the
set (from zero) or reset surcharge, and a cold write another `100`. -/
def storageWriteExtraGas (initialValue currentValue newValue : Bytes32) (isWarmWrite : Bool) : Nat :=
  let totalCost :=
    if newValue = currentValue then 0
    else if currentValue = initialValue then
      if initialValue = 0 then sstoreSetExtra else sstoreResetExtra
    else 0
  if isWarmWrite = false then totalCost + 100 else totalCost

def chargeStorageWriteExtra (eeType : ExecutionEnvironmentType)
    (initialValue currentValue newValue : Bytes32) (isWarmWrite isNewSlot : Bool) :
    EStateM SystemError (σ × Resources) Unit := do
  let ergs ← match eeType with
    | .noEE => pure 0
    | .evm => pure (storageWriteExtraGas initialValue currentValue newValue isWarmWrite * ergsPerGas)
    | _ => throw unsupportedEE
  let native := if isNewSlot then coldNewStorageWriteExtraNativeCost
    else coldExistingStorageWriteExtraNativeCost
  chargeM ⟨ergs, native⟩

/-! The charges touch only the resources. -/

theorem preserves_chargeWarmStorageRead (eeType : ExecutionEnvironmentType) (isAccessList : Bool) :
    EStateM.Preserves Prod.fst (chargeWarmStorageRead (σ := σ) eeType isAccessList) := by
  unfold chargeWarmStorageRead
  cases eeType <;>
    exact EStateM.Preserves.bind (by first | exact EStateM.preserves_pure _ | exact EStateM.preserves_throw _)
      fun _ => preserves_chargeM _

theorem preserves_chargeColdStorageReadExtra (eeType : ExecutionEnvironmentType) (isNewSlot : Bool) :
    EStateM.Preserves Prod.fst (chargeColdStorageReadExtra (σ := σ) eeType isNewSlot) := by
  unfold chargeColdStorageReadExtra
  cases eeType <;>
    exact EStateM.Preserves.bind (by first | exact EStateM.preserves_pure _ | exact EStateM.preserves_throw _)
      fun _ => preserves_chargeM _

theorem preserves_chargeStorageWriteExtra (eeType : ExecutionEnvironmentType)
    (initialValue currentValue newValue : Bytes32) (isWarmWrite isNewSlot : Bool) :
    EStateM.Preserves Prod.fst (chargeStorageWriteExtra (σ := σ) eeType initialValue currentValue
      newValue isWarmWrite isNewSlot) := by
  unfold chargeStorageWriteExtra
  cases eeType <;>
    exact EStateM.Preserves.bind (by first | exact EStateM.preserves_pure _ | exact EStateM.preserves_throw _)
      fun _ => preserves_chargeM _

end EthereumLikeStorageAccessCostModel

end ZksyncOs
