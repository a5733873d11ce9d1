import Mathlib
import ZksyncOs.System.Errors
import ZksyncOs.System.Types
import ZksyncOs.Lib.Checked

/-!
# Transactions and their errors

`ZkSyncTransaction` of `basic_bootloader::bootloader::transaction`: the buffer a transaction is
read from, and each field parsed out of it with the range of its encoding. The bootloader reads
the values of the numeric fields and the bytes of the dynamic ones.

* `InvalidTransaction`, `TxError` : what processing a transaction can fail with; `TxError.ofSystemError`
  and its siblings are the conversions the bootloader applies to the errors of the system;
* `requiredBalance` : the balance an EOA must hold, `value + max_fee_per_gas * gas_limit`, whose
  `u128` product and `U256` sum are checked and fail with an internal error.
-/

namespace ZksyncOs

abbrev U128 := Fin (2 ^ 128)

inductive AAMethod where
  | accountValidate
  | accountPayForTransaction
  | accountPrePaymaster
  | paymasterValidateAndPay
deriving DecidableEq, Repr

inductive InvalidTransaction where
  | invalidEncoding
  | invalidStructure
  | priorityFeeGreaterThanMaxFee
  | baseFeeGreaterThanMaxFee
  | gasPriceLessThanBasefee
  | callerGasLimitMoreThanBlock
  | callGasCostMoreThanGasLimit
  | rejectCallerWithCode
  | lackOfFundForMaxFee (fee balance : U256)
  | overflowPaymentInTransaction
  | nonceOverflowInTransaction
  | nonceTooHigh (tx state : UInt64)
  | nonceTooLow (tx state : UInt64)
  | malleableSignature
  | incorrectFrom (tx recovered : B160)
  | createInitCodeSizeLimit
  | invalidChainId
  | accessListNotSupported
  | gasPerPubdataTooHigh
  | blockGasLimitTooHigh
  | upgradeTxNotFirst
  | revert (method : AAMethod) (output : Option (List UInt8))
  | receivedInsufficientFees (received required : U256)
  | invalidMagic
  | invalidReturndataLength
  | outOfGasDuringValidation
  | outOfNativeResourcesDuringValidation
  | nonceUsedAlready
  | nonceNotIncreased
  | paymasterReturnDataTooShort
  | paymasterInvalidMagic
  | paymasterContextInvalid
  | paymasterContextOffsetTooLong
  | upgradeTxFailed
deriving DecidableEq, Repr

/-- `TxError`: a transaction the block rejects, or a failure of the whole block. -/
inductive TxError where
  | validation (e : InvalidTransaction)
  | internal (e : InternalError)
deriving DecidableEq, Repr

namespace TxError

/-- `From<SystemError> for TxError`: running out of a resource rejects the transaction. -/
def ofSystemError : SystemError → TxError
  | .outOfErgs => .validation .outOfGasDuringValidation
  | .outOfNativeResources => .validation .outOfNativeResourcesDuringValidation
  | .internal e => .internal e

def oonAsValidation : FatalError → TxError
  | .internal e => .internal e
  | .outOfNativeResources => .validation .outOfNativeResourcesDuringValidation

/-- `From<SystemFunctionError> for TxError`. -/
def ofSystemFunctionError : SystemFunctionError → TxError
  | .invalidInput => .internal ⟨"Invalid system function input"⟩
  | .system e => ofSystemError e

end TxError

/-- `Range<usize>`: the bytes `[start, stop)` of a buffer. -/
structure ByteRange where
  start : Nat
  stop : Nat
deriving DecidableEq, Repr

/-- The bytes of the buffer in the range. -/
def ByteRange.slice (r : ByteRange) (buffer : List UInt8) : List UInt8 :=
  (buffer.drop r.start).take (r.stop - r.start)

/-- `ParsedValue`: a value and the range of the buffer it was read from. -/
structure ParsedValue (α : Type) where
  value : α
  range : ByteRange
deriving DecidableEq, Repr

/-- `TX_OFFSET`: the bytes before the transaction's encoding in its buffer. -/
def txOffset : Nat := (6 + 33) * 32 + 4

def defaultGasPerPubdata : U256 := 1

/-- `ZkSyncTransaction`. `fromAddress` and `toAddress` are the source's `from` and `to`;
`reservedDynamic` is the offset the access-list parser starts from. -/
structure ZkSyncTransaction where
  underlyingBuffer : List UInt8
  txType : ParsedValue UInt8
  fromAddress : ParsedValue B160
  toAddress : ParsedValue B160
  gasLimit : ParsedValue UInt64
  gasPerPubdataLimit : ParsedValue UInt32
  maxFeePerGas : ParsedValue U128
  maxPriorityFeePerGas : ParsedValue U128
  paymaster : ParsedValue B160
  nonce : ParsedValue U256
  value : ParsedValue U256
  reserved : Vector (ParsedValue U256) 4
  data : ParsedValue Unit
  signature : ParsedValue Unit
  factoryDeps : ParsedValue Unit
  paymasterInput : ParsedValue Unit
  reservedDynamic : Nat
deriving Repr

namespace ZkSyncTransaction

/-! The bounds of `reserved[0]` and `reserved[1]`, named so that every module that reads these
fields refers to the same proof. -/

theorem reserved_index_zero : 0 < 4 := by decide

theorem reserved_index_one : 1 < 4 := by decide

def legacyTxType : UInt8 := 0x0

def eip2930TxType : UInt8 := 0x01

def eip1559TxType : UInt8 := 0x02

def eip712TxType : UInt8 := 0x71

def upgradeTxType : UInt8 := 0xFE

def l1L2TxType : UInt8 := 0xFF

variable (tx : ZkSyncTransaction)

def calldata : List UInt8 := tx.data.range.slice tx.underlyingBuffer

def signatureBytes : List UInt8 := tx.signature.range.slice tx.underlyingBuffer

def paymasterInputBytes : List UInt8 := tx.paymasterInput.range.slice tx.underlyingBuffer

def isEip712 : Bool := tx.txType.value == eip712TxType

/-- `get_user_gas_per_pubdata_limit`: the constant for every type but EIP-712. -/
def getUserGasPerPubdataLimit : U256 :=
  if tx.isEip712 then Fin.ofNat _ tx.gasPerPubdataLimit.value.toNat else defaultGasPerPubdata

/-- `required_balance`: an EIP-712 transaction with a paymaster needs only its value. -/
def requiredBalance : Except InternalError U256 :=
  if tx.isEip712 ∧ tx.paymaster.value ≠ 0 then .ok tx.value.value
  else
    match Checked.checkedMul 128 tx.maxFeePerGas.value.val tx.gasLimit.value.toNat with
    | none => .error ⟨"mfpg*gl"⟩
    | some feeAmount =>
      match Checked.checkedAdd 256 tx.value.value.val feeAmount.val with
      | none => .error ⟨"fa+v"⟩
      | some total => .ok total

end ZkSyncTransaction

end ZksyncOs
