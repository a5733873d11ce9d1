import Mathlib
import ZksyncOs.Bootloader.Rlp
import ZksyncOs.Bootloader.AccessList
import ZksyncOs.System.SystemFunctions
import ZksyncOs.Lib.Except

/-!
# Transaction hashes

`calculate_signed_hash` and `calculate_hash` of `ZkSyncTransaction`: the hash a sender signs, and
the hash of the transaction with its signature. The Ethereum types stream their RLP encoding into
Keccak-256 (`Rlp`); EIP-712 transactions hash their fields in the structured-data scheme; L1
transactions hash their ABI encoding. Each hash charges the native cost of its Keccak-256 rounds
before it hashes.

Keccak-256 is a parameter. A stream is modelled by the bytes it feeds the hasher:
`legacyTxHashInput`, `eip2930TxHashInput`, `eip1559TxHashInput`. Lengths are `usize` values,
summed with the wrapping addition of a release build on the 32-bit target: a sum is taken modulo
`2 ^ 32` where the source uses it.
-/

namespace ZksyncOs

open BigEndian Rlp Checked

/-- `ParsedValue::encoding`: the bytes the value was read from. -/
def ParsedValue.encoding {α : Type} (p : ParsedValue α) (buffer : List UInt8) : List UInt8 :=
  p.range.slice buffer

/-- `charge_keccak`: a native charge, which cannot run out of ergs. -/
def chargeKeccak {σ : Type} (len : Nat) : EStateM FatalError (σ × Resources) Unit :=
  EStateM.adaptExcept
    (fun e => match e with
      | .outOfNativeResources => .outOfNativeResources
      | .internal e => .internal e
      | .outOfErgs => .internal ⟨"internal error: entered unreachable code"⟩)
    (chargeM (Resources.fromNative (keccak256NativeCost len)))

/-- `Result<_, ()>` of the access-list parser turned into an internal error. -/
def accessListError : FatalError := .internal ⟨"Access list format must have been validated before"⟩

namespace ZkSyncTransaction

variable (tx : ZkSyncTransaction)

/-! ## Legacy transactions -/

/-- The `v` of `legacy_tx_calculate_hash`: the signature's last byte, with `8 + 2 * chain_id`
added under EIP-155 (`reserved[0]` set). -/
def legacyV (chainId : UInt64) : Nat :=
  let v := ((tx.signature.encoding tx.underlyingBuffer).getD 64 0).toNat
  if (getElem tx.reserved 0 reserved_index_zero).value ≠ 0 then v + (8 + chainId.toNat * 2) else v

/-- The `total_list_len` of `legacy_tx_calculate_hash`. -/
def legacyTotalListLen (chainId : UInt64) (signed : Bool) : Nat :=
  let b := tx.underlyingBuffer
  let sig := tx.signature.encoding b
  (estimateNumberEncodingLen (tx.nonce.encoding b) +
      estimateNumberEncodingLen (tx.maxFeePerGas.encoding b) +
      estimateNumberEncodingLen (tx.gasLimit.encoding b) +
      -- `to`, or the empty string of a deployment
      (if (getElem tx.reserved 1 reserved_index_one).value = 0 then addressEncodingLen else estimateBytesEncodingLen []) +
      estimateNumberEncodingLen (tx.value.encoding b) + estimateBytesEncodingLen (tx.data.encoding b) +
      (if signed && (getElem tx.reserved 0 reserved_index_zero).value != 0 then
        estimateNumberEncodingLen (toBeBytes 8 chainId.toNat) + 2 else 0) +
      (if !signed then
        estimateNumberEncodingLen (sig.take 32) + estimateNumberEncodingLen ((sig.drop 32).take 32) +
          estimateNumberEncodingLen (toBeBytes 16 (tx.legacyV chainId))
      else 0)) % 2 ^ 32

/-- The bytes `legacy_tx_calculate_hash` feeds the hasher. -/
def legacyTxHashInput (chainId : UInt64) (signed : Bool) : List UInt8 :=
  let b := tx.underlyingBuffer
  let sig := tx.signature.encoding b
  applyListLengthEncodingToHash (tx.legacyTotalListLen chainId signed) ++
    applyNumberEncodingToHash (tx.nonce.encoding b) ++
    applyNumberEncodingToHash (tx.maxFeePerGas.encoding b) ++
    applyNumberEncodingToHash (tx.gasLimit.encoding b) ++
    (if (getElem tx.reserved 1 reserved_index_one).value = 0 then applyBytesEncodingToHash ((tx.toAddress.encoding b).drop 12)
    else applyBytesEncodingToHash []) ++
    applyNumberEncodingToHash (tx.value.encoding b) ++
    applyBytesEncodingToHash (tx.data.encoding b) ++
    (if signed && (getElem tx.reserved 0 reserved_index_zero).value != 0 then
      applyNumberEncodingToHash (toBeBytes 8 chainId.toNat) ++ applyNumberEncodingToHash [] ++
        applyNumberEncodingToHash []
    else []) ++
    (if !signed then
      applyNumberEncodingToHash (sig.take 32) ++ applyNumberEncodingToHash ((sig.drop 32).take 32) ++
        applyNumberEncodingToHash (toBeBytes 16 (tx.legacyV chainId))
    else [])

def legacyTxCalculateHash {σ : Type} (keccak256 : List UInt8 → Bytes32) (chainId : UInt64)
    (signed : Bool) : EStateM FatalError (σ × Resources) Bytes32 := do
  let totalListLen := tx.legacyTotalListLen chainId signed
  chargeKeccak ((estimateLengthEncodingLen totalListLen + totalListLen) % 2 ^ 32)
  pure (keccak256 (tx.legacyTxHashInput chainId signed))

/-! ## Access lists -/

/-- `estimate_access_list_item_length`: the item's length, its payload's, and its keys'. -/
def estimateAccessListItemLength (nbKeys : Nat) : Nat × Nat × Nat :=
  -- 32 bytes of a key and its header
  let singleKeyLength := 33
  let keysRawLength := singleKeyLength * nbKeys % 2 ^ 32
  let keysLength := (estimateLengthEncodingLen keysRawLength + keysRawLength) % 2 ^ 32
  let addressLength := addressEncodingLen
  let itemRawLength := (keysLength + addressLength) % 2 ^ 32
  ((estimateLengthEncodingLen itemRawLength + itemRawLength) % 2 ^ 32, itemRawLength, keysRawLength)

/-- `estimate_access_list_raw_length`: the payload of the access list. -/
def estimateAccessListRawLength : Except Unit Nat := do
  let iter ← tx.accessListIter
  let items ← iter.collect
  pure ((items.map fun (_, keys) => (estimateAccessListItemLength keys.count).1).sum % 2 ^ 32)

/-- One item of `apply_access_list_encoding_to_hash`: `[address, [keys]]`. -/
def applyAccessListItem (address : B160) (keys : StorageKeysIter) : Except Unit (List UInt8) := do
  let (_, itemRawLength, keysRawLength) := estimateAccessListItemLength keys.count
  let ks ← keys.collect
  pure (applyListLengthEncodingToHash itemRawLength ++ applyBytesEncodingToHash address.bytes ++
    applyListLengthEncodingToHash keysRawLength ++ ks.flatMap fun k => applyBytesEncodingToHash k.bytes)

/-- The bytes `apply_access_list_encoding_to_hash` feeds the hasher. -/
def applyAccessListEncodingToHash (totalAccessListLength : Nat) : Except Unit (List UInt8) := do
  let iter ← tx.accessListIter
  let items ← iter.collect
  let encodedItems ← items.mapM fun (address, keys) => applyAccessListItem address keys
  pure (applyListLengthEncodingToHash totalAccessListLength ++ encodedItems.flatten)

/-- What iterating the access list yields, keys included, up to the first error. -/
def accessList : Except Unit (List (B160 × List Bytes32)) := do
  let iter ← tx.accessListIter
  let items ← iter.collect
  items.mapM fun (address, keys) => return (address, ← keys.collect)

/-! ## EIP-2930 and EIP-1559 transactions -/

/-- The signature words `r`, `s` and `v` of the typed transactions, in this order. -/
def signatureTail : List UInt8 :=
  let sig := tx.signature.encoding tx.underlyingBuffer
  applyNumberEncodingToHash (sig.take 32) ++ applyNumberEncodingToHash ((sig.drop 32).take 32) ++
    applyNumberEncodingToHash ((sig.drop 64).take 1)

/-- The estimated length of `signatureTail`. -/
def signatureTailLen : Nat :=
  let sig := tx.signature.encoding tx.underlyingBuffer
  estimateNumberEncodingLen (sig.take 32) + estimateNumberEncodingLen ((sig.drop 32).take 32) +
    estimateNumberEncodingLen ((sig.drop 64).take 1)

/-- The `total_list_len` of `eip2930_tx_calculate_hash` and `eip1559_tx_calculate_hash`: the
fee fields are the only difference. -/
def typedTotalListLen (feeFields : List (List UInt8)) (chainId : UInt64) (signed : Bool)
    (accessListRawLength : Nat) : Nat :=
  let b := tx.underlyingBuffer
  (estimateNumberEncodingLen (toBeBytes 8 chainId.toNat) +
      estimateNumberEncodingLen (tx.nonce.encoding b) +
      (feeFields.map estimateNumberEncodingLen).sum +
      estimateNumberEncodingLen (tx.gasLimit.encoding b) +
      (if (getElem tx.reserved 1 reserved_index_one).value = 0 then addressEncodingLen else estimateBytesEncodingLen []) +
      (estimateNumberEncodingLen (tx.value.encoding b) + estimateBytesEncodingLen (tx.data.encoding b) +
        estimateLengthEncodingLen accessListRawLength + accessListRawLength) +
      (if !signed then tx.signatureTailLen else 0)) % 2 ^ 32

/-- The bytes a typed transaction feeds the hasher: its type byte, then its RLP list. -/
def typedTxHashInput (txType : UInt8) (feeFields : List (List UInt8)) (chainId : UInt64)
    (signed : Bool) : Except Unit (List UInt8) := do
  let b := tx.underlyingBuffer
  let accessListRawLength ← tx.estimateAccessListRawLength
  let accessListBytes ← tx.applyAccessListEncodingToHash accessListRawLength
  pure ([txType] ++
    applyListLengthEncodingToHash (tx.typedTotalListLen feeFields chainId signed accessListRawLength) ++
    applyNumberEncodingToHash (toBeBytes 8 chainId.toNat) ++
    applyNumberEncodingToHash (tx.nonce.encoding b) ++
    feeFields.flatMap applyNumberEncodingToHash ++
    applyNumberEncodingToHash (tx.gasLimit.encoding b) ++
    (if (getElem tx.reserved 1 reserved_index_one).value = 0 then applyBytesEncodingToHash ((tx.toAddress.encoding b).drop 12)
    else applyBytesEncodingToHash []) ++
    applyNumberEncodingToHash (tx.value.encoding b) ++
    applyBytesEncodingToHash (tx.data.encoding b) ++
    accessListBytes ++
    (if !signed then tx.signatureTail else []))

/-- The fee field of an EIP-2930 transaction: its gas price. -/
def eip2930FeeFields : List (List UInt8) := [tx.maxFeePerGas.encoding tx.underlyingBuffer]

/-- The fee fields of an EIP-1559 transaction. -/
def eip1559FeeFields : List (List UInt8) :=
  [tx.maxPriorityFeePerGas.encoding tx.underlyingBuffer, tx.maxFeePerGas.encoding tx.underlyingBuffer]

def eip2930TxHashInput (chainId : UInt64) (signed : Bool) : Except Unit (List UInt8) :=
  tx.typedTxHashInput 0x01 tx.eip2930FeeFields chainId signed

def eip1559TxHashInput (chainId : UInt64) (signed : Bool) : Except Unit (List UInt8) :=
  tx.typedTxHashInput 0x02 tx.eip1559FeeFields chainId signed

/-- `eip2930_tx_calculate_hash` and `eip1559_tx_calculate_hash`: the access list is measured,
the hash charged, then the list is streamed. -/
def typedTxCalculateHash {σ : Type} (keccak256 : List UInt8 → Bytes32) (txType : UInt8)
    (feeFields : List (List UInt8)) (chainId : UInt64) (signed : Bool) :
    EStateM FatalError (σ × Resources) Bytes32 := do
  let accessListRawLength ← okOr tx.estimateAccessListRawLength.toOption accessListError
  let totalListLen := tx.typedTotalListLen feeFields chainId signed accessListRawLength
  chargeKeccak ((estimateLengthEncodingLen totalListLen + totalListLen) % 2 ^ 32)
  let input ← okOr (tx.typedTxHashInput txType feeFields chainId signed).toOption accessListError
  pure (keccak256 input)

def eip2930TxCalculateHash {σ : Type} (keccak256 : List UInt8 → Bytes32) (chainId : UInt64)
    (signed : Bool) : EStateM FatalError (σ × Resources) Bytes32 :=
  tx.typedTxCalculateHash keccak256 0x01 tx.eip2930FeeFields chainId signed

def eip1559TxCalculateHash {σ : Type} (keccak256 : List UInt8 → Bytes32) (chainId : UInt64)
    (signed : Bool) : EStateM FatalError (σ × Resources) Bytes32 :=
  tx.typedTxCalculateHash keccak256 0x02 tx.eip1559FeeFields chainId signed

/-! ## EIP-712 and L1 transactions -/

/-- `DOMAIN_TYPE_HASH`: Keccak-256 of `EIP712Domain(string name,string version,uint256 chainId)`. -/
def domainTypeHash : Bytes32 := 0xc2f8787176b8ac6bf7215b4adcc1e069bf4ab82d9ab1df05a57a91d425935b6e

/-- `DOMAIN_NAME_HASH`: Keccak-256 of `zkSync`. -/
def domainNameHash : Bytes32 := 0x19b453ce45aaaaf3a300f5a9ec95869b4f28ab10430b572ee218c3a6a5e07d6f

/-- `DOMAIN_VERSION_HASH`: Keccak-256 of `2`. -/
def domainVersionHash : Bytes32 := 0xad7c5bef027816a800da1736444fb58a807ef4c9603b7848673f7e3a68eb14a5

/-- `TYPE_HASH`: Keccak-256 of the `Transaction` type of the structured data. -/
def typeHash : Bytes32 := 0x848e1bfa1ac4e3576b728bda6721b215c70a7799a5b4866282a71bab954baac8

def domainHashStruct {σ : Type} (keccak256 : List UInt8 → Bytes32) (chainId : UInt64) :
    EStateM FatalError (σ × Resources) Bytes32 := do
  chargeKeccak (32 + 32 + 32 + 32)
  pure (keccak256 (domainTypeHash.bytes ++ domainNameHash.bytes ++ domainVersionHash.bytes ++
    toBeBytes 32 chainId.toNat))

/-- `hash_struct`: the words of the head, then the hashes of the dynamic fields. -/
def hashStruct {σ : Type} (keccak256 : List UInt8 → Bytes32) :
    EStateM FatalError (σ × Resources) Bytes32 := do
  let b := tx.underlyingBuffer
  chargeKeccak (32 * 14)
  chargeKeccak (tx.data.range.stop - tx.data.range.start)
  let dataHash := keccak256 (tx.data.encoding b)
  chargeKeccak (tx.factoryDeps.range.stop - tx.factoryDeps.range.start)
  let factoryDepsHash := keccak256 (tx.factoryDeps.encoding b)
  chargeKeccak (tx.paymasterInput.range.stop - tx.paymasterInput.range.start)
  let paymasterInputHash := keccak256 (tx.paymasterInput.encoding b)
  pure (keccak256 (typeHash.bytes ++ tx.txType.encoding b ++ tx.fromAddress.encoding b ++
    tx.toAddress.encoding b ++ tx.gasLimit.encoding b ++ tx.gasPerPubdataLimit.encoding b ++
    tx.maxFeePerGas.encoding b ++ tx.maxPriorityFeePerGas.encoding b ++ tx.paymaster.encoding b ++
    tx.nonce.encoding b ++ tx.value.encoding b ++ dataHash.bytes ++ factoryDepsHash.bytes ++
    paymasterInputHash.bytes))

def eip712TxCalculateSignedHash {σ : Type} (keccak256 : List UInt8 → Bytes32) (chainId : UInt64) :
    EStateM FatalError (σ × Resources) Bytes32 := do
  let domainSeparator ← domainHashStruct keccak256 chainId
  let hs ← tx.hashStruct keccak256
  chargeKeccak (2 + 2 * 32)
  pure (keccak256 ([0x19, 0x01] ++ domainSeparator.bytes ++ hs.bytes))

def eip712TxCalculateHash {σ : Type} (keccak256 : List UInt8 → Bytes32) (chainId : UInt64) :
    EStateM FatalError (σ × Resources) Bytes32 := do
  let signedHash ← tx.eip712TxCalculateSignedHash keccak256 chainId
  chargeKeccak (32 * 2 + (tx.signature.range.stop - tx.signature.range.start))
  let signatureHash := keccak256 (tx.signature.encoding tx.underlyingBuffer)
  pure (keccak256 (signedHash.bytes ++ signatureHash.bytes))

/-- `l1_tx_calculate_hash`: the ABI encoding, which starts with the offset `0x20`. -/
def l1TxCalculateHash {σ : Type} (keccak256 : List UInt8 → Bytes32) :
    EStateM FatalError (σ × Resources) Bytes32 := do
  chargeKeccak (32 + (tx.underlyingBuffer.drop txOffset).length)
  pure (keccak256 (toBeBytes 32 0x20 ++ tx.underlyingBuffer.drop txOffset))

def calculateSignedHash {σ : Type} (keccak256 : List UInt8 → Bytes32) (chainId : UInt64) :
    EStateM FatalError (σ × Resources) Bytes32 :=
  let txType := tx.txType.value
  if txType = legacyTxType then tx.legacyTxCalculateHash keccak256 chainId true
  else if txType = eip2930TxType then tx.eip2930TxCalculateHash keccak256 chainId true
  else if txType = eip1559TxType then tx.eip1559TxCalculateHash keccak256 chainId true
  else if txType = eip712TxType then tx.eip712TxCalculateSignedHash keccak256 chainId
  else throw (.internal ⟨"Invalid type for signed hash, most likely l1 or upgrade"⟩)

def calculateHash {σ : Type} (keccak256 : List UInt8 → Bytes32) (chainId : UInt64) :
    EStateM FatalError (σ × Resources) Bytes32 :=
  let txType := tx.txType.value
  if txType = legacyTxType then tx.legacyTxCalculateHash keccak256 chainId false
  else if txType = eip2930TxType then tx.eip2930TxCalculateHash keccak256 chainId false
  else if txType = eip1559TxType then tx.eip1559TxCalculateHash keccak256 chainId false
  else if txType = eip712TxType then tx.eip712TxCalculateHash keccak256 chainId
  else if txType = l1L2TxType then tx.l1TxCalculateHash keccak256
  else if txType = upgradeTxType then tx.l1TxCalculateHash keccak256
  else throw (.internal ⟨"Type should be validated"⟩)

/-! ## The RLP lists the streams encode -/

/-- `to`: the 20-byte address, or the empty string of a deployment. -/
def toItem : Item := if (getElem tx.reserved 1 reserved_index_one).value = 0 then .bytes tx.toAddress.value.bytes else .bytes []

/-- The signature's `r`, `s` and last byte `v`, as numbers. -/
def signatureR : Nat := ofBeBytes ((tx.signature.encoding tx.underlyingBuffer).take 32)

def signatureS : Nat := ofBeBytes (((tx.signature.encoding tx.underlyingBuffer).drop 32).take 32)

def signatureV : Nat := ofBeBytes (((tx.signature.encoding tx.underlyingBuffer).drop 64).take 1)

/-- The fields of the legacy list, in the order of the stream. -/
def legacyFields (chainId : UInt64) (signed : Bool) : List Item :=
  [.ofNat tx.nonce.value.val, .ofNat tx.maxFeePerGas.value.val, .ofNat tx.gasLimit.value.toNat,
      tx.toItem, .ofNat tx.value.value.val, .bytes tx.calldata] ++
    (if signed && (getElem tx.reserved 0 reserved_index_zero).value != 0 then [.ofNat chainId.toNat, .ofNat 0, .ofNat 0] else []) ++
    (if !signed then [.ofNat tx.signatureR, .ofNat tx.signatureS, .ofNat (tx.legacyV chainId)]
    else [])

/-- An access list: a list of `[address, [keys]]`. -/
def accessListItem (al : List (B160 × List Bytes32)) : Item :=
  .list (al.map fun (a, ks) => .list [.bytes a.bytes, .list (ks.map fun k => .bytes k.bytes)])

/-- The fields of a typed list, in the order of the stream; `fees` are the fee fields. -/
def typedFields (fees : List Nat) (chainId : UInt64) (signed : Bool)
    (al : List (B160 × List Bytes32)) : List Item :=
  [.ofNat chainId.toNat, .ofNat tx.nonce.value.val] ++ fees.map Item.ofNat ++
    [.ofNat tx.gasLimit.value.toNat, tx.toItem, .ofNat tx.value.value.val, .bytes tx.calldata,
      accessListItem al] ++
    (if !signed then [.ofNat tx.signatureR, .ofNat tx.signatureS, .ofNat tx.signatureV] else [])

def eip2930Fields (chainId : UInt64) (signed : Bool) (al : List (B160 × List Bytes32)) :
    List Item :=
  tx.typedFields [tx.maxFeePerGas.value.val] chainId signed al

def eip1559Fields (chainId : UInt64) (signed : Bool) (al : List (B160 × List Bytes32)) :
    List Item :=
  tx.typedFields [tx.maxPriorityFeePerGas.value.val, tx.maxFeePerGas.value.val] chainId signed al

/-- The words the Ethereum hashes read hold their parsed values, and the signature has 65 bytes. -/
structure HashedFieldsEncoded : Prop where
  nonce : tx.nonce.encoding tx.underlyingBuffer = toBeBytes 32 tx.nonce.value.val
  maxFeePerGas : tx.maxFeePerGas.encoding tx.underlyingBuffer = toBeBytes 32 tx.maxFeePerGas.value.val
  maxPriorityFeePerGas :
    tx.maxPriorityFeePerGas.encoding tx.underlyingBuffer = toBeBytes 32 tx.maxPriorityFeePerGas.value.val
  gasLimit : tx.gasLimit.encoding tx.underlyingBuffer = toBeBytes 32 tx.gasLimit.value.toNat
  toAddress : tx.toAddress.encoding tx.underlyingBuffer = toBeBytes 32 tx.toAddress.value.val
  value : tx.value.encoding tx.underlyingBuffer = toBeBytes 32 tx.value.value.val
  signature : (tx.signature.encoding tx.underlyingBuffer).length = 65

section Streams

variable {tx}

theorem applyNumberEncodingToHash_word {n : Nat} {w : List UInt8} (hw : w = toBeBytes 32 n)
    (hn : n < 2 ^ 256) : applyNumberEncodingToHash w = encode (.ofNat n) := by
  rw [hw]
  exact applyNumberEncodingToHash_eq (by decide) (by simpa using hn)

theorem estimateNumberEncodingLen_word {n : Nat} {w : List UInt8} (hw : w = toBeBytes 32 n)
    (hn : n < 2 ^ 256) : estimateNumberEncodingLen w = (encode (.ofNat n)).length := by
  rw [estimateNumberEncodingLen_eq, applyNumberEncodingToHash_word hw hn]

theorem applyNumberEncodingToHash_empty : applyNumberEncodingToHash [] = encode (.ofNat 0) := by
  decide

theorem applyNumberEncodingToHash_chainId (chainId : UInt64) :
    applyNumberEncodingToHash (toBeBytes 8 chainId.toNat) = encode (.ofNat chainId.toNat) :=
  applyNumberEncodingToHash_eq (by decide) (by simpa using chainId.toNat_lt)

theorem applyTo_eq (hE : tx.HashedFieldsEncoded) :
    (if (getElem tx.reserved 1 reserved_index_one).value = 0 then
        applyBytesEncodingToHash ((tx.toAddress.encoding tx.underlyingBuffer).drop 12)
      else applyBytesEncodingToHash []) = encode tx.toItem := by
  unfold toItem
  split
  · rw [hE.toAddress, show (12 : Nat) = 32 - 20 from rfl, drop_toBeBytes (by decide),
      applyBytesEncodingToHash_eq (by simp), B160.bytes]
  · exact applyBytesEncodingToHash_eq (by simp)

theorem estimateTo_eq (hE : tx.HashedFieldsEncoded) :
    (if (getElem tx.reserved 1 reserved_index_one).value = 0 then addressEncodingLen else estimateBytesEncodingLen []) =
      (encode tx.toItem).length := by
  rw [← applyTo_eq hE]
  split
  · rw [hE.toAddress, show (12 : Nat) = 32 - 20 from rfl, drop_toBeBytes (by decide),
      applyBytesEncodingToHash_eq (by simp)]
    simp [encodeBytes_of_length_ne_one, length_header, addressEncodingLen]
  · exact estimateBytesEncodingLen_eq []

theorem applyNumberEncodingToHash_signature {l : List UInt8} (h : l.length ≤ 32) :
    applyNumberEncodingToHash l = encode (.ofNat (ofBeBytes l)) :=
  applyNumberEncodingToHash_eq_ofBeBytes (by omega)

theorem legacyV_lt (chainId : UInt64) : tx.legacyV chainId < 256 ^ 16 := by
  have hv := ((tx.signature.encoding tx.underlyingBuffer).getD 64 0).toNat_lt
  have hc : chainId.toNat < 2 ^ 64 := chainId.toNat_lt
  unfold legacyV
  dsimp only
  split <;> omega

theorem applyChainIdPart (chainId : UInt64) (c : Bool) :
    (if c then applyNumberEncodingToHash (toBeBytes 8 chainId.toNat) ++ applyNumberEncodingToHash [] ++
        applyNumberEncodingToHash []
      else []) = encodeAll (if c then [.ofNat chainId.toNat, .ofNat 0, .ofNat 0] else []) := by
  split
  · simp only [applyNumberEncodingToHash_chainId, applyNumberEncodingToHash_empty, encodeAll_cons,
      encodeAll_nil, List.append_nil, List.append_assoc]
  · rfl

theorem estimateChainIdPart (chainId : UInt64) (c : Bool) :
    (if c then estimateNumberEncodingLen (toBeBytes 8 chainId.toNat) + 2 else 0) =
      (encodeAll (if c then [.ofNat chainId.toNat, .ofNat 0, .ofNat 0] else [])).length := by
  rw [← applyChainIdPart]
  split
  · rw [estimateNumberEncodingLen_eq, List.length_append, List.length_append]
    rfl
  · rfl

theorem applyLegacySignaturePart (chainId : UInt64) (c : Bool) :
    (if c then
        applyNumberEncodingToHash ((tx.signature.encoding tx.underlyingBuffer).take 32) ++
          applyNumberEncodingToHash (((tx.signature.encoding tx.underlyingBuffer).drop 32).take 32) ++
          applyNumberEncodingToHash (toBeBytes 16 (tx.legacyV chainId))
      else []) =
      encodeAll (if c then [.ofNat tx.signatureR, .ofNat tx.signatureS, .ofNat (tx.legacyV chainId)]
        else []) := by
  split
  · rw [applyNumberEncodingToHash_signature (List.length_take_le _ _),
      applyNumberEncodingToHash_signature (List.length_take_le _ _),
      applyNumberEncodingToHash_eq (by decide) (legacyV_lt chainId)]
    simp only [encodeAll_cons, encodeAll_nil, List.append_nil, List.append_assoc, signatureR,
      signatureS]
  · rfl

theorem estimateLegacySignaturePart (chainId : UInt64) (c : Bool) :
    (if c then
        estimateNumberEncodingLen ((tx.signature.encoding tx.underlyingBuffer).take 32) +
          estimateNumberEncodingLen (((tx.signature.encoding tx.underlyingBuffer).drop 32).take 32) +
          estimateNumberEncodingLen (toBeBytes 16 (tx.legacyV chainId))
      else 0) =
      (encodeAll (if c then [.ofNat tx.signatureR, .ofNat tx.signatureS, .ofNat (tx.legacyV chainId)]
        else [])).length := by
  rw [← applyLegacySignaturePart]
  split
  · simp only [estimateNumberEncodingLen_eq, List.length_append]
  · rfl

theorem legacyTxHashInput_eq (hE : tx.HashedFieldsEncoded) (hdata : tx.calldata.length < 2 ^ 32)
    (chainId : UInt64) (signed : Bool) :
    tx.legacyTxHashInput chainId signed =
      applyListLengthEncodingToHash (tx.legacyTotalListLen chainId signed) ++
        encodeAll (tx.legacyFields chainId signed) := by
  unfold legacyTxHashInput legacyFields
  dsimp only
  rw [applyNumberEncodingToHash_word hE.nonce tx.nonce.value.isLt,
    applyNumberEncodingToHash_word hE.maxFeePerGas (by have := tx.maxFeePerGas.value.isLt; omega),
    applyNumberEncodingToHash_word hE.gasLimit (by have := tx.gasLimit.value.toNat_lt; omega),
    applyTo_eq hE, applyNumberEncodingToHash_word hE.value tx.value.value.isLt,
    show tx.data.encoding tx.underlyingBuffer = tx.calldata from rfl,
    applyBytesEncodingToHash_eq hdata, applyChainIdPart, applyLegacySignaturePart]
  simp only [encodeAll_append, encodeAll_cons, encodeAll_nil, List.append_nil, List.append_assoc]

theorem legacyTotalListLen_eq (hE : tx.HashedFieldsEncoded) (hdata : tx.calldata.length < 2 ^ 32)
    (chainId : UInt64) (signed : Bool) :
    tx.legacyTotalListLen chainId signed = (encodeAll (tx.legacyFields chainId signed)).length % 2 ^ 32 := by
  unfold legacyTotalListLen legacyFields
  dsimp only
  rw [estimateNumberEncodingLen_word hE.nonce tx.nonce.value.isLt,
    estimateNumberEncodingLen_word hE.maxFeePerGas (by have := tx.maxFeePerGas.value.isLt; omega),
    estimateNumberEncodingLen_word hE.gasLimit (by have := tx.gasLimit.value.toNat_lt; omega),
    estimateTo_eq hE, estimateNumberEncodingLen_word hE.value tx.value.value.isLt,
    show tx.data.encoding tx.underlyingBuffer = tx.calldata from rfl,
    estimateBytesEncodingLen_eq, applyBytesEncodingToHash_eq hdata, estimateChainIdPart,
    estimateLegacySignaturePart]
  simp only [encodeAll_append, encodeAll_cons, encodeAll_nil, List.append_nil, List.length_append]
  omega

theorem legacyTxHashInput_eq_encode (hE : tx.HashedFieldsEncoded) (chainId : UInt64) (signed : Bool)
    (hfit : (encodeAll (tx.legacyFields chainId signed)).length < 2 ^ 32) :
    tx.legacyTxHashInput chainId signed = encode (.list (tx.legacyFields chainId signed)) := by
  have hdata : tx.calldata.length < 2 ^ 32 :=
    Nat.lt_of_le_of_lt (length_le_of_bytes_mem (by simp [legacyFields])) hfit
  rw [legacyTxHashInput_eq hE hdata, legacyTotalListLen_eq hE hdata,
    applyListLengthEncodingToHash_append hfit]

/-! ### Access lists -/

/-- The RLP item of one access-list entry. -/
def accessListEntry (a : B160) (ks : List Bytes32) : Item :=
  .list [.bytes a.bytes, .list (ks.map fun k => .bytes k.bytes)]

theorem accessListItem_eq (al : List (B160 × List Bytes32)) :
    accessListItem al = .list (al.map fun y => accessListEntry y.1 y.2) := rfl

theorem encode_key (k : Bytes32) : encode (.bytes k.bytes) = header 128 32 ++ k.bytes := by
  rw [encode_bytes, encodeBytes_of_length_ne_one (by simp [Bytes32.bytes]), Bytes32.bytes,
    length_toBeBytes]

theorem length_encodeAll_keys (ks : List Bytes32) :
    (encodeAll (ks.map fun k => .bytes k.bytes)).length = 33 * ks.length := by
  induction ks with
  | nil => rfl
  | cons k ks ih =>
    rw [List.map_cons, encodeAll_cons, List.length_append, ih, encode_key, List.length_append,
      length_header, Bytes32.bytes, length_toBeBytes, List.length_cons]
    simp only [show (32 : Nat) < 56 from by decide, if_true]
    omega

theorem encode_address (a : B160) : encode (.bytes a.bytes) = header 128 20 ++ a.bytes := by
  rw [encode_bytes, encodeBytes_of_length_ne_one (by simp [B160.bytes]), B160.bytes,
    length_toBeBytes]

theorem length_encode_address (a : B160) : (encode (.bytes a.bytes)).length = addressEncodingLen := by
  rw [encode_address, List.length_append, length_header, B160.bytes, length_toBeBytes]
  rfl

theorem flatMap_applyBytesEncodingToHash_keys (ks : List Bytes32) :
    (ks.flatMap fun k => applyBytesEncodingToHash k.bytes) =
      encodeAll (ks.map fun k => .bytes k.bytes) := by
  induction ks with
  | nil => rfl
  | cons k ks ih =>
    rw [List.flatMap_cons, List.map_cons, encodeAll_cons,
      applyBytesEncodingToHash_eq (by simp [Bytes32.bytes]), ih]

/-- The bytes one entry of `apply_access_list_encoding_to_hash` writes. -/
def entryStream (a : B160) (ks : List Bytes32) : List UInt8 :=
  let (_, itemRawLength, keysRawLength) := estimateAccessListItemLength ks.length
  applyListLengthEncodingToHash itemRawLength ++ applyBytesEncodingToHash a.bytes ++
    applyListLengthEncodingToHash keysRawLength ++ ks.flatMap fun k => applyBytesEncodingToHash k.bytes

section Entry

variable {a : B160} {ks : List Bytes32}

theorem estimateAccessListItemLength_raw (hfit : (encode (accessListEntry a ks)).length < 2 ^ 32) :
    (estimateAccessListItemLength ks.length).2.2 =
        (encodeAll (ks.map fun k => .bytes k.bytes)).length ∧
      (estimateAccessListItemLength ks.length).2.1 =
        (encodeAll [.bytes a.bytes, .list (ks.map fun k => .bytes k.bytes)]).length := by
  -- every partial length is at most the entry's, so no `usize` sum wraps
  have hkeys := length_encodeAll_keys ks
  have hlen : (encode (accessListEntry a ks)).length =
      (header 192 (encodeAll [.bytes a.bytes, .list (ks.map fun k => .bytes k.bytes)]).length).length +
        (addressEncodingLen + ((header 192 (33 * ks.length)).length + 33 * ks.length)) := by
    rw [accessListEntry, encode_list, List.length_append, encodeAll_cons, encodeAll_cons,
      encodeAll_nil, List.append_nil, List.length_append, length_encode_address, encode_list,
      List.length_append, hkeys]
  have hraw : (encodeAll [.bytes a.bytes, .list (ks.map fun k => .bytes k.bytes)]).length =
      addressEncodingLen + ((header 192 (33 * ks.length)).length + 33 * ks.length) := by
    rw [encodeAll_cons, encodeAll_cons, encodeAll_nil, List.append_nil, List.length_append,
      length_encode_address, encode_list, List.length_append, hkeys]
  have hk : 33 * ks.length < 2 ^ 32 := by omega
  unfold estimateAccessListItemLength
  dsimp only
  rw [Nat.mod_eq_of_lt hk, estimateLengthEncodingLen_eq_header hk, hkeys, hraw]
  constructor
  · rfl
  · rw [Nat.mod_eq_of_lt (by omega), Nat.mod_eq_of_lt (by omega)]
    omega

theorem estimateAccessListItemLength_eq (hfit : (encode (accessListEntry a ks)).length < 2 ^ 32) :
    (estimateAccessListItemLength ks.length).1 = (encode (accessListEntry a ks)).length := by
  obtain ⟨-, hitem⟩ := estimateAccessListItemLength_raw hfit
  have hraw : (estimateAccessListItemLength ks.length).2.1 < 2 ^ 32 := by
    rw [hitem]
    have : (encode (accessListEntry a ks)).length =
        (header 192 (encodeAll [.bytes a.bytes, .list (ks.map fun k => .bytes k.bytes)]).length).length +
          (encodeAll [.bytes a.bytes, .list (ks.map fun k => .bytes k.bytes)]).length := by
      rw [accessListEntry, encode_list, List.length_append]
    omega
  have hfirst : (estimateAccessListItemLength ks.length).1 =
      (estimateLengthEncodingLen (estimateAccessListItemLength ks.length).2.1 +
        (estimateAccessListItemLength ks.length).2.1) % 2 ^ 32 := rfl
  rw [hfirst, estimateLengthEncodingLen_eq_header hraw, hitem, accessListEntry, encode_list,
    List.length_append, Nat.mod_eq_of_lt]
  rw [← List.length_append, ← encode_list]
  exact hfit

theorem entryStream_eq (hfit : (encode (accessListEntry a ks)).length < 2 ^ 32) :
    entryStream a ks = encode (accessListEntry a ks) := by
  obtain ⟨hkeys, hitem⟩ := estimateAccessListItemLength_raw hfit
  have hitemFit : (encodeAll [.bytes a.bytes, .list (ks.map fun k => .bytes k.bytes)]).length <
      2 ^ 32 := by
    have : (encode (accessListEntry a ks)).length =
        (header 192 (encodeAll [.bytes a.bytes, .list (ks.map fun k => .bytes k.bytes)]).length).length +
          (encodeAll [.bytes a.bytes, .list (ks.map fun k => .bytes k.bytes)]).length := by
      rw [accessListEntry, encode_list, List.length_append]
    omega
  have hkeysFit : (encodeAll (ks.map fun k => .bytes k.bytes)).length < 2 ^ 32 := by
    have : (encodeAll (ks.map fun k => .bytes k.bytes)).length ≤
        (encodeAll [.bytes a.bytes, .list (ks.map fun k => .bytes k.bytes)]).length := by
      simp only [encodeAll_cons, encodeAll_nil, encode_list, List.length_append]
      omega
    omega
  unfold entryStream
  dsimp only
  rw [hkeys, hitem, applyListLengthEncodingToHash_eq hitemFit,
    applyListLengthEncodingToHash_eq hkeysFit, applyBytesEncodingToHash_eq (by simp [B160.bytes]),
    flatMap_applyBytesEncodingToHash_keys, accessListEntry, encode_list]
  simp only [encodeAll_cons, encodeAll_nil, encode_list, List.append_nil, List.append_assoc]

end Entry

/-! ### Iterating the access list -/

theorem index_of_parseCurrent {it : AccessListIter} {i : Nat} {a : B160} {keys : StorageKeysIter}
    (h : it.parseCurrent i = .ok (a, keys)) : keys.index = 0 := by
  simp only [AccessListIter.parseCurrent, Except.bind_eq_ok, Except.pure_eq_ok] at h
  obtain ⟨_, -, _, -, _, -, _, -, _, -, _, -, h⟩ := h
  cases h
  rfl

theorem length_of_collect {keys : StorageKeysIter} {ks : List Bytes32} (h : keys.collect = .ok ks) :
    ks.length = keys.count - keys.index := by
  have := (List.mapM_except_eq_ok_iff.mp h).length_eq
  rw [← this, List.length_drop, List.length_range]

theorem accessList_eq_ok {al : List (B160 × List Bytes32)} (h : tx.accessList = .ok al) :
    ∃ it items, tx.accessListIter = .ok it ∧ it.collect = .ok items ∧
      List.Forall₂ (fun (x : B160 × StorageKeysIter) (y : B160 × List Bytes32) =>
        y.1 = x.1 ∧ x.2.collect = .ok y.2 ∧ x.2.count = y.2.length) items al := by
  simp only [accessList, Except.bind_eq_ok] at h
  obtain ⟨it, hit, items, hitems, hal⟩ := h
  -- every item comes from `parse_current`, whose keys start at index `0`
  have hidx : ∀ x ∈ items, x.2.index = 0 :=
    List.Forall₂.forall_mem_right
      (fun _ x hx => by obtain ⟨a, keys⟩ := x; exact index_of_parseCurrent hx)
      (List.mapM_except_eq_ok_iff.mp hitems)
  refine ⟨it, items, hit, hitems, ?_⟩
  have hall := List.mapM_except_eq_ok_iff.mp hal
  clear hal hitems hit
  induction hall with
  | nil => exact .nil
  | @cons x y xs ys hxy _ ih =>
    obtain ⟨a, keys⟩ := x
    simp only [Except.bind_eq_ok, Except.pure_eq_ok] at hxy
    obtain ⟨ks, hks, rfl⟩ := hxy
    refine .cons ⟨rfl, hks, ?_⟩ (ih fun z hz => hidx z (List.mem_cons_of_mem _ hz))
    rw [length_of_collect hks, hidx (a, keys) List.mem_cons_self]
    rfl

theorem map_count_eq {items : List (B160 × StorageKeysIter)} {al : List (B160 × List Bytes32)}
    (hall : List.Forall₂ (fun (x : B160 × StorageKeysIter) (y : B160 × List Bytes32) =>
      y.1 = x.1 ∧ x.2.collect = .ok y.2 ∧ x.2.count = y.2.length) items al) (f : Nat → Nat) :
    items.map (fun x => f x.2.count) = al.map (fun y => f y.2.length) := by
  induction hall with
  | nil => rfl
  | cons hxy _ ih => rw [List.map_cons, List.map_cons, hxy.2.2, ih]

theorem estimateAccessListRawLength_eq {al : List (B160 × List Bytes32)}
    (h : tx.accessList = .ok al) :
    tx.estimateAccessListRawLength =
      .ok ((al.map fun y => (estimateAccessListItemLength y.2.length).1).sum % 2 ^ 32) := by
  obtain ⟨it, items, hit, hitems, hall⟩ := accessList_eq_ok h
  have hmap := map_count_eq hall fun n => (estimateAccessListItemLength n).1
  simp only [estimateAccessListRawLength, hit, hitems, bind, Except.bind, pure, Except.pure]
  rw [← hmap]

theorem applyAccessListEncodingToHash_eq {al : List (B160 × List Bytes32)}
    (h : tx.accessList = .ok al) (totalAccessListLength : Nat) :
    tx.applyAccessListEncodingToHash totalAccessListLength =
      .ok (applyListLengthEncodingToHash totalAccessListLength ++
        (al.map fun y => entryStream y.1 y.2).flatten) := by
  obtain ⟨it, items, hit, hitems, hall⟩ := accessList_eq_ok h
  have hmapM : (items.mapM fun (address, keys) => applyAccessListItem address keys) =
      .ok (al.map fun y => entryStream y.1 y.2) := by
    apply List.mapM_except_eq_ok_iff.mpr
    rw [List.forall₂_map_right_iff]
    refine hall.imp fun x y hxy => ?_
    obtain ⟨a, keys⟩ := x
    obtain ⟨a', ks⟩ := y
    obtain ⟨rfl, hks, hcount⟩ := hxy
    simp only at hks hcount
    simp only [applyAccessListItem, hcount, hks, entryStream, bind, Except.bind, pure, Except.pure]
  simp only [applyAccessListEncodingToHash, hit, hitems, hmapM, bind, Except.bind, pure, Except.pure]

theorem sum_estimateAccessListItemLength {al : List (B160 × List Bytes32)}
    (hb : ∀ y ∈ al, (encode (accessListEntry y.1 y.2)).length < 2 ^ 32) :
    (al.map fun y => (estimateAccessListItemLength y.2.length).1).sum =
      (encodeAll (al.map fun y => accessListEntry y.1 y.2)).length := by
  induction al with
  | nil => rfl
  | cons y al ih =>
    rw [List.map_cons, List.sum_cons, estimateAccessListItemLength_eq (hb y List.mem_cons_self),
      ih (fun z hz => hb z (List.mem_cons_of_mem _ hz)), List.map_cons, encodeAll_cons,
      List.length_append]

theorem flatten_entryStream {al : List (B160 × List Bytes32)}
    (hb : ∀ y ∈ al, (encode (accessListEntry y.1 y.2)).length < 2 ^ 32) :
    (al.map fun y => entryStream y.1 y.2).flatten = encodeAll (al.map fun y => accessListEntry y.1 y.2) := by
  induction al with
  | nil => rfl
  | cons y al ih =>
    rw [List.map_cons, List.flatten_cons, entryStream_eq (hb y List.mem_cons_self),
      ih (fun z hz => hb z (List.mem_cons_of_mem _ hz)), List.map_cons, encodeAll_cons]

theorem accessList_stream {al : List (B160 × List Bytes32)} (h : tx.accessList = .ok al)
    (hfit : (encode (accessListItem al)).length < 2 ^ 32) :
    tx.estimateAccessListRawLength = .ok (encodeAll (al.map fun y => accessListEntry y.1 y.2)).length ∧
      tx.applyAccessListEncodingToHash (encodeAll (al.map fun y => accessListEntry y.1 y.2)).length =
        .ok (encode (accessListItem al)) := by
  have hpayload : (encodeAll (al.map fun y => accessListEntry y.1 y.2)).length < 2 ^ 32 := by
    rw [accessListItem_eq, encode_list, List.length_append] at hfit
    omega
  have hb : ∀ y ∈ al, (encode (accessListEntry y.1 y.2)).length < 2 ^ 32 := fun y hy =>
    Nat.lt_of_le_of_lt (length_encode_le_of_mem (List.mem_map.mpr ⟨y, hy, rfl⟩)) hpayload
  constructor
  · rw [estimateAccessListRawLength_eq h, sum_estimateAccessListItemLength hb,
      Nat.mod_eq_of_lt hpayload]
  · rw [applyAccessListEncodingToHash_eq h, flatten_entryStream hb, ← Nat.mod_eq_of_lt hpayload,
      applyListLengthEncodingToHash_append hpayload, accessListItem_eq]

/-! ### The typed streams -/

theorem flatMap_fees {feeFields : List (List UInt8)} {fees : List Nat}
    (hfees : List.Forall₂ (fun w n => w = toBeBytes 32 n ∧ n < 2 ^ 256) feeFields fees) :
    feeFields.flatMap applyNumberEncodingToHash = encodeAll (fees.map Item.ofNat) := by
  induction hfees with
  | nil => rfl
  | cons hwn _ ih =>
    rw [List.flatMap_cons, applyNumberEncodingToHash_word hwn.1 hwn.2, ih, List.map_cons,
      encodeAll_cons]

theorem sum_fees {feeFields : List (List UInt8)} {fees : List Nat}
    (hfees : List.Forall₂ (fun w n => w = toBeBytes 32 n ∧ n < 2 ^ 256) feeFields fees) :
    (feeFields.map estimateNumberEncodingLen).sum = (encodeAll (fees.map Item.ofNat)).length := by
  induction hfees with
  | nil => rfl
  | cons hwn _ ih =>
    rw [List.map_cons, List.sum_cons, estimateNumberEncodingLen_word hwn.1 hwn.2, ih, List.map_cons,
      encodeAll_cons, List.length_append]

theorem signatureTail_eq (c : Bool) :
    (if c then tx.signatureTail else []) =
      encodeAll (if c then [.ofNat tx.signatureR, .ofNat tx.signatureS, .ofNat tx.signatureV]
        else []) := by
  split
  · have hv : ((List.drop 64 (tx.signature.encoding tx.underlyingBuffer)).take 1).length ≤ 32 :=
      Nat.le_trans (List.length_take_le _ _) (by decide)
    unfold signatureTail
    dsimp only
    rw [applyNumberEncodingToHash_signature (List.length_take_le _ _),
      applyNumberEncodingToHash_signature (List.length_take_le _ _),
      applyNumberEncodingToHash_signature hv]
    simp only [encodeAll_cons, encodeAll_nil, List.append_nil, List.append_assoc, signatureR,
      signatureS, signatureV]
  · rw [encodeAll_nil]

theorem signatureTailLen_eq (c : Bool) :
    (if c then tx.signatureTailLen else 0) =
      (encodeAll (if c then [.ofNat tx.signatureR, .ofNat tx.signatureS, .ofNat tx.signatureV]
        else [])).length := by
  rw [← signatureTail_eq]
  split
  · simp only [signatureTailLen, signatureTail, estimateNumberEncodingLen_eq, List.length_append]
  · rfl

theorem typedFields_fit {al : List (B160 × List Bytes32)} {fees : List Nat} {chainId : UInt64}
    {signed : Bool} (hfit : (encodeAll (tx.typedFields fees chainId signed al)).length < 2 ^ 32) :
    (encode (accessListItem al)).length < 2 ^ 32 ∧ tx.calldata.length < 2 ^ 32 :=
  ⟨Nat.lt_of_le_of_lt (length_encode_le_of_mem (by simp [typedFields])) hfit,
    Nat.lt_of_le_of_lt (length_le_of_bytes_mem (by simp [typedFields])) hfit⟩

theorem typedTotalListLen_eq (hE : tx.HashedFieldsEncoded) {al : List (B160 × List Bytes32)}
    {feeFields : List (List UInt8)} {fees : List Nat}
    (hfees : List.Forall₂ (fun w n => w = toBeBytes 32 n ∧ n < 2 ^ 256) feeFields fees)
    (chainId : UInt64) (signed : Bool)
    (hfit : (encodeAll (tx.typedFields fees chainId signed al)).length < 2 ^ 32) :
    tx.typedTotalListLen feeFields chainId signed
        (encodeAll (al.map fun y => accessListEntry y.1 y.2)).length =
      (encodeAll (tx.typedFields fees chainId signed al)).length % 2 ^ 32 := by
  obtain ⟨hal, hdata⟩ := typedFields_fit hfit
  have hlen : (encode (accessListItem al)).length =
      estimateLengthEncodingLen (encodeAll (al.map fun y => accessListEntry y.1 y.2)).length +
        (encodeAll (al.map fun y => accessListEntry y.1 y.2)).length := by
    rw [accessListItem_eq, encode_list, List.length_append] at hal ⊢
    rw [estimateLengthEncodingLen_eq_header (by omega)]
  unfold typedTotalListLen typedFields
  dsimp only
  rw [estimateNumberEncodingLen_eq (toBeBytes 8 chainId.toNat), applyNumberEncodingToHash_chainId,
    estimateNumberEncodingLen_word hE.nonce tx.nonce.value.isLt, sum_fees hfees,
    estimateNumberEncodingLen_word hE.gasLimit (by have := tx.gasLimit.value.toNat_lt; omega),
    estimateTo_eq hE, estimateNumberEncodingLen_word hE.value tx.value.value.isLt,
    show tx.data.encoding tx.underlyingBuffer = tx.calldata from rfl, estimateBytesEncodingLen_eq,
    applyBytesEncodingToHash_eq hdata, signatureTailLen_eq]
  simp only [encodeAll_append, encodeAll_cons, encodeAll_nil, List.append_nil, List.length_append]
  omega

theorem typedTxHashInput_eq_encode (hE : tx.HashedFieldsEncoded) {al : List (B160 × List Bytes32)}
    (h : tx.accessList = .ok al) {feeFields : List (List UInt8)} {fees : List Nat}
    (hfees : List.Forall₂ (fun w n => w = toBeBytes 32 n ∧ n < 2 ^ 256) feeFields fees)
    (txType : UInt8) (chainId : UInt64) (signed : Bool)
    (hfit : (encodeAll (tx.typedFields fees chainId signed al)).length < 2 ^ 32) :
    tx.typedTxHashInput txType feeFields chainId signed =
      .ok ([txType] ++ encode (.list (tx.typedFields fees chainId signed al))) := by
  obtain ⟨hal, hdata⟩ := typedFields_fit hfit
  obtain ⟨hraw, happly⟩ := accessList_stream h hal
  unfold typedTxHashInput
  rw [hraw]
  simp only [bind, Except.bind, pure, Except.pure]
  rw [happly]
  simp only [Except.ok.injEq]
  rw [typedTotalListLen_eq hE hfees chainId signed hfit, applyNumberEncodingToHash_chainId,
    applyNumberEncodingToHash_word hE.nonce tx.nonce.value.isLt, flatMap_fees hfees,
    applyNumberEncodingToHash_word hE.gasLimit (by have := tx.gasLimit.value.toNat_lt; omega),
    applyTo_eq hE, applyNumberEncodingToHash_word hE.value tx.value.value.isLt,
    show tx.data.encoding tx.underlyingBuffer = tx.calldata from rfl,
    applyBytesEncodingToHash_eq hdata, signatureTail_eq, ← applyListLengthEncodingToHash_append hfit]
  simp only [typedFields, encodeAll_append, encodeAll_cons, encodeAll_nil, List.append_nil,
    List.append_assoc]

end Streams

end ZkSyncTransaction

end ZksyncOs
