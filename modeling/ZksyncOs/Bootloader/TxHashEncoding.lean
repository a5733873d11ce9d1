import Mathlib
import ZksyncOs.Bootloader.TxHash
import ZksyncOs.Bootloader.Decoder

/-!
# The hashed streams are RLP encodings

For a transaction that `try_from_slice` accepts, `calculate_signed_hash` and `calculate_hash` of the
Ethereum types charge for the RLP encoding of a list of fields and hash it, behind the type byte of
a typed transaction, as long as that encoding fits a `usize`:

* `hashedFieldsEncoded_of_tryFromSlice` : the head words the hashes read hold the parsed values,
  and the signature has 65 bytes;
* `hashedFields`, `hashEncoding` : the list each type hashes, and charging for and hashing its
  encoding;
* `legacyTxCalculateHash_eq`, `typedTxCalculateHash_eq` : each stream is that encoding, and each
  charge is for its length.

The signed hash's list is the one Ethereum signs. The list of `calculate_hash` ends with the
signature as `r, s, v`, where Ethereum's signed transactions put `v, r, s` (`y_parity, r, s` for the
typed ones), and the `v` of a typed transaction is the signature's last byte as it is stored.
-/

namespace ZksyncOs

open BigEndian Rlp Checked

namespace ZkSyncTransaction

open TransactionFields

variable (tx : ZkSyncTransaction)

/-- The list the Ethereum type of `tx` hashes. -/
def hashedFields (chainId : UInt64) (signed : Bool) (al : List (B160 × List Bytes32)) : List Item :=
  if tx.txType.value = legacyTxType then tx.legacyFields chainId signed
  else if tx.txType.value = eip2930TxType then tx.eip2930Fields chainId signed al
  else tx.eip1559Fields chainId signed al

/-- The byte before the list: none for a legacy transaction, the type for a typed one. -/
def hashPrefix : List UInt8 := if tx.txType.value = legacyTxType then [] else [tx.txType.value]

/-- Ethereum's list of a signed legacy transaction: the signature as `v, r, s`. -/
def ethereumLegacyFields (chainId : UInt64) : List Item :=
  [.ofNat tx.nonce.value.val, .ofNat tx.maxFeePerGas.value.val, .ofNat tx.gasLimit.value.toNat,
    tx.toItem, .ofNat tx.value.value.val, .bytes tx.calldata, .ofNat (tx.legacyV chainId),
    .ofNat tx.signatureR, .ofNat tx.signatureS]

/-- Charging for the encoding of `fields`, then hashing it behind the type byte. -/
def hashEncoding {σ : Type} (keccak256 : List UInt8 → Bytes32) (fields : List Item) :
    EStateM FatalError (σ × Resources) Bytes32 := do
  chargeKeccak (encode (.list fields)).length
  pure (keccak256 (tx.hashPrefix ++ encode (.list fields)))

variable {tx}

/-- An accepted transaction of a type with a signature: the words the hashes read hold the parsed
values, and the signature has 65 bytes. -/
theorem hashedFieldsEncoded_of_tryFromSlice {s : List UInt8} (hs : tryFromSlice s = .ok tx)
    (hty : ¬(tx.txType.value = l1L2TxType ∨ tx.txType.value = upgradeTxType)) :
    tx.HashedFieldsEncoded := by
  obtain ⟨-, f, hf, hv, rfl⟩ := fields_of_tryFromSlice hs
  have hword : ∀ i < 19, (headRange i).slice s = toBeBytes 32 (f.headWords.getD i 0) :=
    fun i hi => slice_headRange f hf hi
  refine ⟨hword 8 (by decide), hword 5 (by decide), hword 6 (by decide), hword 3 (by decide),
    hword 2 (by decide), hword 9 (by decide), ?_⟩
  -- the signature's range is its tail's, of the length `validate_structure` checks
  have hlen := signature_len_of_validateStructure hv hty
  have hsig : (f.toTransaction s).signature.encoding (f.toTransaction s).underlyingBuffer =
      f.signature := (slices_toTransaction f hf).2.1
  simp only [ByteRange.len, toTransaction, tailRange] at hlen
  rw [hsig]
  omega

section Hash

variable {σ : Type} (keccak256 : List UInt8 → Bytes32)

theorem legacyTxCalculateHash_eq (hE : tx.HashedFieldsEncoded) (chainId : UInt64) (signed : Bool)
    (hfit : (encode (.list (tx.legacyFields chainId signed))).length < 2 ^ 32) :
    (tx.legacyTxCalculateHash keccak256 chainId signed : EStateM FatalError (σ × Resources) Bytes32) =
      (do
        chargeKeccak (encode (.list (tx.legacyFields chainId signed))).length
        pure (keccak256 (encode (.list (tx.legacyFields chainId signed))))) := by
  have hpay : (encodeAll (tx.legacyFields chainId signed)).length < 2 ^ 32 := by
    rw [encode_list, List.length_append] at hfit
    omega
  have hdata : tx.calldata.length < 2 ^ 32 :=
    Nat.lt_of_le_of_lt (length_le_of_bytes_mem (by simp [legacyFields])) hpay
  unfold legacyTxCalculateHash
  dsimp only
  rw [legacyTotalListLen_eq hE hdata, estimateLengthEncodingLen_add hfit,
    legacyTxHashInput_eq_encode hE chainId signed hpay]

theorem typedTxCalculateHash_eq (hE : tx.HashedFieldsEncoded) {al : List (B160 × List Bytes32)}
    (h : tx.accessList = .ok al) {feeFields : List (List UInt8)} {fees : List Nat}
    (hfees : List.Forall₂ (fun w n => w = toBeBytes 32 n ∧ n < 2 ^ 256) feeFields fees)
    (txType : UInt8) (chainId : UInt64) (signed : Bool)
    (hfit : (encode (.list (tx.typedFields fees chainId signed al))).length < 2 ^ 32) :
    (tx.typedTxCalculateHash keccak256 txType feeFields chainId signed :
        EStateM FatalError (σ × Resources) Bytes32) =
      (do
        chargeKeccak (encode (.list (tx.typedFields fees chainId signed al))).length
        pure (keccak256 ([txType] ++ encode (.list (tx.typedFields fees chainId signed al))))) := by
  have hpay : (encodeAll (tx.typedFields fees chainId signed al)).length < 2 ^ 32 := by
    rw [encode_list, List.length_append] at hfit
    omega
  obtain ⟨hraw, -⟩ := accessList_stream h (typedFields_fit hpay).1
  unfold typedTxCalculateHash
  rw [hraw, typedTxHashInput_eq_encode hE h hfees txType chainId signed hpay]
  simp only [Except.toOption, okOr_some, pure_bind]
  rw [typedTotalListLen_eq hE hfees chainId signed hpay, estimateLengthEncodingLen_add hfit]

theorem forall₂_eip2930FeeFields (hE : tx.HashedFieldsEncoded) :
    List.Forall₂ (fun w n => w = toBeBytes 32 n ∧ n < 2 ^ 256) tx.eip2930FeeFields
      [tx.maxFeePerGas.value.val] :=
  .cons ⟨hE.maxFeePerGas, by have := tx.maxFeePerGas.value.isLt; omega⟩ .nil

theorem forall₂_eip1559FeeFields (hE : tx.HashedFieldsEncoded) :
    List.Forall₂ (fun w n => w = toBeBytes 32 n ∧ n < 2 ^ 256) tx.eip1559FeeFields
      [tx.maxPriorityFeePerGas.value.val, tx.maxFeePerGas.value.val] :=
  .cons ⟨hE.maxPriorityFeePerGas, by have := tx.maxPriorityFeePerGas.value.isLt; omega⟩
    (forall₂_eip2930FeeFields hE)

/-! ### Each type hashes the encoding of its list -/

section Types

variable (chainId : UInt64) (signed : Bool) {al : List (B160 × List Bytes32)}

theorem legacyTxCalculateHash_eq_hashEncoding (hE : tx.HashedFieldsEncoded)
    (hty : tx.txType.value = legacyTxType)
    (hfit : (encode (.list (tx.hashedFields chainId signed al))).length < 2 ^ 32) :
    (tx.legacyTxCalculateHash keccak256 chainId signed : EStateM FatalError (σ × Resources) Bytes32) =
      tx.hashEncoding keccak256 (tx.hashedFields chainId signed al) := by
  have hfields : tx.hashedFields chainId signed al = tx.legacyFields chainId signed := by
    simp only [hashedFields, hty, if_true]
  rw [hfields] at hfit ⊢
  rw [legacyTxCalculateHash_eq keccak256 hE chainId signed hfit, hashEncoding, hashPrefix, if_pos hty,
    List.nil_append]

theorem eip2930TxCalculateHash_eq_hashEncoding (hE : tx.HashedFieldsEncoded)
    (hty : tx.txType.value = eip2930TxType) (h : tx.accessList = .ok al)
    (hfit : (encode (.list (tx.hashedFields chainId signed al))).length < 2 ^ 32) :
    (tx.eip2930TxCalculateHash keccak256 chainId signed : EStateM FatalError (σ × Resources) Bytes32) =
      tx.hashEncoding keccak256 (tx.hashedFields chainId signed al) := by
  have hfields : tx.hashedFields chainId signed al = tx.eip2930Fields chainId signed al := by
    rw [hashedFields, if_neg (by rw [hty]; decide), if_pos hty]
  rw [hfields] at hfit ⊢
  rw [eip2930TxCalculateHash, typedTxCalculateHash_eq keccak256 hE h (forall₂_eip2930FeeFields hE)
    0x01 chainId signed hfit, hashEncoding, hashPrefix, hty]
  rfl

theorem eip1559TxCalculateHash_eq_hashEncoding (hE : tx.HashedFieldsEncoded)
    (hty : tx.txType.value = eip1559TxType) (h : tx.accessList = .ok al)
    (hfit : (encode (.list (tx.hashedFields chainId signed al))).length < 2 ^ 32) :
    (tx.eip1559TxCalculateHash keccak256 chainId signed : EStateM FatalError (σ × Resources) Bytes32) =
      tx.hashEncoding keccak256 (tx.hashedFields chainId signed al) := by
  have hfields : tx.hashedFields chainId signed al = tx.eip1559Fields chainId signed al := by
    rw [hashedFields, if_neg (by rw [hty]; decide), if_neg (by rw [hty]; decide)]
  rw [hfields] at hfit ⊢
  rw [eip1559TxCalculateHash, typedTxCalculateHash_eq keccak256 hE h (forall₂_eip1559FeeFields hE)
    0x02 chainId signed hfit, hashEncoding, hashPrefix, hty]
  rfl

end Types

end Hash

theorem calculate_hashes_hash_rlp_encoding_of_fields {s : List UInt8} (hs : tryFromSlice s = .ok tx)
    (hty : tx.txType.value = legacyTxType ∨ tx.txType.value = eip2930TxType ∨
      tx.txType.value = eip1559TxType)
    {al : List (B160 × List Bytes32)} (hal : tx.accessList = .ok al) (chainId : UInt64) {σ : Type}
    (keccak256 : List UInt8 → Bytes32) :
    ((encode (.list (tx.hashedFields chainId true al))).length < 2 ^ 32 →
      (tx.calculateSignedHash keccak256 chainId : EStateM FatalError (σ × Resources) Bytes32) =
        tx.hashEncoding keccak256 (tx.hashedFields chainId true al)) ∧
    ((encode (.list (tx.hashedFields chainId false al))).length < 2 ^ 32 →
      (tx.calculateHash keccak256 chainId : EStateM FatalError (σ × Resources) Bytes32) =
        tx.hashEncoding keccak256 (tx.hashedFields chainId false al)) := by
  have hE : tx.HashedFieldsEncoded :=
    hashedFieldsEncoded_of_tryFromSlice hs (by rcases hty with h | h | h <;> rw [h] <;> decide)
  -- both hashes dispatch on the type to the same function, with and without the signature
  rcases hty with hty | hty | hty
  · refine ⟨fun hfit => ?_, fun hfit => ?_⟩
    · dsimp only [calculateSignedHash]
      rw [if_pos hty]
      exact legacyTxCalculateHash_eq_hashEncoding keccak256 chainId true hE hty hfit
    · dsimp only [calculateHash]
      rw [if_pos hty]
      exact legacyTxCalculateHash_eq_hashEncoding keccak256 chainId false hE hty hfit
  · have hlegacy : ¬tx.txType.value = legacyTxType := by rw [hty]; decide
    refine ⟨fun hfit => ?_, fun hfit => ?_⟩
    · dsimp only [calculateSignedHash]
      rw [if_neg hlegacy, if_pos hty]
      exact eip2930TxCalculateHash_eq_hashEncoding keccak256 chainId true hE hty hal hfit
    · dsimp only [calculateHash]
      rw [if_neg hlegacy, if_pos hty]
      exact eip2930TxCalculateHash_eq_hashEncoding keccak256 chainId false hE hty hal hfit
  · have hlegacy : ¬tx.txType.value = legacyTxType := by rw [hty]; decide
    have heip2930 : ¬tx.txType.value = eip2930TxType := by rw [hty]; decide
    refine ⟨fun hfit => ?_, fun hfit => ?_⟩
    · dsimp only [calculateSignedHash]
      rw [if_neg hlegacy, if_neg heip2930, if_pos hty]
      exact eip1559TxCalculateHash_eq_hashEncoding keccak256 chainId true hE hty hal hfit
    · dsimp only [calculateHash]
      rw [if_neg hlegacy, if_neg heip2930, if_pos hty]
      exact eip1559TxCalculateHash_eq_hashEncoding keccak256 chainId false hE hty hal hfit

/-- A legacy transaction signed with `r = 1`, `s = 0` and `v = 27`, without EIP-155. -/
def signedLegacyFields : TransactionFields :=
  { minimalLegacyFields with signature := List.replicate 31 0 ++ [1] ++ List.replicate 32 0 ++ [27] }

/-- Its tight layout behind `TX_OFFSET` zero bytes. -/
def signedLegacyBuffer : List UInt8 := List.replicate txOffset 0 ++ signedLegacyFields.encode

def signedLegacyTx : ZkSyncTransaction := signedLegacyFields.toTransaction signedLegacyBuffer

theorem tryFromSlice_signedLegacy : tryFromSlice signedLegacyBuffer = .ok signedLegacyTx :=
  tryFromSlice_of_encode (by rw [signedLegacyBuffer, length_tight_buffer]; decide)
    (List.drop_left' List.length_replicate) (by rfl)

theorem calculate_hashes_of_signed_legacy :
    ((encode (.list (signedLegacyTx.hashedFields 1 true []))).length < 2 ^ 32 →
      (signedLegacyTx.calculateSignedHash (fun _ => 0) 1 :
          EStateM FatalError (Unit × Resources) Bytes32) =
        signedLegacyTx.hashEncoding (fun _ => 0) (signedLegacyTx.hashedFields 1 true [])) ∧
    ((encode (.list (signedLegacyTx.hashedFields 1 false []))).length < 2 ^ 32 →
      (signedLegacyTx.calculateHash (fun _ => 0) 1 : EStateM FatalError (Unit × Resources) Bytes32) =
        signedLegacyTx.hashEncoding (fun _ => 0) (signedLegacyTx.hashedFields 1 false [])) :=
  calculate_hashes_hash_rlp_encoding_of_fields tryFromSlice_signedLegacy (Or.inl rfl)
    (by decide +kernel) 1 (fun _ => 0)

/-- The signed legacy transaction is accepted and its access list iterates, yet `calculate_hash`
hashes its signature as `r, s, v`: not the Ethereum encoding of the signed transaction. -/
theorem calculate_hash_of_signed_legacy_is_not_ethereum_encoding :
    tryFromSlice signedLegacyBuffer = .ok signedLegacyTx ∧ signedLegacyTx.accessList = .ok [] ∧
      (∀ keccak256 : List UInt8 → Bytes32,
        (signedLegacyTx.calculateHash keccak256 1 : EStateM FatalError (Unit × Resources) Bytes32) =
          signedLegacyTx.hashEncoding keccak256 (signedLegacyTx.hashedFields 1 false [])) ∧
      signedLegacyTx.hashPrefix ++ encode (.list (signedLegacyTx.hashedFields 1 false [])) ≠
        encode (.list (signedLegacyTx.ethereumLegacyFields 1)) := by
  have hE := hashedFieldsEncoded_of_tryFromSlice tryFromSlice_signedLegacy (by decide)
  refine ⟨tryFromSlice_signedLegacy, by decide +kernel, fun keccak256 => ?_, by decide +kernel⟩
  exact legacyTxCalculateHash_eq_hashEncoding keccak256 1 false hE rfl (by decide +kernel)

end ZkSyncTransaction

end ZksyncOs
