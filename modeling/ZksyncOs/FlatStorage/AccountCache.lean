import Mathlib
import ZksyncOs.FlatStorage.StorageCache
import ZksyncOs.FlatStorage.AccountProperties

/-!
# The account cache

`NewModelAccountCache` of `flat_storage_model::account_cache`: a `HistoryMap` from addresses to
their `AccountProperties`. An account is read from storage on its first access in the block: the
properties hash under `ACCOUNT_PROPERTIES_STORAGE_ADDRESS`, then the preimage of that hash. So the
operations of the account cache run on the whole storage model, the three caches of
`FlatTreeWithAccountsUnderHashesStorageModel`.

* `materializeElement` : charge the access, load the account on its first access in the block,
  warm it up on its first access in the transaction;
* `updateNominalTokenValueInner`, `transferNominalTokenValueInner`, `incrementNonce`,
  `deployCode`, `setBytecodeDetails` : the writes, each on the account's current record;
* `markForDeconstruction` : the `SELFDESTRUCT` of an account, which marks its record
  `deconstructed` when it was deployed in the transaction or is in its constructor;
* `finishTx` : every account whose current record is `deconstructed` and that was written since
  the last commit is reset to `TRIVIAL_VALUE`, and its storage is cleared;
* `persistChanges` : at the end of the block, every changed account's preimage is recorded and its
  hash written to storage;
* `calculatePubdataUsedByTx` : the diff bytes of the accounts written since the last commit.

`StorageEnv` collects what the storage model reads from outside: the oracle's answers, the hash
functions and `PROOF_ENV`.
-/

namespace ZksyncOs

/-- The oracle's answers, the hash functions, and whether the run is the proving one. -/
structure StorageEnv where
  proofEnv : Bool
  blake2s : List UInt8 → Bytes32
  keccak256 : List UInt8 → Bytes32
  initialStorageSlotData : WarmStorageKey → InitialStorageSlotData
  preimage : Bytes32 → List UInt8

/-- `ExecutionEnvironmentType as u8`. -/
def ExecutionEnvironmentType.toUInt8 : ExecutionEnvironmentType → UInt8
  | .noEE => 0
  | .evm => 1
  | .eraVM => 2
  | .iWasm => 3

/-- `evm_interpreter::utils::is_precompile`: the addresses `1..=10`. -/
def isPrecompile (address : B160) : Bool :=
  let highestPrecompileAddress := 10
  address.val / 2 ^ 64 = 0 && 0 < address.val % 2 ^ 64 &&
    address.val % 2 ^ 64 ≤ highestPrecompileAddress

def defaultCodeVersionByte : UInt8 := 1

/-- `u64::saturating_mul`. -/
def saturatingMulU64 (a b : Nat) : Nat := min (a * b) u64Max

def overflowingAdd (a b : U256) : U256 × Bool := (a + b, decide (2 ^ 256 ≤ a.val + b.val))

structure AccountPropertiesMetadata where
  deployedInTx : Option Nat
  lastTouchedInTx : Option Nat
  notPublishBytecode : Bool
deriving DecidableEq, Repr, Inhabited

def AccountPropertiesMetadata.consideredWarm (m : AccountPropertiesMetadata) (currentTxNumber : Nat) :
    Bool :=
  m.lastTouchedInTx == some currentTxNumber

/-- The record type of the account cache. -/
abbrev AccountRecord := CacheRecord AccountProperties AccountPropertiesMetadata

structure NewModelAccountCache where
  cache : HistoryMap BitsOrd160 AccountRecord
  currentTxNumber : Nat

/-- `FlatTreeWithAccountsUnderHashesStorageModel`: the three caches. -/
structure FlatTreeWithAccountsUnderHashesStorageModel where
  storageCache : GenericPubdataAwarePlainStorage
  preimagesCache : BytecodeAndAccountDataPreimagesStorage
  accountDataCache : NewModelAccountCache

namespace NewModelAccountCache

open BytecodeAndAccountDataPreimagesStorage

/-- The state the account cache's methods run on: the storage model and the caller's resources. -/
abbrev M (ε α : Type) := EStateM ε (FlatTreeWithAccountsUnderHashesStorageModel × Resources) α

/-- `new_from_parts`. -/
def new : NewModelAccountCache := ⟨HistoryMap.new, 0⟩

/-- A storage cache method, on the storage cache of the model. -/
def onStorage {α : Type} (x : GenericPubdataAwarePlainStorage.M α) : M SystemError α :=
  EStateM.focus (fun s => (s.1.storageCache, s.2)) (fun s t => ({ s.1 with storageCache := t.1 }, t.2)) x

/-- A preimage cache method, on the preimage cache of the model. -/
def onPreimages {α : Type}
    (x : EStateM SystemError (BytecodeAndAccountDataPreimagesStorage × Resources) α) :
    M SystemError α :=
  EStateM.focus (fun s => (s.1.preimagesCache, s.2)) (fun s t => ({ s.1 with preimagesCache := t.1 }, t.2)) x

/-- Write the account cache's map back into the state. -/
def setAccountCache {ε : Type} (cache : HistoryMap BitsOrd160 AccountRecord) : M ε Unit :=
  modify fun (s, r) => ({ s with accountDataCache := { s.accountDataCache with cache } }, r)

/-- `HistoryMapItemRefMut::update` on the account of `key`, with a callback that cannot fail. -/
def updateAccount {ε : Type} (key : BitsOrd160) (g : AccountRecord → AccountRecord) : M ε Unit := do
  let (s, _) ← get
  setAccountCache (Id.run (s.accountDataCache.cache.update key fun r => pure (g r)))

/-- The current record of `key`; every caller has just materialized it. -/
def accountRecord (cache : HistoryMap BitsOrd160 AccountRecord) (key : BitsOrd160) : AccountRecord :=
  ((cache.get key).map ElementWithHistory.current).getD default

/-- The charge of a cold account access, made on the first access in the transaction:
nothing for a precompile, and a self-destruct pays the warm cost here instead. -/
def chargeColdAccess (eeType : ExecutionEnvironmentType) (address : B160) (isSelfdestruct : Bool) :
    M SystemError Unit :=
  match eeType with
  | .noEE => pure ()
  | .evm =>
    let cost := if isPrecompile address then Resources.empty
      else Resources.fromErgs coldPropertiesAccessExtraCostErgs
    let cost := if isSelfdestruct then cost.addErgs warmPropertiesAccessCostErgs else cost
    chargeM cost
  | _ => throw unsupportedEE

/-- The `get_or_insert` callback of `materialize_element`: the properties hash from storage,
read as if with infinite ergs, then its preimage; a zero hash is an account that does not exist. -/
def spawnAccount (env : StorageEnv) (eeType : ExecutionEnvironmentType) (address : B160)
    (isSelfdestruct : Bool) : M SystemError AccountRecord := do
  chargeColdAccess eeType address isSelfdestruct
  let hash ← withInfiniteErgs (onStorage
    (GenericPubdataAwarePlainStorage.readSpecialAccountProperty env.initialStorageSlotData .noEE
      address))
  if hash = 0 then
    pure (CacheRecord.new default .unset)
  else
    let preimage ← onPreimages (getPreimage env.proofEnv env.blake2s env.preimage
      ⟨hash, AccountProperties.encodedSize, .accountData⟩)
    if preimage.length ≠ AccountProperties.encodedSize then
      throw (.internal ⟨"assertion `left == right` failed"⟩)
    pure (CacheRecord.new (AccountProperties.decode preimage) .retrieved)

/-- The metadata update that warms an account up for the current transaction. -/
def warmUp (currentTxNumber : Nat) (r : AccountRecord) : AccountRecord :=
  { r with metadata := { r.metadata with lastTouchedInTx := some currentTxNumber } }

/-- The `and_then` closure of `materialize_element`. -/
def warmUpElement (eeType : ExecutionEnvironmentType) (address : B160) (isSelfdestruct : Bool)
    (currentTxNumber : Nat) (initializedElement : Bool) : M SystemError AccountRecord := do
  let (s, _) ← get
  let isWarm := (accountRecord s.accountDataCache.cache ⟨address⟩).metadata.consideredWarm
    currentTxNumber
  if isWarm = false then
    if initializedElement = false then
      -- in the cache, but not touched in this transaction yet
      chargeColdAccess eeType address isSelfdestruct
    updateAccount ⟨address⟩ (warmUp currentTxNumber)
  let (s, _) ← get
  pure (accountRecord s.accountDataCache.cache ⟨address⟩)

/-- `materialize_element`: the account's record after the access. -/
def materializeElement (env : StorageEnv) (eeType : ExecutionEnvironmentType) (address : B160)
    (isSelfdestruct isAccessList : Bool) : M SystemError AccountRecord := do
  let ergs ← match eeType with
    -- an access list pays the full cost as often as the account is listed
    | .noEE => pure (if isAccessList then 2400 * ergsPerGas else 0)
    | .evm => pure (if isSelfdestruct then 0 else warmPropertiesAccessCostErgs)
    | _ => throw unsupportedEE
  chargeM ⟨ergs, warmAccountCacheAccessNativeCost⟩
  let (s, _) ← get
  let cache ← s.accountDataCache.cache.getOrInsert ⟨address⟩
    (spawnAccount env eeType address isSelfdestruct)
  setAccountCache cache
  warmUpElement eeType address isSelfdestruct s.accountDataCache.currentTxNumber
    (s.accountDataCache.cache.get ⟨address⟩).isNone

/-- A system error as an `UpdateQueryError`. -/
def liftSystem {α : Type} (x : M SystemError α) : M UpdateQueryError α :=
  EStateM.adaptExcept UpdateQueryError.system x

/-- `update_nominal_token_value_inner`: the old balance. -/
def updateNominalTokenValueInner (env : StorageEnv) (eeType : ExecutionEnvironmentType)
    (address : B160) (updateFn : U256 → Except UpdateQueryError U256) (isSelfdestruct : Bool) :
    M UpdateQueryError U256 := do
  let accountData ← liftSystem (materializeElement env eeType address isSelfdestruct false)
  liftSystem (chargeM (Resources.fromNative warmAccountCacheWriteExtraNativeCost))
  let cur := accountData.value.balance
  let new ← match updateFn cur with
    | .ok v => pure v
    | .error e => throw e
  updateAccount ⟨address⟩ fun r => r.setValue { r.value with balance := new }
  pure cur

/-- The balance update of a transfer: `op` of the old balance and the amount, or
`NumericBoundsError` when it overflows. -/
def boundedUpdate (op : U256 → U256 → U256 × Bool) (amount oldBalance : U256) :
    Except UpdateQueryError U256 :=
  let (newValue, of) := op oldBalance amount
  if of then .error .numericBoundsError else .ok newValue

/-- `transfer_nominal_token_value_inner`: debit `from`, then credit `to`. A failed credit
leaves the debit in place, for the caller's frame to roll back. -/
def transferNominalTokenValueInner (env : StorageEnv) (fromEe : ExecutionEnvironmentType)
    (fromAddress toAddress : B160) (amount : U256) (isSelfdestruct : Bool) : M UpdateQueryError Unit := do
  let _ ← updateNominalTokenValueInner env fromEe fromAddress
    (boundedUpdate ValueDiffCompressionStrategy.overflowingSub amount) isSelfdestruct
  let _ ← updateNominalTokenValueInner env fromEe toAddress (boundedUpdate overflowingAdd amount)
    isSelfdestruct

def updateNominalTokenValue (env : StorageEnv) (eeType : ExecutionEnvironmentType) (address : B160)
    (updateFn : U256 → Except UpdateQueryError U256) : M UpdateQueryError U256 :=
  updateNominalTokenValueInner env eeType address updateFn false

def transferNominalTokenValue (env : StorageEnv) (fromEe : ExecutionEnvironmentType)
    (fromAddress toAddress : B160) (amount : U256) : M UpdateQueryError Unit :=
  transferNominalTokenValueInner env fromEe fromAddress toAddress amount false

def touchAccount (env : StorageEnv) (eeType : ExecutionEnvironmentType) (address : B160)
    (isAccessList : Bool) : M SystemError Unit := do
  let _ ← materializeElement env eeType address false isAccessList

def readAccountBalanceAssumingWarm (eeType : ExecutionEnvironmentType) (address : B160) :
    M SystemError U256 := do
  match eeType with
  | .noEE => pure ()
  | .evm => chargeM (Resources.fromErgs knownToBeWarmPropertiesAccessCostErgs)
  | _ => throw unsupportedEE
  let (s, _) ← get
  match s.accountDataCache.cache.get ⟨address⟩ with
  | some e => pure e.current.value.balance
  | none => throw (.internal ⟨"Balance assumed warm but not in cache"⟩)

/-- `read_account_properties`: the properties, and the bytecode when it is requested. -/
def readAccountProperties (env : StorageEnv) (eeType : ExecutionEnvironmentType) (address : B160)
    (requestBytecode : Bool) : M SystemError (AccountProperties × Option (List UInt8)) := do
  let accountData ← materializeElement env eeType address false false
  let fullData := accountData.value
  if requestBytecode = false then
    return (fullData, none)
  if fullData.bytecodeHash = 0 then
    -- an account without code has no code fields
    if fullData.observableBytecodeHash ≠ 0 then
      throw (.internal ⟨"assertion failed: full_data.observable_bytecode_hash.is_zero()"⟩)
    if fullData.bytecodeLen ≠ 0 ∨ fullData.artifactsLen ≠ 0 ∨ fullData.observableBytecodeLen ≠ 0 then
      throw (.internal ⟨"assertion `left == right` failed"⟩)
    return (fullData, some [])
  let bytecode ← onPreimages (getPreimage env.proofEnv env.blake2s env.preimage
    ⟨fullData.bytecodeHash, fullData.bytecodeLen.toNat, .bytecode⟩)
  pure (fullData, some bytecode)

/-- `increment_nonce`: the old nonce. -/
def incrementNonce (env : StorageEnv) (eeType : ExecutionEnvironmentType) (address : B160)
    (incrementBy : UInt64) : M UpdateQueryError UInt64 := do
  let accountData ← liftSystem (materializeElement env eeType address false false)
  liftSystem (chargeM (Resources.fromNative warmAccountCacheWriteExtraNativeCost))
  let nonce := accountData.value.nonce
  -- `checked_add`
  if nonce.toNat + incrementBy.toNat < 2 ^ 64 then
    updateAccount ⟨address⟩ fun r => r.setValue { r.value with nonce := nonce + incrementBy }
  else
    throw .numericBoundsError
  pure nonce

/-- The record after a deployment: the code fields, the versioning flags, the transaction of
the deployment and whether the bytecode is published. -/
def deployedRecord (ee : ExecutionEnvironmentType) (bytecodeHash : Bytes32)
    (bytecodeLen artifactsLen : UInt32) (observableBytecodeHash : Bytes32)
    (observableBytecodeLen : UInt32) (curTx : Nat) (notPublishBytecode : Bool) (r : AccountRecord) :
    AccountRecord :=
  let versioningData := VersioningData.setCodeVersion
    (VersioningData.setEeVersion (VersioningData.setAsDeployed r.value.versioningData) ee.toUInt8)
    defaultCodeVersionByte
  let value := { r.value with
    observableBytecodeHash := observableBytecodeHash
    observableBytecodeLen := observableBytecodeLen
    bytecodeHash := bytecodeHash
    bytecodeLen := bytecodeLen
    artifactsLen := artifactsLen
    versioningData := versioningData }
  { r.setValue value with
    metadata := { r.metadata with deployedInTx := some curTx, notPublishBytecode := notPublishBytecode } }

/-- `deploy_code`: the recorded bytecode. -/
def deployCode (env : StorageEnv) (fromEe : ExecutionEnvironmentType) (atAddress : B160)
    (bytecode : List UInt8) (bytecodeLen artifactsLen : UInt32) : M SystemError (List UInt8) := do
  match fromEe with
  | .noEE => pure ()
  | .evm =>
    let codeDepositCost := saturatingMulU64 codedeposit bytecodeLen.toNat
    chargeM (Resources.fromErgs (saturatingMulU64 codeDepositCost ergsPerGas))
  | _ => throw (.internal ⟨"not yet implemented"⟩)
  let (s, _) ← get
  let curTx := s.accountDataCache.currentTxNumber
  let _ ← withInfiniteErgs (materializeElement env fromEe atAddress false false)
  let (observableBytecodeHash, bytecodeHash) ← match fromEe with
    | .evm =>
      if artifactsLen ≠ 0 then throw (.internal ⟨"assertion `left == right` failed"⟩)
      else pure (env.keccak256 bytecode, env.blake2s bytecode)
    | _ => throw unsupportedEE
  let bytecode ← onPreimages (recordPreimage ⟨bytecodeHash, bytecodeLen.toNat, .bytecode⟩ bytecode)
  chargeM (Resources.fromNative warmAccountCacheWriteExtraNativeCost)
  updateAccount ⟨atAddress⟩ (deployedRecord fromEe bytecodeHash bytecodeLen artifactsLen
    observableBytecodeHash bytecodeLen curTx false)
  pure bytecode

/-- `set_bytecode_details`: a force deployment, whose bytecode is published separately. -/
def setBytecodeDetails (env : StorageEnv) (atAddress : B160) (ee : ExecutionEnvironmentType)
    (bytecodeHash : Bytes32) (bytecodeLen artifactsLen : UInt32) (observableBytecodeHash : Bytes32)
    (observableBytecodeLen : UInt32) : M SystemError Unit := do
  let (s, _) ← get
  let curTx := s.accountDataCache.currentTxNumber
  let _ ← withInfiniteErgs (materializeElement env .noEE atAddress false false)
  chargeM (Resources.fromNative warmAccountCacheWriteExtraNativeCost)
  updateAccount ⟨atAddress⟩ (deployedRecord ee bytecodeHash bytecodeLen artifactsLen
    observableBytecodeHash observableBytecodeLen curTx true)

/-- The errors of the transfer in `mark_for_deconstruction`. -/
def deconstructionTransferError : UpdateQueryError → SystemError
  | .numericBoundsError => .internal ⟨"Impossible, not enough balance in deconstruction"⟩
  | .system e => e

/-- `mark_for_deconstruction`: a `SELFDESTRUCT` of `atAddress` in favour of
`nominalTokenBeneficiary`. -/
def markForDeconstruction (env : StorageEnv) (fromEe : ExecutionEnvironmentType) (atAddress : B160)
    (nominalTokenBeneficiary : B160) (inConstructor : Bool) : M SystemError Unit := do
  let (s, _) ← get
  let curTx := s.accountDataCache.currentTxNumber
  let accountData ← materializeElement env fromEe atAddress true false
  chargeM (Resources.fromNative warmAccountCacheWriteExtraNativeCost)
  let sameAddress := atAddress = nominalTokenBeneficiary
  let transferAmount := accountData.value.balance
  -- deployed in this transaction, or still in its constructor (not yet marked deployed)
  let shouldBeDeconstructed := accountData.metadata.deployedInTx = some curTx ∨ inConstructor
  if shouldBeDeconstructed then
    updateAccount ⟨atAddress⟩ CacheRecord.deconstruct
  -- the transfer comes first, to charge for the cold access
  if ¬sameAddress then
    EStateM.adaptExcept deconstructionTransferError
      (transferNominalTokenValueInner env fromEe atAddress nominalTokenBeneficiary transferAmount true)
  else if shouldBeDeconstructed then
    updateAccount ⟨atAddress⟩ fun r => r.setValue { r.value with balance := 0 }
  if transferAmount ≠ 0 then
    match fromEe with
    | .noEE => pure ()
    | .evm =>
      let (s, _) ← get
      match s.accountDataCache.cache.get ⟨nominalTokenBeneficiary⟩ with
      | none => throw (.internal ⟨"Account assumed warm but not in cache"⟩)
      | some entry =>
        let beneficiaryProperties := entry.current.value
        -- the transferred amount is the whole balance of an account that was empty
        let beneficiaryIsEmpty := beneficiaryProperties.nonce = 0 ∧
          beneficiaryProperties.bytecodeLen = 0 ∧ beneficiaryProperties.balance = transferAmount
        if beneficiaryIsEmpty then
          chargeM (Resources.fromErgs (newaccount * ergsPerGas))
    | _ => throw unsupportedEE

/-- The `apply_to_last_record_of_pending_changes` callback of `finish_tx`: a deconstructed head
is reset to `TRIVIAL_VALUE`, and the account's storage cleared. -/
def deconstructHead (key : BitsOrd160) (r : AccountRecord) :
    StateM GenericPubdataAwarePlainStorage AccountRecord := do
  if r.appearance = .deconstructed then
    modify fun storage => storage.clearStateImpl key.val
    pure (r.setValue AccountProperties.trivialValue)
  else
    pure r

/-- `finish_tx`: the deconstruction of the accounts destructed in the transaction. Neither the
callback nor `clear_state_impl` can fail. -/
def finishTx (s : FlatTreeWithAccountsUnderHashesStorageModel) :
    FlatTreeWithAccountsUnderHashesStorageModel :=
  let (cache, storageCache) :=
    (s.accountDataCache.cache.applyToLastRecordOfPendingChanges deconstructHead).run s.storageCache
  { s with accountDataCache := { s.accountDataCache with cache }, storageCache }

def beginNewTx (c : NewModelAccountCache) : NewModelAccountCache :=
  { c with cache := c.cache.commit, currentTxNumber := c.currentTxNumber + 1 }

def startFrame (c : NewModelAccountCache) : Nat × NewModelAccountCache :=
  let (id, cache) := c.cache.snapshot
  (id, { c with cache })

def finishFrame (c : NewModelAccountCache) (rollbackHandle : Option Nat) :
    Except InternalError NewModelAccountCache :=
  match rollbackHandle with
  | some x => do
    let cache ← c.cache.rollback x
    pure { c with cache }
  | none => pure c

/-- One step of `calculate_pubdata_used_by_tx`: the visited accounts and the bytes so far. -/
def pubdataStep (acc : List BitsOrd160 × Nat) (p : BitsOrd160 × ElementWithHistory AccountRecord) :
    List BitsOrd160 × Nat :=
  let (visited, pubdataUsed) := acc
  if p.1 ∈ visited then acc
  else
    (p.1 :: visited, pubdataUsed + AccountProperties.diffCompressionLength p.2.initial.value
      p.2.current.value p.2.current.metadata.notPublishBytecode)

/-- `calculate_pubdata_used_by_tx`: the diff length of every account written since the last
commit, each once. -/
def calculatePubdataUsedByTx (c : NewModelAccountCache) : Nat :=
  (c.cache.iterAlteredSinceCommit.foldl pubdataStep ([], 0)).2

/-- A computation on `FORMAL_INFINITE` resources, which are then dropped. -/
def withFormalInfinite {α : Type} (x : M SystemError α) :
    EStateM SystemError FlatTreeWithAccountsUnderHashesStorageModel α := fun s =>
  match x.run (s, Resources.formalInfinite) with
  | .ok a (s, _) => .ok a s
  | .error e (s, _) => .error e s

/-- The `apply_to_all_updated_elements` callback of `persist_changes`: a changed account's
preimage is recorded and its hash written under its storage slot. -/
def persistAccount (env : StorageEnv) (l r : AccountRecord) (addr : BitsOrd160) :
    EStateM SystemError FlatTreeWithAccountsUnderHashesStorageModel Unit :=
  if l.value = r.value then pure ()
  else withFormalInfinite do
    let encoding := r.value.encoding
    let propertiesHash := r.value.computeHash env.blake2s
    let _ ← onPreimages (recordPreimage ⟨propertiesHash, AccountProperties.encodedSize, .accountData⟩
      encoding)
    let _ ← onStorage (GenericPubdataAwarePlainStorage.writeSpecialAccountProperty
      env.initialStorageSlotData .noEE addr.val propertiesHash)

/-- `persist_changes`: every account with a record above its initial one. -/
def persistChanges (env : StorageEnv) :
    EStateM SystemError FlatTreeWithAccountsUnderHashesStorageModel Unit := do
  let s ← get
  s.accountDataCache.cache.applyToAllUpdatedElements (persistAccount env)

end NewModelAccountCache

end ZksyncOs
