import Mathlib
import ZksyncOs.FlatStorage.AccountCache

/-!
# The storage model

`FlatTreeWithAccountsUnderHashesStorageModel` of `flat_storage_model`: the storage, preimage and
account caches behind the `StorageModel` interface the system calls.

* `beginNewTx`, `startFrame`, `finishFrame`, `finishTx` : the transaction and frame boundaries of
  all three caches;
* `pubdataUsedByTx` : the pubdata the bootloader charges for, the sum of the account and storage
  estimates;
* `finish` : at the end of the block, the account changes are persisted into storage, then the
  storage diffs, the new preimages and the pubdata stream are produced;
* `Op`, `step`, `run` : the interface as a state machine over any sequence of calls.

The pubdata stream of `finish` is the 4-byte count of the changed slots, then one entry per slot
that `apply_to_all_updated_elements` visits: its derived flat key, then its value diff. The state
commitment check of `finish` (`verify_and_apply_batch`) is not part of this model.
-/

namespace ZksyncOs

open BigEndian NewModelAccountCache

namespace FlatTreeWithAccountsUnderHashesStorageModel

/-- The state the model's methods run on. -/
abbrev M (ε α : Type) := EStateM ε (FlatTreeWithAccountsUnderHashesStorageModel × Resources) α

def construct : FlatTreeWithAccountsUnderHashesStorageModel :=
  ⟨GenericPubdataAwarePlainStorage.new, BytecodeAndAccountDataPreimagesStorage.new,
    NewModelAccountCache.new⟩

/-- `FlatTreeWithAccountsUnderHashesStorageModelStateSnapshot`. -/
structure StateSnapshot where
  storage : Nat
  accountData : Nat
  preimages : Nat
deriving DecidableEq, Repr

def beginNewTx (s : FlatTreeWithAccountsUnderHashesStorageModel) :
    FlatTreeWithAccountsUnderHashesStorageModel :=
  { storageCache := s.storageCache.beginNewTx
    preimagesCache := s.preimagesCache.beginNewTx
    accountDataCache := s.accountDataCache.beginNewTx }

def startFrame (s : FlatTreeWithAccountsUnderHashesStorageModel) :
    StateSnapshot × FlatTreeWithAccountsUnderHashesStorageModel :=
  let (storage, storageCache) := s.storageCache.startFrame
  let (preimages, preimagesCache) := s.preimagesCache.startFrame
  let (accountData, accountDataCache) := s.accountDataCache.startFrame
  (⟨storage, accountData, preimages⟩, { storageCache, preimagesCache, accountDataCache })

/-- `finish_frame`: the storage cache first, then the preimages, then the accounts. -/
def finishFrame (s : FlatTreeWithAccountsUnderHashesStorageModel)
    (rollbackHandle : Option StateSnapshot) :
    Except InternalError FlatTreeWithAccountsUnderHashesStorageModel := do
  let storageCache ← s.storageCache.finishFrameImpl (rollbackHandle.map (·.storage))
  let preimagesCache ← s.preimagesCache.finishFrame (rollbackHandle.map (·.preimages))
  let accountDataCache ← s.accountDataCache.finishFrame (rollbackHandle.map (·.accountData))
  pure { storageCache, preimagesCache, accountDataCache }

def finishTx (s : FlatTreeWithAccountsUnderHashesStorageModel) :
    FlatTreeWithAccountsUnderHashesStorageModel :=
  NewModelAccountCache.finishTx s

def pubdataUsedByTx (s : FlatTreeWithAccountsUnderHashesStorageModel) : Nat :=
  s.accountDataCache.calculatePubdataUsedByTx +
    GenericPubdataAwarePlainStorage.calculatePubdataUsedByTx s.storageCache

def storageRead (env : StorageEnv) (eeType : ExecutionEnvironmentType) (address : B160)
    (key : Bytes32) : M SystemError Bytes32 :=
  onStorage (GenericPubdataAwarePlainStorage.applyReadImpl env.initialStorageSlotData eeType
    ⟨address, key⟩ false)

def storageTouch (env : StorageEnv) (eeType : ExecutionEnvironmentType) (address : B160)
    (key : Bytes32) (isAccessList : Bool) : M SystemError Unit := do
  let _ ← onStorage (GenericPubdataAwarePlainStorage.applyReadImpl env.initialStorageSlotData eeType
    ⟨address, key⟩ isAccessList)

/-- `storage_write`: the old value. -/
def storageWrite (env : StorageEnv) (eeType : ExecutionEnvironmentType) (address : B160)
    (key newValue : Bytes32) : M SystemError Bytes32 :=
  onStorage (GenericPubdataAwarePlainStorage.applyWriteImpl env.initialStorageSlotData eeType
    ⟨address, key⟩ newValue)

/-! ## The end of the block -/

/-- `derive_flat_storage_key_with_hasher`: Blake2s of twelve zero bytes, the address and the key. -/
def deriveFlatStorageKey (blake2s : List UInt8 → Bytes32) (address : B160) (key : Bytes32) : Bytes32 :=
  blake2s (List.replicate 12 0 ++ address.bytes ++ key.bytes)

/-- The pubdata written so far, and the preimage cache the account diffs read. -/
abbrev PubdataM := EStateM InternalError (List UInt8 × BytecodeAndAccountDataPreimagesStorage)

/-- Append to the pubdata stream (`pubdata_hasher.update` and `result_keeper.pubdata`). -/
def emit (bytes : List UInt8) : PubdataM Unit :=
  modify fun (out, c) => (out ++ bytes, c)

/-- The error every failure of the state-diff encoding is reported as. -/
def failedToComputePubdata : InternalError := ⟨"Failed to compute pubdata"⟩

/-- `AccountProperties::diff_compression` on the preimage cache of the pubdata state. -/
def emitAccountDiff (env : StorageEnv) (initial final : AccountProperties)
    (notPublishBytecode : Bool) : PubdataM Unit := fun (out, c) =>
  match (AccountProperties.diffCompression env.proofEnv env.blake2s env.preimage initial final
      notPublishBytecode).run c with
  | .ok bytes c => .ok () (out ++ bytes, c)
  | .error _ c => .error failedToComputePubdata (out, c)

/-- The `apply_to_all_updated_elements` callback of `finish`: the derived key of a slot with a
record above its initial one, then its diff when its value changed. -/
def stateDiffEntry (env : StorageEnv) (accountCache : HistoryMap BitsOrd160 AccountRecord)
    (l r : StorageRecord) (k : WarmStorageKey) : PubdataM Unit := do
  emit (deriveFlatStorageKey env.blake2s k.address k.key).bytes
  if l.value = r.value then
    return
  if k.address = accountPropertiesStorageAddress then
    let accountAddress : B160 := Fin.ofNat _ k.key.val
    match accountCache.get ⟨accountAddress⟩ with
    | none => throw failedToComputePubdata
    | some cacheItem =>
      match cacheItem.getInitialAndLastValues with
      | none => throw failedToComputePubdata
      | some (l, r) => emitAccountDiff env l.value r.value r.metadata.notPublishBytecode
  else
    emit (ValueDiffCompressionStrategy.optimalCompressionU256 l.value r.value)

/-- What `finish` hands to the result keeper. -/
structure FinishOutput where
  storageDiffs : List (B160 × Bytes32 × Bytes32)
  newPreimages : List (Bytes32 × List UInt8 × PreimageType)
  pubdata : List UInt8

/-- The state-diff section of the pubdata: the count of changed slots, then the entries. -/
def stateDiffPubdata (env : StorageEnv) (s : FlatTreeWithAccountsUnderHashesStorageModel) :
    Except InternalError (List UInt8) :=
  let count := toBeBytes 4 (s.storageCache.netDiffsIter.length % 2 ^ 32)
  match (s.storageCache.cache.applyToAllUpdatedElements
      (stateDiffEntry env s.accountDataCache.cache)).run ([], s.preimagesCache) with
  | .ok () (out, _) => .ok (count ++ out)
  | .error e _ => .error e

/-- `finish`, without the state commitment. -/
def finish (env : StorageEnv) (s : FlatTreeWithAccountsUnderHashesStorageModel) :
    Except InternalError FinishOutput := do
  let s ← match (persistChanges env).run s with
    | .ok () s => pure s
    | .error _ _ => throw ⟨"must persist changes from account cache"⟩
  let storageDiffs := s.storageCache.netDiffsIter.map fun (k, v) => (k.address, k.key, v.currentValue)
  let newPreimages ← s.preimagesCache.reportNewPreimages
  let pubdata ← stateDiffPubdata env s
  pure ⟨storageDiffs, newPreimages, pubdata⟩

/-- A slot whose value did not change publishes its derived key and nothing else. -/
theorem run_stateDiffEntry_of_value_eq (env : StorageEnv)
    (accountCache : HistoryMap BitsOrd160 AccountRecord) {l r : StorageRecord} (k : WarmStorageKey)
    (h : l.value = r.value) (out : List UInt8) (c : BytecodeAndAccountDataPreimagesStorage) :
    (stateDiffEntry env accountCache l r k).run (out, c) =
      .ok () (out ++ (deriveFlatStorageKey env.blake2s k.address k.key).bytes, c) := by
  simp [stateDiffEntry, emit, h, EStateM.run_modify]

/-! ## The interface as a state machine -/

/-- A call of the storage model's interface. -/
inductive Op where
  | beginNewTx
  | startFrame
  | finishFrame (rollbackHandle : Option StateSnapshot)
  | finishTx
  | storageRead (eeType : ExecutionEnvironmentType) (address : B160) (key : Bytes32)
  | storageTouch (eeType : ExecutionEnvironmentType) (address : B160) (key : Bytes32)
      (isAccessList : Bool)
  | storageWrite (eeType : ExecutionEnvironmentType) (address : B160) (key newValue : Bytes32)
  | readAccountProperties (eeType : ExecutionEnvironmentType) (address : B160)
      (requestBytecode : Bool)
  | touchAccount (eeType : ExecutionEnvironmentType) (address : B160) (isAccessList : Bool)
  | incrementNonce (eeType : ExecutionEnvironmentType) (address : B160) (incrementBy : UInt64)
  | updateNominalTokenValue (eeType : ExecutionEnvironmentType) (address : B160)
      (updateFn : U256 → Except UpdateQueryError U256)
  | transferNominalTokenValue (fromEe : ExecutionEnvironmentType) (fromAddress toAddress : B160)
      (amount : U256)
  | deployCode (fromEe : ExecutionEnvironmentType) (atAddress : B160) (bytecode : List UInt8)
      (bytecodeLen artifactsLen : UInt32)
  | markForDeconstruction (fromEe : ExecutionEnvironmentType) (atAddress beneficiary : B160)
      (inConstructor : Bool)

/-- The state after a computation, on either outcome: a failed call keeps what it wrote. -/
def after {ε α : Type} (x : M ε α) (s : FlatTreeWithAccountsUnderHashesStorageModel × Resources) :
    FlatTreeWithAccountsUnderHashesStorageModel × Resources :=
  (x.run s).state

/-- One call. A failed frame rollback is an internal error that ends the block; it leaves the
state as it was. -/
def step (env : StorageEnv) (s : FlatTreeWithAccountsUnderHashesStorageModel × Resources) :
    Op → FlatTreeWithAccountsUnderHashesStorageModel × Resources
  | .beginNewTx => (s.1.beginNewTx, s.2)
  | .startFrame => (s.1.startFrame.2, s.2)
  | .finishFrame rollbackHandle =>
    match s.1.finishFrame rollbackHandle with
    | .ok t => (t, s.2)
    | .error _ => s
  | .finishTx => (s.1.finishTx, s.2)
  | .storageRead eeType address key => after (storageRead env eeType address key) s
  | .storageTouch eeType address key isAccessList =>
    after (storageTouch env eeType address key isAccessList) s
  | .storageWrite eeType address key newValue => after (storageWrite env eeType address key newValue) s
  | .readAccountProperties eeType address requestBytecode =>
    after (readAccountProperties env eeType address requestBytecode) s
  | .touchAccount eeType address isAccessList => after (touchAccount env eeType address isAccessList) s
  | .incrementNonce eeType address incrementBy => after (incrementNonce env eeType address incrementBy) s
  | .updateNominalTokenValue eeType address updateFn =>
    after (updateNominalTokenValue env eeType address updateFn) s
  | .transferNominalTokenValue fromEe fromAddress toAddress amount =>
    after (transferNominalTokenValue env fromEe fromAddress toAddress amount) s
  | .deployCode fromEe atAddress bytecode bytecodeLen artifactsLen =>
    after (deployCode env fromEe atAddress bytecode bytecodeLen artifactsLen) s
  | .markForDeconstruction fromEe atAddress beneficiary inConstructor =>
    after (markForDeconstruction env fromEe atAddress beneficiary inConstructor) s

/-- A sequence of calls. -/
def run (env : StorageEnv) (s : FlatTreeWithAccountsUnderHashesStorageModel × Resources)
    (ops : List Op) : FlatTreeWithAccountsUnderHashesStorageModel × Resources :=
  ops.foldl (step env) s

/-! ## Runs on fixed inputs -/

/-- An environment in which every slot exists and holds `7`. The stand-in hash maps every input to
`0`: nothing below depends on the hash. -/
def slotSevenEnv : StorageEnv := ⟨false, fun _ => 0, fun _ => 0, fun _ => ⟨false, 7⟩, fun _ => []⟩

/-- A block that only reads a slot publishes its derived key: the record of the first read counts as
an update. -/
theorem finish_publishes_key_of_read_only_slot :
    (finish slotSevenEnv (run slotSevenEnv (construct, ⟨0, 1000000⟩)
        [.beginNewTx, .storageRead .noEE 1 5, .finishTx]).1).toOption.map
      (fun o => (o.storageDiffs, o.pubdata)) =
      some ([], [0, 0, 0, 0] ++ (deriveFlatStorageKey (fun _ => 0) 1 5).bytes) ∧
    (∀ (oracle : WarmStorageKey → InitialStorageSlotData) (s : GenericPubdataAwarePlainStorage),
      s.cache.Wf → ∀ key, s.cache.get key = none →
      (GenericPubdataAwarePlainStorage.materializedCache oracle s key).get key =
        some ⟨GenericPubdataAwarePlainStorage.initialRecord oracle key,
          [⟨s.cache.nextSnapshotId, GenericPubdataAwarePlainStorage.warmUp s.currentTxNumber
            (GenericPubdataAwarePlainStorage.initialRecord oracle key)⟩]⟩) ∧
    ∀ (env : StorageEnv) (accountCache : HistoryMap BitsOrd160 AccountRecord) (l r : StorageRecord)
      (k : WarmStorageKey), l.value = r.value → ∀ (out : List UInt8)
      (c : BytecodeAndAccountDataPreimagesStorage),
      (stateDiffEntry env accountCache l r k).run (out, c) =
        .ok () (out ++ (deriveFlatStorageKey env.blake2s k.address k.key).bytes, c) := by
  refine ⟨by decide +kernel, fun oracle s hs key hk =>
    GenericPubdataAwarePlainStorage.get_materializedCache_of_get_none oracle hs hk,
    fun env accountCache l r k h out c => run_stateDiffEntry_of_value_eq env accountCache k h out c⟩

/-- An environment in which no account and no slot exists yet. -/
def emptyEnv : StorageEnv := ⟨false, fun _ => 0, fun _ => 0, fun _ => ⟨true, 0⟩, fun _ => []⟩

/-- The balance of a cached account. -/
def cachedBalance (s : FlatTreeWithAccountsUnderHashesStorageModel) (address : B160) :
    Option U256 :=
  (s.accountDataCache.cache.get ⟨address⟩).map (·.current.value.balance)

/-- The value of a cached slot. -/
def cachedSlot (s : FlatTreeWithAccountsUnderHashesStorageModel) (address : B160) (key : Bytes32) :
    Option Bytes32 :=
  (s.storageCache.cache.get ⟨address, key⟩).map (·.current.value)

/-- Account `10` self-destructs in its constructor in the first transaction; the second credits it
`5` and writes its slot `1`. -/
def creditAfterDeconstruction : List Op :=
  [.beginNewTx, .markForDeconstruction .noEE 10 10 true, .finishTx,
    .beginNewTx, .updateNominalTokenValue .noEE 10 (fun b => .ok (b + 5)), .storageWrite .noEE 10 1 9]

/-- The `finish_tx` of the second transaction wipes the credit and the slot written in it. -/
theorem finish_tx_wipes_account_deconstructed_in_earlier_tx :
    cachedBalance (run emptyEnv (construct, ⟨0, 10000000⟩) creditAfterDeconstruction).1 10 = some 5 ∧
      cachedSlot (run emptyEnv (construct, ⟨0, 10000000⟩) creditAfterDeconstruction).1 10 1 = some 9 ∧
      cachedBalance (run emptyEnv (construct, ⟨0, 10000000⟩)
        (creditAfterDeconstruction ++ [.finishTx])).1 10 = some 0 ∧
      cachedSlot (run emptyEnv (construct, ⟨0, 10000000⟩)
        (creditAfterDeconstruction ++ [.finishTx])).1 10 1 = some 0 := by
  decide +kernel

/-- The properties of an account holding `10`. -/
def tenTokens : AccountProperties := { AccountProperties.trivialValue with balance := 10 }

/-- An environment in which only account `11` exists, holding `10`, its properties under hash `1`. -/
def oneAccountEnv : StorageEnv :=
  ⟨false, fun _ => 0, fun _ => 0,
    fun k => if k = ⟨accountPropertiesStorageAddress, addressIntoSpecialStorageKey 11⟩ then ⟨false, 1⟩
      else ⟨true, 0⟩,
    fun h => if h = 1 then tenTokens.encoding else []⟩

/-- The first transaction loads account `11` and self-destructs account `10` in its constructor. -/
def deconstructionTx : List Op :=
  [.beginNewTx, .touchAccount .noEE 11 false, .markForDeconstruction .noEE 10 10 true, .finishTx]

/-- The second transaction transfers `4` from account `11` to account `10`. -/
def transferTx : List Op :=
  [.beginNewTx, .transferNominalTokenValue .noEE 11 10 4, .finishTx]

/-- The two balances are `0` and `10` before the transfer and `0` and `6` after it: the transfer
destroyed `4`, and nothing was minted, withdrawn or self-destructed in its transaction. -/
theorem transfer_to_account_deconstructed_earlier_loses_value :
    cachedBalance (run oneAccountEnv (construct, ⟨0, 10000000⟩) deconstructionTx).1 10 = some 0 ∧
      cachedBalance (run oneAccountEnv (construct, ⟨0, 10000000⟩) deconstructionTx).1 11 = some 10 ∧
      cachedBalance (run oneAccountEnv (construct, ⟨0, 10000000⟩)
        (deconstructionTx ++ transferTx)).1 10 = some 0 ∧
      cachedBalance (run oneAccountEnv (construct, ⟨0, 10000000⟩)
        (deconstructionTx ++ transferTx)).1 11 = some 6 := by
  decide +kernel

end FlatTreeWithAccountsUnderHashesStorageModel

end ZksyncOs
