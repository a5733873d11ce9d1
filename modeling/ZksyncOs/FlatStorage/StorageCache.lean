import Mathlib
import ZksyncOs.HistoryMap.Invariant
import ZksyncOs.CommonStructs.CacheRecord
import ZksyncOs.CommonStructs.PubdataCompression
import ZksyncOs.FlatStorage.CostModel
import ZksyncOs.Lib.Except

/-!
# The storage cache

`GenericPubdataAwarePlainStorage` of `flat_storage_model::storage_cache`, as the storage model
instantiates it (`NewStorageWithAccountPropertiesUnderHash`): slots keyed by `WarmStorageKey`,
values `Bytes32`, charged by `EthereumLikeStorageAccessCostModel`. Every slot is a `HistoryMap`
element whose initial record is the value at the start of the block, read from the oracle on the
first access.

* `materializeElement` : charge the access; on the first access of the block read the slot from
  the oracle and charge the cold extra; on the first access of a transaction warm it up, which
  writes a metadata record;
* `applyReadImpl`, `applyWriteImpl` : a read and a write (`write` keeps the transaction-start
  value of the slot for the EVM's pricing);
* `clearStateImpl` : every cached slot of an address set to zero and marked unset;
* `readSpecialAccountProperty`, `writeSpecialAccountProperty` : the slot of
  `ACCOUNT_PROPERTIES_STORAGE_ADDRESS` that holds an account's properties hash;
* `iterAsStorageTypes`, `netDiffsIter` : every slot, and the slots whose value changed;
* `calculatePubdataUsedByTx` : the state-diff bytes of the slots touched since the last commit.

The oracle answers a slot with its initial data (`InitialStorageSlotData`); its iterator and
decoding checks are `expect`s and assertions of the source that an honest oracle passes.
-/

namespace ZksyncOs

structure InitialStorageSlotData where
  isNewStorageSlot : Bool
  initialValue : Bytes32
deriving DecidableEq, Repr

structure StorageElementMetadata where
  lastTouchedInTx : Option Nat
deriving DecidableEq, Repr

instance : Inhabited StorageElementMetadata := ⟨⟨none⟩⟩

def StorageElementMetadata.consideredWarm (m : StorageElementMetadata) (currentTxNumber : Nat) :
    Bool :=
  m.lastTouchedInTx == some currentTxNumber

/-- `WarmStorageValue`, with the fields the storage model reads. -/
structure WarmStorageValue where
  currentValue : Bytes32
  isNewStorageSlot : Bool
  initialValue : Bytes32
deriving DecidableEq, Repr

/-- The record type of the storage cache. -/
abbrev StorageRecord := CacheRecord Bytes32 StorageElementMetadata

structure GenericPubdataAwarePlainStorage where
  cache : HistoryMap WarmStorageKey StorageRecord
  currentTxNumber : Nat
  initialValues : SortedMap WarmStorageKey (Bytes32 × Nat)

namespace GenericPubdataAwarePlainStorage

open EthereumLikeStorageAccessCostModel

/-- The state the storage cache's methods run on: the cache and the caller's resources. -/
abbrev M (α : Type) := EStateM SystemError (GenericPubdataAwarePlainStorage × Resources) α

/-- `new_from_parts`. -/
def new : GenericPubdataAwarePlainStorage := ⟨HistoryMap.new, 0, SortedMap.empty⟩

def beginNewTx (s : GenericPubdataAwarePlainStorage) : GenericPubdataAwarePlainStorage :=
  { s with cache := s.cache.commit, currentTxNumber := s.currentTxNumber + 1 }

def startFrame (s : GenericPubdataAwarePlainStorage) : Nat × GenericPubdataAwarePlainStorage :=
  let (id, cache) := s.cache.snapshot
  (id, { s with cache })

def finishFrameImpl (s : GenericPubdataAwarePlainStorage) (rollbackHandle : Option Nat) :
    Except InternalError GenericPubdataAwarePlainStorage :=
  match rollbackHandle with
  | some x => do
    let cache ← s.cache.rollback x
    pure { s with cache }
  | none => pure s

/-- Write the cache back into the state. -/
def setCache (cache : HistoryMap WarmStorageKey StorageRecord) : M Unit :=
  modify fun (s, r) => ({ s with cache }, r)

/-- The slot as its first access in the block finds it: the oracle's initial data. -/
def initialRecord (oracle : WarmStorageKey → InitialStorageSlotData) (key : WarmStorageKey) :
    StorageRecord :=
  let dataFromOracle := oracle key
  let appearance := if dataFromOracle.isNewStorageSlot then Appearance.unset else .retrieved
  CacheRecord.new dataFromOracle.initialValue appearance

/-- The `get_or_insert` callback of `materialize_element`: the cold charge and the initial record. -/
def spawnFromOracle (oracle : WarmStorageKey → InitialStorageSlotData)
    (eeType : ExecutionEnvironmentType) (key : WarmStorageKey) : M StorageRecord := do
  chargeColdStorageReadExtra eeType (oracle key).isNewStorageSlot
  pure (initialRecord oracle key)

/-- The current record under `key`; every caller has just materialized the key. -/
def record (cache : HistoryMap WarmStorageKey StorageRecord) (key : WarmStorageKey) : StorageRecord :=
  ((cache.get key).map ElementWithHistory.current).getD default

/-- The metadata update that warms a slot up for the current transaction. -/
def warmUp (currentTxNumber : Nat) (r : StorageRecord) : StorageRecord :=
  { r with metadata := { lastTouchedInTx := some currentTxNumber } }

/-- The `and_then` closure of `materialize_element`: on the first access in the transaction charge
the cold extra, unless the element was just initialized, and warm it up. -/
def warmUpElement (eeType : ExecutionEnvironmentType) (key : WarmStorageKey) (currentTxNumber : Nat)
    (initializedElement : Bool) : M (StorageRecord × Bool) := do
  let (s, _) ← get
  let isWarmRead := (record s.cache key).metadata.consideredWarm currentTxNumber
  if isWarmRead = false then
    if initializedElement = false then
      -- in the cache, but not touched in this transaction yet
      chargeColdStorageReadExtra eeType false
    let (s, _) ← get
    setCache (Id.run (s.cache.update key fun r => pure (warmUp currentTxNumber r)))
  let (s, _) ← get
  pure (record s.cache key, isWarmRead)

/-- `materialize_element`: the slot's record after the access, and whether it was warm. -/
def materializeElement (oracle : WarmStorageKey → InitialStorageSlotData)
    (eeType : ExecutionEnvironmentType) (key : WarmStorageKey) (isAccessList : Bool) :
    M (StorageRecord × Bool) := do
  chargeWarmStorageRead eeType isAccessList
  let (s, _) ← get
  let cache ← s.cache.getOrInsert key (spawnFromOracle oracle eeType key)
  setCache cache
  warmUpElement eeType key s.currentTxNumber (s.cache.get key).isNone

def applyReadImpl (oracle : WarmStorageKey → InitialStorageSlotData)
    (eeType : ExecutionEnvironmentType) (key : WarmStorageKey) (isAccessList : Bool) : M Bytes32 := do
  let (addrData, _) ← materializeElement oracle eeType key isAccessList
  pure addrData.value

/-- The value of the slot at the start of the transaction, kept in `initial_values`. -/
def valAtTxStart (initialValues : SortedMap WarmStorageKey (Bytes32 × Nat)) (key : WarmStorageKey)
    (valCurrent : Bytes32) (currentTxNumber : Nat) : SortedMap WarmStorageKey (Bytes32 × Nat) :=
  match initialValues.get? key with
  | some (_, txNumber) =>
    if txNumber ≠ currentTxNumber then initialValues.insert key (valCurrent, currentTxNumber)
    else initialValues
  | none => initialValues.insert key (valCurrent, currentTxNumber)

/-- `apply_write_impl`: the old value. -/
def applyWriteImpl (oracle : WarmStorageKey → InitialStorageSlotData)
    (eeType : ExecutionEnvironmentType) (key : WarmStorageKey) (newValue : Bytes32) : M Bytes32 := do
  let (addrData, isWarmRead) ← materializeElement oracle eeType key false
  let valCurrent := addrData.value
  let (s, r) ← get
  let initialValues := valAtTxStart s.initialValues key valCurrent s.currentTxNumber
  set (({ s with initialValues } : GenericPubdataAwarePlainStorage), r)
  let valTxStart := ((initialValues.get? key).map Prod.fst).getD valCurrent
  chargeStorageWriteExtra eeType valTxStart valCurrent newValue isWarmRead
    (addrData.appearance = .unset)
  let (s, _) ← get
  setCache (Id.run (s.cache.update key fun r => pure (r.setValue newValue)))
  pure valCurrent

/-- `clear_state_impl`: every cached slot of `address` set to `V::default()` and marked unset. -/
def clearStateImpl (s : GenericPubdataAwarePlainStorage) (address : B160) :
    GenericPubdataAwarePlainStorage :=
  { s with cache := Id.run (s.cache.forEachRange (WarmStorageKey.lowerBound address)
      (WarmStorageKey.upperBound address) fun r => pure (r.setValue 0).unset) }

/-- `read_special_account_property`: the properties hash of an account. -/
def readSpecialAccountProperty (oracle : WarmStorageKey → InitialStorageSlotData)
    (eeType : ExecutionEnvironmentType) (address : B160) : M Bytes32 :=
  applyReadImpl oracle eeType ⟨accountPropertiesStorageAddress, addressIntoSpecialStorageKey address⟩
    false

def writeSpecialAccountProperty (oracle : WarmStorageKey → InitialStorageSlotData)
    (eeType : ExecutionEnvironmentType) (address : B160) (newValue : Bytes32) : M Bytes32 :=
  applyWriteImpl oracle eeType ⟨accountPropertiesStorageAddress, addressIntoSpecialStorageKey address⟩
    newValue

/-- `iter_as_storage_types`: every cached slot, with its current and initial values. -/
def iterAsStorageTypes (s : GenericPubdataAwarePlainStorage) : List (WarmStorageKey × WarmStorageValue) :=
  s.cache.iter.map fun (k, e) =>
    (k, ⟨e.current.value, e.initial.appearance = .unset, e.initial.value⟩)

/-- `net_diffs_iter`: the slots whose value changed. -/
def netDiffsIter (s : GenericPubdataAwarePlainStorage) : List (WarmStorageKey × WarmStorageValue) :=
  s.iterAsStorageTypes.filter fun (_, v) => v.currentValue ≠ v.initialValue

/-- One step of `calculate_pubdata_used_by_tx`: the visited keys and the bytes so far. -/
def pubdataStep (acc : List WarmStorageKey × Nat) (p : WarmStorageKey × ElementWithHistory StorageRecord) :
    List WarmStorageKey × Nat :=
  let (visited, pubdataUsed) := acc
  -- account properties are published as preimages, not as their hash
  if p.1.address = accountPropertiesStorageAddress then acc
  else if p.1 ∈ visited then acc
  else
    let currentValue := p.2.current.value
    let initialValue := p.2.initial.value
    if initialValue ≠ currentValue then
      (p.1 :: visited,
        pubdataUsed + 32 + ValueDiffCompressionStrategy.optimalCompressionLengthU256 initialValue currentValue)
    else (p.1 :: visited, pubdataUsed)

/-- `calculate_pubdata_used_by_tx`: the key and value diff of every slot touched since the last
commit whose value differs from its initial one, each slot once. -/
def calculatePubdataUsedByTx (s : GenericPubdataAwarePlainStorage) : Nat :=
  (s.cache.iterAlteredSinceCommit.foldl pubdataStep ([], 0)).2

/-! ## The caches an access leaves behind

As pure functions of the state before it. Every access keeps the value of every slot
(`valueView`); a write sets its own. -/

/-- The cache after the first access of `key` in the block inserted it from the oracle. -/
def insertedCache (oracle : WarmStorageKey → InitialStorageSlotData)
    (cache : HistoryMap WarmStorageKey StorageRecord) (key : WarmStorageKey) :
    HistoryMap WarmStorageKey StorageRecord :=
  Id.run (cache.getOrInsert key (pure (initialRecord oracle key)))

/-- The cache after `key` was warmed up for transaction `currentTxNumber`. -/
def warmedCache (cache : HistoryMap WarmStorageKey StorageRecord) (key : WarmStorageKey)
    (currentTxNumber : Nat) : HistoryMap WarmStorageKey StorageRecord :=
  if (record cache key).metadata.consideredWarm currentTxNumber = false then
    Id.run (cache.update key fun r => pure (warmUp currentTxNumber r))
  else cache

/-- The cache after a successful `materializeElement`. -/
def materializedCache (oracle : WarmStorageKey → InitialStorageSlotData)
    (s : GenericPubdataAwarePlainStorage) (key : WarmStorageKey) :
    HistoryMap WarmStorageKey StorageRecord :=
  warmedCache (insertedCache oracle s.cache key) key s.currentTxNumber

/-- The cache after a successful `applyWriteImpl`. -/
def writtenCache (oracle : WarmStorageKey → InitialStorageSlotData)
    (s : GenericPubdataAwarePlainStorage) (key : WarmStorageKey) (newValue : Bytes32) :
    HistoryMap WarmStorageKey StorageRecord :=
  Id.run ((materializedCache oracle s key).update key fun r => pure (r.setValue newValue))

/-- The value of every slot as the cache answers it: the current record of a cached slot, the
oracle's initial value of any other. -/
def valueView (oracle : WarmStorageKey → InitialStorageSlotData)
    (cache : HistoryMap WarmStorageKey StorageRecord) (k : WarmStorageKey) : Bytes32 :=
  match cache.get k with
  | some e => e.current.value
  | none => (oracle k).initialValue

theorem wf_insertedCache (oracle : WarmStorageKey → InitialStorageSlotData)
    {cache : HistoryMap WarmStorageKey StorageRecord} (hc : cache.Wf) (key : WarmStorageKey) :
    (insertedCache oracle cache key).Wf :=
  HistoryMap.wf_getOrInsert hc key _

theorem wf_warmedCache {cache : HistoryMap WarmStorageKey StorageRecord} (hc : cache.Wf)
    (key : WarmStorageKey) (tx : Nat) : (warmedCache cache key tx).Wf := by
  unfold warmedCache
  split_ifs
  · exact HistoryMap.wf_update hc key _
  · exact hc

theorem wf_materializedCache (oracle : WarmStorageKey → InitialStorageSlotData)
    {s : GenericPubdataAwarePlainStorage} (hs : s.cache.Wf) (key : WarmStorageKey) :
    (materializedCache oracle s key).Wf :=
  wf_warmedCache (wf_insertedCache oracle hs key) key _

theorem wf_writtenCache (oracle : WarmStorageKey → InitialStorageSlotData)
    {s : GenericPubdataAwarePlainStorage} (hs : s.cache.Wf) (key : WarmStorageKey) (v : Bytes32) :
    (writtenCache oracle s key v).Wf :=
  HistoryMap.wf_update (wf_materializedCache oracle hs key) key _


theorem value_record {oracle : WarmStorageKey → InitialStorageSlotData}
    {cache : HistoryMap WarmStorageKey StorageRecord} {key : WarmStorageKey}
    (hk : (cache.get key).isSome) : (record cache key).value = valueView oracle cache key := by
  obtain ⟨e, he⟩ := Option.isSome_iff_exists.mp hk
  simp [record, valueView, he]

theorem isSome_get_materializedCache (oracle : WarmStorageKey → InitialStorageSlotData)
    (s : GenericPubdataAwarePlainStorage) (key k : WarmStorageKey) :
    ((materializedCache oracle s key).get k).isSome = true ↔ k = key ∨ (s.cache.get k).isSome = true := by
  unfold materializedCache warmedCache insertedCache
  split_ifs
  · rw [HistoryMap.isSome_get_update, HistoryMap.isSome_get_getOrInsert]
  · rw [HistoryMap.isSome_get_getOrInsert]

theorem valueView_insertedCache (oracle : WarmStorageKey → InitialStorageSlotData)
    (cache : HistoryMap WarmStorageKey StorageRecord) (key : WarmStorageKey) :
    valueView oracle (insertedCache oracle cache key) = valueView oracle cache := by
  funext k
  by_cases hkey : k = key
  · subst hkey
    cases hk : cache.get k with
    | some e => rw [insertedCache, HistoryMap.getOrInsert_of_get_some hk]
    | none =>
      have hnew := HistoryMap.get_getOrInsert_self cache k (initialRecord oracle k)
      rw [hk] at hnew
      simp only [valueView, insertedCache, hnew, hk]
      rfl
  · simp only [valueView, insertedCache, HistoryMap.get_getOrInsert_of_ne cache hkey]


theorem valueView_update {oracle : WarmStorageKey → InitialStorageSlotData}
    {cache : HistoryMap WarmStorageKey StorageRecord} (hc : cache.Wf) {key : WarmStorageKey}
    {e : ElementWithHistory StorageRecord} (he : cache.get key = some e)
    (g : StorageRecord → StorageRecord) :
    valueView oracle (Id.run (cache.update key fun r => pure (g r))) =
      Function.update (valueView oracle cache) key (g e.current).value := by
  funext k
  by_cases hkey : k = key
  · subst hkey
    obtain ⟨e', he', hcur, -⟩ := HistoryMap.get_update_self hc he g
    simp [valueView, he', hcur]
  · simp [valueView, HistoryMap.get_update_of_ne cache hkey, hkey]

theorem valueView_warmedCache {oracle : WarmStorageKey → InitialStorageSlotData}
    {cache : HistoryMap WarmStorageKey StorageRecord} (hc : cache.Wf) (key : WarmStorageKey)
    (tx : Nat) : valueView oracle (warmedCache cache key tx) = valueView oracle cache := by
  unfold warmedCache
  split_ifs
  · cases he : cache.get key with
    | none => rw [HistoryMap.update_of_get_none he]
    | some e =>
      rw [valueView_update hc he]
      -- warming up writes the metadata only
      funext k
      by_cases hkey : k = key
      · subst hkey
        simp [warmUp, valueView, he]
      · simp [hkey]
  · rfl

theorem valueView_materializedCache (oracle : WarmStorageKey → InitialStorageSlotData)
    {s : GenericPubdataAwarePlainStorage} (hs : s.cache.Wf) (key : WarmStorageKey) :
    valueView oracle (materializedCache oracle s key) = valueView oracle s.cache := by
  rw [materializedCache, valueView_warmedCache (wf_insertedCache oracle hs key),
    valueView_insertedCache]

theorem valueView_writtenCache (oracle : WarmStorageKey → InitialStorageSlotData)
    {s : GenericPubdataAwarePlainStorage} (hs : s.cache.Wf) (key : WarmStorageKey) (v : Bytes32) :
    valueView oracle (writtenCache oracle s key v) = Function.update (valueView oracle s.cache) key v := by
  obtain ⟨e, he⟩ := Option.isSome_iff_exists.mp
    ((isSome_get_materializedCache oracle s key key).mpr (.inl rfl))
  rw [writtenCache, valueView_update (wf_materializedCache oracle hs key) he,
    valueView_materializedCache oracle hs, CacheRecord.value_setValue]

/-- The first access of a slot in the block inserts it from the oracle and warms it up with a
record of its own, whose value is the initial one. -/
theorem get_materializedCache_of_get_none (oracle : WarmStorageKey → InitialStorageSlotData)
    {s : GenericPubdataAwarePlainStorage} (hs : s.cache.Wf) {key : WarmStorageKey}
    (hk : s.cache.get key = none) :
    (materializedCache oracle s key).get key =
      some ⟨initialRecord oracle key,
        [⟨s.cache.nextSnapshotId, warmUp s.currentTxNumber (initialRecord oracle key)⟩]⟩ := by
  have hins : (insertedCache oracle s.cache key).get key = some (ElementWithHistory.new (initialRecord oracle key)) := by
    have := HistoryMap.get_getOrInsert_self s.cache key (initialRecord oracle key)
    rwa [hk] at this
  have hcold : (record (insertedCache oracle s.cache key) key).metadata.consideredWarm s.currentTxNumber = false := by
    simp [record, hins, ElementWithHistory.new, ElementWithHistory.current, initialRecord,
      CacheRecord.new, StorageElementMetadata.consideredWarm, default]
  have hnext : (insertedCache oracle s.cache key).nextSnapshotId = s.cache.nextSnapshotId := by
    simp [insertedCache, HistoryMap.getOrInsert_of_get_none hk]
  unfold materializedCache warmedCache
  rw [if_pos hcold, HistoryMap.update_of_get_some hins,
    if_neg (by simp [ElementWithHistory.headTouch, ElementWithHistory.new, hnext]; exact (hs.next_pos).ne)]
  simp [HistoryMap.get, SortedMap.get?_insert_self, ElementWithHistory.addNewRecord,
    ElementWithHistory.new, hnext, ElementWithHistory.current]

/-! ## What an access does

An access either fails, having changed nothing but the resources, or ends in the caches above; the
charges in between touch only the resources (`preserves_charge*`). -/

theorem run_getOrInsert_spawnFromOracle (oracle : WarmStorageKey → InitialStorageSlotData)
    (eeType : ExecutionEnvironmentType) (key : WarmStorageKey)
    (cache : HistoryMap WarmStorageKey StorageRecord) (s : GenericPubdataAwarePlainStorage)
    (r : Resources) :
    (∃ r', (cache.getOrInsert key (spawnFromOracle oracle eeType key)).run (s, r) =
      .ok (insertedCache oracle cache key) (s, r')) ∨
    (∃ e r', (cache.getOrInsert key (spawnFromOracle oracle eeType key)).run (s, r) =
      .error e (s, r')) := by
  cases hk : cache.get key with
  | some e =>
    left
    refine ⟨r, ?_⟩
    rw [HistoryMap.getOrInsert_of_get_some_bind hk, insertedCache,
      HistoryMap.getOrInsert_of_get_some hk]
    rfl
  | none =>
    rw [HistoryMap.getOrInsert_of_get_none_bind hk, spawnFromOracle]
    rcases (preserves_chargeColdStorageReadExtra eeType (oracle key).isNewStorageSlot).run_pair s r
      with ⟨u, r', h⟩ | ⟨e, r', h⟩
    · left
      exact ⟨r', by simp [h, insertedCache]⟩
    · right
      exact ⟨e, r', by simp [h]⟩

theorem run_warmUpElement (eeType : ExecutionEnvironmentType) (key : WarmStorageKey) (tx : Nat)
    (init : Bool) (s : GenericPubdataAwarePlainStorage) (r : Resources) :
    (∃ r', (warmUpElement eeType key tx init).run (s, r) =
      .ok (record (warmedCache s.cache key tx) key, (record s.cache key).metadata.consideredWarm tx)
        ({ s with cache := warmedCache s.cache key tx }, r')) ∨
    (init = false ∧ ∃ e r', (warmUpElement eeType key tx init).run (s, r) = .error e (s, r')) := by
  unfold warmUpElement
  by_cases hw : (record s.cache key).metadata.consideredWarm tx = false
  · cases init with
    | false =>
      rcases (preserves_chargeColdStorageReadExtra eeType false).run_pair s r with
        ⟨u, r', h⟩ | ⟨e, r', h⟩
      · left
        exact ⟨r', by
          simp [hw, warmedCache, EStateM.run_bind, h, EStateM.run_get, setCache]⟩
      · right
        exact ⟨rfl, e, r', by simp [hw, EStateM.run_bind, h]⟩
    | true =>
      left
      exact ⟨r, by simp [hw, warmedCache, setCache]⟩
  · left
    exact ⟨r, by simp [hw, warmedCache]⟩

theorem run_materializeElement (oracle : WarmStorageKey → InitialStorageSlotData)
    (eeType : ExecutionEnvironmentType) (key : WarmStorageKey) (isAccessList : Bool)
    (s : GenericPubdataAwarePlainStorage) (r : Resources) :
    (∃ r', (materializeElement oracle eeType key isAccessList).run (s, r) =
      .ok (record (materializedCache oracle s key) key,
        (record (insertedCache oracle s.cache key) key).metadata.consideredWarm s.currentTxNumber)
        ({ s with cache := materializedCache oracle s key }, r')) ∨
    (∃ e r', (materializeElement oracle eeType key isAccessList).run (s, r) = .error e (s, r')) := by
  unfold materializeElement
  rcases (preserves_chargeWarmStorageRead eeType isAccessList).run_pair s r with
    ⟨u, r₁, h₁⟩ | ⟨e, r₁, h₁⟩
  · rcases run_getOrInsert_spawnFromOracle oracle eeType key s.cache s r₁ with
      ⟨r₂, h₂⟩ | ⟨e, r₂, h₂⟩
    · rcases run_warmUpElement eeType key s.currentTxNumber (s.cache.get key).isNone
        { s with cache := insertedCache oracle s.cache key } r₂ with ⟨r₃, h₃⟩ | ⟨hinit, e, r₃, h₃⟩
      · left
        refine ⟨r₃, ?_⟩
        simp only [EStateM.run_bind, h₁, EStateM.run_get, h₂, setCache, EStateM.run_modify]
        exact h₃
      · -- the cold charge of an element already in the cache: the insertion wrote nothing
        right
        have hk : (s.cache.get key).isSome := by simpa using hinit
        obtain ⟨e', he'⟩ := Option.isSome_iff_exists.mp hk
        have hins : insertedCache oracle s.cache key = s.cache :=
          HistoryMap.getOrInsert_of_get_some he' _
        refine ⟨e, r₃, ?_⟩
        simp only [EStateM.run_bind, h₁, EStateM.run_get, h₂, setCache, EStateM.run_modify]
        rw [h₃, hins]
    · right
      exact ⟨e, r₂, by simp only [EStateM.run_bind, h₁, EStateM.run_get, h₂]⟩
  · right
    exact ⟨e, r₁, by simp only [EStateM.run_bind, h₁]⟩

theorem run_applyReadImpl (oracle : WarmStorageKey → InitialStorageSlotData)
    (eeType : ExecutionEnvironmentType) (key : WarmStorageKey) (isAccessList : Bool)
    {s : GenericPubdataAwarePlainStorage} (hs : s.cache.Wf) (r : Resources) :
    (∃ r', (applyReadImpl oracle eeType key isAccessList).run (s, r) =
      .ok (valueView oracle s.cache key) ({ s with cache := materializedCache oracle s key }, r')) ∨
    (∃ e r', (applyReadImpl oracle eeType key isAccessList).run (s, r) = .error e (s, r')) := by
  unfold applyReadImpl
  rcases run_materializeElement oracle eeType key isAccessList s r with ⟨r', h⟩ | ⟨e, r', h⟩
  · left
    refine ⟨r', ?_⟩
    have hk := (isSome_get_materializedCache oracle s key key).mpr (.inl rfl)
    simp only [EStateM.run_bind, h, EStateM.run_pure]
    rw [value_record hk, valueView_materializedCache oracle hs]
  · right
    exact ⟨e, r', by simp only [EStateM.run_bind, h]⟩

theorem run_applyWriteImpl (oracle : WarmStorageKey → InitialStorageSlotData)
    (eeType : ExecutionEnvironmentType) (key : WarmStorageKey) (newValue : Bytes32)
    {s : GenericPubdataAwarePlainStorage} (hs : s.cache.Wf) (r : Resources) :
    let initialValues := valAtTxStart s.initialValues key (valueView oracle s.cache key)
      s.currentTxNumber
    (∃ r', (applyWriteImpl oracle eeType key newValue).run (s, r) =
      .ok (valueView oracle s.cache key)
        ({ s with cache := writtenCache oracle s key newValue, initialValues }, r')) ∨
    (∃ e r', (applyWriteImpl oracle eeType key newValue).run (s, r) = .error e (s, r')) ∨
    (∃ e r', (applyWriteImpl oracle eeType key newValue).run (s, r) =
      .error e ({ s with cache := materializedCache oracle s key, initialValues }, r')) := by
  intro initialValues
  unfold applyWriteImpl
  rcases run_materializeElement oracle eeType key false s r with ⟨r₁, h₁⟩ | ⟨e, r₁, h₁⟩
  · have hk := (isSome_get_materializedCache oracle s key key).mpr (.inl rfl)
    have hval : (record (materializedCache oracle s key) key).value = valueView oracle s.cache key := by
      rw [value_record hk, valueView_materializedCache oracle hs]
    simp only [EStateM.run_bind, h₁, EStateM.run_get, EStateM.run_set, hval]
    rcases (preserves_chargeStorageWriteExtra eeType
      (((initialValues.get? key).map Prod.fst).getD (valueView oracle s.cache key))
      (valueView oracle s.cache key) newValue
      ((record (insertedCache oracle s.cache key) key).metadata.consideredWarm s.currentTxNumber)
      ((record (materializedCache oracle s key) key).appearance = .unset)).run_pair
      { s with cache := materializedCache oracle s key, initialValues } r₁ with
      ⟨u, r₂, h₂⟩ | ⟨e, r₂, h₂⟩
    · left
      exact ⟨r₂, by simp [initialValues, h₂, setCache, writtenCache]⟩
    · right; right
      exact ⟨e, r₂, by simp [initialValues, h₂]⟩
  · right; left
    exact ⟨e, r₁, by simp only [EStateM.run_bind, h₁]⟩

/-! ## Transaction and frame boundaries keep the cache well formed -/

theorem wf_beginNewTx {s : GenericPubdataAwarePlainStorage} (hs : s.cache.Wf) : s.beginNewTx.cache.Wf :=
  HistoryMap.wf_commit hs

theorem wf_startFrame {s : GenericPubdataAwarePlainStorage} (hs : s.cache.Wf) :
    s.startFrame.2.cache.Wf :=
  HistoryMap.wf_snapshot hs

end GenericPubdataAwarePlainStorage

end ZksyncOs
