import Mathlib
import ZksyncOs.FlatStorage.StorageModel
import ZksyncOs.FlatStorage.AccountAccess

/-!
# The gas of storage and account accesses

What the EVM pays the storage model for its accesses, in ergs (`ERGS_PER_GAS` to a unit of gas),
on every call that succeeds, from every state:

* `ergs_materializeElement_evm` : a slot access takes `100` gas when the slot is warm and `2100`
  when it is cold, as the flag it returns says;
* `ergs_applyWriteImpl_evm` : a write takes the EIP-2200 price `sstoreGas` of its warmness, of the
  value the slot had when the transaction first wrote it, of its value and of the new one;
* `ergs_accountMaterializeElement_evm` : an account access takes `100` gas warm (nothing for a
  self-destruct) and `2600` cold; a precompile pays the warm `100` on a cold access, also in a
  self-destruct.
-/

namespace ZksyncOs

open EStateM

namespace EthereumLikeStorageAccessCostModel

variable {σ : Type}

theorem spends_chargeWarmStorageRead_evm (isAccessList : Bool) :
    Spends (Resources.ergs ∘ Prod.snd) (warmStorageReadCost * ergsPerGas)
      (chargeWarmStorageRead (σ := σ) .evm isAccessList) :=
  spends_chargeM _

theorem spends_chargeColdStorageReadExtra_evm (isNewSlot : Bool) :
    Spends (Resources.ergs ∘ Prod.snd) ((coldSloadCost - warmStorageReadCost) * ergsPerGas)
      (chargeColdStorageReadExtra (σ := σ) .evm isNewSlot) :=
  spends_chargeM _

theorem spends_chargeStorageWriteExtra_evm (initialValue currentValue newValue : Bytes32)
    (isWarmWrite isNewSlot : Bool) :
    Spends (Resources.ergs ∘ Prod.snd)
      (storageWriteExtraGas initialValue currentValue newValue isWarmWrite * ergsPerGas)
      (chargeStorageWriteExtra (σ := σ) .evm initialValue currentValue newValue isWarmWrite
        isNewSlot) :=
  spends_chargeM _

theorem coldExtra_add_warm :
    (coldSloadCost - warmStorageReadCost) * ergsPerGas + warmStorageReadCost * ergsPerGas =
      coldSloadCost * ergsPerGas := by
  decide

/-- The price of an `SSTORE` in gas (EIP-2200 with EIP-2929's cold surcharge): `original` is the
slot's value at the start of the transaction, `current` its value before the write. -/
def sstoreGas (isWarm : Bool) (original current new : Bytes32) : Nat :=
  (if isWarm then 0 else coldSloadCost) +
    if new = current then warmStorageReadCost
    else if current = original then (if original = 0 then 20000 else 2900)
    else warmStorageReadCost

theorem access_add_storageWriteExtraGas (isWarm : Bool) (original current new : Bytes32) :
    (if isWarm then warmStorageReadCost else coldSloadCost) +
      storageWriteExtraGas original current new isWarm = sstoreGas isWarm original current new := by
  unfold storageWriteExtraGas sstoreGas
  cases isWarm <;> simp only [Bool.false_eq_true, Bool.true_eq_false, if_true, if_false] <;>
    split_ifs <;> rfl

end EthereumLikeStorageAccessCostModel

namespace GenericPubdataAwarePlainStorage

open EthereumLikeStorageAccessCostModel

theorem ergs_warmUpElement_evm (key : WarmStorageKey) (tx : Nat) (init : Bool)
    {s t : GenericPubdataAwarePlainStorage} {r r' : Resources} {rec : StorageRecord} {isWarm : Bool}
    (h : (warmUpElement .evm key tx init).run (s, r) = .ok (rec, isWarm) (t, r')) :
    isWarm = (record s.cache key).metadata.consideredWarm tx ∧
      r.ergs = r'.ergs + if isWarm || init then 0 else (coldSloadCost - warmStorageReadCost) * ergsPerGas := by
  unfold warmUpElement at h
  by_cases hw : (record s.cache key).metadata.consideredWarm tx = false
  · cases init with
    | false =>
      -- cached but cold: the only charge is the cold extra
      rcases (preserves_chargeColdStorageReadExtra .evm false).run_pair s r with
        ⟨u, r₁, h₁⟩ | ⟨e, r₁, h₁⟩
      · have e₁ := spends_chargeColdStorageReadExtra_evm false _ _ _ h₁
        simp only [↓reduceIte, setCache, bind_pure_comp, run_bind, run_get, hw, h₁, run_modify,
          run_map_eq_match, Result.ok.injEq, Prod.mk.injEq, Bool.false_eq] at h
        obtain ⟨⟨-, rfl⟩, -, rfl⟩ := h
        exact ⟨hw.symm, by simpa using e₁⟩
      · simp only [↓reduceIte, bind_pure_comp, run_bind, run_get, hw, h₁, reduceCtorEq] at h
    | true =>
      simp only [Bool.true_eq_false, ↓reduceIte, setCache, bind_pure_comp, run_bind, run_get, hw,
        run_modify, run_map_eq_match, Result.ok.injEq, Prod.mk.injEq, Bool.false_eq] at h
      obtain ⟨⟨-, rfl⟩, -, rfl⟩ := h
      exact ⟨hw.symm, by simp⟩
  · simp only [bind_pure_comp, run_bind, run_get, hw, Bool.true_eq] at h
    obtain ⟨⟨-, rfl⟩, -, rfl⟩ := h
    exact ⟨(Bool.not_eq_false _ ▸ hw).symm, by simp⟩

theorem spends_spawnFromOracle_evm (oracle : WarmStorageKey → InitialStorageSlotData)
    (key : WarmStorageKey) :
    Spends (Resources.ergs ∘ Prod.snd) ((coldSloadCost - warmStorageReadCost) * ergsPerGas)
      (spawnFromOracle oracle .evm key) :=
  (spends_chargeColdStorageReadExtra_evm _).bind fun _ => spends_pure _

theorem spends_getOrInsert_spawnFromOracle_evm (oracle : WarmStorageKey → InitialStorageSlotData)
    (key : WarmStorageKey) (cache : HistoryMap WarmStorageKey StorageRecord) :
    Spends (Resources.ergs ∘ Prod.snd)
      (if (cache.get key).isNone then (coldSloadCost - warmStorageReadCost) * ergsPerGas else 0)
      (cache.getOrInsert key (spawnFromOracle oracle .evm key)) := by
  cases hk : cache.get key with
  | some e =>
    rw [HistoryMap.getOrInsert_of_get_some_bind hk]
    exact spends_pure _
  | none =>
    rw [HistoryMap.getOrInsert_of_get_none_bind hk]
    exact (spends_spawnFromOracle_evm oracle key).map _

theorem run_setCache (cache : HistoryMap WarmStorageKey StorageRecord)
    (s : GenericPubdataAwarePlainStorage) (r : Resources) :
    (setCache cache).run (s, r) = .ok () ({ s with cache }, r) := rfl

theorem consideredWarm_insertedCache_of_get_none (oracle : WarmStorageKey → InitialStorageSlotData)
    {cache : HistoryMap WarmStorageKey StorageRecord} {key : WarmStorageKey} (hk : cache.get key = none)
    (tx : Nat) : (record (insertedCache oracle cache key) key).metadata.consideredWarm tx = false := by
  have hins := HistoryMap.get_getOrInsert_self cache key (initialRecord oracle key)
  rw [hk] at hins
  rw [record, insertedCache, hins]
  rfl

theorem insertedCache_of_get_some (oracle : WarmStorageKey → InitialStorageSlotData)
    {cache : HistoryMap WarmStorageKey StorageRecord} {key : WarmStorageKey}
    {e : ElementWithHistory StorageRecord} (hk : cache.get key = some e) :
    insertedCache oracle cache key = cache :=
  HistoryMap.getOrInsert_of_get_some hk _

/-- A slot access takes `100` gas when the slot is warm and `2100` when it is cold. -/
theorem ergs_materializeElement_evm (oracle : WarmStorageKey → InitialStorageSlotData)
    (key : WarmStorageKey) {s t : GenericPubdataAwarePlainStorage} {r r' : Resources}
    {rec : StorageRecord} {isWarm : Bool}
    (h : (materializeElement oracle .evm key false).run (s, r) = .ok (rec, isWarm) (t, r')) :
    r.ergs = r'.ergs + (if isWarm then warmStorageReadCost else coldSloadCost) * ergsPerGas := by
  unfold materializeElement at h
  rcases (preserves_chargeWarmStorageRead .evm false).run_pair s r with ⟨u, r₁, h₁⟩ | ⟨e, r₁, h₁⟩
  swap
  · rw [run_bind_of_error h₁] at h
    cases h
  have e₁ := spends_chargeWarmStorageRead_evm false _ _ _ h₁
  rw [run_bind_of_ok h₁, run_get_bind] at h
  dsimp only at h
  -- the insertion ends with the inserted cache and the state it started from
  rcases run_getOrInsert_spawnFromOracle oracle .evm key s.cache s r₁ with ⟨r₂, h₂⟩ | ⟨e, r₂, h₂⟩
  swap
  · rw [run_bind_of_error h₂] at h
    cases h
  have e₂ := spends_getOrInsert_spawnFromOracle_evm oracle key s.cache _ _ _ h₂
  rw [run_bind_of_ok h₂, run_bind_of_ok (run_setCache _ _ _)] at h
  obtain ⟨hwarm, e₃⟩ := ergs_warmUpElement_evm key _ _ h
  simp only [Function.comp_apply] at e₁ e₂
  rw [e₁, e₂, e₃]
  cases hk : s.cache.get key with
  | none =>
    -- the first access in the block: charged in the callback, cold
    rw [consideredWarm_insertedCache_of_get_none oracle hk] at hwarm
    subst hwarm
    simp only [Option.isNone_none, Bool.or_true, if_true, Bool.false_eq_true, if_false]
    rw [Nat.add_zero, Nat.add_assoc, coldExtra_add_warm]
  | some e =>
    rw [insertedCache_of_get_some oracle hk] at hwarm
    cases isWarm <;> simp only [Option.isNone_some, Bool.or_false, Bool.false_eq_true, if_true, if_false]
    · rw [Nat.add_zero, Nat.add_assoc, coldExtra_add_warm]
    · rw [Nat.add_zero]

/-- A write takes the `SSTORE` price of the slot's warmness, of the value it had when the
transaction first wrote it, of the value it returns and of the new one. -/
theorem ergs_applyWriteImpl_evm (oracle : WarmStorageKey → InitialStorageSlotData)
    (key : WarmStorageKey) (newValue : Bytes32) {s t : GenericPubdataAwarePlainStorage}
    {r r' : Resources} {old : Bytes32}
    (h : (applyWriteImpl oracle .evm key newValue).run (s, r) = .ok old (t, r')) :
    r.ergs = r'.ergs +
      sstoreGas ((record (insertedCache oracle s.cache key) key).metadata.consideredWarm s.currentTxNumber)
        ((((valAtTxStart s.initialValues key old s.currentTxNumber).get? key).map Prod.fst).getD old)
        old newValue * ergsPerGas := by
  unfold applyWriteImpl at h
  rcases run_materializeElement oracle .evm key false s r with ⟨r₁, h₁⟩ | ⟨e, r₁, h₁⟩
  swap
  · rw [run_bind_of_error h₁] at h
    cases h
  have e₁ := ergs_materializeElement_evm oracle key h₁
  rw [run_bind_of_ok h₁] at h
  dsimp only at h
  rw [run_get_bind, run_bind_of_ok (EStateM.run_set _ _)] at h
  obtain ⟨_, ⟨c₂, r₂⟩, h₂, h⟩ := run_bind_eq_ok.mp h
  have e₂ := spends_chargeStorageWriteExtra_evm _ _ newValue _ _ _ _ _ h₂
  rw [run_get_bind, run_bind_of_ok (run_setCache _ _ _), run_pure] at h
  cases h
  simp only [Function.comp_apply] at e₂
  rw [e₁, e₂, ← access_add_storageWriteExtraGas, Nat.add_mul]
  omega

end GenericPubdataAwarePlainStorage

namespace BytecodeAndAccountDataPreimagesStorage

theorem preserves_ergs_exposePreimage (proofEnv : Bool) (blake2s : List UInt8 → Bytes32)
    (oracle : Bytes32 → List UInt8) (t : PreimageType) (hash : Bytes32) (len : Nat) :
    Preserves (Resources.ergs ∘ Prod.snd) (exposePreimage proofEnv blake2s oracle t hash len) := by
  rintro ⟨c, r⟩
  unfold exposePreimage
  rcases state_chargeM_bind (Resources.fromNative preimageCacheGetNativeCost) _ c r with h | h <;>
    rw [h]
  · exact Resources.ergs_charge_fromNative r _
  · simp only [EStateM.run_bind, EStateM.run_get]
    split
    · exact Resources.ergs_charge_fromNative r _
    · by_cases hlen : (oracle hash).length < len
      · simp [hlen, Resources.ergs_charge_fromNative]
      · simp only [hlen, if_false]
        rcases state_chargeM_bind _ _ c _ with h2 | h2 <;> rw [h2]
        · simp [Resources.ergs_charge_fromNative]
        · -- the hash check fails before the write, or the write keeps the resources it read
          by_cases hcheck : proofEnv = true ∧ blake2s ((oracle hash).take len) ≠ hash
          · cases t <;> simp [hcheck, Resources.ergs_charge_fromNative]
          · simp [hcheck, Resources.ergs_charge_fromNative]

end BytecodeAndAccountDataPreimagesStorage

namespace NewModelAccountCache

open BytecodeAndAccountDataPreimagesStorage

theorem coldExtra_add_warm :
    coldPropertiesAccessExtraCostErgs + warmPropertiesAccessCostErgs =
      addressAccessCostCold * ergsPerGas := by
  decide

theorem access_add_coldAccess (address : B160) (isSelfdestruct : Bool) :
    (if isSelfdestruct then 0 else warmPropertiesAccessCostErgs) +
        ((if isPrecompile address then 0 else coldPropertiesAccessExtraCostErgs) +
          if isSelfdestruct then warmPropertiesAccessCostErgs else 0) =
      (if isPrecompile address then addressAccessCostWarm else addressAccessCostCold) * ergsPerGas := by
  cases isSelfdestruct <;> cases isPrecompile address <;> decide

theorem spends_chargeColdAccess_evm (address : B160) (isSelfdestruct : Bool) :
    Spends (Resources.ergs ∘ Prod.snd)
      ((if isPrecompile address then 0 else coldPropertiesAccessExtraCostErgs) +
        if isSelfdestruct then warmPropertiesAccessCostErgs else 0)
      (chargeColdAccess .evm address isSelfdestruct) := by
  unfold chargeColdAccess
  cases isPrecompile address <;> cases isSelfdestruct <;> exact spends_chargeM _

theorem spends_onPreimages_getPreimage (env : StorageEnv) (request : PreimageRequest) :
    Spends (Resources.ergs ∘ Prod.snd) 0
      (onPreimages (getPreimage env.proofEnv env.blake2s env.preimage request)) :=
  (preserves_ergs_exposePreimage _ _ _ _ _ _).spends.focus (fun _ => rfl) (fun _ _ => rfl)

theorem spends_spawnAccount_evm (env : StorageEnv) (address : B160) (isSelfdestruct : Bool) :
    Spends (Resources.ergs ∘ Prod.snd)
      ((if isPrecompile address then 0 else coldPropertiesAccessExtraCostErgs) +
        if isSelfdestruct then warmPropertiesAccessCostErgs else 0)
      (spawnAccount env .evm address isSelfdestruct) := by
  unfold spawnAccount
  exact (spends_chargeColdAccess_evm address isSelfdestruct).bind fun _ =>
    (spends_withInfiniteErgs _).bind fun _ => spends_ite (spends_pure _)
      ((spends_onPreimages_getPreimage env _).bind fun _ =>
        spends_ite (spends_throw _ _) (spends_pure _))

theorem run_setAccountCache {ε : Type} (cache : HistoryMap BitsOrd160 AccountRecord)
    (c : FlatTreeWithAccountsUnderHashesStorageModel) (r : Resources) :
    (setAccountCache cache : M ε Unit).run (c, r) =
      .ok () ({ c with accountDataCache := { c.accountDataCache with cache } }, r) := rfl

theorem ergs_warmUpElement_evm (address : B160) (isSelfdestruct : Bool) (tx : Nat) (init : Bool)
    {st st' : FlatTreeWithAccountsUnderHashesStorageModel × Resources} {rec : AccountRecord}
    (h : (warmUpElement .evm address isSelfdestruct tx init).run st = .ok rec st') :
    st.2.ergs = st'.2.ergs +
      if (accountRecord (accounts st) ⟨address⟩).metadata.consideredWarm tx || init then 0
      else (if isPrecompile address then 0 else coldPropertiesAccessExtraCostErgs) +
        if isSelfdestruct then warmPropertiesAccessCostErgs else 0 := by
  obtain ⟨c, res⟩ := st
  unfold warmUpElement at h
  rw [run_get_bind] at h
  dsimp only at h
  by_cases hw : (accountRecord c.accountDataCache.cache ⟨address⟩).metadata.consideredWarm tx = false
  · rw [if_pos hw] at h
    cases init with
    | false =>
      -- cached but cold in the transaction: the cold charge, then the warm-up
      rw [if_pos rfl] at h
      obtain ⟨_, ⟨c₁, r₁⟩, h₁, h⟩ := run_bind_eq_ok.mp h
      have e₁ := spends_chargeColdAccess_evm address isSelfdestruct _ _ _ h₁
      rw [run_bind_of_ok (run_updateAccount _ _ _ _), run_get_bind, run_pure] at h
      cases h
      simpa [accounts, hw] using e₁
    | true =>
      rw [if_neg Bool.true_eq_false.mp, run_bind_of_ok (run_updateAccount _ _ _ _), run_get_bind,
        run_pure] at h
      cases h
      simp
  · rw [if_neg hw, run_get_bind, run_pure] at h
    cases h
    simp [accounts, Bool.not_eq_false _ ▸ hw]

/-- An account access takes `100` gas when the account is warm (nothing for a self-destruct)
and `2600` when it is cold, `100` for a cold precompile, also in a self-destruct. -/
theorem ergs_materializeElement_evm (env : StorageEnv) (address : B160) (isSelfdestruct : Bool)
    {st st' : FlatTreeWithAccountsUnderHashesStorageModel × Resources} {rec : AccountRecord}
    (h : (materializeElement env .evm address isSelfdestruct false).run st = .ok rec st') :
    st.2.ergs = st'.2.ergs +
      (if (accountRecord (accounts st) ⟨address⟩).metadata.consideredWarm
          st.1.accountDataCache.currentTxNumber then
        (if isSelfdestruct then 0 else addressAccessCostWarm)
      else if isPrecompile address then addressAccessCostWarm else addressAccessCostCold) *
        ergsPerGas := by
  obtain ⟨c, res⟩ := st
  unfold materializeElement at h
  dsimp only at h
  rw [run_bind_of_ok (run_pure _ _)] at h
  rcases (preserves_chargeM (σ := FlatTreeWithAccountsUnderHashesStorageModel)
    ⟨if isSelfdestruct then 0 else warmPropertiesAccessCostErgs, warmAccountCacheAccessNativeCost⟩).run_pair
    c res with ⟨u, r₁, h₁⟩ | ⟨e, r₁, h₁⟩
  swap
  · rw [run_bind_of_error h₁] at h
    cases h
  have e₁ := spends_chargeM _ _ _ _ h₁
  rw [run_bind_of_ok h₁, run_get_bind] at h
  dsimp only at h
  obtain ⟨cache, ⟨c₂, r₂⟩, h₂, h⟩ := run_bind_eq_ok.mp h
  rw [run_bind_of_ok (run_setAccountCache _ _ _)] at h
  have e₃ := ergs_warmUpElement_evm address isSelfdestruct _ _ h
  simp only [Function.comp_apply] at e₁
  cases hk : c.accountDataCache.cache.get ⟨address⟩ with
  | none =>
    rw [HistoryMap.getOrInsert_of_get_none_bind hk] at h₂
    -- the first access in the block: the cold charge is made while loading the account
    have e₂ := (spends_spawnAccount_evm env address isSelfdestruct).map _ _ _ _ h₂
    have hcold : (accountRecord c.accountDataCache.cache ⟨address⟩).metadata.consideredWarm
        c.accountDataCache.currentTxNumber = false := by
      rw [accountRecord, hk]
      rfl
    simp only [Function.comp_apply, hk, Option.isNone_none, Bool.or_true, if_true] at e₂ e₃
    simp only [accounts, hcold, Bool.false_eq_true, if_false]
    rw [← access_add_coldAccess address isSelfdestruct, e₁, e₂, e₃]
    omega
  | some e =>
    rw [HistoryMap.getOrInsert_of_get_some_bind hk] at h₂
    obtain ⟨rfl, ⟨⟩⟩ := run_pure_eq_ok.mp h₂
    simp only [accounts, hk, Option.isNone_some, Bool.or_false] at e₃
    simp only [accounts]
    by_cases hw : (accountRecord c.accountDataCache.cache ⟨address⟩).metadata.consideredWarm
        c.accountDataCache.currentTxNumber
    · simp only [hw, if_true] at e₃ ⊢
      rw [e₁, e₃]
      cases isSelfdestruct <;> rfl
    · simp only [hw, Bool.false_eq_true, if_false] at e₃ ⊢
      rw [← access_add_coldAccess address isSelfdestruct, e₁, e₃]
      omega

/-- The price of an account access in gas that EIP-2929 specifies: a precompile is always warm,
and a self-destruct pays no warm access. -/
def eip2929AccountAccessGas (isWarm isPrecompile isSelfdestruct : Bool) : Nat :=
  if isWarm || isPrecompile then (if isSelfdestruct then 0 else addressAccessCostWarm)
  else addressAccessCostCold

/-- The price of an access against EIP-2929's: they differ by the warm `100` gas, for a
self-destruct that reaches a cold precompile. -/
theorem accessGas_eq_eip2929 (isWarm isPrecompile isSelfdestruct : Bool) :
    (if isWarm then (if isSelfdestruct then 0 else addressAccessCostWarm)
      else if isPrecompile then addressAccessCostWarm else addressAccessCostCold) =
      eip2929AccountAccessGas isWarm isPrecompile isSelfdestruct +
        if !isWarm && isPrecompile && isSelfdestruct then addressAccessCostWarm else 0 := by
  unfold eip2929AccountAccessGas
  cases isWarm <;> cases isPrecompile <;> cases isSelfdestruct <;> rfl

/-- Every successful access takes the EIP-2929 price, except a self-destruct that reaches a cold
precompile: that one pays the warm `100` gas. -/
theorem ergs_materializeElement_evm_eq_eip2929 (env : StorageEnv) (address : B160)
    (isSelfdestruct : Bool) {st st' : FlatTreeWithAccountsUnderHashesStorageModel × Resources}
    {rec : AccountRecord}
    (h : (materializeElement env .evm address isSelfdestruct false).run st = .ok rec st') :
    let isWarm := (accountRecord (accounts st) ⟨address⟩).metadata.consideredWarm
      st.1.accountDataCache.currentTxNumber
    st.2.ergs = st'.2.ergs + (eip2929AccountAccessGas isWarm (isPrecompile address) isSelfdestruct +
      if !isWarm && isPrecompile address && isSelfdestruct then addressAccessCostWarm else 0) *
        ergsPerGas := by
  intro isWarm
  rw [ergs_materializeElement_evm env address isSelfdestruct h, accessGas_eq_eip2929]

/-- The ergs a successful call takes from a state; `none` when it fails. -/
def ergsTaken {ε α : Type} (x : M ε α) (st : FlatTreeWithAccountsUnderHashesStorageModel × Resources) :
    Option Nat :=
  match x.run st with
  | .ok _ t => some (st.2.ergs - t.2.ergs)
  | .error _ _ => none

/-- A transaction that loads account `11`, and the precompile at address `1` when `warm`. -/
def loadPrecompileBeneficiaryTx (warm : Bool) : List FlatTreeWithAccountsUnderHashesStorageModel.Op :=
  [.beginNewTx, .touchAccount .evm 11 false] ++ if warm then [.touchAccount .evm 1 false] else []

open FlatTreeWithAccountsUnderHashesStorageModel in
/-- A self-destruct to a cold precompile takes `100` gas, `0` once warm; every other account access
costs its EIP-2929 price, a storage read `100` gas warm or `2100` cold, a write its `SSTORE` price. -/
theorem selfdestruct_to_cold_precompile_pays_warm_access :
    ergsTaken (markForDeconstruction emptyEnv .evm 11 1 false)
        (run emptyEnv (construct, ⟨10000000, 10000000⟩) (loadPrecompileBeneficiaryTx false)) =
      some (addressAccessCostWarm * ergsPerGas) ∧
    ergsTaken (markForDeconstruction emptyEnv .evm 11 1 false)
        (run emptyEnv (construct, ⟨10000000, 10000000⟩) (loadPrecompileBeneficiaryTx true)) =
      some 0 ∧
    (∀ (env : StorageEnv) (address : B160) (isSelfdestruct : Bool)
      (st st' : FlatTreeWithAccountsUnderHashesStorageModel × Resources) (rec : AccountRecord),
      (materializeElement env .evm address isSelfdestruct false).run st = .ok rec st' →
      st.2.ergs = st'.2.ergs +
        (eip2929AccountAccessGas ((accountRecord (accounts st) ⟨address⟩).metadata.consideredWarm
            st.1.accountDataCache.currentTxNumber) (isPrecompile address) isSelfdestruct +
          if !(accountRecord (accounts st) ⟨address⟩).metadata.consideredWarm
              st.1.accountDataCache.currentTxNumber && isPrecompile address && isSelfdestruct then
            addressAccessCostWarm
          else 0) * ergsPerGas) ∧
    (∀ (oracle : WarmStorageKey → InitialStorageSlotData) (key : WarmStorageKey)
      (s t : GenericPubdataAwarePlainStorage) (r r' : Resources) (rec : StorageRecord)
      (isWarm : Bool),
      (GenericPubdataAwarePlainStorage.materializeElement oracle .evm key false).run (s, r) =
        .ok (rec, isWarm) (t, r') →
      r.ergs = r'.ergs + (if isWarm then warmStorageReadCost else coldSloadCost) * ergsPerGas) ∧
    ∀ (oracle : WarmStorageKey → InitialStorageSlotData) (key : WarmStorageKey) (newValue : Bytes32)
      (s t : GenericPubdataAwarePlainStorage) (r r' : Resources) (old : Bytes32),
      (GenericPubdataAwarePlainStorage.applyWriteImpl oracle .evm key newValue).run (s, r) =
        .ok old (t, r') →
      r.ergs = r'.ergs +
        EthereumLikeStorageAccessCostModel.sstoreGas ((GenericPubdataAwarePlainStorage.record
            (GenericPubdataAwarePlainStorage.insertedCache oracle s.cache key) key).metadata.consideredWarm
            s.currentTxNumber)
          ((((GenericPubdataAwarePlainStorage.valAtTxStart s.initialValues key old
            s.currentTxNumber).get? key).map Prod.fst).getD old)
          old newValue * ergsPerGas := by
  refine ⟨?_, ?_, fun env address isSelfdestruct st st' rec h =>
    ergs_materializeElement_evm_eq_eip2929 env address isSelfdestruct h,
    fun oracle key s t r r' rec isWarm h =>
      GenericPubdataAwarePlainStorage.ergs_materializeElement_evm oracle key h,
    fun oracle key newValue s t r r' old h =>
      GenericPubdataAwarePlainStorage.ergs_applyWriteImpl_evm oracle key newValue h⟩
  · decide +kernel
  · decide +kernel

end NewModelAccountCache

end ZksyncOs
