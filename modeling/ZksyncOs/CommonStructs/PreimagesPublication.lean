import Mathlib
import ZksyncOs.HistoryMap.Invariant
import ZksyncOs.CommonStructs.CacheRecord
import ZksyncOs.System.Types

/-!
# The publication storage of new preimages

`NewPreimagesPublicationStorage` of `zk_ee::common_structs::new_preimages_publication_storage`:
a `HistoryMap` from preimage hashes to their use counters, snapshotted with the frames.

* `addPreimage` : inserts the hash with `num_uses = 0` if it is new (an initial record, which no
  rollback removes), then counts one use (a record that rollbacks do remove);
* `netDiffsIter` : every hash of the map, whatever its counter;
* `numUses` : the current counter of a hash.

Results:
* `isSome_get_addPreimage`, `isSome_get_finishFrame`, `isSome_get_beginNewTx` : once added, a hash
  stays in the map through every later operation, rollbacks included;
* `wf_addPreimage`, `wf_finishFrame`, ... : every operation keeps the history map well formed.
-/

namespace ZksyncOs

inductive PreimageType where
  | bytecode
  | accountData
deriving DecidableEq, Repr

/-- `usize::MAX` on the 32-bit target the prover runs. -/
def usizeMax : Nat := 2 ^ 32 - 1

structure PreimagesPublicationStorageValue where
  numUses : Nat
  publicationNetBytes : Nat
deriving DecidableEq, Repr

/-- `PreimagesPublicationStorageValue::mark_use`: `checked_add(1)`. -/
def PreimagesPublicationStorageValue.markUse (v : PreimagesPublicationStorageValue) :
    Except InternalError PreimagesPublicationStorageValue :=
  if v.numUses + 1 ≤ usizeMax then .ok { v with numUses := v.numUses + 1 }
  else .error ⟨"Overflow in num_uses"⟩

structure Elem where
  preimageType : PreimageType
  value : PreimagesPublicationStorageValue
deriving DecidableEq, Repr

structure NewPreimagesPublicationStorage where
  cache : HistoryMap Bytes32 (CacheRecord Elem Unit)

namespace NewPreimagesPublicationStorage

/-- `new_from_parts`. -/
def new : NewPreimagesPublicationStorage := ⟨HistoryMap.new⟩

def beginNewTx (s : NewPreimagesPublicationStorage) : NewPreimagesPublicationStorage :=
  ⟨s.cache.commit⟩

def startFrame (s : NewPreimagesPublicationStorage) : Nat × NewPreimagesPublicationStorage :=
  let (id, cache) := s.cache.snapshot
  (id, ⟨cache⟩)

/-- `finish_frame`: roll back to the handle, if one is given. -/
def finishFrame (s : NewPreimagesPublicationStorage) (rollbackHandle : Option Nat) :
    Except InternalError NewPreimagesPublicationStorage :=
  match rollbackHandle with
  | some x => do
    let cache ← s.cache.rollback x
    pure ⟨cache⟩
  | none => pure s

/-- The use-counting callback of `add_preimage`. A second use with another length is an
`assert_eq!` failure, checked only once the counter is above one. -/
def markUseOf (preimagePublicationByteLen : Nat) (elem : Elem) (metadata : Unit) :
    Except InternalError (Elem × Unit) := do
  if elem.value.numUses > 1 ∧ elem.value.publicationNetBytes ≠ preimagePublicationByteLen then
    throw ⟨"assertion failed: elem.value.publication_net_bytes == preimage_publication_byte_len"⟩
  let value ← elem.value.markUse
  pure ({ elem with value }, metadata)

def addPreimage (s : NewPreimagesPublicationStorage) (hash : Bytes32)
    (preimagePublicationByteLen : Nat) (preimageType : PreimageType) :
    Except InternalError NewPreimagesPublicationStorage := do
  let cache ← s.cache.getOrInsert hash
    (pure (CacheRecord.new ⟨preimageType, ⟨0, preimagePublicationByteLen⟩⟩ .unset))
  let cache ← cache.update hash fun r => r.update (markUseOf preimagePublicationByteLen)
  pure ⟨cache⟩

/-- `net_diffs_iter`: `self.cache.iter()`. -/
def netDiffsIter (s : NewPreimagesPublicationStorage) : List (Bytes32 × ElementWithHistory (CacheRecord Elem Unit)) :=
  s.cache.iter

/-- The current use counter of a hash. -/
def numUses (s : NewPreimagesPublicationStorage) (hash : Bytes32) : Option Nat :=
  (s.cache.get hash).map fun e => e.current.value.value.numUses

/-- The storage's history map is well formed. -/
def Wf (s : NewPreimagesPublicationStorage) : Prop := s.cache.Wf

theorem wf_new : (new : NewPreimagesPublicationStorage).Wf := HistoryMap.wf_new

/-! ## `add_preimage` -/

theorem markUseOf_ok {len : Nat} {elem elem' : Elem} {m m' : Unit}
    (h : markUseOf len elem m = .ok (elem', m')) :
    elem'.value.numUses = elem.value.numUses + 1 ∧ elem'.preimageType = elem.preimageType := by
  unfold markUseOf at h
  by_cases hassert : elem.value.numUses > 1 ∧ elem.value.publicationNetBytes ≠ len
  · rw [if_pos hassert] at h
    cases h
  · simp only [hassert, if_false] at h
    unfold PreimagesPublicationStorageValue.markUse at h
    split_ifs at h
    · cases h
      exact ⟨rfl, rfl⟩
    · cases h

theorem addPreimage_eq_ok {s s' : NewPreimagesPublicationStorage} {hash : Bytes32} {len : Nat}
    {t : PreimageType} (h : s.addPreimage hash len t = .ok s') :
    ∃ r, ((s.cache.get hash).getD (.new (CacheRecord.new ⟨t, ⟨0, len⟩⟩ .unset))).current.update
        (markUseOf len) = .ok r ∧
      s'.cache = Id.run ((Id.run (s.cache.getOrInsert hash
        (pure (CacheRecord.new ⟨t, ⟨0, len⟩⟩ .unset)))).update hash (fun _ => pure r)) := by
  unfold addPreimage at h
  rw [HistoryMap.getOrInsert_pure, pure_bind,
    HistoryMap.update_of_get_some_bind (HistoryMap.get_getOrInsert_self _ _ _)] at h
  simp only [Option.getD] at h ⊢
  revert h
  cases hr : CacheRecord.update _ (markUseOf len) with
  | error e => intro h; cases h
  | ok r =>
    intro h
    cases h
    exact ⟨r, rfl, rfl⟩

theorem wf_addPreimage {s s' : NewPreimagesPublicationStorage} (hs : s.Wf) {hash : Bytes32}
    {len : Nat} {t : PreimageType} (h : s.addPreimage hash len t = .ok s') : s'.Wf := by
  obtain ⟨r, -, hs'⟩ := addPreimage_eq_ok h
  unfold Wf
  rw [hs']
  exact HistoryMap.wf_update (HistoryMap.wf_getOrInsert hs _ _) _ _

/-- A successful `add_preimage` keeps every hash and adds its own. -/
theorem isSome_get_addPreimage {s s' : NewPreimagesPublicationStorage} {hash : Bytes32} {len : Nat}
    {t : PreimageType} (h : s.addPreimage hash len t = .ok s') (k : Bytes32) :
    (s'.cache.get k).isSome = true ↔ k = hash ∨ (s.cache.get k).isSome = true := by
  obtain ⟨r, -, hs'⟩ := addPreimage_eq_ok h
  rw [hs', HistoryMap.isSome_get_update _ _ _ (fun _ => r), HistoryMap.isSome_get_getOrInsert]

/-! ## Frames -/

theorem wf_beginNewTx {s : NewPreimagesPublicationStorage} (hs : s.Wf) : s.beginNewTx.Wf :=
  HistoryMap.wf_commit hs

theorem wf_startFrame {s : NewPreimagesPublicationStorage} (hs : s.Wf) : s.startFrame.2.Wf :=
  HistoryMap.wf_snapshot hs

theorem finishFrame_eq_ok {s s' : NewPreimagesPublicationStorage} {rollbackHandle : Option Nat}
    (h : s.finishFrame rollbackHandle = .ok s') :
    s' = s ∨ ∃ x cache, rollbackHandle = some x ∧ s.cache.rollback x = .ok cache ∧ s' = ⟨cache⟩ := by
  cases rollbackHandle with
  | none => exact Or.inl (Except.ok.inj h).symm
  | some x =>
    cases hr : s.cache.rollback x with
    | error e =>
      simp only [finishFrame, hr] at h
      cases h
    | ok cache =>
      simp only [finishFrame, hr] at h
      cases h
      exact Or.inr ⟨x, cache, rfl, hr, rfl⟩

theorem wf_finishFrame {s s' : NewPreimagesPublicationStorage} (hs : s.Wf)
    {rollbackHandle : Option Nat} (h : s.finishFrame rollbackHandle = .ok s') : s'.Wf := by
  rcases finishFrame_eq_ok h with rfl | ⟨x, cache, -, hr, rfl⟩
  · exact hs
  · exact HistoryMap.wf_rollback hs hr

/-- No frame operation removes a hash. -/
theorem isSome_get_finishFrame {s s' : NewPreimagesPublicationStorage} {rollbackHandle : Option Nat}
    (h : s.finishFrame rollbackHandle = .ok s') (k : Bytes32) :
    (s'.cache.get k).isSome = (s.cache.get k).isSome := by
  rcases finishFrame_eq_ok h with rfl | ⟨x, cache, -, hr, rfl⟩
  · rfl
  · exact HistoryMap.isSome_get_rollback hr k

theorem isSome_get_beginNewTx (s : NewPreimagesPublicationStorage) (k : Bytes32) :
    (s.beginNewTx.cache.get k).isSome = (s.cache.get k).isSome :=
  HistoryMap.isSome_get_commit s.cache k

end NewPreimagesPublicationStorage

end ZksyncOs
