import Mathlib
import ZksyncOs.Lib.Keccak
import ZksyncOs.Lib.MerkleTree
import ZksyncOs.System.Types

/-!
# The L2-to-L1 logs and their Merkle root

`zk_ee::common_structs::logs_storage`: the logs a block sends to L1, each turned into an
`L2ToL1Log` of 88 bytes (`encode`), published with `apply_pubdata`, and committed to by
`tree_root`, a Keccak-256 Merkle tree of height 14 computed in place over the hashes of the logs,
with the hard-coded `EMPTY_HASHES` standing for subtrees of padding.

* `L2ToL1Log.encode`, `encode_eq_fields` : the buffer written field by field is the fields in
  order, the bytes `add_encoding_to_hasher` and `pubdata` hand over;
* `emptyHashes_eq_emptyRoot` : each hard-coded constant is the root of a padding subtree of its
  height;
* `treeRoot_eq_root` : `tree_root` is the root of the fixed-height tree over the logs' leaves;
* `applyPubdata_eq` : what `apply_pubdata` feeds the hasher and the result keeper.
-/

namespace ZksyncOs

theorem B160.val_lt_word (a : B160) : a.val < 2 ^ 256 :=
  lt_trans a.isLt (Nat.pow_lt_pow_right (by decide) (by decide))

/-- `impl From<B160> for Bytes32`: the address in the low 20 bytes. -/
def Bytes32.ofB160 (a : B160) : Bytes32 := ⟨a.val, B160.val_lt_word a⟩

/-- `impl From<[u8; 32]> for Bytes32`. -/
def Bytes32.ofBytes (bytes : List UInt8) : Bytes32 :=
  ⟨BigEndian.ofBeBytes bytes % 2 ^ 256, Nat.mod_lt _ (Nat.two_pow_pos 256)⟩

namespace LogsStorage

open Keccak

def l2ToL1LogSerializeSize : Nat := 88

/-- `GenericLogContentData`: a user message with its data, or the log of an L1 transaction. -/
inductive GenericLogContentData where
  | userMsg (address : B160) (data : List UInt8) (dataHash : Bytes32)
  | l1TxLog (txHash : Bytes32) (success : Bool)
deriving DecidableEq, Repr

structure LogContent where
  txNumber : UInt32
  data : GenericLogContentData
deriving DecidableEq, Repr

structure L2ToL1Log where
  l2ShardId : UInt8
  isService : Bool
  txNumberInBlock : UInt16
  sender : B160
  key : Bytes32
  value : Bytes32
deriving DecidableEq, Repr

namespace L2ToL1Log

/-- `From<&LogContent>`: a user message is sent by the L1 messenger (`0x8008`) with its sender
and data hash, an L1 transaction's log by the bootloader (`0x8001`) with its hash and success. -/
def ofLogContent (m : LogContent) : L2ToL1Log :=
  let (sender, key, value) : B160 × Bytes32 × Bytes32 := match m.data with
    | .userMsg address _ dataHash => (0x8008, Bytes32.ofB160 address, dataHash)
    | .l1TxLog txHash success => (0x8001, txHash, if success then 1 else 0)
  { l2ShardId := 0, isService := true, txNumberInBlock := m.txNumber.toUInt16, sender, key, value }

/-- The fields in the order `add_encoding_to_hasher` and `pubdata` hand them over, big-endian. -/
def fields (log : L2ToL1Log) : List (List UInt8) :=
  [[log.l2ShardId], [if log.isService then 1 else 0], BigEndian.toBeBytes 2 log.txNumberInBlock.toNat,
    log.sender.bytes, log.key.bytes, log.value.bytes]

/-- `add_encoding_to_hasher`: the bytes the hasher has absorbed after the six `update`s. -/
def addEncodingToHasher (log : L2ToL1Log) (hasher : List UInt8) : List UInt8 :=
  hasher ++ log.fields.flatten

/-- `pubdata`: the pubdata the result keeper holds after the six calls. -/
def pubdata (log : L2ToL1Log) (resultKeeper : List UInt8) : List UInt8 :=
  resultKeeper ++ log.fields.flatten

/-- `hash`: Keccak-256 of what `add_encoding_to_hasher` feeds a fresh hasher. -/
def hash (log : L2ToL1Log) : Bytes32 := Bytes32.ofBytes (keccak256 (log.addEncodingToHasher []))

/-- `buffer[offset..offset + src.len()].copy_from_slice(src)`. -/
def copyFromSlice (buffer : List UInt8) (offset : Nat) (src : List UInt8) : List UInt8 :=
  buffer.take offset ++ src ++ buffer.drop (offset + src.length)

/-- `encode`: the fields written into an 88-byte zero buffer at offsets 0, 1, 2, 4, 24 and 56. -/
def encode (log : L2ToL1Log) : List UInt8 :=
  let buffer := List.replicate l2ToL1LogSerializeSize 0
  let buffer := copyFromSlice buffer 0 [log.l2ShardId]
  let buffer := copyFromSlice buffer 1 [if log.isService then 1 else 0]
  let buffer := copyFromSlice buffer 2 (BigEndian.toBeBytes 2 log.txNumberInBlock.toNat)
  let buffer := copyFromSlice buffer 4 log.sender.bytes
  let buffer := copyFromSlice buffer 24 log.key.bytes
  copyFromSlice buffer 56 log.value.bytes

theorem copyFromSlice_replicate {pre src : List UInt8} {offset m : Nat} (h : pre.length = offset) :
    copyFromSlice (pre ++ List.replicate m 0) offset src = pre ++ src ++ List.replicate (m - src.length) 0 := by
  rw [copyFromSlice, List.take_append, ← h, List.take_length, Nat.sub_self, List.take_zero,
    List.append_nil, List.drop_append, Nat.add_sub_cancel_left, List.drop_eq_nil_of_le (by omega),
    List.nil_append, List.drop_replicate]

theorem encode_eq_fields (log : L2ToL1Log) : log.encode = log.fields.flatten := by
  have h2 : (BigEndian.toBeBytes 2 log.txNumberInBlock.toNat).length = 2 := BigEndian.length_toBeBytes _ _
  have h20 : log.sender.bytes.length = 20 := BigEndian.length_toBeBytes _ _
  have hkey : log.key.bytes.length = 32 := BigEndian.length_toBeBytes _ _
  have hvalue : log.value.bytes.length = 32 := BigEndian.length_toBeBytes _ _
  -- each field lands right after the ones before it, in the zeros still left
  rw [encode, l2ToL1LogSerializeSize, ← List.nil_append (List.replicate 88 0),
    copyFromSlice_replicate (by simp), copyFromSlice_replicate (by simp),
    copyFromSlice_replicate (by simp), copyFromSlice_replicate (by simp [h2]),
    copyFromSlice_replicate (by simp [h2, h20]), copyFromSlice_replicate (by simp [h2, h20, hkey])]
  simp [fields, h20, hkey, hvalue]

theorem length_encode (log : L2ToL1Log) : log.encode.length = l2ToL1LogSerializeSize := by
  rw [encode_eq_fields]
  simp [fields, Bytes32.bytes, B160.bytes, BigEndian.length_toBeBytes, l2ToL1LogSerializeSize]

theorem hash_eq (log : L2ToL1Log) : log.hash = Bytes32.ofBytes (keccak256 log.encode) := by
  rw [hash, addEncodingToHasher, List.nil_append, encode_eq_fields]

end L2ToL1Log

end LogsStorage

/-- The committed list of `LogsStorage`: the logs of the block, oldest first. -/
structure LogsStorage where
  list : List LogsStorage.LogContent

namespace LogsStorage

open Keccak

/-- The Keccak-256 of two nodes, as `tree_root` hashes them: one `update` each. -/
def hashPair (a b : Bytes32) : Bytes32 := Bytes32.ofBytes (keccak256 (a.bytes ++ b.bytes))

def treeHeight : Nat := 14

def emptyHashes : List Bytes32 := [
  0x72abee45b59e344af8a6e520241c4744aff26ed411f4c4b00f8af09adada43ba,
  0xc3d03eebfd83049991ea3d3e358b6712e7aa2e2e63dc2d4b438987cec28ac8d0,
  0xe3697c7f33c31a9b0f0aeb8542287d0d21e8c4cf82163d0c44c7a98aa11aa111,
  0x199cc5812543ddceeddd0fc82807646a4899444240db2c0d2f20c3cceb5f51fa,
  0xe4733f281f18ba3ea8775dd62d2fcd84011c8c938f16ea5790fd29a03bf8db89,
  0x1798a1fd9c8fbb818c98cff190daa7cc10b6e5ac9716b4a2649f7c2ebcef2272,
  0x66d7c5983afe44cf15ea8cf565b34c6c31ff0cb4dd744524f7842b942d08770d,
  0xb04e5ee349086985f74b73971ce9dfe76bbed95c84906c5dffd96504e1e5396c,
  0xac506ecb5465659b3a927143f6d724f91d8d9c4bdb2463aee111d9aa869874db,
  0x124b05ec272cecd7538fdafe53b6628d31188ffb6f345139aac3c3c1fd2e470f,
  0xc3be9cbd19304d84cca3d045e06b8db3acd68c304fc9cd4cbffe6d18036cb13f,
  0xfef7bd9f889811e59e4076a0174087135f080177302763019adaf531257e3a87,
  0xa707d1c62d8be699d34cb74804fdd7b4c568b6c1a821066f126c680d4b83e00b,
  0xf6e093070e0389d2e529d60fadb855fdded54976ec50ac709e3a36ceaa64c291,
  0x375a5bf909cb02143e3695ca658e0641e739aa590f0004dba93572c44cdb9d2d]

/-- `tree_root`: the hashes of the logs, then 14 levels of pairing in place, the level's empty hash
standing for a missing right node; with no log at all, the empty tree's root. -/
def treeRoot (s : LogsStorage) : Bytes32 :=
  let elements := s.list.map fun el => (L2ToL1Log.ofLogContent el).hash
  let (currNonDefault, elements) :=
    MerkleTree.levels hashPair (fun level => emptyHashes.getD level 0) treeHeight s.list.length elements
  if currNonDefault ≠ 0 then elements.getD 0 0 else emptyHashes.getD treeHeight 0

/-- A leaf of padding: Keccak-256 of 88 zero bytes. -/
def paddingLeaf : Bytes32 := Bytes32.ofBytes (keccak256 (List.replicate l2ToL1LogSerializeSize 0))

/-- The leaves of the logs tree: Keccak-256 of each log's encoding, then padding. -/
def logsLeaf (logs : List LogContent) (i : Nat) : Bytes32 :=
  if h : i < logs.length then Bytes32.ofBytes (keccak256 (L2ToL1Log.ofLogContent logs[i]).encode)
  else paddingLeaf

theorem emptyHashes_zero : emptyHashes.getD 0 0 = paddingLeaf := by decide +kernel

/-- The `n` hard-coded hashes above `lo` are each the hash of the one below. -/
def HashesFrom (lo n : Nat) : Prop :=
  ∀ k < n, emptyHashes.getD (lo + k + 1) 0 = hashPair (emptyHashes.getD (lo + k) 0) (emptyHashes.getD (lo + k) 0)

/-! The kernel checks the constants one at a time, a few to a theorem: each check evaluates
Keccak-256 and keeps its intermediate terms until it is done, and all fourteen in one check do not
fit in memory beside the rest of the project. -/

theorem hashesFrom_zero : HashesFrom 0 4 := by
  intro k hk
  rcases k with _ | _ | _ | _ | k
  all_goals first | decide +kernel | omega

theorem hashesFrom_four : HashesFrom 4 4 := by
  intro k hk
  rcases k with _ | _ | _ | _ | k
  all_goals first | decide +kernel | omega

theorem hashesFrom_eight : HashesFrom 8 3 := by
  intro k hk
  rcases k with _ | _ | _ | k
  all_goals first | decide +kernel | omega

theorem hashesFrom_eleven : HashesFrom 11 3 := by
  intro k hk
  rcases k with _ | _ | _ | k
  all_goals first | decide +kernel | omega

theorem HashesFrom.succ {lo n k : Nat} (h : HashesFrom lo n) (hlo : lo ≤ k) (hk : k < lo + n) :
    emptyHashes.getD (k + 1) 0 = hashPair (emptyHashes.getD k 0) (emptyHashes.getD k 0) := by
  obtain ⟨j, rfl⟩ := Nat.exists_eq_add_of_le hlo
  exact h j (by omega)

theorem emptyHashes_succ :
    ∀ k < treeHeight, emptyHashes.getD (k + 1) 0 = hashPair (emptyHashes.getD k 0) (emptyHashes.getD k 0) := by
  intro k hk
  rw [treeHeight] at hk
  -- the block of constants `k` falls in
  rcases Nat.lt_or_ge k 4 with h₁ | h₁
  · exact hashesFrom_zero.succ (Nat.zero_le k) h₁
  rcases Nat.lt_or_ge k 8 with h₂ | h₂
  · exact hashesFrom_four.succ h₁ h₂
  rcases Nat.lt_or_ge k 11 with h₃ | h₃
  · exact hashesFrom_eight.succ h₂ h₃
  · exact hashesFrom_eleven.succ h₃ hk

/-- Each hard-coded empty hash is the root of a padding subtree of its height. -/
theorem emptyHashes_eq_emptyRoot :
    ∀ k ≤ treeHeight, emptyHashes.getD k 0 = MerkleTree.emptyRoot hashPair paddingLeaf k := by
  intro k
  induction k with
  | zero => intro _; rw [emptyHashes_zero, MerkleTree.emptyRoot]
  | succ k ih =>
    intro hk
    rw [emptyHashes_succ k (by omega), ih (by omega), MerkleTree.emptyRoot]

theorem holds_logs (logs : List LogContent) :
    MerkleTree.Holds hashPair (logsLeaf logs) 0 logs.length
      (logs.map fun el => (L2ToL1Log.ofLogContent el).hash) := by
  refine ⟨by rw [List.length_map], fun i hi => ?_⟩
  rw [List.getD_eq_getElem?_getD, List.getElem?_map, List.getElem?_eq_getElem hi, Option.map_some,
    Option.getD_some, MerkleTree.root, logsLeaf, dif_pos hi, L2ToL1Log.hash_eq]

/-- `tree_root` is the root of the Keccak-256 tree of height 14 over the logs' leaves. -/
theorem treeRoot_eq_root (s : LogsStorage) :
    s.treeRoot = MerkleTree.root hashPair (logsLeaf s.list) treeHeight 0 := by
  have hpad : ∀ j, s.list.length ≤ j → logsLeaf s.list j = paddingLeaf :=
    fun j hj => dif_neg (by omega)
  obtain ⟨⟨_, hroots⟩, -, hzero⟩ := MerkleTree.levels_holds hpad (holds_logs s.list) treeHeight
    (fun k hk => emptyHashes_eq_emptyRoot k (by omega))
  unfold treeRoot
  dsimp only
  split_ifs with hcurr
  · exact hroots 0 (Nat.pos_of_ne_zero hcurr)
  · -- no log: every leaf is padding
    rw [emptyHashes_eq_emptyRoot treeHeight le_rfl,
      MerkleTree.root_of_le hpad treeHeight 0 (by rw [hzero.1 (not_not.1 hcurr)]; simp)]

/-! ## `apply_pubdata` -/

/-- `apply_pubdata`: the bytes fed to the hasher and to the result keeper. -/
def applyPubdata (s : LogsStorage) (hasher resultsKeeper : List UInt8) : List UInt8 × List UInt8 :=
  let logsCount := BigEndian.toBeBytes 4 s.list.length
  let (messagesCount, hasher, resultsKeeper) := s.list.foldl
    (fun (acc : Nat × List UInt8 × List UInt8) el =>
      let log := L2ToL1Log.ofLogContent el
      let messagesCount := match el.data with
        | .userMsg .. => acc.1 + 1
        | .l1TxLog .. => acc.1
      (messagesCount, log.addEncodingToHasher acc.2.1, log.pubdata acc.2.2))
    (0, hasher ++ logsCount, resultsKeeper ++ logsCount)
  let messagesCount := BigEndian.toBeBytes 4 messagesCount
  s.list.foldl (fun (acc : List UInt8 × List UInt8) el =>
      match el.data with
      | .userMsg _ data _ =>
        let len := BigEndian.toBeBytes 4 data.length
        (acc.1 ++ len ++ data, acc.2 ++ len ++ data)
      | .l1TxLog .. => acc)
    (hasher ++ messagesCount, resultsKeeper ++ messagesCount)

theorem foldl_firstPass (logs : List LogContent) :
    ∀ (c : Nat) (hasher resultsKeeper : List UInt8), ∃ c',
      logs.foldl (fun (acc : Nat × List UInt8 × List UInt8) el =>
        ((match el.data with
          | .userMsg .. => acc.1 + 1
          | .l1TxLog .. => acc.1), (L2ToL1Log.ofLogContent el).addEncodingToHasher acc.2.1,
          (L2ToL1Log.ofLogContent el).pubdata acc.2.2)) (c, hasher, resultsKeeper) =
        (c', hasher ++ logs.flatMap (fun el => (L2ToL1Log.ofLogContent el).encode),
          resultsKeeper ++ logs.flatMap (fun el => (L2ToL1Log.ofLogContent el).encode)) := by
  induction logs with
  | nil => intro c hasher resultsKeeper; exact ⟨c, by simp⟩
  | cons el logs ih =>
    intro c hasher resultsKeeper
    obtain ⟨c', hc'⟩ := ih (match el.data with
      | .userMsg .. => c + 1
      | .l1TxLog .. => c) ((L2ToL1Log.ofLogContent el).addEncodingToHasher hasher)
      ((L2ToL1Log.ofLogContent el).pubdata resultsKeeper)
    refine ⟨c', ?_⟩
    rw [List.foldl_cons, hc', L2ToL1Log.addEncodingToHasher, L2ToL1Log.pubdata,
      ← L2ToL1Log.encode_eq_fields, List.flatMap_cons, List.append_assoc, List.append_assoc]

theorem foldl_secondPass (logs : List LogContent) :
    ∀ (hasher resultsKeeper : List UInt8), ∃ rest,
      logs.foldl (fun (acc : List UInt8 × List UInt8) el =>
        match el.data with
        | .userMsg _ data _ =>
          (acc.1 ++ BigEndian.toBeBytes 4 data.length ++ data,
            acc.2 ++ BigEndian.toBeBytes 4 data.length ++ data)
        | .l1TxLog .. => acc) (hasher, resultsKeeper) = (hasher ++ rest, resultsKeeper ++ rest) := by
  induction logs with
  | nil => intro hasher resultsKeeper; exact ⟨[], by simp⟩
  | cons el logs ih =>
    intro hasher resultsKeeper
    obtain ⟨txNumber, data⟩ := el
    rw [List.foldl_cons]
    cases data with
    | userMsg address data dataHash =>
      obtain ⟨rest, hrest⟩ := ih (hasher ++ BigEndian.toBeBytes 4 data.length ++ data)
        (resultsKeeper ++ BigEndian.toBeBytes 4 data.length ++ data)
      dsimp only
      rw [hrest]
      exact ⟨BigEndian.toBeBytes 4 data.length ++ data ++ rest, by simp⟩
    | l1TxLog txHash success => exact ih hasher resultsKeeper

/-- `apply_pubdata` feeds the hasher and the result keeper the same bytes: the count of logs, then
exactly the encoding of each log, then the messages. -/
theorem applyPubdata_eq (s : LogsStorage) (hasher resultsKeeper : List UInt8) :
    ∃ rest, s.applyPubdata hasher resultsKeeper =
      (hasher ++ BigEndian.toBeBytes 4 s.list.length ++
          s.list.flatMap (fun el => (L2ToL1Log.ofLogContent el).encode) ++ rest,
        resultsKeeper ++ BigEndian.toBeBytes 4 s.list.length ++
          s.list.flatMap (fun el => (L2ToL1Log.ofLogContent el).encode) ++ rest) := by
  obtain ⟨c, hfirst⟩ := foldl_firstPass s.list 0 (hasher ++ BigEndian.toBeBytes 4 s.list.length)
    (resultsKeeper ++ BigEndian.toBeBytes 4 s.list.length)
  unfold applyPubdata
  dsimp only
  rw [hfirst]
  obtain ⟨rest, hsecond⟩ := foldl_secondPass s.list _ _
  exact ⟨BigEndian.toBeBytes 4 c ++ rest, by rw [hsecond]; simp⟩

/-- `tree_root` is the Keccak-256 Merkle root of height 14 over the logs' hashes, padded with the
hard-coded empty hashes. -/
theorem tree_root_is_keccak_merkle_root (s : LogsStorage) :
    s.treeRoot = MerkleTree.root hashPair (logsLeaf s.list) treeHeight 0 ∧
      (∀ k ≤ treeHeight, emptyHashes.getD k 0 = MerkleTree.emptyRoot hashPair paddingLeaf k) ∧
      (∀ el : LogContent, (L2ToL1Log.ofLogContent el).encode.length = l2ToL1LogSerializeSize) ∧
      ∀ hasher resultsKeeper, ∃ rest, s.applyPubdata hasher resultsKeeper =
        (hasher ++ BigEndian.toBeBytes 4 s.list.length ++
            s.list.flatMap (fun el => (L2ToL1Log.ofLogContent el).encode) ++ rest,
          resultsKeeper ++ BigEndian.toBeBytes 4 s.list.length ++
            s.list.flatMap (fun el => (L2ToL1Log.ofLogContent el).encode) ++ rest) :=
  ⟨treeRoot_eq_root s, emptyHashes_eq_emptyRoot, fun _ => L2ToL1Log.length_encode _,
    applyPubdata_eq s⟩

end LogsStorage

end ZksyncOs
