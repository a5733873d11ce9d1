import Mathlib
import ZksyncOs.KvMarkers.Codecs

/-!
# The flat storage model's oracle codecs

`simple_growable_storage`: a leaf, the commitment, a leaf's Merkle proof and the read and write
proofs built from it go to the oracle as `usize` words through the `kv_markers` codecs. Each is
written as the tuple of its fields, and reads back because the primitives do. The
`USIZE_LEN`s are written by hand beside the iterators, and a leaf's counts its `u64` twice: every
proof that holds leaves declares one `u64` too many per leaf.

* `readsBack_flatStorageLeaf`, `readsBack_leafProof`, ... : every value reads back from the words
  its iterator yields, on both widths;
* `roundTrips_flatStorageCommitment` : the commitment's `USIZE_LEN` is right;
* `iterLen_flatStorageLeaf`, `iterLen_leafProof`, ... : the iterators yield one `u64` per leaf
  fewer than the declared `USIZE_LEN`.
-/

namespace ZksyncOs

namespace SimpleGrowableStorage

open KvMarkers KvMarkers.Codec ExactSizeIter

/-- `FlatStorageLeaf<N>` (its codec does not read `N`). -/
structure FlatStorageLeaf where
  key : Bytes32
  value : Bytes32
  next : Fin (2 ^ 64)

/-- `FlatStorageCommitment<N>`. -/
structure FlatStorageCommitment where
  root : Bytes32
  nextFreeSlot : Fin (2 ^ 64)

/-- `LeafProof<N, H, A>`: the leaf at `index` and the `N` sibling hashes of its path. -/
structure LeafProof (N : Nat) where
  index : Fin (2 ^ 64)
  leaf : FlatStorageLeaf
  path : List.Vector Bytes32 N

/-- `ExistingReadProof<N, H, A>`. -/
structure ExistingReadProof (N : Nat) where
  existing : LeafProof N

/-- `NewReadProof<N, H, A>`. -/
structure NewReadProof (N : Nat) where
  previous : LeafProof N
  next : LeafProof N

/-- `NewWriteProof<N, H, A>`. -/
structure NewWriteProof (N : Nat) where
  previous : LeafProof N
  next : LeafProof N
  newInsert : LeafProof N

/-- `ExistingWriteProof<N, H, A>`. -/
structure ExistingWriteProof (N : Nat) where
  existing : LeafProof N

variable (pw : PointerWidth) (N : Nat)

/-- `impl for FlatStorageLeaf`: the key, the value, then `next`; its `USIZE_LEN` counts two
`u64`s. -/
def flatStorageLeaf : Codec FlatStorageLeaf :=
  ofFields ((bytes32 pw).usizeLen * 2 + (u64 pw).usizeLen * 2)
    (pair (bytes32 pw) (pair (bytes32 pw) (u64 pw)))
    (fun l => (l.key, l.value, l.next)) (fun (key, value, next) => ⟨key, value, next⟩)

/-- `impl for FlatStorageCommitment`: the root, then the next free slot. -/
def flatStorageCommitment : Codec FlatStorageCommitment :=
  ofFields ((bytes32 pw).usizeLen + (u64 pw).usizeLen) (pair (bytes32 pw) (u64 pw))
    (fun c => (c.root, c.nextFreeSlot)) (fun (root, nextFreeSlot) => ⟨root, nextFreeSlot⟩)

/-- `impl for LeafProof`: the index, then an `ExactSizeChainN` of the leaf and the path's hashes;
read back as the index, the leaf and the `N` hashes in turn. -/
def leafProof : Codec (LeafProof N) :=
  ofFields ((u64 pw).usizeLen + (flatStorageLeaf pw).usizeLen + (bytes32 pw).usizeLen * N)
    (pair (u64 pw) (withArray (flatStorageLeaf pw) (bytes32 pw) N))
    (fun p => (p.index, p.leaf, p.path)) (fun (index, leaf, path) => ⟨index, leaf, path⟩)

/-- `impl for ExistingReadProof`: the proof of the leaf read. -/
def existingReadProof : Codec (ExistingReadProof N) :=
  ofFields (leafProof pw N).usizeLen (leafProof pw N) (·.existing) (⟨·⟩)

/-- `impl for NewReadProof`: the proofs of the neighbours, lower one first. -/
def newReadProof : Codec (NewReadProof N) :=
  ofFields ((leafProof pw N).usizeLen * 2) (pair (leafProof pw N) (leafProof pw N))
    (fun p => (p.previous, p.next)) (fun (previous, next) => ⟨previous, next⟩)

/-- `impl for NewWriteProof`: the proofs of the neighbours and of the slot inserted into. -/
def newWriteProof : Codec (NewWriteProof N) :=
  ofFields ((leafProof pw N).usizeLen * 3)
    (pair (leafProof pw N) (pair (leafProof pw N) (leafProof pw N)))
    (fun p => (p.previous, p.next, p.newInsert))
    (fun (previous, next, newInsert) => ⟨previous, next, newInsert⟩)

/-- `impl for ExistingWriteProof`: the proof of the leaf written. -/
def existingWriteProof : Codec (ExistingWriteProof N) :=
  ofFields (leafProof pw N).usizeLen (leafProof pw N) (·.existing) (⟨·⟩)

/-! ## Every value reads back -/

theorem readsBack_flatStorageLeaf (l : FlatStorageLeaf) : ReadsBack pw (flatStorageLeaf pw) l :=
  readsBack_ofFields rfl <| readsBack_pair (roundTrips_bytes32 pw _).1 <|
    readsBack_pair (roundTrips_bytes32 pw _).1 (roundTrips_u64 pw _).1

theorem roundTrips_flatStorageCommitment (c : FlatStorageCommitment) :
    RoundTrips pw (flatStorageCommitment pw) c :=
  roundTrips_ofFields rfl rfl (roundTrips_pair (roundTrips_bytes32 pw _) (roundTrips_u64 pw _))

theorem readsBack_leafProof (p : LeafProof N) : ReadsBack pw (leafProof pw N) p :=
  readsBack_ofFields rfl <| readsBack_pair (roundTrips_u64 pw _).1 <|
    readsBack_withArray (readsBack_flatStorageLeaf pw _) fun y _ => (roundTrips_bytes32 pw y).1

theorem readsBack_existingReadProof (p : ExistingReadProof N) :
    ReadsBack pw (existingReadProof pw N) p :=
  readsBack_ofFields rfl (readsBack_leafProof pw N _)

theorem readsBack_newReadProof (p : NewReadProof N) : ReadsBack pw (newReadProof pw N) p :=
  readsBack_ofFields rfl (readsBack_pair (readsBack_leafProof pw N _) (readsBack_leafProof pw N _))

theorem readsBack_newWriteProof (p : NewWriteProof N) : ReadsBack pw (newWriteProof pw N) p :=
  readsBack_ofFields rfl <| readsBack_pair (readsBack_leafProof pw N _) <|
    readsBack_pair (readsBack_leafProof pw N _) (readsBack_leafProof pw N _)

theorem readsBack_existingWriteProof (p : ExistingWriteProof N) :
    ReadsBack pw (existingWriteProof pw N) p :=
  readsBack_ofFields rfl (readsBack_leafProof pw N _)

/-! ## The declared lengths -/

/-- A leaf's iterator yields the key, the value and one `u64`: one `u64` fewer than its
`USIZE_LEN`. -/
theorem iterLen_flatStorageLeaf (l : FlatStorageLeaf) :
    (flatStorageLeaf pw).iterLen l + (u64 pw).usizeLen = (flatStorageLeaf pw).usizeLen := by
  have hkey := (roundTrips_bytes32 pw l.key).2
  have hvalue := (roundTrips_bytes32 pw l.value).2
  have hnext := (roundTrips_u64 pw l.next).2
  simp only [LenAgrees] at hkey hvalue hnext
  simp only [flatStorageLeaf, usizeLen_ofFields, iterLen_ofFields, iterLen_pair, hkey, hvalue,
    hnext]
  omega

/-- A leaf proof inherits the leaf's miscount. -/
theorem iterLen_leafProof (p : LeafProof N) :
    (leafProof pw N).iterLen p + (u64 pw).usizeLen = (leafProof pw N).usizeLen := by
  have hindex := (roundTrips_u64 pw p.index).2
  have hleaf := iterLen_flatStorageLeaf pw p.leaf
  have hpath : (p.path.toList.map (bytes32 pw).iterLen).sum = (bytes32 pw).usizeLen * N :=
    sum_map_iterLen fun y _ => (roundTrips_bytes32 pw y).2
  simp only [LenAgrees] at hindex
  simp only [leafProof, usizeLen_ofFields, iterLen_ofFields, iterLen_pair, iterLen_withArray,
    hindex, hpath]
  omega

theorem iterLen_existingReadProof (p : ExistingReadProof N) :
    (existingReadProof pw N).iterLen p + (u64 pw).usizeLen =
      (existingReadProof pw N).usizeLen :=
  iterLen_leafProof pw N p.existing

theorem iterLen_newReadProof (p : NewReadProof N) :
    (newReadProof pw N).iterLen p + (u64 pw).usizeLen * 2 = (newReadProof pw N).usizeLen := by
  have hprevious := iterLen_leafProof pw N p.previous
  have hnext := iterLen_leafProof pw N p.next
  simp only [newReadProof, usizeLen_ofFields, iterLen_ofFields, iterLen_pair]
  omega

theorem iterLen_newWriteProof (p : NewWriteProof N) :
    (newWriteProof pw N).iterLen p + (u64 pw).usizeLen * 3 = (newWriteProof pw N).usizeLen := by
  have hprevious := iterLen_leafProof pw N p.previous
  have hnext := iterLen_leafProof pw N p.next
  have hnewInsert := iterLen_leafProof pw N p.newInsert
  simp only [newWriteProof, usizeLen_ofFields, iterLen_ofFields, iterLen_pair]
  omega

theorem iterLen_existingWriteProof (p : ExistingWriteProof N) :
    (existingWriteProof pw N).iterLen p + (u64 pw).usizeLen =
      (existingWriteProof pw N).usizeLen :=
  iterLen_leafProof pw N p.existing

/-- Every codec round-trips, but a leaf's words are one `u64` fewer than its `USIZE_LEN`, once per
leaf of a proof, and on 64 bits the `B160` decoder accepts words no `B160` encodes. -/
theorem oracle_codecs_leaf_len_and_b160_top_limb :
    (∀ pw (l : FlatStorageLeaf), ReadsBack pw (flatStorageLeaf pw) l ∧
      (flatStorageLeaf pw).iterLen l + (u64 pw).usizeLen = (flatStorageLeaf pw).usizeLen) ∧
    ((b160 .bits64).fromIter.run [0, 0, 2 ^ 32] = .ok (⟨2 ^ 160, by decide⟩, []) ∧
      ∀ a : B160, ∀ ws, Yields (b160 .bits64).it ((b160 .bits64).iter (b160ToLimbs a)) ws →
        ws ≠ [0, 0, 2 ^ 32]) ∧
    (∀ pw, RoundTrips pw unit () ∧ (∀ x, RoundTrips pw (u8 pw) x) ∧
      (∀ x, RoundTrips pw (u32 pw) x) ∧ (∀ x, RoundTrips pw (u64 pw) x) ∧
      (∀ b, RoundTrips pw (bool pw) b) ∧ (∀ x, RoundTrips pw (u256 pw) x) ∧
      (∀ b, RoundTrips pw (bytes32 pw) b) ∧ (∀ a, RoundTrips pw (storageAddress pw) a) ∧
      ∀ c, RoundTrips pw (flatStorageCommitment pw) c) ∧
    (∀ pw, AcceptsOnlyEncodings pw unit ∧ AcceptsOnlyEncodings pw (u8 pw) ∧
      AcceptsOnlyEncodings pw (u32 pw) ∧ AcceptsOnlyEncodings pw (u64 pw) ∧
      AcceptsOnlyEncodings pw (bool pw) ∧ AcceptsOnlyEncodings pw (u256 pw) ∧
      AcceptsOnlyEncodings pw (bytes32 pw) ∧ AcceptsOnlyEncodings pw (storageAddress pw)) ∧
    ∀ pw N, (∀ p, ReadsBack pw (leafProof pw N) p ∧
        (leafProof pw N).iterLen p + (u64 pw).usizeLen = (leafProof pw N).usizeLen) ∧
      (∀ p, ReadsBack pw (existingReadProof pw N) p ∧
        (existingReadProof pw N).iterLen p + (u64 pw).usizeLen =
          (existingReadProof pw N).usizeLen) ∧
      (∀ p, ReadsBack pw (newReadProof pw N) p ∧
        (newReadProof pw N).iterLen p + (u64 pw).usizeLen * 2 = (newReadProof pw N).usizeLen) ∧
      (∀ p, ReadsBack pw (newWriteProof pw N) p ∧
        (newWriteProof pw N).iterLen p + (u64 pw).usizeLen * 3 = (newWriteProof pw N).usizeLen) ∧
      ∀ p, ReadsBack pw (existingWriteProof pw N) p ∧
        (existingWriteProof pw N).iterLen p + (u64 pw).usizeLen =
          (existingWriteProof pw N).usizeLen :=
  ⟨fun pw l => ⟨readsBack_flatStorageLeaf pw l, iterLen_flatStorageLeaf pw l⟩,
    b160_fromIter_top_limb,
    fun pw => ⟨roundTrips_unit pw, roundTrips_u8 pw, roundTrips_u32 pw, roundTrips_u64 pw,
      roundTrips_bool pw, roundTrips_u256 pw, roundTrips_bytes32 pw, roundTrips_storageAddress pw,
      roundTrips_flatStorageCommitment pw⟩,
    fun pw => ⟨acceptsOnlyEncodings_unit pw, acceptsOnlyEncodings_u8 pw,
      acceptsOnlyEncodings_u32 pw, acceptsOnlyEncodings_u64 pw, acceptsOnlyEncodings_bool pw,
      acceptsOnlyEncodings_u256 pw, acceptsOnlyEncodings_bytes32 pw,
      acceptsOnlyEncodings_storageAddress pw⟩,
    fun pw N => ⟨fun p => ⟨readsBack_leafProof pw N p, iterLen_leafProof pw N p⟩,
      fun p => ⟨readsBack_existingReadProof pw N p, iterLen_existingReadProof pw N p⟩,
      fun p => ⟨readsBack_newReadProof pw N p, iterLen_newReadProof pw N p⟩,
      fun p => ⟨readsBack_newWriteProof pw N p, iterLen_newWriteProof pw N p⟩,
      fun p => ⟨readsBack_existingWriteProof pw N p, iterLen_existingWriteProof pw N p⟩⟩⟩

end SimpleGrowableStorage

end ZksyncOs
