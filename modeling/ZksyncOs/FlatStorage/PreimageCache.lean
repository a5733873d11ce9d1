import Mathlib
import ZksyncOs.CommonStructs.PreimagesPublication
import ZksyncOs.System.Resources

/-!
# The preimage cache

`BytecodeAndAccountDataPreimagesStorage` of `flat_storage_model::preimage_cache`: the preimages
known to the block (bytecodes and account properties, by hash), and the publication storage that
decides which of them are published.

* `recordPreimage` : a preimage the block creates; it is stored, and one use is counted in the
  publication storage;
* `getPreimage` (`expose_preimage`) : a preimage read from the oracle, checked against its hash in
  the proving environment; it is stored but not published;
* `reportNewPreimages` : the preimages handed to the result keeper for publication: every hash of
  the publication storage (`netDiffsIter`), with its stored bytes.

Results:
* `Wf` : the publication storage is well formed and every hash in it has a stored preimage;
  `wf_step`, `wf_run` : every operation keeps it, from `new` on;
* `reportNewPreimages_eq` : on a well-formed cache the report never panics and lists exactly the
  hashes of the publication storage, in key order;
* `isSome_get_run` : a hash once recorded stays in the publication storage through every later
  operation, rollbacks and transaction boundaries included; so it is reported.

The oracle answers a preimage request with the bytes of its words; the assertion that they are
at least as many as requested is the assertion of `truncated_to_byte_length`.
-/

namespace ZksyncOs

def preimageCacheGetNativeCost : Nat := 500

def preimageCacheSetNativeCost : Nat := 500

def blake2sBaseNativeCost : Nat := 800

def blake2sRoundNativeCost : Nat := 340

def blake2sChunkSize : Nat := 64

structure PreimageRequest where
  hash : Bytes32
  expectedPreimageLenInBytes : Nat
  preimageType : PreimageType
deriving DecidableEq, Repr

structure BytecodeAndAccountDataPreimagesStorage where
  storage : SortedMap Bytes32 (List UInt8)
  publicationStorage : NewPreimagesPublicationStorage

namespace BytecodeAndAccountDataPreimagesStorage

/-- `new_from_parts`. -/
def new : BytecodeAndAccountDataPreimagesStorage := ⟨SortedMap.empty, NewPreimagesPublicationStorage.new⟩

/-- `storage.entry(hash).or_insert(preimage)`: the stored preimage, and the map after. -/
def orInsert (storage : SortedMap Bytes32 (List UInt8)) (hash : Bytes32) (preimage : List UInt8) :
    List UInt8 × SortedMap Bytes32 (List UInt8) :=
  match storage.get? hash with
  | some stored => (stored, storage)
  | none => (preimage, storage.insert hash preimage)

/-- `insert_verified_preimage`: count the use, then store the preimage if it is new. -/
def insertVerifiedPreimage (preimageType : PreimageType) (hash : Bytes32) (preimage : List UInt8) :
    EStateM SystemError (BytecodeAndAccountDataPreimagesStorage × Resources) (List UInt8) :=
  fun (c, r) =>
    match c.publicationStorage.addPreimage hash preimage.length preimageType with
    | .error e => .error (.internal e) (c, r)
    | .ok publicationStorage =>
      let (inserted, storage) := orInsert c.storage hash preimage
      .ok inserted (⟨storage, publicationStorage⟩, r)

def recordPreimage (request : PreimageRequest) (preimage : List UInt8) :
    EStateM SystemError (BytecodeAndAccountDataPreimagesStorage × Resources) (List UInt8) := do
  chargeM (Resources.fromNative preimageCacheSetNativeCost)
  if request.expectedPreimageLenInBytes ≠ preimage.length % 2 ^ 32 then
    throw (.internal ⟨"assertion failed: *expected_preimage_len_in_bytes == preimage.len() as u32"⟩)
  insertVerifiedPreimage request.preimageType request.hash preimage

/-- `expose_preimage`: a cached preimage, or the oracle's, paid for by its Blake2s rounds and, in
the proving environment, checked against its hash. -/
def exposePreimage (proofEnv : Bool) (blake2s : List UInt8 → Bytes32)
    (oracle : Bytes32 → List UInt8) (preimageType : PreimageType) (hash : Bytes32)
    (expectedPreimageLenInBytes : Nat) :
    EStateM SystemError (BytecodeAndAccountDataPreimagesStorage × Resources) (List UInt8) := do
  chargeM (Resources.fromNative preimageCacheGetNativeCost)
  let (c, _) ← get
  match c.storage.get? hash with
  | some cached => pure cached
  | none =>
    let it := oracle hash
    if it.length < expectedPreimageLenInBytes then
      throw (.internal ⟨"assertion failed: byte_len <= self.byte_capacity"⟩)
    let buffered := it.take expectedPreimageLenInBytes
    -- `div_ceil`; the saturating arithmetic of the source never saturates on a `u32` length
    let numRounds := (expectedPreimageLenInBytes + blake2sChunkSize - 1) / blake2sChunkSize
    let nativeCost := numRounds * blake2sRoundNativeCost + blake2sBaseNativeCost
    chargeM (Resources.fromNative nativeCost)
    if proofEnv ∧ blake2s buffered ≠ hash then
      match preimageType with
      | .accountData => throw (.internal ⟨"Account hash mismatch"⟩)
      | .bytecode => throw (.internal ⟨"Bytecode hash mismatch"⟩)
    let (c, r) ← get
    let (inserted, storage) := orInsert c.storage hash buffered
    set (({ c with storage } : BytecodeAndAccountDataPreimagesStorage), r)
    pure inserted

def getPreimage (proofEnv : Bool) (blake2s : List UInt8 → Bytes32) (oracle : Bytes32 → List UInt8)
    (request : PreimageRequest) :
    EStateM SystemError (BytecodeAndAccountDataPreimagesStorage × Resources) (List UInt8) :=
  exposePreimage proofEnv blake2s oracle request.preimageType request.hash
    request.expectedPreimageLenInBytes

/-- One entry of the report: the hash, its stored preimage (the `expect` of the source panics
without one), and its type. -/
def reportEntry (storage : SortedMap Bytes32 (List UInt8))
    (p : Bytes32 × ElementWithHistory (CacheRecord Elem Unit)) :
    Except InternalError (Bytes32 × List UInt8 × PreimageType) :=
  match storage.get? p.1 with
  | some preimage => .ok (p.1, preimage, p.2.current.value.preimageType)
  | none => .error ⟨"preimage from publication storage must be known"⟩

/-- `report_new_preimages`: every hash of the publication storage, with its preimage. -/
def reportNewPreimages (c : BytecodeAndAccountDataPreimagesStorage) :
    Except InternalError (List (Bytes32 × List UInt8 × PreimageType)) :=
  c.publicationStorage.netDiffsIter.mapM (reportEntry c.storage)

def beginNewTx (c : BytecodeAndAccountDataPreimagesStorage) : BytecodeAndAccountDataPreimagesStorage :=
  { c with publicationStorage := c.publicationStorage.beginNewTx }

def startFrame (c : BytecodeAndAccountDataPreimagesStorage) :
    Nat × BytecodeAndAccountDataPreimagesStorage :=
  let (id, publicationStorage) := c.publicationStorage.startFrame
  (id, { c with publicationStorage })

def finishFrame (c : BytecodeAndAccountDataPreimagesStorage) (rollbackHandle : Option Nat) :
    Except InternalError BytecodeAndAccountDataPreimagesStorage := do
  let publicationStorage ← c.publicationStorage.finishFrame rollbackHandle
  pure { c with publicationStorage }

/-! ## What each operation writes -/

theorem isSome_orInsert (storage : SortedMap Bytes32 (List UInt8)) (hash : Bytes32)
    (preimage : List UInt8) (k : Bytes32) :
    ((orInsert storage hash preimage).2.get? k).isSome = true ↔
      k = hash ∨ (storage.get? k).isSome = true := by
  unfold orInsert
  cases h : storage.get? hash with
  | some stored =>
    constructor
    · exact Or.inr
    · rintro (rfl | hk)
      · rw [h]; rfl
      · exact hk
  | none =>
    rw [SortedMap.get?_insert]
    by_cases hk : k = hash <;> simp [hk]

theorem insertVerifiedPreimage_state (t : PreimageType) (hash : Bytes32) (p : List UInt8)
    (c : BytecodeAndAccountDataPreimagesStorage) (r : Resources) :
    ((insertVerifiedPreimage t hash p).run (c, r)).state = (c, r) ∨
      ∃ ps, c.publicationStorage.addPreimage hash p.length t = .ok ps ∧
        ((insertVerifiedPreimage t hash p).run (c, r)).state = (⟨(orInsert c.storage hash p).2, ps⟩, r) := by
  simp only [EStateM.run, insertVerifiedPreimage]
  cases h : c.publicationStorage.addPreimage hash p.length t with
  | error e => exact Or.inl rfl
  | ok ps => exact Or.inr ⟨ps, rfl, rfl⟩

theorem recordPreimage_state (request : PreimageRequest) (p : List UInt8)
    (c : BytecodeAndAccountDataPreimagesStorage) (r : Resources) :
    ((recordPreimage request p).run (c, r)).state.1 = c ∨
      ∃ r', ((recordPreimage request p).run (c, r)).state =
        ((insertVerifiedPreimage request.preimageType request.hash p).run (c, r')).state := by
  unfold recordPreimage
  rcases state_chargeM_bind (Resources.fromNative preimageCacheSetNativeCost) _ c r with h | h <;>
    rw [h]
  · exact Or.inl rfl
  · by_cases hlen : request.expectedPreimageLenInBytes ≠ p.length % 2 ^ 32
    · rw [if_pos hlen, EStateM.run_bind, EStateM.run_throw]
      exact Or.inl rfl
    · rw [if_neg hlen]
      exact Or.inr ⟨_, rfl⟩

theorem exposePreimage_state (proofEnv : Bool) (blake2s : List UInt8 → Bytes32)
    (oracle : Bytes32 → List UInt8) (t : PreimageType) (hash : Bytes32) (len : Nat)
    (c : BytecodeAndAccountDataPreimagesStorage) (r : Resources) :
    ((exposePreimage proofEnv blake2s oracle t hash len).run (c, r)).state.1 = c ∨
      ∃ b, ((exposePreimage proofEnv blake2s oracle t hash len).run (c, r)).state.1 =
        { c with storage := (orInsert c.storage hash b).2 } := by
  unfold exposePreimage
  rcases state_chargeM_bind (Resources.fromNative preimageCacheGetNativeCost) _ c r with h | h <;>
    rw [h]
  · exact Or.inl rfl
  · simp only [EStateM.run_bind, EStateM.run_get]
    split
    · exact Or.inl rfl
    · -- a preimage from the oracle: the length assertion, the charge, the hash check
      by_cases hlen : (oracle hash).length < len
      · simp [hlen]
      · simp only [hlen, if_false]
        rcases state_chargeM_bind _ _ c _ with h2 | h2 <;> rw [h2]
        · exact Or.inl rfl
        · by_cases hcheck : proofEnv = true ∧ blake2s ((oracle hash).take len) ≠ hash
          · left
            cases t <;> simp [hcheck]
          · exact Or.inr ⟨(oracle hash).take len, by simp [hcheck]⟩

theorem insertVerifiedPreimage_ok {t : PreimageType} {hash : Bytes32} {p : List UInt8}
    {c c' : BytecodeAndAccountDataPreimagesStorage} {r r' : Resources} {out : List UInt8}
    (h : (insertVerifiedPreimage t hash p).run (c, r) = .ok out (c', r')) :
    ∃ ps, c.publicationStorage.addPreimage hash p.length t = .ok ps ∧
      c' = ⟨(orInsert c.storage hash p).2, ps⟩ := by
  simp only [EStateM.run, insertVerifiedPreimage] at h
  cases hps : c.publicationStorage.addPreimage hash p.length t with
  | error e => rw [hps] at h; cases h
  | ok ps =>
    rw [hps] at h
    cases h
    exact ⟨ps, rfl, rfl⟩

theorem recordPreimage_ok {request : PreimageRequest} {p : List UInt8}
    {c c' : BytecodeAndAccountDataPreimagesStorage} {r r' : Resources} {out : List UInt8}
    (h : (recordPreimage request p).run (c, r) = .ok out (c', r')) :
    ∃ r'', (insertVerifiedPreimage request.preimageType request.hash p).run (c, r'') =
      .ok out (c', r') := by
  unfold recordPreimage at h
  rw [EStateM.run_bind, run_chargeM] at h
  generalize r.charge (Resources.fromNative preimageCacheSetNativeCost) = rc at h
  obtain ⟨r₁, res⟩ := rc
  cases res with
  | error e => cases h
  | ok u =>
    by_cases hlen : request.expectedPreimageLenInBytes ≠ p.length % 2 ^ 32
    · simp only [if_pos hlen, EStateM.run_bind, EStateM.run_throw] at h
      cases h
    · simp only [if_neg hlen] at h
      exact ⟨r₁, h⟩

/-! ## The invariant -/

/-- Well formed: the publication storage is, and every hash in it has a stored preimage. -/
structure Wf (c : BytecodeAndAccountDataPreimagesStorage) : Prop where
  publication : c.publicationStorage.Wf
  stored : ∀ k, (c.publicationStorage.cache.get k).isSome = true → (c.storage.get? k).isSome = true

theorem wf_new : new.Wf where
  publication := NewPreimagesPublicationStorage.wf_new
  stored := by simp [new, NewPreimagesPublicationStorage.new, HistoryMap.new, HistoryMap.get]

theorem wf_insertVerifiedPreimage {c : BytecodeAndAccountDataPreimagesStorage} (hc : c.Wf)
    (t : PreimageType) (hash : Bytes32) (p : List UInt8) (r : Resources) :
    ((insertVerifiedPreimage t hash p).run (c, r)).state.1.Wf := by
  rcases insertVerifiedPreimage_state t hash p c r with h | ⟨ps, hps, h⟩ <;> rw [h]
  · exact hc
  · refine ⟨NewPreimagesPublicationStorage.wf_addPreimage hc.publication hps, fun k hk => ?_⟩
    rw [isSome_orInsert]
    rcases (NewPreimagesPublicationStorage.isSome_get_addPreimage hps k).mp hk with rfl | hk
    · exact Or.inl rfl
    · exact Or.inr (hc.stored k hk)

theorem wf_recordPreimage {c : BytecodeAndAccountDataPreimagesStorage} (hc : c.Wf)
    (request : PreimageRequest) (p : List UInt8) (r : Resources) :
    ((recordPreimage request p).run (c, r)).state.1.Wf := by
  rcases recordPreimage_state request p c r with h | ⟨r', h⟩
  · rw [h]
    exact hc
  · rw [h]
    exact wf_insertVerifiedPreimage hc _ _ _ r'

theorem wf_exposePreimage {c : BytecodeAndAccountDataPreimagesStorage} (hc : c.Wf) (proofEnv : Bool)
    (blake2s : List UInt8 → Bytes32) (oracle : Bytes32 → List UInt8) (t : PreimageType)
    (hash : Bytes32) (len : Nat) (r : Resources) :
    ((exposePreimage proofEnv blake2s oracle t hash len).run (c, r)).state.1.Wf := by
  rcases exposePreimage_state proofEnv blake2s oracle t hash len c r with h | ⟨b, h⟩ <;> rw [h]
  · exact hc
  · exact ⟨hc.publication, fun k hk => (isSome_orInsert _ _ _ k).mpr (Or.inr (hc.stored k hk))⟩

/-! ## Runs -/

/-- The operations of the cache. -/
inductive Op where
  | beginNewTx
  | startFrame
  | finishFrame (rollbackHandle : Option Nat)
  | recordPreimage (request : PreimageRequest) (preimage : List UInt8)
  | getPreimage (request : PreimageRequest)

section Run

variable (proofEnv : Bool) (blake2s : List UInt8 → Bytes32) (oracle : Bytes32 → List UInt8)

/-- One operation; a failed rollback leaves the cache as it was. -/
def step (s : BytecodeAndAccountDataPreimagesStorage × Resources) :
    Op → BytecodeAndAccountDataPreimagesStorage × Resources
  | .beginNewTx => (s.1.beginNewTx, s.2)
  | .startFrame => (s.1.startFrame.2, s.2)
  | .finishFrame rollbackHandle =>
    match s.1.finishFrame rollbackHandle with
    | .ok c => (c, s.2)
    | .error _ => s
  | .recordPreimage request preimage => ((recordPreimage request preimage).run s).state
  | .getPreimage request => ((getPreimage proofEnv blake2s oracle request).run s).state

/-- A sequence of operations. -/
def run (s : BytecodeAndAccountDataPreimagesStorage × Resources) (ops : List Op) :
    BytecodeAndAccountDataPreimagesStorage × Resources :=
  ops.foldl (step proofEnv blake2s oracle) s

theorem finishFrame_eq_ok {c c' : BytecodeAndAccountDataPreimagesStorage}
    {rollbackHandle : Option Nat} (h : c.finishFrame rollbackHandle = .ok c') :
    ∃ ps, c.publicationStorage.finishFrame rollbackHandle = .ok ps ∧ c' = { c with publicationStorage := ps } := by
  unfold finishFrame at h
  cases hps : c.publicationStorage.finishFrame rollbackHandle with
  | error e => rw [hps] at h; cases h
  | ok ps => rw [hps] at h; cases h; exact ⟨ps, rfl, rfl⟩

theorem wf_step {s : BytecodeAndAccountDataPreimagesStorage × Resources} (hs : s.1.Wf) (op : Op) :
    (step proofEnv blake2s oracle s op).1.Wf := by
  obtain ⟨c, r⟩ := s
  cases op with
  | beginNewTx =>
    refine ⟨NewPreimagesPublicationStorage.wf_beginNewTx hs.publication, fun k hk => ?_⟩
    rw [step, beginNewTx, NewPreimagesPublicationStorage.isSome_get_beginNewTx] at hk
    exact hs.stored k hk
  | startFrame => exact ⟨NewPreimagesPublicationStorage.wf_startFrame hs.publication, hs.stored⟩
  | finishFrame rollbackHandle =>
    simp only [step]
    split
    · rename_i c' hc'
      obtain ⟨ps, hps, rfl⟩ := finishFrame_eq_ok hc'
      refine ⟨NewPreimagesPublicationStorage.wf_finishFrame hs.publication hps, fun k hk => ?_⟩
      rw [NewPreimagesPublicationStorage.isSome_get_finishFrame hps] at hk
      exact hs.stored k hk
    · exact hs
  | recordPreimage request preimage => exact wf_recordPreimage hs request preimage r
  | getPreimage request => exact wf_exposePreimage hs proofEnv blake2s oracle _ _ _ r

theorem wf_run {s : BytecodeAndAccountDataPreimagesStorage × Resources} (hs : s.1.Wf)
    (ops : List Op) : (run proofEnv blake2s oracle s ops).1.Wf := by
  induction ops generalizing s with
  | nil => exact hs
  | cons op ops ih => exact ih (wf_step proofEnv blake2s oracle hs op)

theorem isSome_get_step (s : BytecodeAndAccountDataPreimagesStorage × Resources) (op : Op)
    (k : Bytes32) (hk : (s.1.publicationStorage.cache.get k).isSome = true) :
    ((step proofEnv blake2s oracle s op).1.publicationStorage.cache.get k).isSome = true := by
  obtain ⟨c, r⟩ := s
  cases op with
  | beginNewTx =>
    rw [step, beginNewTx, NewPreimagesPublicationStorage.isSome_get_beginNewTx]
    exact hk
  | startFrame => exact hk
  | finishFrame rollbackHandle =>
    simp only [step]
    split
    · rename_i c' hc'
      obtain ⟨ps, hps, rfl⟩ := finishFrame_eq_ok hc'
      rw [NewPreimagesPublicationStorage.isSome_get_finishFrame hps]
      exact hk
    · exact hk
  | recordPreimage request preimage =>
    rcases recordPreimage_state request preimage c r with h | ⟨r', h⟩
    · simp only [step, h]
      exact hk
    · simp only [step, h]
      rcases insertVerifiedPreimage_state request.preimageType request.hash preimage c r' with
        h' | ⟨ps, hps, h'⟩ <;> rw [h']
      · exact hk
      · exact (NewPreimagesPublicationStorage.isSome_get_addPreimage hps k).mpr (Or.inr hk)
  | getPreimage request =>
    rcases exposePreimage_state proofEnv blake2s oracle request.preimageType request.hash
      request.expectedPreimageLenInBytes c r with h | ⟨b, h⟩ <;>
      simp only [step, getPreimage, h] <;> exact hk

theorem isSome_get_run (s : BytecodeAndAccountDataPreimagesStorage × Resources) (ops : List Op)
    (k : Bytes32) (hk : (s.1.publicationStorage.cache.get k).isSome = true) :
    ((run proofEnv blake2s oracle s ops).1.publicationStorage.cache.get k).isSome = true := by
  induction ops generalizing s with
  | nil => exact hk
  | cons op ops ih => exact ih _ (isSome_get_step proofEnv blake2s oracle s op k hk)

end Run

/-! ## The report -/

theorem mapM_reportEntry (storage : SortedMap Bytes32 (List UInt8))
    (l : List (Bytes32 × ElementWithHistory (CacheRecord Elem Unit)))
    (hl : ∀ p ∈ l, (storage.get? p.1).isSome = true) :
    ∃ out, l.mapM (reportEntry storage) = .ok out ∧ out.map Prod.fst = l.map Prod.fst := by
  induction l with
  | nil => exact ⟨[], rfl, rfl⟩
  | cons p l ih =>
    obtain ⟨out, hout, hkeys⟩ := ih fun q hq => hl q (List.mem_cons_of_mem _ hq)
    obtain ⟨preimage, hp⟩ := Option.isSome_iff_exists.mp (hl p List.mem_cons_self)
    refine ⟨(p.1, preimage, p.2.current.value.preimageType) :: out, ?_, ?_⟩
    · rw [List.mapM_cons, reportEntry, hp, hout]
      rfl
    · simp [hkeys]

/-- On a well-formed cache the report never panics: it lists every hash of the publication
storage, in key order, with its stored preimage. -/
theorem reportNewPreimages_eq {c : BytecodeAndAccountDataPreimagesStorage} (hc : c.Wf) :
    ∃ l, c.reportNewPreimages = .ok l ∧ l.map Prod.fst = c.publicationStorage.cache.btree.keys := by
  apply mapM_reportEntry
  intro p hp
  apply hc.stored
  rw [HistoryMap.get, (SortedMap.mem_entries_iff _ _ _).mp hp]
  rfl

/-- A preimage recorded successfully is reported at every later point of the block, whatever
follows: later frames, rollbacks and transactions included. -/
theorem reported_of_recordPreimage (proofEnv : Bool) (blake2s : List UInt8 → Bytes32)
    (oracle : Bytes32 → List UInt8) {c c' : BytecodeAndAccountDataPreimagesStorage} (hc : c.Wf)
    {r r' : Resources} {request : PreimageRequest} {p out : List UInt8}
    (h : (recordPreimage request p).run (c, r) = .ok out (c', r')) (post : List Op) :
    ∃ l, (run proofEnv blake2s oracle (c', r') post).1.reportNewPreimages = .ok l ∧
      request.hash ∈ l.map Prod.fst := by
  have hwf : c'.Wf := by
    have := wf_recordPreimage hc request p r
    rwa [h] at this
  obtain ⟨r'', hins⟩ := recordPreimage_ok h
  obtain ⟨ps, hps, rfl⟩ := insertVerifiedPreimage_ok hins
  have hk : (ps.cache.get request.hash).isSome = true :=
    (NewPreimagesPublicationStorage.isSome_get_addPreimage hps _).mpr (Or.inl rfl)
  have hk' := isSome_get_run proofEnv blake2s oracle (⟨(orInsert c.storage request.hash p).2, ps⟩, r')
    post request.hash hk
  have hwf' : ((⟨(orInsert c.storage request.hash p).2, ps⟩, r') :
      BytecodeAndAccountDataPreimagesStorage × Resources).1.Wf := hwf
  obtain ⟨l, hl, hkeys⟩ := reportNewPreimages_eq (wf_run proofEnv blake2s oracle hwf' post)
  refine ⟨l, hl, ?_⟩
  rw [hkeys]
  obtain ⟨e, he⟩ := Option.isSome_iff_exists.mp hk'
  exact List.mem_map.mpr ⟨_, (SortedMap.mem_entries_iff _ _ _).mpr he, rfl⟩

/-- A preimage recorded only in a frame rolled back has counter `0` and is reported; in general a
recorded preimage is reported at every later point of the block. -/
theorem report_new_preimages_lists_reverted_preimage :
    ((run false (fun _ => 0) (fun _ => []) (new, ⟨0, 1000⟩)
        [.beginNewTx, .startFrame, .recordPreimage ⟨1, 3, .bytecode⟩ [1, 2, 3], .finishFrame (some 2)]).1.publicationStorage.numUses 1 = some 0 ∧
      (run false (fun _ => 0) (fun _ => []) (new, ⟨0, 1000⟩)
        [.beginNewTx, .startFrame, .recordPreimage ⟨1, 3, .bytecode⟩ [1, 2, 3], .finishFrame (some 2)]).1.reportNewPreimages =
        .ok [(1, [1, 2, 3], .bytecode)]) ∧
    ∀ (proofEnv : Bool) (blake2s : List UInt8 → Bytes32) (oracle : Bytes32 → List UInt8)
      (c c' : BytecodeAndAccountDataPreimagesStorage) (r r' : Resources) (request : PreimageRequest)
      (p out : List UInt8) (post : List Op), c.Wf →
      (recordPreimage request p).run (c, r) = .ok out (c', r') →
      ∃ l, (run proofEnv blake2s oracle (c', r') post).1.reportNewPreimages = .ok l ∧
        request.hash ∈ l.map Prod.fst :=
  ⟨⟨rfl, rfl⟩, fun proofEnv blake2s oracle _ _ _ _ _ _ _ post hc h =>
    reported_of_recordPreimage proofEnv blake2s oracle hc h post⟩

end BytecodeAndAccountDataPreimagesStorage

end ZksyncOs
