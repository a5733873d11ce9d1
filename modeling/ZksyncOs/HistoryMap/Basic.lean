import Mathlib
import ZksyncOs.Lib.SortedMap
import ZksyncOs.System.Errors

/-!
# `HistoryMap`: a key-value map whose elements can be rolled back to snapshots

The model of `zk_ee::common_structs::history_map`. Every element keeps the chain of its
`HistoryRecord`s, each tagged with the snapshot id (`touch_ss_id`) current when it was written;
the map keeps the next snapshot id, the frozen id below which it cannot roll back, and the stack
of `(key, snapshot id)` pairs of the records written since the last `commit`.

* `ElementWithHistory` : the record chain as a list, newest first, above the initial value
  (`addNewRecord`, `rollback`, `commit`, `getInitialAndLastValues`);
* `HistoryMap.getOrInsert`, `HistoryMap.update` : the two ways an element is created or written,
  over any monad (the callbacks of the caches charge resources and read the oracle);
* `HistoryMap.snapshot`, `HistoryMap.rollback`, `HistoryMap.commit`;
* the iterations the caches use: `applyToAllUpdatedElements`, `iterAlteredSinceCommit`,
  `applyToLastRecordOfPendingChanges`, `forEachRange`.

The record pointers of the source become list positions: `head` is the first record,
`previous` the next one, the `initial` record the end of the chain, and `first` the last record.
The `ElementPool` that recycles removed records is not modelled: it only reuses memory.
-/

namespace ZksyncOs

/-- `HistoryRecord`: a value written while the snapshot id was `touchSsId`. -/
structure HistoryRecord (V : Type) where
  touchSsId : Nat
  value : V
deriving DecidableEq, Repr

/-- `ElementWithHistory`: the non-initial records, `head` first, above the initial value. The
initial record has snapshot id `0` and is written only by `new`. -/
structure ElementWithHistory (V : Type) where
  initial : V
  records : List (HistoryRecord V)
deriving DecidableEq, Repr

namespace ElementWithHistory

variable {V : Type}

/-- `ElementWithHistory::new`: only the initial record. -/
def new (v : V) : ElementWithHistory V := ⟨v, []⟩

/-- The snapshot id of `head`. -/
def headTouch (e : ElementWithHistory V) : Nat :=
  match e.records with
  | [] => 0
  | r :: _ => r.touchSsId

/-- The value of `head`. -/
def current (e : ElementWithHistory V) : V :=
  match e.records with
  | [] => e.initial
  | r :: _ => r.value

/-- Write the value of `head` in place. -/
def setHeadValue (e : ElementWithHistory V) (v : V) : ElementWithHistory V :=
  match e.records with
  | [] => { e with initial := v }
  | r :: rs => { e with records := { r with value := v } :: rs }

/-- `add_new_record`: the new record becomes `head`. -/
def addNewRecord (e : ElementWithHistory V) (r : HistoryRecord V) : ElementWithHistory V :=
  { e with records := r :: e.records }

/-- `rollback`: unless `head` is at or below `snapshotId`, remove the records from `head` down to
the first one at or below it; the chain always ends in the initial record, at `0`. -/
def rollback (e : ElementWithHistory V) (snapshotId : Nat) : ElementWithHistory V :=
  if e.headTouch ≤ snapshotId then e
  else { e with records := e.records.dropWhile (fun r => snapshotId < r.touchSsId) }

/-- `get_initial_and_last_values`: `(initial, head)` when `head` has a previous record. -/
def getInitialAndLastValues (e : ElementWithHistory V) : Option (V × V) :=
  match e.records with
  | [] => none
  | r :: _ => some (e.initial, r.value)

/-- `commit`: with no update (`head == initial`) or one (`head == first`) nothing changes;
otherwise `head` is linked straight to the initial record. -/
def commit (e : ElementWithHistory V) : ElementWithHistory V :=
  match e.records with
  | [] => e
  | [_] => e
  | r :: _ :: _ => { e with records := [r] }

end ElementWithHistory

/-- `HistoryMap` with its `HistoryMapState` fields. `pendingUpdatedElements` is a stack, top first. -/
structure HistoryMap (K V : Type) [LinearOrder K] where
  btree : SortedMap K (ElementWithHistory V)
  nextSnapshotId : Nat
  frozenSnapshotId : Nat
  pendingUpdatedElements : List (K × Nat)

namespace HistoryMap

variable {K V : Type} [LinearOrder K]

/-- `HistoryMap::new`: initial values belong to snapshot `0`, so the first snapshot id is `1`. -/
def new : HistoryMap K V := ⟨SortedMap.empty, 1, 0, []⟩

/-- `get`: the element stored under `k`. -/
def get (m : HistoryMap K V) (k : K) : Option (ElementWithHistory V) := m.btree.get? k

/-- `get_or_insert`: a missing element is created from `spawnV`, which runs only then. -/
def getOrInsert {M : Type → Type} [Monad M] (m : HistoryMap K V) (k : K) (spawnV : M V) :
    M (HistoryMap K V) :=
  match m.btree.get? k with
  | some _ => pure m
  | none => do
    let v ← spawnV
    pure { m with btree := m.btree.insert k (ElementWithHistory.new v) }

/-- `HistoryMapItemRefMut::update`: in place when the head was written in this snapshot, else a new
record; a callback that fails writes nothing. -/
def update {M : Type → Type} [Monad M] (m : HistoryMap K V) (k : K) (f : V → M V) :
    M (HistoryMap K V) :=
  match m.btree.get? k with
  | none => pure m
  | some e =>
    if e.headTouch = m.nextSnapshotId then do
      let v ← f e.current
      pure { m with btree := m.btree.insert k (e.setHeadValue v) }
    else do
      let v ← f e.current
      pure { m with
        btree := m.btree.insert k (e.addNewRecord ⟨m.nextSnapshotId, v⟩)
        pendingUpdatedElements := (k, m.nextSnapshotId) :: m.pendingUpdatedElements }

/-- `snapshot`: returns the current snapshot id and moves to the next one. -/
def snapshot (m : HistoryMap K V) : Nat × HistoryMap K V :=
  (m.nextSnapshotId, { m with nextSnapshotId := m.nextSnapshotId + 1 })

/-- The loop of `rollback`: pop pending entries written after `snapshotId` and roll their
elements back; the stack is in chronological order, so the first older entry ends the loop. -/
def rollbackPending (snapshotId : Nat) :
    SortedMap K (ElementWithHistory V) → List (K × Nat) →
      SortedMap K (ElementWithHistory V) × List (K × Nat)
  | btree, [] => (btree, [])
  | btree, (key, updateSnapshotId) :: rest =>
    if updateSnapshotId ≤ snapshotId then (btree, (key, updateSnapshotId) :: rest)
    else rollbackPending snapshotId (btree.modify key (·.rollback snapshotId)) rest

/-- `rollback`: refuse ids below the frozen one and ids not yet issued, then undo every write made
after `snapshotId`. -/
def rollback (m : HistoryMap K V) (snapshotId : Nat) : Except InternalError (HistoryMap K V) :=
  if snapshotId < m.frozenSnapshotId then
    .error ⟨"History map: rollback below frozen snapshot"⟩
  else if m.nextSnapshotId ≤ snapshotId then
    .error ⟨"History map: rollback to non-existent snapshot"⟩
  else
    let r := rollbackPending snapshotId m.btree m.pendingUpdatedElements
    .ok { m with btree := r.1, pendingUpdatedElements := r.2 }

/-- `commit`: freeze at a fresh snapshot id, commit every pending element, empty the stack. -/
def commit (m : HistoryMap K V) : HistoryMap K V :=
  let (frozen, m) := m.snapshot
  { m with
    frozenSnapshotId := frozen
    btree := m.pendingUpdatedElements.foldl (fun bt p => bt.modify p.1 ElementWithHistory.commit)
      m.btree
    pendingUpdatedElements := [] }

/-- `apply_to_all_updated_elements`: `doFn initial current key` for every element with a record
above the initial one, in key order, stopping at the first failure. -/
def applyToAllUpdatedElements {M : Type → Type} [Monad M] (m : HistoryMap K V)
    (doFn : V → V → K → M Unit) : M Unit :=
  m.btree.entries.forM fun p =>
    match p.2.getInitialAndLastValues with
    | none => pure ()
    | some (initial, last) => doFn initial last p.1

/-- `iter`: every element, in key order. -/
def iter (m : HistoryMap K V) : List (K × ElementWithHistory V) := m.btree.entries

/-- `iter_altered_since_commit`: the elements of the pending stack, top first, with repeats. -/
def iterAlteredSinceCommit (m : HistoryMap K V) : List (K × ElementWithHistory V) :=
  m.pendingUpdatedElements.filterMap fun p => (m.btree.get? p.1).map fun e => (p.1, e)

/-- `apply_to_last_record_of_pending_changes`: rewrite the `head` value of every element of the
pending stack in place, top first, stopping at the first failure. -/
def applyToLastRecordOfPendingChanges {M : Type → Type} [Monad M] (m : HistoryMap K V)
    (doFn : K → V → M V) : M (HistoryMap K V) :=
  m.pendingUpdatedElements.foldlM (fun m p =>
    match m.btree.get? p.1 with
    | none => pure m
    | some e => do
      let v ← doFn p.1 e.current
      pure { m with btree := m.btree.insert p.1 (e.setHeadValue v) }) m

/-- `for_each_range` with an `update` callback: update every element with a key in `[lo, hi]`,
in key order. -/
def forEachRange {M : Type → Type} [Monad M] (m : HistoryMap K V) (lo hi : K) (f : V → M V) :
    M (HistoryMap K V) :=
  (m.btree.keys.filter fun k => lo ≤ k ∧ k ≤ hi).foldlM (fun m k => m.update k f) m

end HistoryMap

end ZksyncOs
