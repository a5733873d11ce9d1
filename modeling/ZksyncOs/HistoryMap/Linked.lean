import Mathlib
import ZksyncOs.HistoryMap.Basic
import ZksyncOs.Lib.LinkedChain

/-!
# `HistoryMap` in memory: record chains and the element pool

The pointer level of `zk_ee::common_structs::history_map`. Records live in memory at addresses;
each links to the next older one by `previous`. An `ElementWithHistory` holds the addresses of its
`initial`, `first` and `head` records, and the `ElementPool` the chain of recycled records from its
`head` to its `last`. The code moves records between chains and the pool by rewriting `previous`
links (`reuse_memory`, `create_element`, `rollback`, `commit`, `update`).

A panic (`expect`, `unwrap`) or a read of an address that holds no record makes an operation
return `none`. The loop of `rollback` walks the chain with `fuel` steps, as many as there are
allocated addresses.

* `Memory` : the record at each address, and the next address `Box::new_in` returns;
* `ElementPool.createElement`, `ElementPool.reuseMemory`;
* `ElementWithHistory.new`, `addNewRecord`, `rollback`, `commit`;
* `HistoryMap.getOrInsert`, `update`, `snapshot`, `rollback`, `commit`, and `step`/`run` over
  sequences of them.
-/

namespace ZksyncOs

namespace Linked

/-- `HistoryRecord<V>` in memory: `previous` is the address of the next older record. -/
structure HistoryRecord (V : Type) where
  touchSsId : Nat
  value : V
  previous : Option Nat

/-- The records in memory, and the address the next `Box::new_in` returns. -/
structure Memory (V : Type) where
  records : Nat → Option (HistoryRecord V)
  fresh : Nat

namespace Memory

variable {V : Type}

/-- Memory with nothing allocated. -/
def empty : Memory V := ⟨fun _ => none, 0⟩

/-- Write a whole record at `p`. -/
def write (mem : Memory V) (p : Nat) (r : HistoryRecord V) : Memory V :=
  { mem with records := Function.update mem.records p (some r) }

/-- `Box::into_raw(Box::new_in(r))`: a fresh address holding `r`. -/
def alloc (mem : Memory V) (r : HistoryRecord V) : Nat × Memory V :=
  (mem.fresh, { records := Function.update mem.records mem.fresh (some r), fresh := mem.fresh + 1 })

/-- `(*p).previous = q`: a read of the record at `p`, then a write of its link. -/
def setPrevious (mem : Memory V) (p : Nat) (q : Option Nat) : Option (Memory V) := do
  let r ← mem.records p
  pure (mem.write p { r with previous := q })

@[simp] theorem records_write (mem : Memory V) (p : Nat) (r : HistoryRecord V) (q : Nat) :
    (mem.write p r).records q = if q = p then some r else mem.records q := by
  simp only [write, Function.update_apply]

@[simp] theorem fresh_write (mem : Memory V) (p : Nat) (r : HistoryRecord V) :
    (mem.write p r).fresh = mem.fresh := rfl

@[simp] theorem fst_alloc (mem : Memory V) (r : HistoryRecord V) : (mem.alloc r).1 = mem.fresh :=
  rfl

@[simp] theorem records_alloc (mem : Memory V) (r : HistoryRecord V) (q : Nat) :
    (mem.alloc r).2.records q = if q = mem.fresh then some r else mem.records q := by
  simp only [alloc, Function.update_apply]

@[simp] theorem fresh_alloc (mem : Memory V) (r : HistoryRecord V) :
    (mem.alloc r).2.fresh = mem.fresh + 1 := rfl

end Memory

/-- `ElementPool`: recycled records, a chain from `head` to `last` along `previous`. -/
structure ElementPool where
  head : Option Nat
  last : Option Nat

namespace ElementPool

variable {V : Type}

def new : ElementPool := ⟨none, none⟩

/-- `create_element`: allocate a record, or take the pool's `head` and rewrite all its fields. -/
def createElement (pool : ElementPool) (mem : Memory V) (value : V) (previous : Option Nat)
    (snapshotId : Nat) : Option (Nat × ElementPool × Memory V) :=
  match pool.head with
  | none =>
    let (p, mem) := mem.alloc ⟨snapshotId, value, previous⟩
    some (p, pool, mem)
  | some elem => do
    let r ← mem.records elem
    -- `self.head = elem.previous.take()`, and the pool empties when that was its last record
    let head := r.previous
    let last := if head.isNone then none else pool.last
    some (elem, ⟨head, last⟩, mem.write elem ⟨snapshotId, value, previous⟩)

/-- The first half of `reuse_memory`: the chain goes after the pool's `last`, or becomes the
pool. -/
def linkChain (pool : ElementPool) (mem : Memory V) (chainHead : Nat) :
    Option (ElementPool × Memory V) :=
  match pool.last with
  | none => some ({ pool with head := some chainHead }, mem)
  | some last => (mem.setPrevious last (some chainHead)).map fun mem => (pool, mem)

/-- `reuse_memory`: append the chain from `chainHead` to `chainTail` to the pool, unlinking the
tail from the history it was taken from. -/
def reuseMemory (pool : ElementPool) (mem : Memory V) (chainHead chainTail : Nat) :
    Option (ElementPool × Memory V) := do
  let (pool, mem) ← pool.linkChain mem chainHead
  let mem ← mem.setPrevious chainTail none
  some ({ pool with last := some chainTail }, mem)

end ElementPool

/-- `ElementWithHistory`: the addresses of the initial record, the oldest record above it
(`first`, the initial one when there is none) and the current one. -/
structure ElementWithHistory where
  initial : Nat
  first : Nat
  head : Nat
deriving DecidableEq

namespace ElementWithHistory

variable {V : Type}

/-- `ElementWithHistory::new`: one record, at snapshot `0`, with no previous one. -/
def new (value : V) (pool : ElementPool) (mem : Memory V) :
    Option (ElementWithHistory × ElementPool × Memory V) := do
  let (elem, pool, mem) ← pool.createElement mem value none 0
  some (⟨elem, elem, elem⟩, pool, mem)

/-- `add_new_record`: the new record becomes `head`, and `first` when there was none. -/
def addNewRecord (e : ElementWithHistory) (newElement : Nat) : ElementWithHistory :=
  { e with head := newElement, first := if e.initial = e.first then newElement else e.first }

/-- The loop of `rollback`: step from a removed record to the older one while that one is above
`snapshotId`; the oldest removed record. -/
def rollbackLoop (mem : Memory V) (snapshotId : Nat) : Nat → Nat → Option Nat
  | 0, _ => none
  | fuel + 1, firstRemoved => do
    let r ← mem.records firstRemoved
    let nLnk ← r.previous
    let n ← mem.records nLnk
    if n.touchSsId ≤ snapshotId then some firstRemoved
    else rollbackLoop mem snapshotId fuel nLnk

/-- `rollback`: unless `head` is at or below `snapshotId`, cut the records above it off the chain
and give them to the pool. -/
def rollback (e : ElementWithHistory) (pool : ElementPool) (mem : Memory V) (snapshotId : Nat) :
    Option (ElementWithHistory × ElementPool × Memory V) := do
  let h ← mem.records e.head
  if h.touchSsId ≤ snapshotId then some (e, pool, mem)
  else
    let firstRemoved ← rollbackLoop mem snapshotId mem.fresh e.head
    let r ← mem.records firstRemoved
    let newHead ← r.previous
    let mem := mem.write firstRemoved { r with previous := none }
    let first := if firstRemoved = e.first then newHead else e.first
    let (pool, mem) ← pool.reuseMemory mem e.head firstRemoved
    some (⟨e.initial, first, newHead⟩, pool, mem)

/-- `commit`: with no update (`head == initial`) or one (`head == first`) nothing changes;
otherwise link `head` to the initial record and give the records between them to the pool. -/
def commit (e : ElementWithHistory) (pool : ElementPool) (mem : Memory V) :
    Option (ElementWithHistory × ElementPool × Memory V) :=
  if e.head = e.initial then some (e, pool, mem)
  else if e.head = e.first then some (e, pool, mem)
  else do
    let h ← mem.records e.head
    let lastRemoved ← h.previous
    let mem := mem.write e.head { h with previous := some e.initial }
    let (pool, mem) ← pool.reuseMemory mem lastRemoved e.first
    some ({ e with first := e.head }, pool, mem)

end ElementWithHistory

/-- `HistoryMap` with its `HistoryMapState` and its record pool, over memory. -/
structure HistoryMap (K V : Type) [LinearOrder K] where
  btree : SortedMap K ElementWithHistory
  nextSnapshotId : Nat
  frozenSnapshotId : Nat
  pendingUpdatedElements : List (K × Nat)
  recordsMemoryPool : ElementPool
  memory : Memory V

namespace HistoryMap

variable {K V E : Type} [LinearOrder K]

def new : HistoryMap K V := ⟨SortedMap.empty, 1, 0, [], ElementPool.new, Memory.empty⟩

/-- `get_or_insert`: a missing element is created from `spawnV`, which runs only then; when it
fails nothing changes. -/
def getOrInsert (m : HistoryMap K V) (k : K) (spawnV : Except E V) :
    Option (HistoryMap K V × Except E Unit) :=
  match m.btree.get? k with
  | some _ => some (m, .ok ())
  | none =>
    match spawnV with
    | .error err => some (m, .error err)
    | .ok v => do
      let (e, pool, mem) ← ElementWithHistory.new v m.recordsMemoryPool m.memory
      some ({ m with btree := m.btree.insert k e, recordsMemoryPool := pool, memory := mem },
        .ok ())

/-- `HistoryMapItemRefMut::update`: in place when the head was written in this snapshot, else a
record from the pool, which an `f` that fails leaves linked nowhere. -/
def update (m : HistoryMap K V) (k : K) (f : V → Except E V) :
    Option (HistoryMap K V × Except E Unit) :=
  match m.btree.get? k with
  | none => some (m, .ok ())
  | some e => do
    let last ← m.memory.records e.head
    if last.touchSsId = m.nextSnapshotId then
      match f last.value with
      | .error err => some (m, .error err)
      | .ok v => some ({ m with memory := m.memory.write e.head { last with value := v } }, .ok ())
    else do
      let (new, pool, mem) ← m.recordsMemoryPool.createElement m.memory last.value (some e.head)
        m.nextSnapshotId
      match f last.value with
      | .error err => some ({ m with recordsMemoryPool := pool, memory := mem }, .error err)
      | .ok v =>
        some ({ m with
          btree := m.btree.insert k (e.addNewRecord new)
          pendingUpdatedElements := (k, m.nextSnapshotId) :: m.pendingUpdatedElements
          recordsMemoryPool := pool
          memory := mem.write new ⟨m.nextSnapshotId, v, some e.head⟩ }, .ok ())

/-- `snapshot`: returns the current snapshot id and moves to the next one. -/
def snapshot (m : HistoryMap K V) : Nat × HistoryMap K V :=
  (m.nextSnapshotId, { m with nextSnapshotId := m.nextSnapshotId + 1 })

/-- Roll the element under `key` back in place (`get_mut(&key).expect(..)`). -/
def rollbackElement (m : HistoryMap K V) (key : K) (snapshotId : Nat) : Option (HistoryMap K V) := do
  let item ← m.btree.get? key
  let (item, pool, mem) ← item.rollback m.recordsMemoryPool m.memory snapshotId
  some { m with btree := m.btree.insert key item, recordsMemoryPool := pool, memory := mem }

/-- The loop of `rollback` over the pending stack, popped from the top; the first entry at or
below `snapshotId` is pushed back and ends it. -/
def rollbackPending (snapshotId : Nat) (m : HistoryMap K V) :
    List (K × Nat) → Option (HistoryMap K V)
  | [] => some { m with pendingUpdatedElements := [] }
  | (key, updateSnapshotId) :: rest =>
    if updateSnapshotId ≤ snapshotId then
      some { m with pendingUpdatedElements := (key, updateSnapshotId) :: rest }
    else do
      let m ← m.rollbackElement key snapshotId
      rollbackPending snapshotId m rest

/-- `rollback`: refuse ids below the frozen one and ids not yet issued, then undo every write made
after `snapshotId`. -/
def rollback (m : HistoryMap K V) (snapshotId : Nat) :
    Option (HistoryMap K V × Except InternalError Unit) :=
  if snapshotId < m.frozenSnapshotId then
    some (m, .error ⟨"History map: rollback below frozen snapshot"⟩)
  else if m.nextSnapshotId ≤ snapshotId then
    some (m, .error ⟨"History map: rollback to non-existent snapshot"⟩)
  else
    (rollbackPending snapshotId m m.pendingUpdatedElements).map fun m => (m, .ok ())

/-- Commit the element under `key` in place. -/
def commitElement (m : HistoryMap K V) (key : K) : Option (HistoryMap K V) := do
  let item ← m.btree.get? key
  let (item, pool, mem) ← item.commit m.recordsMemoryPool m.memory
  some { m with btree := m.btree.insert key item, recordsMemoryPool := pool, memory := mem }

/-- The loop of `commit` over the pending stack, top first. -/
def commitPending (m : HistoryMap K V) : List (K × Nat) → Option (HistoryMap K V)
  | [] => some m
  | (key, _) :: rest => do
    let m ← m.commitElement key
    commitPending m rest

/-- `commit`: freeze at a fresh snapshot id, commit every pending element, empty the stack. -/
def commit (m : HistoryMap K V) : Option (HistoryMap K V) := do
  let (frozen, m) := m.snapshot
  let m ← commitPending { m with frozenSnapshotId := frozen } m.pendingUpdatedElements
  some { m with pendingUpdatedElements := [] }

/-- An operation of the interface, with what its callback returns. -/
inductive Op (K V E : Type) where
  | getOrInsert (k : K) (spawnV : Except E V)
  | update (k : K) (f : V → Except E V)
  | snapshot
  | rollback (snapshotId : Nat)
  | commit

/-- One operation: the state it leaves, whatever it returns; `none` when it panics. -/
def step (m : HistoryMap K V) : Op K V E → Option (HistoryMap K V)
  | .getOrInsert k spawnV => (m.getOrInsert k spawnV).map Prod.fst
  | .update k f => (m.update k f).map Prod.fst
  | .snapshot => some m.snapshot.2
  | .rollback s => (m.rollback s).map Prod.fst
  | .commit => m.commit

/-- A sequence of operations. -/
def run (m : HistoryMap K V) : List (Op K V E) → Option (HistoryMap K V)
  | [] => some m
  | op :: ops => do
    let m ← m.step op
    run m ops

end HistoryMap

end Linked

end ZksyncOs
