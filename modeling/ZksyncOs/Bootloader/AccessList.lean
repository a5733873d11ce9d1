import Mathlib
import ZksyncOs.Bootloader.Transaction
import ZksyncOs.Lib.BigEndian
import ZksyncOs.Lib.Checked

/-!
# The access-list parser

`basic_bootloader::bootloader::transaction::access_list_parser`: the access list of a transaction is
read lazily from its `reserved_dynamic` bytes, which hold the ABI encoding of a one-element tuple
whose element is the list of `(address, bytes32[])` items. Every offset is relative, read from the
buffer, and added in `usize` arithmetic, which on the 32-bit target wraps; a word read past the end
of the buffer is an error.

* `AccessListIter.new` : the header of the list: its length and where its item offsets start;
* `AccessListIter.parseCurrent`, `StorageKeysIter.parseCurrent` : an item, and a key of an item;
* `AccessListIter.collect`, `StorageKeysIter.collect` : what iterating yields, up to the first error.
-/

namespace ZksyncOs

open BigEndian Checked

/-- `usize` addition of a release build on the 32-bit target. -/
def usizeAdd (a b : Nat) : Nat := (a + b) % 2 ^ 32

/-- `slice.get(start..stop)`. -/
def sliceGet (slice : List UInt8) (start stop : Nat) : Option (List UInt8) :=
  if start ≤ stop ∧ stop ≤ slice.length then some ((slice.drop start).take (stop - start)) else none

/-- `slice.get(start..)`. -/
def sliceGetFrom (slice : List UInt8) (start : Nat) : Option (List UInt8) :=
  if start ≤ slice.length then some (slice.drop start) else none

/-- `checked_mul` of `usize`. -/
def usizeCheckedMul (a b : Nat) : Option Nat := (checkedMul 32 a b).map Fin.val

/-- `parse_u256` followed by `as_limbs()[0] as usize`: the low 32 bits of the word at `offset`. -/
def parseU256 (slice : List UInt8) (offset : Nat) : Except Unit Nat := do
  let bytes ← okOr (sliceGet slice offset (usizeAdd offset 32)) ()
  pure (ofBeBytes bytes % 2 ^ 64 % 2 ^ 32)

/-- `StorageKeysIter`: the keys of one item, from the start of its words. -/
structure StorageKeysIter where
  slice : List UInt8
  index : Nat
  count : Nat
deriving Repr

/-- `AccessListIter`. `slice` is the transaction's encoding, without the bytes before
`TX_OFFSET`. -/
structure AccessListIter where
  slice : List UInt8
  count : Nat
  headStart : Nat
  index : Nat
deriving Repr

namespace StorageKeysIter

/-- `parse_current` at key `index`. -/
def parseCurrent (it : StorageKeysIter) (index : Nat) : Except Unit Bytes32 := do
  let offset ← okOr (usizeCheckedMul index 32) ()
  let bytes ← okOr (sliceGet it.slice offset (usizeAdd offset 32)) ()
  pure (Fin.ofNat _ (ofBeBytes bytes))

/-- The keys the iterator yields, or the error that ends it. -/
def collect (it : StorageKeysIter) : Except Unit (List Bytes32) :=
  ((List.range it.count).drop it.index).mapM it.parseCurrent

end StorageKeysIter

namespace AccessListIter

/-- `AccessListIter::new`: an empty bytestring is an empty list; otherwise the tuple must have
one element. -/
def new (slice : List UInt8) (offset : Nat) : Except Unit AccessListIter := do
  let slice := slice.drop txOffset
  let bytestringLen ← parseU256 slice offset
  if bytestringLen = 0 then
    return ⟨slice, 0, usizeAdd offset 32, 0⟩
  let offset := usizeAdd offset 32
  let outerOffset ← parseU256 slice offset
  let outerBase := usizeAdd offset outerOffset
  let outerLen ← parseU256 slice outerBase
  if outerLen ≠ 1 then
    throw ()
  let accessListRelOffset ← parseU256 slice (usizeAdd outerBase 32)
  let accessListBase := usizeAdd (usizeAdd outerBase 32) accessListRelOffset
  let count ← parseU256 slice accessListBase
  let headStart := usizeAdd accessListBase 32
  pure ⟨slice, count, headStart, 0⟩

/-- `parse_current` at item `index`: the address, and the keys' iterator. -/
def parseCurrent (it : AccessListIter) (index : Nat) : Except Unit (B160 × StorageKeysIter) := do
  let offset := usizeAdd it.headStart (← okOr (usizeCheckedMul index 32) ())
  let itemPtrOffset ← parseU256 it.slice offset
  let itemOffset := usizeAdd it.headStart itemPtrOffset
  let addressWord ← okOr (sliceGet it.slice itemOffset (usizeAdd itemOffset 32)) ()
  let address : B160 := Fin.ofNat _ (ofBeBytes (addressWord.drop 12))
  let keysPtrOffset ← parseU256 it.slice (usizeAdd itemOffset 32)
  let keysOffset := usizeAdd itemOffset keysPtrOffset
  let keysLen ← parseU256 it.slice keysOffset
  let keysSlice ← okOr (sliceGetFrom it.slice (usizeAdd keysOffset 32)) ()
  pure (address, ⟨keysSlice, 0, keysLen⟩)

/-- The items the iterator yields, or the error that ends it. -/
def collect (it : AccessListIter) : Except Unit (List (B160 × StorageKeysIter)) :=
  ((List.range it.count).drop it.index).mapM it.parseCurrent

end AccessListIter

/-- `AccessListParser::into_iter`. -/
def ZkSyncTransaction.accessListIter (tx : ZkSyncTransaction) : Except Unit AccessListIter :=
  AccessListIter.new tx.underlyingBuffer tx.reservedDynamic

end ZksyncOs
