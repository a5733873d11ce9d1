import Mathlib
import ZksyncOs.Lib.BigEndian

/-!
# Words, addresses and storage keys

The integer types of the IO layer, and the orders their maps use.

* `U256`, `Bytes32` : 256-bit words. A `Bytes32` is read as a big-endian number (`into_u256_be`),
  and its `Ord` compares the 32 bytes lexicographically, which is the order of that number;
* `B160` : a 160-bit address, ordered as a number;
* `BitsOrd160` : an address ordered as `BitsOrd` orders it, by `as_limbs()`, the little-endian
  64-bit limbs compared as an array, lowest limb first (the key of the account cache);
* `WarmStorageKey` : an address and a slot, ordered by the address limbs, then the slot (the key of
  the storage cache);
* `addressIntoSpecialStorageKey` : the slot under which an account's properties hash is stored.
-/

namespace ZksyncOs

abbrev U256 := Fin (2 ^ 256)

/-- `Bytes32`, as the big-endian number of its bytes. -/
abbrev Bytes32 := Fin (2 ^ 256)

theorem U256.val_lt (v : U256) : v.val < 256 ^ 32 := v.isLt

abbrev B160 := Fin (2 ^ 160)

/-! The moduli of the word types are positive, as named instances: a numeral of a word type then
refers to one of them, in every module alike. -/

theorem two_pow_256_ne_zero : 2 ^ 256 ≠ 0 := by positivity

theorem two_pow_160_ne_zero : 2 ^ 160 ≠ 0 := by positivity

theorem two_pow_128_ne_zero : 2 ^ 128 ≠ 0 := by positivity

instance instNeZeroTwoPow256 : NeZero (2 ^ 256) := ⟨two_pow_256_ne_zero⟩

instance instNeZeroTwoPow160 : NeZero (2 ^ 160) := ⟨two_pow_160_ne_zero⟩

instance instNeZeroTwoPow128 : NeZero (2 ^ 128) := ⟨two_pow_128_ne_zero⟩

/-- `Bytes32::to_be_bytes`: the 32 bytes, most significant first. -/
def Bytes32.bytes (b : Bytes32) : List UInt8 := BigEndian.toBeBytes 32 b.val

/-- `B160::to_be_bytes`. -/
def B160.bytes (a : B160) : List UInt8 := BigEndian.toBeBytes 20 a.val

/-- `BitsOrd<160, 3>`: an address with the order of its limb array. -/
structure BitsOrd160 where
  val : B160
deriving DecidableEq, Repr

namespace BitsOrd160

/-- `as_limbs()`, lowest limb first, as a lexicographic triple. -/
def limbs (a : BitsOrd160) : ℕ ×ₗ ℕ ×ₗ ℕ :=
  toLex (a.val.val % 2 ^ 64, toLex (a.val.val / 2 ^ 64 % 2 ^ 64, a.val.val / 2 ^ 128))

theorem limbs_injective : Function.Injective limbs := by
  intro a b h
  have h' : (a.val.val % 2 ^ 64, toLex (a.val.val / 2 ^ 64 % 2 ^ 64, a.val.val / 2 ^ 128)) =
      (b.val.val % 2 ^ 64, toLex (b.val.val / 2 ^ 64 % 2 ^ 64, b.val.val / 2 ^ 128)) := h
  simp only [Prod.mk.injEq] at h'
  obtain ⟨h0, h12⟩ := h'
  have h12' : (a.val.val / 2 ^ 64 % 2 ^ 64, a.val.val / 2 ^ 128) =
      (b.val.val / 2 ^ 64 % 2 ^ 64, b.val.val / 2 ^ 128) := h12
  simp only [Prod.mk.injEq] at h12'
  -- the value is `l0 + 2^64 * l1 + 2^128 * l2`
  have hval : a.val.val = b.val.val := by omega
  cases a
  cases b
  simp only [mk.injEq]
  exact Fin.ext hval

instance : LinearOrder BitsOrd160 := LinearOrder.lift' limbs limbs_injective

end BitsOrd160

structure WarmStorageKey where
  address : B160
  key : Bytes32
deriving DecidableEq, Repr

namespace WarmStorageKey

/-- `Ord for WarmStorageKey`: the address limbs first, then the slot. -/
def ordKey (k : WarmStorageKey) : BitsOrd160 ×ₗ Bytes32 := toLex (⟨k.address⟩, k.key)

theorem ordKey_injective : Function.Injective ordKey := by
  intro a b h
  have h' : ((⟨a.address⟩ : BitsOrd160), a.key) = (⟨b.address⟩, b.key) := h
  simp only [Prod.mk.injEq, BitsOrd160.mk.injEq] at h'
  cases a
  cases b
  simp_all

instance : LinearOrder WarmStorageKey := LinearOrder.lift' ordKey ordKey_injective

/-- `KeyLikeWithBounds::lower_bound`: the first slot of an address. -/
def lowerBound (address : B160) : WarmStorageKey := ⟨address, 0⟩

/-- `KeyLikeWithBounds::upper_bound`: the last slot of an address. -/
def upperBound (address : B160) : WarmStorageKey := ⟨address, Fin.last _⟩

theorem le_iff (a b : WarmStorageKey) :
    a ≤ b ↔ BitsOrd160.mk a.address < ⟨b.address⟩ ∨ (a.address = b.address ∧ a.key ≤ b.key) := by
  change ordKey a ≤ ordKey b ↔ _
  rw [ordKey, ordKey, Prod.Lex.toLex_le_toLex]
  simp only [BitsOrd160.mk.injEq]

end WarmStorageKey

def accountPropertiesStorageAddress : B160 := 0x8003

/-- `address_into_special_storage_key`: the address in the low 20 bytes of the slot. -/
def addressIntoSpecialStorageKey (address : B160) : Bytes32 :=
  ⟨address.val, lt_trans address.isLt (Nat.pow_lt_pow_right (by decide) (by decide))⟩

end ZksyncOs
