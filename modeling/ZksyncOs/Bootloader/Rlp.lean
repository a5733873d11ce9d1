import Mathlib
import ZksyncOs.Lib.Rlp
import ZksyncOs.System.Types

/-!
# The streaming RLP encoder

`basic_bootloader::bootloader::rlp`: the bootloader hashes a transaction's RLP encoding without
building it. The `estimate_*` functions give encoding lengths, so that a list's header can be
written before its elements; the `apply_*` functions write bytes to the hasher, modelled here as the
bytes they write.

* `applyBytesEncodingToHash_eq`, `applyNumberEncodingToHash_eq`, `applyLengthEncodingToHash_eq` :
  what each writes is the canonical encoding of `Rlp`, for lengths that fit a `usize`;
* `applyListLengthEncodingToHash_append` : a header computed from the payload's length, then the
  payload, is the encoding of the list;
* `estimateBytesEncodingLen_eq`, `estimateNumberEncodingLen_eq`, `estimateLengthEncodingLen_eq` :
  each estimate is the length of what the matching `apply_*` writes.

A length is a 32-bit `usize`, written as its four big-endian bytes without the leading zeros.
-/

namespace ZksyncOs

open BigEndian Rlp

/-- `ADDRESS_ENCODING_LEN`: a 20-byte string and its header. -/
def addressEncodingLen : Nat := 21

def estimateLengthEncodingLen (length : Nat) : Nat :=
  if length < 56 then 1
  else
    let lengthBytes := toBeBytes 4 length
    let nonZeroByte := lengthBytes.findIdx (· != 0)
    1 + lengthBytes.length - nonZeroByte

/-- `value.len() == 1 && value[0] < 128`: a byte that is its own encoding. -/
def isSingleSmallByte (value : List UInt8) : Bool :=
  value.length == 1 && decide ((value.headD 0).toNat < 128)

def estimateBytesEncodingLen (value : List UInt8) : Nat :=
  if isSingleSmallByte value then 1
  else estimateLengthEncodingLen value.length + value.length

/-- `estimate_number_encoding_len`: the bytes from the first non-zero one. -/
def estimateNumberEncodingLen (value : List UInt8) : Nat :=
  estimateBytesEncodingLen (value.drop (value.findIdx (· != 0)))

/-- `apply_length_encoding_to_hash`: `offset` is `128` for bytes and `192` for a list. -/
def applyLengthEncodingToHash (length : Nat) (offset : UInt8) : List UInt8 :=
  if length < 56 then [offset + UInt8.ofNat length]
  else
    let lengthBytes := toBeBytes 4 length
    let nonZeroByte := lengthBytes.findIdx (· != 0)
    [offset + 55 + UInt8.ofNat (lengthBytes.length - nonZeroByte)] ++ lengthBytes.drop nonZeroByte

def applyBytesEncodingToHash (value : List UInt8) : List UInt8 :=
  if isSingleSmallByte value then value
  else applyLengthEncodingToHash value.length 128 ++ value

/-- `apply_number_encoding_to_hash`: a zero is the empty string. -/
def applyNumberEncodingToHash (value : List UInt8) : List UInt8 :=
  applyBytesEncodingToHash (value.drop (value.findIdx (· != 0)))

def applyListLengthEncodingToHash (length : Nat) : List UInt8 :=
  applyLengthEncodingToHash length 192

/-! ## The encoder writes the canonical encoding -/

theorem drop_findIdx_ne_zero (l : List UInt8) : l.drop (l.findIdx (· != 0)) = l.dropWhile (· == 0) :=
  List.dropWhile_eq_drop_findIdx_not.symm

theorem findIdx_toBeBytes {length : Nat} (h : length < 2 ^ 32) :
    (toBeBytes 4 length).findIdx (· != 0) = 4 - byteLen length := by
  have hlt : length < 256 ^ 4 := by simpa using h
  have hdrop := congrArg List.length (drop_findIdx_ne_zero (toBeBytes 4 length))
  have hle : (toBeBytes 4 length).findIdx (· != 0) ≤ (toBeBytes 4 length).length :=
    List.findIdx_le_length
  rw [dropWhile_toBeBytes hlt, List.length_drop, length_minimalBytes, length_toBeBytes] at hdrop
  rw [length_toBeBytes] at hle
  omega

theorem applyLengthEncodingToHash_eq {length : Nat} (h : length < 2 ^ 32) (offset : UInt8)
    (hoff : offset.toNat + 59 < 256) :
    applyLengthEncodingToHash length offset = header offset.toNat length := by
  have hlt : length < 256 ^ 4 := by simpa using h
  have hbl : byteLen length ≤ 4 := (byteLen_le_iff length 4).mpr hlt
  unfold applyLengthEncodingToHash header
  split
  · case isTrue hs =>
    -- the header byte is `offset + length`, which stays below `256`
    apply List.singleton_inj.mpr
    apply UInt8.toNat.inj
    rw [UInt8.toNat_add, toNat_uint8_ofNat, toNat_uint8_ofNat]
    omega
  · case isFalse hs =>
    dsimp only
    rw [drop_findIdx_ne_zero, findIdx_toBeBytes h, dropWhile_toBeBytes hlt, length_toBeBytes,
      List.singleton_append]
    congr 1
    apply UInt8.toNat.inj
    rw [UInt8.toNat_add, UInt8.toNat_add, toNat_uint8_ofNat, toNat_uint8_ofNat]
    simp only [UInt8.reduceToNat]
    omega

theorem isSingleSmallByte_iff (value : List UInt8) :
    isSingleSmallByte value = true ↔ ∃ x, value = [x] ∧ x.toNat < 128 := by
  unfold isSingleSmallByte
  match value with
  | [] => simp
  | [x] => simp
  | _ :: _ :: _ => simp

theorem applyBytesEncodingToHash_eq {value : List UInt8} (h : value.length < 2 ^ 32) :
    applyBytesEncodingToHash value = encode (.bytes value) := by
  unfold applyBytesEncodingToHash
  rw [encode_bytes, applyLengthEncodingToHash_eq h 128 (by decide)]
  split
  · case isTrue hs =>
    obtain ⟨x, rfl, hx⟩ := (isSingleSmallByte_iff value).mp hs
    exact (encodeBytes_singleton_of_lt hx).symm
  · case isFalse hs =>
    match value, hs with
    | [x], hs =>
      have hx : 128 ≤ x.toNat := by
        by_contra hx
        exact hs ((isSingleSmallByte_iff [x]).mpr ⟨x, rfl, by omega⟩)
      exact (encodeBytes_singleton_of_le hx).symm
    | [], _ => rfl
    | _ :: _ :: _, _ => rfl

/-- A `k`-byte number is written as its minimal string. -/
theorem applyNumberEncodingToHash_eq {k n : Nat} (hk : k < 2 ^ 32) (h : n < 256 ^ k) :
    applyNumberEncodingToHash (toBeBytes k n) = encode (Item.ofNat n) := by
  have hlen : (minimalBytes n).length < 2 ^ 32 := by
    rw [length_minimalBytes]
    have := (byteLen_le_iff n k).mpr h
    omega
  rw [applyNumberEncodingToHash, drop_findIdx_ne_zero, dropWhile_toBeBytes h,
    applyBytesEncodingToHash_eq hlen, Item.ofNat]

theorem applyNumberEncodingToHash_eq_ofBeBytes {l : List UInt8} (h : l.length < 2 ^ 32) :
    applyNumberEncodingToHash l = encode (Item.ofNat (ofBeBytes l)) := by
  have := applyNumberEncodingToHash_eq h (ofBeBytes_lt l)
  rwa [toBeBytes_ofBeBytes] at this

theorem applyListLengthEncodingToHash_eq {length : Nat} (h : length < 2 ^ 32) :
    applyListLengthEncodingToHash length = header 192 length :=
  applyLengthEncodingToHash_eq h 192 (by decide)

/-- A list whose payload fits a `usize`: its header, written from the payload's length, then the
payload, is its encoding. -/
theorem applyListLengthEncodingToHash_append {items : List Item}
    (h : (encodeAll items).length < 2 ^ 32) :
    applyListLengthEncodingToHash ((encodeAll items).length % 2 ^ 32) ++ encodeAll items =
      encode (.list items) := by
  rw [Nat.mod_eq_of_lt h, applyListLengthEncodingToHash_eq h, encode_list]

/-! ## The estimates are the lengths written -/

theorem estimateLengthEncodingLen_eq (length : Nat) (offset : UInt8) :
    estimateLengthEncodingLen length = (applyLengthEncodingToHash length offset).length := by
  unfold estimateLengthEncodingLen applyLengthEncodingToHash
  split
  · rfl
  · simp only [List.length_append, List.length_singleton, List.length_drop, length_toBeBytes]
    have : (toBeBytes 4 length).findIdx (· != 0) ≤ (toBeBytes 4 length).length :=
      List.findIdx_le_length
    rw [length_toBeBytes] at this
    omega

theorem estimateLengthEncodingLen_eq_header {length : Nat} (h : length < 2 ^ 32) :
    estimateLengthEncodingLen length = (header 192 length).length := by
  rw [estimateLengthEncodingLen_eq length 192, applyLengthEncodingToHash_eq h 192 (by decide)]
  rfl

theorem estimateLengthEncodingLen_add {items : List Item} (h : (encode (.list items)).length < 2 ^ 32) :
    (estimateLengthEncodingLen ((encodeAll items).length % 2 ^ 32) +
        (encodeAll items).length % 2 ^ 32) % 2 ^ 32 = (encode (.list items)).length := by
  rw [encode_list, List.length_append] at h ⊢
  have hpay : (encodeAll items).length < 2 ^ 32 := by omega
  rw [Nat.mod_eq_of_lt hpay, estimateLengthEncodingLen_eq_header hpay, Nat.mod_eq_of_lt h]

theorem estimateBytesEncodingLen_eq (value : List UInt8) :
    estimateBytesEncodingLen value = (applyBytesEncodingToHash value).length := by
  unfold estimateBytesEncodingLen applyBytesEncodingToHash
  split
  · case isTrue hs =>
    obtain ⟨x, rfl, -⟩ := (isSingleSmallByte_iff value).mp hs
    rfl
  · rw [List.length_append, estimateLengthEncodingLen_eq _ 128]

theorem estimateNumberEncodingLen_eq (value : List UInt8) :
    estimateNumberEncodingLen value = (applyNumberEncodingToHash value).length :=
  estimateBytesEncodingLen_eq _

end ZksyncOs
