import Mathlib
import ZksyncOs.Lib.BigEndian

/-!
# Recursive-length prefix encoding

The canonical RLP encoding (Ethereum Yellow Paper, Appendix B) of trees of byte strings, and the
minimal big-endian string RLP encodes an integer as.

* `Item` : a byte string or a list of items;
* `header offset length` : the prefix of a payload of `length` bytes, `offset = 0x80` for a string
  and `0xc0` for a list;
* `encode`, `encodeAll` : the encoding of an item, and the encodings of a list of items one after
  the other (the payload of the list);
* `minimalBytes n` : `n` big-endian without leading zero bytes;
* `dropWhile_toBeBytes` : stripping the leading zero bytes of a fixed-width encoding gives the
  minimal one.
-/

namespace Rlp

open BigEndian

inductive Item where
  | bytes (b : List UInt8)
  | list (items : List Item)
deriving Repr

/-- The prefix of a payload of `length` bytes: one byte below 56 bytes, else a byte that gives the
width of the length, then the length. -/
def header (offset length : Nat) : List UInt8 :=
  if length < 56 then [UInt8.ofNat (offset + length)]
  else UInt8.ofNat (offset + 55 + byteLen length) :: toBeBytes (byteLen length) length

/-- A string: a single byte below `0x80` is its own encoding. -/
def encodeBytes : List UInt8 → List UInt8
  | [x] => if x.toNat < 128 then [x] else header 128 1 ++ [x]
  | b => header 128 b.length ++ b

mutual

def encode : Item → List UInt8
  | .bytes b => encodeBytes b
  | .list items => header 192 (encodeAll items).length ++ encodeAll items

def encodeAll : List Item → List UInt8
  | [] => []
  | i :: is => encode i ++ encodeAll is

end

/-- `n` big-endian on as many bytes as it needs: no byte for `0`. -/
def minimalBytes (n : Nat) : List UInt8 := toBeBytes (byteLen n) n

/-- The string an integer is encoded as. -/
def Item.ofNat (n : Nat) : Item := .bytes (minimalBytes n)

@[simp] theorem encode_bytes (b : List UInt8) : encode (.bytes b) = encodeBytes b := by
  simp [encode]

@[simp] theorem encode_list (items : List Item) :
    encode (.list items) = header 192 (encodeAll items).length ++ encodeAll items := by
  simp [encode]

@[simp] theorem encodeAll_nil : encodeAll [] = [] := by simp [encodeAll]

@[simp] theorem encodeAll_cons (i : Item) (is : List Item) :
    encodeAll (i :: is) = encode i ++ encodeAll is := by
  simp [encodeAll]

theorem encodeAll_append (is js : List Item) :
    encodeAll (is ++ js) = encodeAll is ++ encodeAll js := by
  induction is with
  | nil => rfl
  | cons i is ih => rw [List.cons_append, encodeAll_cons, encodeAll_cons, ih, List.append_assoc]

theorem length_encode_le_of_mem {i : Item} : ∀ {is : List Item}, i ∈ is →
    (encode i).length ≤ (encodeAll is).length
  | j :: is, h => by
    rw [encodeAll_cons, List.length_append]
    rcases List.mem_cons.mp h with rfl | h
    · omega
    · have := length_encode_le_of_mem h
      omega

theorem length_header (offset length : Nat) :
    (header offset length).length = if length < 56 then 1 else 1 + byteLen length := by
  unfold header
  split <;> simp [Nat.add_comm]

theorem header_of_lt {offset length : Nat} (h : length < 56) :
    header offset length = [UInt8.ofNat (offset + length)] := by
  rw [header, if_pos h]

theorem encodeBytes_of_length_ne_one {b : List UInt8} (h : b.length ≠ 1) :
    encodeBytes b = header 128 b.length ++ b := by
  match b, h with
  | [], _ => rfl
  | _ :: _ :: _, _ => rfl

theorem encodeBytes_singleton_of_lt {x : UInt8} (h : x.toNat < 128) : encodeBytes [x] = [x] := by
  simp [encodeBytes, h]

theorem encodeBytes_singleton_of_le {x : UInt8} (h : 128 ≤ x.toNat) :
    encodeBytes [x] = header 128 1 ++ [x] := by
  simp [encodeBytes, Nat.not_lt.mpr h]

theorem length_le_encodeBytes (b : List UInt8) : b.length ≤ (encodeBytes b).length := by
  match b with
  | [x] =>
    by_cases hx : x.toNat < 128
    · rw [encodeBytes_singleton_of_lt hx]
    · rw [encodeBytes_singleton_of_le (by omega), List.length_append]
      omega
  | [] => simp
  | _ :: _ :: _ =>
    rw [encodeBytes_of_length_ne_one (by simp), List.length_append]
    omega

theorem length_le_of_bytes_mem {b : List UInt8} {is : List Item} (h : .bytes b ∈ is) :
    b.length ≤ (encodeAll is).length := by
  have := length_encode_le_of_mem h
  rw [encode_bytes] at this
  exact Nat.le_trans (length_le_encodeBytes b) this

/-! ## Integers -/

@[simp] theorem length_minimalBytes (n : Nat) : (minimalBytes n).length = byteLen n := by
  simp [minimalBytes]

@[simp] theorem minimalBytes_zero : minimalBytes 0 = [] := by simp [minimalBytes]

theorem byteLen_pos {n : Nat} (h : 0 < n) : 0 < byteLen n := by
  have := (byteLen_le_iff n 0).not.mpr (by omega)
  omega

theorem minimalBytes_eq_cons {n : Nat} (h : 0 < n) :
    ∃ a rest, minimalBytes n = a :: rest ∧ a ≠ 0 := by
  obtain ⟨m, hm⟩ : ∃ m, byteLen n = 1 + m := ⟨byteLen n - 1, by have := byteLen_pos h; omega⟩
  -- `n` needs exactly `m + 1` bytes, so its top byte `n / 256 ^ m` is between `1` and `255`
  have hlo : 256 ^ m ≤ n := by
    have := (byteLen_le_iff n m).not.mp (by omega)
    omega
  have hhi : n < 256 ^ (m + 1) := by
    have := lt_pow_byteLen n
    rwa [hm, Nat.add_comm] at this
  have htop : n / 256 ^ m < 256 := by
    rw [Nat.div_lt_iff_lt_mul (Nat.pow_pos (by decide : 0 < 256))]
    rw [Nat.pow_succ] at hhi
    omega
  have hpos : 0 < n / 256 ^ m := Nat.div_pos hlo (Nat.pow_pos (by decide : 0 < 256))
  refine ⟨UInt8.ofNat (n / 256 ^ m), toBeBytes m n, ?_, ?_⟩
  · rw [minimalBytes, hm, toBeBytes_add]
    rfl
  · intro h0
    have hbyte : (UInt8.ofNat (n / 256 ^ m)).toNat = n / 256 ^ m % 256 := UInt8.toNat_ofNat
    rw [h0, Nat.mod_eq_of_lt htop] at hbyte
    simp at hbyte
    omega

theorem dropWhile_minimalBytes (n : Nat) : (minimalBytes n).dropWhile (· == 0) = minimalBytes n := by
  rcases Nat.eq_zero_or_pos n with rfl | h
  · simp
  · obtain ⟨a, rest, heq, ha⟩ := minimalBytes_eq_cons h
    rw [heq, List.dropWhile_cons_of_neg (by simpa using ha)]

/-- Stripping the leading zeros of a `k`-byte encoding leaves the minimal one. -/
theorem dropWhile_toBeBytes {k n : Nat} (h : n < 256 ^ k) :
    (toBeBytes k n).dropWhile (· == 0) = minimalBytes n := by
  have hle : byteLen n ≤ k := (byteLen_le_iff n k).mpr h
  have hsplit : toBeBytes k n = List.replicate (k - byteLen n) 0 ++ minimalBytes n := by
    rw [minimalBytes, ← toBeBytes_of_lt _ (lt_pow_byteLen n), Nat.sub_add_cancel hle]
  rw [hsplit, List.dropWhile_append_of_pos (by simp [List.mem_replicate]),
    dropWhile_minimalBytes]

end Rlp
