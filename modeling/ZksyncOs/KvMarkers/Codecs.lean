import Mathlib
import ZksyncOs.Lib.ExactSizeIter
import ZksyncOs.Lib.Limbs
import ZksyncOs.Lib.Except
import ZksyncOs.System.Errors
import ZksyncOs.System.Types

/-!
# Oracle word codecs

`zk_ee::kv_markers`: how a value goes to the oracle as `usize` words (`UsizeSerializable`:
`USIZE_LEN` and `iter`) and comes back from them (`UsizeDeserializable::from_iter`), on the 32-
and 64-bit little-endian targets the `cfg_if`s admit. A `Codec` holds both sides: `iter` gives an
exact-size iterator, built from arrays and `ExactSizeChain`s, and `from_iter` reads from a source
that holds a list of words.

* `ReadsBack`, `LenAgrees`, `RoundTrips` : `from_iter` reads `x` back from the words `iter x`
  yields, whatever follows; `iter(x).len()` is `USIZE_LEN`; both;
* `AcceptsOnlyEncodings` : whatever `from_iter` reads is the encoding of its result;
* `roundTrips_pair`, `acceptsOnlyEncodings_pair`, `roundTrips_ofFields`, `readsBack_withArray` :
  these carry over to tuples, to structs written as the tuple of their fields, such as
  `StorageAddress`, and to a value followed by an array (`ExactSizeChainN`);
* the primitive codecs round trip, and the integer, `bool`, `U256` and `Bytes32` decoders accept
  only encodings; the `B160` decoder writes its limbs unchecked (`b160_fromIter_top_limb`).
-/

namespace ZksyncOs

namespace KvMarkers

open ExactSizeIter Limbs

/-- `target_pointer_width`: the two widths `kv_impls` compiles for. -/
inductive PointerWidth where
  | bits32
  | bits64
deriving DecidableEq, Repr

/-- The bits of a `usize`. -/
def PointerWidth.bits : PointerWidth → Nat
  | .bits32 => 32
  | .bits64 => 64

/-- Reading from the words an exact-size source has left. -/
abbrev Reader := StateT (List Nat) (Except InternalError)

/-- `src.next().ok_or(InternalError(msg))`. -/
def nextWord (msg : String) : Reader Nat := fun
  | [] => .error ⟨msg⟩
  | w :: ws => .ok (w, ws)

/-- `src.len()`. -/
def remainingLen : Reader Nat := fun ws => .ok (ws.length, ws)

/-- `src.next().unwrap_unchecked()`, `n` times, once the source is known to hold `n` words. -/
def takeWords (n : Nat) : Reader (List Nat) := fun ws => .ok (ws.take n, ws.drop n)

@[simp] theorem run_nextWord_cons (msg : String) (w : Nat) (ws : List Nat) :
    (nextWord msg).run (w :: ws) = .ok (w, ws) := rfl

theorem run_nextWord_eq_ok {msg : String} {ws rest : List Nat} {w : Nat} :
    (nextWord msg).run ws = .ok (w, rest) ↔ ws = w :: rest := by
  cases ws with
  | nil => exact ⟨fun h => (nomatch h), fun h => (nomatch h)⟩
  | cons w' ws =>
    rw [run_nextWord_cons]
    constructor
    · intro h
      cases h
      rfl
    · intro h
      cases h
      rfl

@[simp] theorem run_nextWord_cons_bind {β : Type} (msg : String) (f : Nat → Reader β) (w : Nat)
    (ws : List Nat) : (nextWord msg >>= f).run (w :: ws) = (f w).run ws := rfl

@[simp] theorem run_pure_reader {β : Type} (b : β) (ws : List Nat) :
    (pure b : Reader β).run ws = .ok (b, ws) := rfl

@[simp] theorem run_remainingLen (ws : List Nat) : remainingLen.run ws = .ok (ws.length, ws) := rfl

@[simp] theorem run_takeWords (n : Nat) (ws : List Nat) :
    (takeWords n).run ws = .ok (ws.take n, ws.drop n) := rfl

/-- A type's `UsizeSerializable` and `UsizeDeserializable`: `USIZE_LEN`, the iterator `iter`
returns (its states, its steps, its start for a value), and `from_iter`. -/
structure Codec (α : Type) where
  usizeLen : Nat
  State : Type
  it : Iter State Nat
  iter : α → State
  fromIter : Reader α

namespace Codec

variable {α β : Type}

/-- `iter x` yields words, each a `usize`, with `len` exact at every step, and `from_iter` reads
`x` back from them whatever words follow, consuming exactly them. -/
def ReadsBack (pw : PointerWidth) (c : Codec α) (x : α) : Prop :=
  ∃ ws, Yields c.it (c.iter x) ws ∧ (∀ w ∈ ws, w < 2 ^ pw.bits) ∧
    ∀ rest, c.fromIter.run (ws ++ rest) = .ok (x, rest)

/-- `iter(x).len()`. -/
def iterLen (c : Codec α) (x : α) : Nat := c.it.len (c.iter x)

/-- `iter(x).len() == USIZE_LEN`, as the oracle asserts of its query parameters. -/
def LenAgrees (c : Codec α) (x : α) : Prop := c.iterLen x = c.usizeLen

/-- `x` reads back from the words of `iter x`, and there are `USIZE_LEN` of them. -/
def RoundTrips (pw : PointerWidth) (c : Codec α) (x : α) : Prop := ReadsBack pw c x ∧ LenAgrees c x

/-- On `usize` words, whatever `from_iter` reads as `x` is the encoding of `x` followed by the
words it leaves: every other word sequence is an error. -/
def AcceptsOnlyEncodings (pw : PointerWidth) (c : Codec α) : Prop :=
  ∀ ws x rest, (∀ w ∈ ws, w < 2 ^ pw.bits) → c.fromIter.run ws = .ok (x, rest) →
    ∃ enc, Yields c.it (c.iter x) enc ∧ ws = enc ++ rest

/-- A codec whose `iter` is the iterator of an array of words (or of `once`, or `empty`). -/
def ofWords (usizeLen : Nat) (words : α → List Nat) (fromIter : Reader α) : Codec α :=
  ⟨usizeLen, List Nat, ofList, words, fromIter⟩

/-- `(T, U)`: the two `iter`s chained, the two `from_iter`s in turn. -/
def pair (c : Codec α) (d : Codec β) : Codec (α × β) where
  usizeLen := c.usizeLen + d.usizeLen
  State := Option c.State × Option d.State
  it := chain c.it d.it
  iter := fun (x, y) => (some (c.iter x), some (d.iter y))
  fromIter := do
    let x ← c.fromIter
    let y ← d.fromIter
    pure (x, y)

/-- A struct written as the tuple of its fields, with the `USIZE_LEN` it declares. -/
def ofFields (usizeLen : Nat) (c : Codec α) (fields : β → α) (mk : α → β) : Codec β where
  usizeLen := usizeLen
  State := c.State
  it := c.it
  iter := fun y => c.iter (fields y)
  fromIter := mk <$> c.fromIter

variable {pw : PointerWidth}

theorem roundTrips_ofWords {usizeLen : Nat} {words : α → List Nat} {fromIter : Reader α} {x : α}
    (hlen : (words x).length = usizeLen) (hw : ∀ w ∈ words x, w < 2 ^ pw.bits)
    (hread : ∀ rest, fromIter.run (words x ++ rest) = .ok (x, rest)) :
    RoundTrips pw (ofWords usizeLen words fromIter) x :=
  ⟨⟨words x, yields_ofList _, hw, hread⟩, hlen⟩

theorem acceptsOnlyEncodings_ofWords {usizeLen : Nat} {words : α → List Nat} {fromIter : Reader α}
    (h : ∀ ws x rest, (∀ w ∈ ws, w < 2 ^ pw.bits) → fromIter.run ws = .ok (x, rest) →
      ws = words x ++ rest) :
    AcceptsOnlyEncodings pw (ofWords usizeLen words fromIter) :=
  fun ws x rest hw hread => ⟨words x, yields_ofList _, h ws x rest hw hread⟩

theorem readsBack_pair {c : Codec α} {d : Codec β} {x : α} {y : β} (hx : ReadsBack pw c x)
    (hy : ReadsBack pw d y) : ReadsBack pw (pair c d) (x, y) := by
  obtain ⟨wx, hyx, hbx, hrx⟩ := hx
  obtain ⟨wy, hyy, hby, hry⟩ := hy
  refine ⟨wx ++ wy, yields_chain hyx hyy, List.forall_mem_append.mpr ⟨hbx, hby⟩, fun rest => ?_⟩
  · rw [List.append_assoc]
    exact (StateT.run_ok_bind (hrx _)).trans ((StateT.run_ok_bind (hry rest)).trans rfl)

@[simp] theorem iterLen_pair (c : Codec α) (d : Codec β) (x : α) (y : β) :
    (pair c d).iterLen (x, y) = c.iterLen x + d.iterLen y := by
  simp only [iterLen, pair, chain, Option.map_some, Option.getD_some]

@[simp] theorem usizeLen_ofFields (usizeLen : Nat) (c : Codec α) (fields : β → α) (mk : α → β) :
    (ofFields usizeLen c fields mk).usizeLen = usizeLen := rfl

@[simp] theorem iterLen_ofFields (usizeLen : Nat) (c : Codec α) (fields : β → α) (mk : α → β)
    (y : β) : (ofFields usizeLen c fields mk).iterLen y = c.iterLen (fields y) := rfl

theorem lenAgrees_pair {c : Codec α} {d : Codec β} {x : α} {y : β} (hx : LenAgrees c x)
    (hy : LenAgrees d y) : LenAgrees (pair c d) (x, y) := by
  rw [LenAgrees, iterLen_pair, hx, hy]
  rfl

theorem roundTrips_pair {c : Codec α} {d : Codec β} {x : α} {y : β} (hx : RoundTrips pw c x)
    (hy : RoundTrips pw d y) : RoundTrips pw (pair c d) (x, y) :=
  ⟨readsBack_pair hx.1 hy.1, lenAgrees_pair hx.2 hy.2⟩

theorem acceptsOnlyEncodings_pair {c : Codec α} {d : Codec β} (hc : AcceptsOnlyEncodings pw c)
    (hd : AcceptsOnlyEncodings pw d) : AcceptsOnlyEncodings pw (pair c d) := by
  intro ws xy rest hw h
  simp only [pair, StateT.run_bind_eq_ok] at h
  obtain ⟨x, s, hx, y, s', hy, hxy⟩ := h
  cases hxy
  obtain ⟨ex, hex, rfl⟩ := hc ws x s hw hx
  -- what is left after the first part is a suffix, so its words are `usize`s too
  obtain ⟨ey, hey, rfl⟩ := hd s y rest (fun w hw' => hw w (List.mem_append_right _ hw')) hy
  exact ⟨ex ++ ey, yields_chain hex hey, (List.append_assoc _ _ _).symm⟩

theorem readsBack_ofFields {usizeLen : Nat} {c : Codec α} {fields : β → α} {mk : α → β} {y : β}
    (hmk : mk (fields y) = y) (h : ReadsBack pw c (fields y)) :
    ReadsBack pw (ofFields usizeLen c fields mk) y := by
  obtain ⟨ws, hyw, hb, hr⟩ := h
  refine ⟨ws, hyw, hb, fun rest => ?_⟩
  simp only [ofFields, StateT.run_map, hr]
  show Except.ok (mk (fields y), rest) = _
  rw [hmk]

theorem roundTrips_ofFields {usizeLen : Nat} {c : Codec α} {fields : β → α} {mk : α → β} {y : β}
    (hlen : c.usizeLen = usizeLen) (hmk : mk (fields y) = y) (h : RoundTrips pw c (fields y)) :
    RoundTrips pw (ofFields usizeLen c fields mk) y :=
  ⟨readsBack_ofFields hmk h.1, h.2.trans hlen⟩

theorem acceptsOnlyEncodings_ofFields {usizeLen : Nat} {c : Codec α} {fields : β → α}
    {mk : α → β} (hfields : ∀ x, fields (mk x) = x) (h : AcceptsOnlyEncodings pw c) :
    AcceptsOnlyEncodings pw (ofFields usizeLen c fields mk) := by
  intro ws y rest hw hread
  simp only [ofFields, StateT.run_map, Except.map_eq_ok] at hread
  obtain ⟨⟨x, s⟩, hx, hxy⟩ := hread
  cases hxy
  obtain ⟨enc, henc, rfl⟩ := h ws x _ hw hx
  exact ⟨enc, by rw [show (ofFields usizeLen c fields mk).iter (mk x) = c.iter x from
    congrArg c.iter (hfields x)]; exact henc, rfl⟩

end Codec

open Codec

/-! ## The primitive codecs -/

/-- `impl for ()`: no words. -/
def unit : Codec Unit := ofWords 0 (fun _ => []) (pure ())

/-- `((high as u64) << 32) | (low as u64)`. -/
def joinHalves (low high : Nat) : Nat := (high <<< 32 % 2 ^ 64) ||| low

/-- `<u64 as UsizeSerializable>::USIZE_LEN`. -/
def u64UsizeLen : PointerWidth → Nat
  | .bits32 => 2
  | .bits64 => 1

/-- `impl UsizeSerializable for u64`: one word, or on 32 bits the low half and then the high
half. -/
def u64Words : PointerWidth → Fin (2 ^ 64) → List Nat
  | .bits32, x => [x.val % 2 ^ 32, x.val >>> 32]
  | .bits64, x => [x.val]

/-- `impl UsizeDeserializable for u64`. -/
def u64FromIter : PointerWidth → Reader (Fin (2 ^ 64))
  | .bits32 => do
    let low ← nextWord "u64 low deserialization failed"
    let high ← nextWord "u64 high deserialization failed"
    pure (Fin.ofNat _ (joinHalves low high))
  | .bits64 => do
    let value ← nextWord "u64 deserialization failed"
    pure (Fin.ofNat _ value)

/-- `impl for u64`. -/
def u64 (pw : PointerWidth) : Codec (Fin (2 ^ 64)) :=
  ofWords (u64UsizeLen pw) (u64Words pw) (u64FromIter pw)

/-- The words of a value narrower than a word: the value, and on 32 bits a zero high word. -/
def narrowWords (pw : PointerWidth) (v : Nat) : List Nat :=
  match pw with
  | .bits32 => [v, 0]
  | .bits64 => [v]

/-- `impl for u8` and `impl for u32`: the value as a `u64`, read back as a `u64` and checked
against the type's maximum. -/
def narrowUint (pw : PointerWidth) (k : Nat) (msg : String) : Codec (Fin (2 ^ k)) :=
  ofWords (u64UsizeLen pw) (fun x => narrowWords pw x.val) do
    let word ← u64FromIter pw
    if word.val > 2 ^ k - 1 then throw ⟨msg⟩ else pure (Fin.ofNat _ word.val)

/-- `impl for u8`. -/
def u8 (pw : PointerWidth) : Codec (Fin (2 ^ 8)) := narrowUint pw 8 "u8 deserialization failed"

/-- `impl for u32`. -/
def u32 (pw : PointerWidth) : Codec (Fin (2 ^ 32)) := narrowUint pw 32 "u32 deserialization failed"

/-- `impl for bool`: `0` or `1` as a `u64`; any other word is an error. -/
def bool (pw : PointerWidth) : Codec Bool :=
  ofWords (u64UsizeLen pw) (fun b => narrowWords pw (if b then 1 else 0)) do
    let word ← u64FromIter pw
    if word.val = 0 then pure false
    else if word.val = 1 then pure true
    else throw ⟨"bool deserialization failed"⟩

/-- A `for` loop that reads each element of an array of `n` in turn. -/
def readArray {α : Type} (r : Reader α) : (n : Nat) → Reader (List.Vector α n)
  | 0 => pure List.Vector.nil
  | n + 1 => do
    let x ← r
    let xs ← readArray r n
    pure (List.Vector.cons x xs)

theorem run_readArray {α : Type} {r : Reader α} :
    ∀ {as : List α} {wss : List (List Nat)},
      List.Forall₂ (fun a ws => ∀ rest, r.run (ws ++ rest) = .ok (a, rest)) as wss →
        ∀ {n : Nat} (hn : as.length = n) (rest : List Nat),
          (readArray r n).run (wss.flatten ++ rest) = .ok (⟨as, hn⟩, rest)
  | [], [], .nil, _, hn, _ => by
    subst hn
    rfl
  | _ :: as, _ :: _, .cons ha hrest, _, hn, rest => by
    subst hn
    show (readArray r (as.length + 1)).run _ = _
    rw [List.flatten_cons, List.append_assoc, readArray, StateT.run_ok_bind (ha _),
      StateT.run_ok_bind (run_readArray hrest rfl rest)]
    rfl

/-- `ExactSizeChainN::new(iter(x), ys.each_ref().map(|y| Some(iter(y))))`, read back as `x` and
then the elements of the array of `n` in turn. -/
def withArray {α β : Type} (c : Codec α) (d : Codec β) (n : Nat) : Codec (α × List.Vector β n) where
  usizeLen := c.usizeLen + d.usizeLen * n
  State := Option c.State × List d.State
  it := chainN c.it d.it
  iter := fun (x, ys) => (some (c.iter x), ys.toList.map d.iter)
  fromIter := do
    let x ← c.fromIter
    let ys ← readArray d.fromIter n
    pure (x, ys)

/-- One limb of `U256::init_from_iter`: a word, or a low and a high half. -/
def readU256Limb : PointerWidth → Reader Nat
  | .bits32 => do
    let low ← nextWord "u256 limb low deserialization failed"
    let high ← nextWord "u256 limb high deserialization failed"
    pure (joinHalves low high)
  | .bits64 => nextWord "u256 limb deserialization failed"

/-- `impl for U256`: its limbs (`as_limbs`), on 32 bits split into `u32`s by the `transmute`. -/
def u256 (pw : PointerWidth) : Codec U256 :=
  ofWords (u64UsizeLen pw * 4) (fun x => limbs pw.bits (256 / pw.bits) x.val) do
    let limbs ← readArray (readU256Limb pw) 4
    pure (Fin.ofNat _ (ofLimbs 64 limbs.toList))

/-- `B160` (`Bits<160, 3>`) in memory: the number its three `u64` limbs hold. A `B160` is below
`2 ^ 160`, its top limb below `2 ^ 32`; nothing stops `as_limbs_mut` from writing more. -/
abbrev B160Limbs := Fin (2 ^ 192)

/-- `<B160 as UsizeSerializable>::USIZE_LEN`. -/
def b160UsizeLen : PointerWidth → Nat
  | .bits32 => 6
  | .bits64 => 3

/-- `impl for B160`: its limbs, on 32 bits split into `u32`s; read back after a length check as
three `u64`s written straight into the limbs (`unwrap_unchecked`). -/
def b160 (pw : PointerWidth) : Codec B160Limbs :=
  ofWords (b160UsizeLen pw) (fun x => limbs pw.bits (192 / pw.bits) x.val) do
    let len ← remainingLen
    if len < b160UsizeLen pw then throw ⟨"b160 deserialization failed: too short"⟩
    else
      let limbs ← readArray (Fin.val <$> u64FromIter pw) 3
      pure (Fin.ofNat _ (ofLimbs 64 limbs.toList))

/-- `<Bytes32 as UsizeSerializable>::USIZE_LEN`. -/
def bytes32UsizeLen : PointerWidth → Nat
  | .bits32 => 8
  | .bits64 => 4

/-- `Bytes32`'s words in memory (`as_u32_array_ref`, `as_u64_array_ref`): its 32 bytes in
little-endian words, that is the limbs of the bytes read little-endian. -/
def bytes32Inner (pw : PointerWidth) (b : Bytes32) : List Nat :=
  limbs pw.bits (256 / pw.bits) (BigEndian.ofBeBytes b.bytes.reverse)

theorem ofBeBytes_reverse_lt (n : Nat) :
    BigEndian.ofBeBytes (BigEndian.toBeBytes 32 n).reverse < 2 ^ 256 := by
  have h := BigEndian.ofBeBytes_lt (BigEndian.toBeBytes 32 n).reverse
  rwa [List.length_reverse, BigEndian.length_toBeBytes, ← BigEndian.pow_eight_mul] at h

/-- The `Bytes32` whose words in memory are `ws`. -/
def bytes32OfInner (pw : PointerWidth) (ws : List Nat) : Bytes32 :=
  ⟨BigEndian.ofBeBytes (BigEndian.toBeBytes 32 (ofLimbs pw.bits ws)).reverse, ofBeBytes_reverse_lt _⟩

/-- `impl for Bytes32`: its words in memory; read back after a length check straight into them. -/
def bytes32 (pw : PointerWidth) : Codec Bytes32 :=
  ofWords (bytes32UsizeLen pw) (bytes32Inner pw) do
    let len ← remainingLen
    if len < bytes32UsizeLen pw then throw ⟨"Bytes32 deserialization failed: too short"⟩
    else
      let ws ← takeWords (bytes32UsizeLen pw)
      pure (bytes32OfInner pw ws)

/-- `StorageAddress<EthereumIOTypesConfig>`. -/
structure StorageAddress where
  address : B160Limbs
  key : Bytes32

/-- `impl for StorageAddress`: the address, then the key. -/
def storageAddress (pw : PointerWidth) : Codec StorageAddress :=
  ofFields ((b160 pw).usizeLen + (bytes32 pw).usizeLen) (pair (b160 pw) (bytes32 pw))
    (fun a => (a.address, a.key)) (fun (address, key) => ⟨address, key⟩)

/-! ## The primitives round trip -/

section Primitives

variable (pw : PointerWidth)

theorem roundTrips_unit : RoundTrips pw unit () :=
  roundTrips_ofWords rfl (fun _ h => nomatch h) fun _ => rfl

theorem acceptsOnlyEncodings_unit : AcceptsOnlyEncodings pw unit :=
  acceptsOnlyEncodings_ofWords fun _ _ _ _ h => by cases h; rfl

theorem joinHalves_of_lt {low high : Nat} (hl : low < 2 ^ 32) (hh : high < 2 ^ 32) :
    joinHalves low high = high * 2 ^ 32 + low := by
  have hshift : high <<< 32 = high * 2 ^ 32 := Nat.shiftLeft_eq _ _
  rw [joinHalves, hshift, Nat.mod_eq_of_lt (by omega), ← hshift,
    ← Nat.shiftLeft_add_eq_or_of_lt hl, hshift]

theorem words_lt_u64 (x : Fin (2 ^ 64)) : ∀ w ∈ u64Words pw x, w < 2 ^ pw.bits := by
  intro w hw
  cases pw with
  | bits32 =>
    simp only [u64Words, List.mem_cons, List.not_mem_nil, or_false] at hw
    rcases hw with rfl | rfl
    · exact Nat.mod_lt _ (by decide)
    · show x.val >>> 32 < 2 ^ 32
      rw [Nat.shiftRight_eq_div_pow]
      have := x.isLt
      exact Nat.div_lt_of_lt_mul (by omega)
  | bits64 =>
    simp only [u64Words, List.mem_cons, List.not_mem_nil, or_false] at hw
    rw [hw]
    exact x.isLt

theorem run_u64FromIter (x : Fin (2 ^ 64)) (rest : List Nat) :
    (u64FromIter pw).run (u64Words pw x ++ rest) = .ok (x, rest) := by
  cases pw with
  | bits32 =>
    have hlow : x.val % 2 ^ 32 < 2 ^ 32 := Nat.mod_lt _ (by decide)
    have hhigh : x.val >>> 32 < 2 ^ 32 := words_lt_u64 .bits32 x _ (by simp [u64Words])
    simp only [u64FromIter, u64Words, List.cons_append, List.nil_append, run_nextWord_cons_bind,
      run_pure_reader]
    congr
    apply Fin.ext
    rw [Fin.val_ofNat, joinHalves_of_lt hlow hhigh, Nat.shiftRight_eq_div_pow]
    omega
  | bits64 =>
    simp only [u64FromIter, u64Words, List.cons_append, List.nil_append, run_nextWord_cons_bind,
      run_pure_reader]
    congr
    apply Fin.ext
    rw [Fin.val_ofNat, Nat.mod_eq_of_lt x.isLt]

theorem eq_of_run_u64FromIter {ws rest : List Nat} {x : Fin (2 ^ 64)}
    (hw : ∀ w ∈ ws, w < 2 ^ pw.bits) (h : (u64FromIter pw).run ws = .ok (x, rest)) :
    ws = u64Words pw x ++ rest := by
  cases pw with
  | bits32 =>
    simp only [u64FromIter, StateT.run_bind_eq_ok, run_nextWord_eq_ok] at h
    obtain ⟨low, s, rfl, high, s', rfl, hx⟩ := h
    cases hx
    have hlow : low < 2 ^ 32 := hw low (by simp)
    have hhigh : high < 2 ^ 32 := hw high (by simp)
    have hval : (Fin.ofNat (2 ^ 64) (joinHalves low high)).val = high * 2 ^ 32 + low := by
      rw [Fin.val_ofNat, joinHalves_of_lt hlow hhigh]
      omega
    simp only [u64Words, hval, Nat.shiftRight_eq_div_pow, List.cons_append, List.nil_append]
    congr 2 <;> omega
  | bits64 =>
    simp only [u64FromIter, StateT.run_bind_eq_ok, run_nextWord_eq_ok] at h
    obtain ⟨value, s, rfl, hx⟩ := h
    cases hx
    have hvalue : value < 2 ^ 64 := hw value (by simp)
    simp only [u64Words, Fin.val_ofNat, Nat.mod_eq_of_lt hvalue, List.cons_append, List.nil_append]

theorem roundTrips_u64 (x : Fin (2 ^ 64)) : RoundTrips pw (u64 pw) x := by
  refine roundTrips_ofWords ?_ (words_lt_u64 pw x) (run_u64FromIter pw x)
  cases pw <;> rfl

theorem acceptsOnlyEncodings_u64 : AcceptsOnlyEncodings pw (u64 pw) :=
  acceptsOnlyEncodings_ofWords fun _ _ _ hw h => eq_of_run_u64FromIter pw hw h

theorem u64Words_of_lt {x : Fin (2 ^ 64)} (h : x.val < 2 ^ 32) :
    u64Words pw x = narrowWords pw x.val := by
  cases pw with
  | bits32 =>
    simp only [u64Words, narrowWords, Nat.mod_eq_of_lt h, Nat.shiftRight_eq_div_pow,
      Nat.div_eq_of_lt h]
  | bits64 => rfl

theorem roundTrips_narrowUint {k : Nat} (hk : k ≤ 32) (msg : String) (x : Fin (2 ^ k)) :
    RoundTrips pw (narrowUint pw k msg) x := by
  have hx32 : x.val < 2 ^ 32 := lt_of_lt_of_le x.isLt (Nat.pow_le_pow_right (by decide) hk)
  have hx64 : x.val < 2 ^ 64 := by omega
  have hwords : narrowWords pw x.val = u64Words pw ⟨x.val, hx64⟩ :=
    (u64Words_of_lt pw (x := ⟨x.val, hx64⟩) hx32).symm
  refine roundTrips_ofWords ?_ ?_ fun rest => ?_
  · cases pw <;> rfl
  · rw [hwords]
    exact words_lt_u64 pw _
  · show (u64FromIter pw >>= _).run (narrowWords pw x.val ++ rest) = _
    rw [hwords, StateT.run_ok_bind (run_u64FromIter pw _ rest), if_neg (by simp only; omega)]
    simp only [run_pure_reader, Fin.ofNat, Nat.mod_eq_of_lt x.isLt]

theorem acceptsOnlyEncodings_narrowUint {k : Nat} (hk : k ≤ 32) (msg : String) :
    AcceptsOnlyEncodings pw (narrowUint pw k msg) := by
  refine acceptsOnlyEncodings_ofWords fun ws x rest hw h => ?_
  simp only [StateT.run_bind_eq_ok] at h
  obtain ⟨word, s, hword, hx⟩ := h
  -- a word above the maximum is the error branch
  split at hx
  · exact absurd hx StateT.run_throw_ne_ok
  · have hlt : word.val < 2 ^ k := by
      have := Nat.two_pow_pos k
      omega
    have hk32 : 2 ^ k ≤ 2 ^ 32 := Nat.pow_le_pow_right (by decide) hk
    simp only [run_pure_reader, Except.ok.injEq, Prod.mk.injEq] at hx
    obtain ⟨rfl, rfl⟩ := hx
    rw [eq_of_run_u64FromIter pw hw hword, u64Words_of_lt pw (by omega), Fin.val_ofNat,
      Nat.mod_eq_of_lt hlt]

theorem roundTrips_u8 (x : Fin (2 ^ 8)) : RoundTrips pw (u8 pw) x :=
  roundTrips_narrowUint pw (by decide) _ x

theorem acceptsOnlyEncodings_u8 : AcceptsOnlyEncodings pw (u8 pw) :=
  acceptsOnlyEncodings_narrowUint pw (by decide) _

theorem roundTrips_u32 (x : Fin (2 ^ 32)) : RoundTrips pw (u32 pw) x :=
  roundTrips_narrowUint pw le_rfl _ x

theorem acceptsOnlyEncodings_u32 : AcceptsOnlyEncodings pw (u32 pw) :=
  acceptsOnlyEncodings_narrowUint pw le_rfl _

theorem roundTrips_bool (b : Bool) : RoundTrips pw (bool pw) b := by
  have hv : (if b then 1 else 0) < 2 ^ 32 := by cases b <;> decide
  have hv64 : (if b then 1 else 0) < 2 ^ 64 := by cases b <;> decide
  have hwords : narrowWords pw (if b then 1 else 0) = u64Words pw ⟨_, hv64⟩ :=
    (u64Words_of_lt pw (x := ⟨_, hv64⟩) hv).symm
  refine roundTrips_ofWords ?_ ?_ fun rest => ?_
  · cases pw <;> rfl
  · rw [hwords]
    exact words_lt_u64 pw _
  · show (u64FromIter pw >>= _).run (narrowWords pw (if b then 1 else 0) ++ rest) = _
    rw [hwords, StateT.run_ok_bind (run_u64FromIter pw _ rest)]
    cases b <;> rfl

theorem acceptsOnlyEncodings_bool : AcceptsOnlyEncodings pw (bool pw) := by
  refine acceptsOnlyEncodings_ofWords fun ws b rest hw h => ?_
  simp only [StateT.run_bind_eq_ok] at h
  obtain ⟨word, s, hword, hb⟩ := h
  rw [eq_of_run_u64FromIter pw hw hword]
  -- the two accepted words are the encodings of `false` and `true`; any other is the error
  split at hb
  · simp only [run_pure_reader, Except.ok.injEq, Prod.mk.injEq] at hb
    obtain ⟨rfl, rfl⟩ := hb
    rw [u64Words_of_lt pw (by omega)]
    simp only [Bool.false_eq_true, if_false, *]
  · split at hb
    · simp only [run_pure_reader, Except.ok.injEq, Prod.mk.injEq] at hb
      obtain ⟨rfl, rfl⟩ := hb
      rw [u64Words_of_lt pw (by omega)]
      simp only [if_true, *]
    · exact absurd hb StateT.run_throw_ne_ok

/-! ### Limbs -/

/-- The words of one `u64` limb: the limb, or its low and then its high half. -/
def limbWords (pw : PointerWidth) (l : Nat) : List Nat := limbs pw.bits (64 / pw.bits) l

theorem limbWords_bits32 (l : Nat) : limbWords .bits32 l = [l % 2 ^ 32, l / 2 ^ 32 % 2 ^ 32] := by
  rw [limbWords, show 64 / PointerWidth.bits32.bits = 0 + 1 + 1 from rfl, limbs_succ, limbs_succ,
    limbs_zero]
  rfl

theorem limbWords_bits64 (l : Nat) : limbWords .bits64 l = [l % 2 ^ 64] := by
  rw [limbWords, show 64 / PointerWidth.bits64.bits = 0 + 1 from rfl, limbs_succ, limbs_zero]
  rfl

theorem flatMap_limbWords (n x : Nat) :
    (limbs 64 n x).flatMap (limbWords pw) = limbs pw.bits (64 / pw.bits * n) x := by
  have h : pw.bits * (64 / pw.bits) = 64 := by cases pw <;> rfl
  rw [limbs_mul, h]
  rfl

theorem u64Words_eq_limbWords (x : Fin (2 ^ 64)) : u64Words pw x = limbWords pw x.val := by
  cases pw with
  | bits32 =>
    have hhigh : x.val / 2 ^ 32 < 2 ^ 32 := Nat.div_lt_of_lt_mul (by have := x.isLt; omega)
    rw [limbWords_bits32, u64Words, Nat.shiftRight_eq_div_pow, Nat.mod_eq_of_lt hhigh]
  | bits64 => rw [limbWords_bits64, u64Words, Nat.mod_eq_of_lt x.isLt]

/-- A reader of one `u64` limb: it reads every limb back from its words whatever follows, and
reads only such words. -/
structure ReadsLimb (pw : PointerWidth) (r : Reader Nat) : Prop where
  run_limbWords : ∀ l < 2 ^ 64, ∀ rest, r.run (limbWords pw l ++ rest) = .ok (l, rest)
  eq_of_run : ∀ ws l rest, (∀ w ∈ ws, w < 2 ^ pw.bits) → r.run ws = .ok (l, rest) →
    l < 2 ^ 64 ∧ ws = limbWords pw l ++ rest

theorem readsLimb_u64FromIter : ReadsLimb pw (Fin.val <$> u64FromIter pw) where
  run_limbWords l hl rest := by
    rw [StateT.run_map, show limbWords pw l = u64Words pw ⟨l, hl⟩ from
      (u64Words_eq_limbWords pw ⟨l, hl⟩).symm, run_u64FromIter]
    rfl
  eq_of_run ws l rest hw h := by
    rw [StateT.run_map, Except.map_eq_ok] at h
    obtain ⟨⟨x, s⟩, hx, hxl⟩ := h
    simp only [Prod.mk.injEq] at hxl
    obtain ⟨rfl, rfl⟩ := hxl
    exact ⟨x.isLt, by rw [eq_of_run_u64FromIter pw hw hx, u64Words_eq_limbWords]⟩

theorem readsLimb_readU256Limb : ReadsLimb pw (readU256Limb pw) := by
  cases pw with
  | bits32 =>
    constructor
    · intro l hl rest
      have hhigh : l / 2 ^ 32 % 2 ^ 32 = l / 2 ^ 32 := Nat.mod_eq_of_lt (Nat.div_lt_of_lt_mul (by omega))
      simp only [readU256Limb, limbWords_bits32, List.cons_append, List.nil_append,
        run_nextWord_cons_bind, run_pure_reader]
      rw [joinHalves_of_lt (Nat.mod_lt _ (by decide)) (Nat.mod_lt _ (by decide)), hhigh,
        Nat.mul_comm, Nat.div_add_mod]
    · intro ws l rest hw h
      simp only [readU256Limb, StateT.run_bind_eq_ok, run_nextWord_eq_ok] at h
      obtain ⟨low, s, rfl, high, s', rfl, hl⟩ := h
      simp only [run_pure_reader, Except.ok.injEq, Prod.mk.injEq] at hl
      obtain ⟨rfl, rfl⟩ := hl
      have hlow : low < 2 ^ 32 := hw low (by simp)
      have hhigh : high < 2 ^ 32 := hw high (by simp)
      rw [joinHalves_of_lt hlow hhigh, limbWords_bits32]
      refine ⟨by omega, ?_⟩
      simp only [List.cons_append, List.nil_append, List.cons.injEq, and_true]
      omega
  | bits64 =>
    constructor
    · intro l hl rest
      rw [limbWords_bits64, Nat.mod_eq_of_lt hl]
      rfl
    · intro ws l rest hw h
      obtain rfl := run_nextWord_eq_ok.mp h
      have hl : l < 2 ^ 64 := hw l (by simp)
      exact ⟨hl, by rw [limbWords_bits64, Nat.mod_eq_of_lt hl]; rfl⟩

variable {pw} in
theorem eq_of_run_readArray {r : Reader Nat} (hr : ReadsLimb pw r) :
    ∀ n ws (ls : List.Vector Nat n) rest, (∀ w ∈ ws, w < 2 ^ pw.bits) →
      (readArray r n).run ws = .ok (ls, rest) →
        (∀ l ∈ ls.toList, l < 2 ^ 64) ∧ ws = ls.toList.flatMap (limbWords pw) ++ rest
  | 0, ws, ls, rest, _, h => by
    simp only [readArray, run_pure_reader, Except.ok.injEq, Prod.mk.injEq] at h
    obtain ⟨rfl, rfl⟩ := h
    exact ⟨fun _ h => (nomatch h), rfl⟩
  | n + 1, ws, ls, rest, hw, h => by
    simp only [readArray, StateT.run_bind_eq_ok] at h
    obtain ⟨l, s, hl, ls', s', hls', hls⟩ := h
    simp only [run_pure_reader, Except.ok.injEq, Prod.mk.injEq] at hls
    obtain ⟨rfl, rfl⟩ := hls
    obtain ⟨hlt, rfl⟩ := hr.eq_of_run ws l s hw hl
    -- what the first limb leaves is a suffix of `usize` words
    obtain ⟨hlts, rfl⟩ :=
      eq_of_run_readArray hr n _ ls' _ (fun w h => hw w (List.mem_append_right _ h)) hls'
    refine ⟨?_, by rw [List.Vector.toList_cons, List.flatMap_cons, List.append_assoc]⟩
    intro l' hl'
    rw [List.Vector.toList_cons] at hl'
    rcases List.mem_cons.mp hl' with rfl | h
    · exact hlt
    · exact hlts l' h

/-! ### `U256` and `B160` -/

theorem run_readArray_limbs {r : Reader Nat} (hr : ReadsLimb pw r) (n x : Nat) (rest : List Nat) :
    (readArray r n).run (limbs pw.bits (64 / pw.bits * n) x ++ rest) =
      .ok (⟨limbs 64 n x, length_limbs 64 n x⟩, rest) := by
  have hlimbs : List.Forall₂ (fun l ws => ∀ rest, r.run (ws ++ rest) = .ok (l, rest))
      (limbs 64 n x) ((limbs 64 n x).map (limbWords pw)) := by
    rw [List.forall₂_map_right_iff, List.forall₂_same]
    exact fun l hl => hr.run_limbWords l (lt_of_mem_limbs hl)
  rw [← flatMap_limbWords, List.flatMap_def]
  exact run_readArray hlimbs _ rest

theorem eq_of_run_readArray_limbs {r : Reader Nat} (hr : ReadsLimb pw r) {n : Nat}
    {ws rest : List Nat} {ls : List.Vector Nat n} (hw : ∀ w ∈ ws, w < 2 ^ pw.bits)
    (h : (readArray r n).run ws = .ok (ls, rest)) :
    ws = limbs pw.bits (64 / pw.bits * n) (ofLimbs 64 ls.toList) ++ rest ∧
      ofLimbs 64 ls.toList < 2 ^ (64 * n) := by
  obtain ⟨hlt, rfl⟩ := eq_of_run_readArray hr n ws ls rest hw h
  have hls := limbs_ofLimbs hlt
  have hval := ofLimbs_lt hlt
  rw [ls.toList_length] at hls hval
  exact ⟨by rw [← flatMap_limbWords, hls], hval⟩

theorem roundTrips_u256 (x : U256) : RoundTrips pw (u256 pw) x := by
  have hcount : 256 / pw.bits = 64 / pw.bits * 4 := by cases pw <;> rfl
  refine roundTrips_ofWords ?_ (fun _ h => lt_of_mem_limbs h) fun rest => ?_
  · rw [length_limbs]
    cases pw <;> rfl
  · show (readArray (readU256Limb pw) 4 >>= _).run (limbs pw.bits (256 / pw.bits) x.val ++ rest) = _
    rw [hcount, StateT.run_ok_bind (run_readArray_limbs pw (readsLimb_readU256Limb pw) 4 x.val rest)]
    show Except.ok (Fin.ofNat _ (ofLimbs 64 (limbs 64 4 x.val)), rest) = _
    rw [ofLimbs_limbs]
    show Except.ok (Fin.ofNat _ (x.val % 2 ^ 256), rest) = _
    rw [Nat.mod_eq_of_lt x.isLt, Fin.ofNat_val_eq_self]

theorem acceptsOnlyEncodings_u256 : AcceptsOnlyEncodings pw (u256 pw) := by
  refine acceptsOnlyEncodings_ofWords fun ws x rest hw h => ?_
  simp only [StateT.run_bind_eq_ok] at h
  obtain ⟨ls, s, hls, hx⟩ := h
  simp only [run_pure_reader, Except.ok.injEq, Prod.mk.injEq] at hx
  obtain ⟨rfl, rfl⟩ := hx
  obtain ⟨rfl, hlt⟩ := eq_of_run_readArray_limbs pw (readsLimb_readU256Limb pw) hw hls
  have hcount : 256 / pw.bits = 64 / pw.bits * 4 := by cases pw <;> rfl
  rw [Fin.val_ofNat, Nat.mod_eq_of_lt hlt, hcount]

theorem b160UsizeLen_eq : b160UsizeLen pw = 64 / pw.bits * 3 := by cases pw <;> rfl

theorem run_b160_fromIter (x : B160Limbs) (rest : List Nat) :
    (b160 pw).fromIter.run (limbs pw.bits (192 / pw.bits) x.val ++ rest) = .ok (x, rest) := by
  have hcount : 192 / pw.bits = 64 / pw.bits * 3 := by cases pw <;> rfl
  show (remainingLen >>= _).run (limbs pw.bits (192 / pw.bits) x.val ++ rest) = _
  -- the length check passes: the words of `x` alone are `USIZE_LEN`
  have hlen : ¬ (limbs pw.bits (192 / pw.bits) x.val ++ rest).length < b160UsizeLen pw := by
    rw [List.length_append, length_limbs, hcount, b160UsizeLen_eq]
    omega
  rw [StateT.run_ok_bind (run_remainingLen _), if_neg hlen, hcount,
    StateT.run_ok_bind (run_readArray_limbs pw (readsLimb_u64FromIter pw) 3 x.val rest)]
  show Except.ok (Fin.ofNat _ (ofLimbs 64 (limbs 64 3 x.val)), rest) = _
  rw [ofLimbs_limbs]
  show Except.ok (Fin.ofNat _ (x.val % 2 ^ 192), rest) = _
  rw [Nat.mod_eq_of_lt x.isLt, Fin.ofNat_val_eq_self]

theorem roundTrips_b160 (x : B160Limbs) : RoundTrips pw (b160 pw) x := by
  refine roundTrips_ofWords ?_ (fun _ h => lt_of_mem_limbs h) (run_b160_fromIter pw x)
  rw [length_limbs, b160UsizeLen_eq]
  cases pw <;> rfl

/-- On its limbs the `B160` decoder accepts only encodings; what it cannot see is a top limb
above a `B160`'s 32 bits. -/
theorem acceptsOnlyEncodings_b160 : AcceptsOnlyEncodings pw (b160 pw) := by
  refine acceptsOnlyEncodings_ofWords fun ws x rest hw h => ?_
  simp only [StateT.run_bind_eq_ok, run_remainingLen, Except.ok.injEq, Prod.mk.injEq] at h
  obtain ⟨len, s, ⟨rfl, rfl⟩, hx⟩ := h
  split at hx
  · exact absurd hx StateT.run_throw_ne_ok
  · simp only [StateT.run_bind_eq_ok] at hx
    obtain ⟨ls, s, hls, hx⟩ := hx
    simp only [run_pure_reader, Except.ok.injEq, Prod.mk.injEq] at hx
    obtain ⟨rfl, rfl⟩ := hx
    obtain ⟨rfl, hlt⟩ := eq_of_run_readArray_limbs pw (readsLimb_u64FromIter pw) hw hls
    have hcount : 192 / pw.bits = 64 / pw.bits * 3 := by cases pw <;> rfl
    rw [Fin.val_ofNat, Nat.mod_eq_of_lt hlt, hcount]

/-- A `B160` in memory: its three limbs, the top one below `2 ^ 32`. -/
def b160ToLimbs (a : B160) : B160Limbs := Fin.castLE (Nat.pow_le_pow_right (by decide) (by decide)) a

/-- The `B160` decoder writes its top limb unchecked: on 64 bits it reads `[0, 0, 2 ^ 32]`, which
encodes no `B160`, as the limbs of `2 ^ 160`. -/
theorem b160_fromIter_top_limb :
    (b160 .bits64).fromIter.run [0, 0, 2 ^ 32] = .ok (⟨2 ^ 160, by decide⟩, []) ∧
      ∀ a : B160, ∀ ws, Yields (b160 .bits64).it ((b160 .bits64).iter (b160ToLimbs a)) ws →
        ws ≠ [0, 0, 2 ^ 32] := by
  constructor
  · have hwords : limbs PointerWidth.bits64.bits (192 / PointerWidth.bits64.bits) (2 ^ 160) =
        [0, 0, 2 ^ 32] := by decide
    have h := run_b160_fromIter .bits64 ⟨2 ^ 160, by decide⟩ []
    rwa [Fin.val_mk, hwords, List.append_nil] at h
  · intro a ws hy hws
    subst hws
    -- the words of a `B160` are its limbs; their number would be `2 ^ 160`
    have hlimbs : limbs 64 3 (b160ToLimbs a).val = [0, 0, 2 ^ 32] :=
      (yields_ofList (limbs 64 3 (b160ToLimbs a).val)).unique hy
    have hval := congrArg (ofLimbs 64) hlimbs
    rw [ofLimbs_limbs] at hval
    have hnum : ofLimbs 64 [0, 0, 2 ^ 32] = 2 ^ 160 := by decide
    have ha : (b160ToLimbs a).val < 2 ^ 160 := a.isLt
    omega

/-! ### `Bytes32` and `StorageAddress` -/

theorem ofBeBytes_reverse_reverse (n : Nat) :
    BigEndian.ofBeBytes (BigEndian.toBeBytes 32
      (BigEndian.ofBeBytes (BigEndian.toBeBytes 32 n).reverse)).reverse = n % 2 ^ 256 := by
  have hlen : (BigEndian.toBeBytes 32 n).reverse.length = 32 := by
    rw [List.length_reverse, BigEndian.length_toBeBytes]
  have h := BigEndian.toBeBytes_ofBeBytes (BigEndian.toBeBytes 32 n).reverse
  rw [hlen] at h
  rw [h, List.reverse_reverse, BigEndian.ofBeBytes_toBeBytes, ← BigEndian.pow_eight_mul]

theorem bytes32Inner_eq (b : Bytes32) :
    bytes32Inner pw b = limbs pw.bits (256 / pw.bits)
      (BigEndian.ofBeBytes (BigEndian.toBeBytes 32 b.val).reverse) := rfl

theorem val_bytes32OfInner (ws : List Nat) : (bytes32OfInner pw ws).val =
    BigEndian.ofBeBytes (BigEndian.toBeBytes 32 (ofLimbs pw.bits ws)).reverse := by
  rw [bytes32OfInner, Fin.val_mk]

theorem bytes32UsizeLen_eq : bytes32UsizeLen pw = 256 / pw.bits := by cases pw <;> rfl

theorem bits_mul_bytes32UsizeLen : pw.bits * bytes32UsizeLen pw = 256 := by cases pw <;> rfl

theorem roundTrips_bytes32 (b : Bytes32) : RoundTrips pw (bytes32 pw) b := by
  refine roundTrips_ofWords ?_ (fun _ h => lt_of_mem_limbs h) fun rest => ?_
  · rw [bytes32Inner, length_limbs, bytes32UsizeLen_eq]
  · show (remainingLen >>= _).run (bytes32Inner pw b ++ rest) = _
    have hlen : (bytes32Inner pw b).length = bytes32UsizeLen pw := by
      rw [bytes32Inner, length_limbs, bytes32UsizeLen_eq]
    have hcheck : ¬ (bytes32Inner pw b ++ rest).length < bytes32UsizeLen pw := by
      rw [List.length_append, hlen]
      omega
    rw [StateT.run_ok_bind (run_remainingLen _), if_neg hcheck,
      StateT.run_ok_bind (run_takeWords _ _), ← hlen, List.take_left, List.drop_left]
    show Except.ok (bytes32OfInner pw (bytes32Inner pw b), rest) = _
    -- the words in memory are the limbs of the byte-reversed number, read back whole
    have hinner : ofLimbs pw.bits (bytes32Inner pw b) =
        BigEndian.ofBeBytes (BigEndian.toBeBytes 32 b.val).reverse := by
      rw [bytes32Inner_eq, ← bytes32UsizeLen_eq, ofLimbs_limbs, bits_mul_bytes32UsizeLen,
        Nat.mod_eq_of_lt (ofBeBytes_reverse_lt _)]
    have hb : bytes32OfInner pw (bytes32Inner pw b) = b := by
      apply Fin.ext
      rw [val_bytes32OfInner, hinner, ofBeBytes_reverse_reverse, Nat.mod_eq_of_lt b.isLt]
    rw [hb]

theorem acceptsOnlyEncodings_bytes32 : AcceptsOnlyEncodings pw (bytes32 pw) := by
  refine acceptsOnlyEncodings_ofWords fun ws b rest hw h => ?_
  simp only [StateT.run_bind_eq_ok, run_remainingLen, Except.ok.injEq, Prod.mk.injEq] at h
  obtain ⟨len, s, ⟨rfl, rfl⟩, hb⟩ := h
  split at hb
  · exact absurd hb StateT.run_throw_ne_ok
  · rename_i hcheck
    simp only [StateT.run_bind_eq_ok, run_takeWords, Except.ok.injEq, Prod.mk.injEq,
      run_pure_reader] at hb
    obtain ⟨_, _, ⟨rfl, rfl⟩, rfl, rfl⟩ := hb
    -- the words taken are `USIZE_LEN` `usize`s: they are the limbs of the number they make
    have htake : (ws.take (bytes32UsizeLen pw)).length = bytes32UsizeLen pw :=
      List.length_take_of_le (by omega)
    have hlt : ∀ w ∈ ws.take (bytes32UsizeLen pw), w < 2 ^ pw.bits :=
      fun w h => hw w (List.mem_of_mem_take h)
    have hval : ofLimbs pw.bits (ws.take (bytes32UsizeLen pw)) < 2 ^ 256 := by
      have := ofLimbs_lt hlt
      rwa [htake, bits_mul_bytes32UsizeLen] at this
    have hlimbs := limbs_ofLimbs hlt
    rw [htake] at hlimbs
    rw [bytes32Inner_eq, val_bytes32OfInner, ofBeBytes_reverse_reverse, Nat.mod_eq_of_lt hval,
      ← bytes32UsizeLen_eq, hlimbs, List.take_append_drop]

theorem roundTrips_storageAddress (a : StorageAddress) : RoundTrips pw (storageAddress pw) a :=
  roundTrips_ofFields rfl rfl (roundTrips_pair (roundTrips_b160 pw _) (roundTrips_bytes32 pw _))

theorem acceptsOnlyEncodings_storageAddress : AcceptsOnlyEncodings pw (storageAddress pw) :=
  acceptsOnlyEncodings_ofFields (fun _ => rfl)
    (acceptsOnlyEncodings_pair (acceptsOnlyEncodings_b160 pw) (acceptsOnlyEncodings_bytes32 pw))

end Primitives

/-! ## Arrays -/

section Arrays

variable {pw : PointerWidth} {α β : Type}

theorem readsBack_array {d : Codec β} :
    ∀ ys : List β, (∀ y ∈ ys, ReadsBack pw d y) →
      ∃ wss, YieldsAll d.it (ys.map d.iter) wss ∧ (∀ w ∈ wss.flatten, w < 2 ^ pw.bits) ∧
        List.Forall₂ (fun y ws => ∀ rest, d.fromIter.run (ws ++ rest) = .ok (y, rest)) ys wss
  | [], _ => ⟨[], .nil, fun _ h => (nomatch h), .nil⟩
  | y :: ys, h => by
    obtain ⟨ws, hy, hb, hr⟩ := h y List.mem_cons_self
    obtain ⟨wss, hys, hbs, hrs⟩ :=
      readsBack_array ys fun y' h' => h y' (List.mem_cons_of_mem _ h')
    refine ⟨ws :: wss, .cons hy hys, ?_, .cons hr hrs⟩
    rw [List.flatten_cons]
    exact List.forall_mem_append.mpr ⟨hb, hbs⟩

theorem readsBack_withArray {c : Codec α} {d : Codec β} {n : Nat} {x : α} {ys : List.Vector β n}
    (hx : ReadsBack pw c x) (hys : ∀ y ∈ ys.toList, ReadsBack pw d y) :
    ReadsBack pw (withArray c d n) (x, ys) := by
  obtain ⟨wx, hyx, hbx, hrx⟩ := hx
  obtain ⟨wss, hyss, hbss, hrss⟩ := readsBack_array ys.toList hys
  refine ⟨wx ++ wss.flatten, yields_chainN hyx hyss, List.forall_mem_append.mpr ⟨hbx, hbss⟩,
    fun rest => ?_⟩
  rw [List.append_assoc]
  show (c.fromIter >>= _).run _ = _
  rw [StateT.run_ok_bind (hrx _), StateT.run_ok_bind (run_readArray hrss ys.toList_length rest)]
  rfl

@[simp] theorem iterLen_withArray (c : Codec α) (d : Codec β) (n : Nat) (x : α)
    (ys : List.Vector β n) :
    (withArray c d n).iterLen (x, ys) = c.iterLen x + (ys.toList.map d.iterLen).sum := by
  simp only [iterLen, withArray, chainN, Option.map_some, Option.getD_some, List.map_map]
  rfl

theorem sum_map_iterLen {d : Codec β} {n k : Nat} {ys : List.Vector β n}
    (hys : ∀ y ∈ ys.toList, d.iterLen y = k) : (ys.toList.map d.iterLen).sum = k * n := by
  rw [List.map_congr_left hys, List.map_const', List.sum_replicate_nat, ys.toList_length,
    Nat.mul_comm]

end Arrays

end KvMarkers

end ZksyncOs
