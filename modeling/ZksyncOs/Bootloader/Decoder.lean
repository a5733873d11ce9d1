import Mathlib
import ZksyncOs.Bootloader.Transaction
import ZksyncOs.Lib.Except

/-!
# Decoding a transaction

`ZkSyncTransaction::try_from_slice`: the buffer holds `TX_OFFSET` bytes the bootloader uses, then
the ABI encoding of the transaction. The parser reads the 19 head words (each numeric field checked
to fit its width), checks that every dynamic offset points right behind the previous tail, reads
the five length-prefixed tails (the padding checked to be zero) and requires that nothing follows.
`validate_structure` then checks the fields against the transaction's type.

* `Parser`, `parseWord`, `parseBytes`, `parseBytes32Vector` : the parser over the buffer;
* `TransactionFields.encode` : the tight layout of a transaction's fields, the format the parser
  is meant to accept; `TransactionFields.toTransaction` is what parsing it gives;
* `run_parseTransaction_encode`, `encode_of_run_parseTransaction` : the parser reads every tight
  layout, and reads nothing else.

Buffers of `u32::MAX` bytes or more are rejected before parsing, tight or not.
-/

namespace ZksyncOs

open BigEndian Checked

/-- `u32::MAX`. -/
def u32Max : Nat := 2 ^ 32 - 1

namespace ByteRange

def len (r : ByteRange) : Nat := r.stop - r.start

def isEmpty (r : ByteRange) : Bool := decide (r.stop ≤ r.start)

end ByteRange

namespace U256BEPtr

/-- `U256BEPtr::try_from_slice`: the first word of the slice and the bytes after it. -/
def tryFromSlice (slice : List UInt8) : Except Unit (List UInt8 × List UInt8) :=
  if 32 ≤ slice.length then .ok (slice.take 32, slice.drop 32) else .error ()

/-- The `validate_*` family: the number in the low `k` bytes of a word whose high `32 - k` bytes
are zero. -/
def validateLow (k : Nat) (encoding : List UInt8) : Except Unit Nat :=
  if (encoding.take (32 - k)).all (· == 0) then .ok (ofBeBytes (encoding.drop (32 - k)))
  else .error ()

def validateU8 (encoding : List UInt8) : Except Unit UInt8 :=
  UInt8.ofNat <$> validateLow 1 encoding

def validateU32 (encoding : List UInt8) : Except Unit UInt32 :=
  UInt32.ofNat <$> validateLow 4 encoding

def validateU64 (encoding : List UInt8) : Except Unit UInt64 :=
  UInt64.ofNat <$> validateLow 8 encoding

def validateU128 (encoding : List UInt8) : Except Unit U128 :=
  Fin.ofNat _ <$> validateLow 16 encoding

def validateAddress (encoding : List UInt8) : Except Unit B160 :=
  Fin.ofNat _ <$> validateLow 20 encoding

/-- `read`: the whole word, big-endian. -/
def read (encoding : List UInt8) : U256 := Fin.ofNat _ (ofBeBytes encoding)

/-- `validate` accepts exactly the words that encode a value, `enc` giving the value's number. -/
def Encodes {α : Type} (validate : List UInt8 → Except Unit α) (enc : α → Nat) : Prop :=
  ∀ (w : List UInt8) (a : α), w.length = 32 → (validate w = .ok a ↔ w = toBeBytes 32 (enc a))

section Validate

variable {k : Nat} {w : List UInt8}

theorem validateLow_eq_ok_iff (hk : k ≤ 32) (hw : w.length = 32) {n : Nat} :
    validateLow k w = .ok n ↔ n < 256 ^ k ∧ w = toBeBytes 32 n := by
  constructor
  · intro h
    unfold validateLow at h
    split at h
    · rename_i hzero
      cases h
      have hdrop : (w.drop (32 - k)).length = k := by simp only [List.length_drop]; omega
      have hlt : ofBeBytes (w.drop (32 - k)) < 256 ^ k := by
        have := ofBeBytes_lt (w.drop (32 - k))
        rwa [hdrop] at this
      -- the high bytes are the zero bytes of the wide encoding
      have htake : w.take (32 - k) = List.replicate (32 - k) 0 := by
        refine List.eq_replicate_iff.mpr ⟨by simp only [List.length_take]; omega, ?_⟩
        intro b hb
        simpa using List.all_eq_true.mp hzero b hb
      have henc := toBeBytes_of_lt (32 - k) hlt
      rw [show 32 - k + k = 32 by omega] at henc
      have hlow := toBeBytes_ofBeBytes (w.drop (32 - k))
      rw [hdrop] at hlow
      rw [hlow, ← htake, List.take_append_drop] at henc
      exact ⟨hlt, henc.symm⟩
    · cases h
  · rintro ⟨hn, hwn⟩
    have henc := toBeBytes_of_lt (32 - k) hn
    rw [show 32 - k + k = 32 by omega] at henc
    have htake : w.take (32 - k) = List.replicate (32 - k) 0 := by
      rw [hwn, henc]; exact List.take_left' List.length_replicate
    have hdrop : w.drop (32 - k) = toBeBytes k n := by
      rw [hwn, henc]; exact List.drop_left' List.length_replicate
    have hall : (w.take (32 - k)).all (· == 0) = true := by
      rw [htake, List.all_eq_true]
      intro b hb
      rw [(List.eq_replicate_iff.mp rfl).2 b hb]
      rfl
    unfold validateLow
    rw [if_pos hall, hdrop, ofBeBytes_toBeBytes_of_lt hn]

theorem encodes_map_validateLow {β : Type} (k : Nat) (g : Nat → β) (toN : β → Nat) (hk : k ≤ 32)
    (hlt : ∀ b, toN b < 2 ^ (8 * k)) (hleft : ∀ b, g (toN b) = b)
    (hright : ∀ n, n < 2 ^ (8 * k) → toN (g n) = n) :
    Encodes (fun e => g <$> validateLow k e) toN := by
  intro w b hw
  rw [Except.map_eq_ok]
  constructor
  · rintro ⟨n, hn, rfl⟩
    obtain ⟨hlt', hwn⟩ := (validateLow_eq_ok_iff hk hw).mp hn
    rw [hright n (by rwa [pow_eight_mul]), hwn]
  · intro h
    have hb : toN b < 256 ^ k := by rw [← pow_eight_mul]; exact hlt b
    exact ⟨toN b, (validateLow_eq_ok_iff hk hw).mpr ⟨hb, h⟩, hleft b⟩

theorem encodes_validateU8 : Encodes validateU8 UInt8.toNat :=
  encodes_map_validateLow 1 UInt8.ofNat UInt8.toNat (by decide) UInt8.toNat_lt
    (fun _ => UInt8.ofNat_toNat) (fun n hn => by simp; omega)

theorem encodes_validateU32 : Encodes validateU32 UInt32.toNat :=
  encodes_map_validateLow 4 UInt32.ofNat UInt32.toNat (by decide) UInt32.toNat_lt
    (fun _ => UInt32.ofNat_toNat) (fun n hn => by simp; omega)

theorem encodes_validateU64 : Encodes validateU64 UInt64.toNat :=
  encodes_map_validateLow 8 UInt64.ofNat UInt64.toNat (by decide) UInt64.toNat_lt
    (fun _ => UInt64.ofNat_toNat) (fun n hn => by simp; omega)

theorem encodes_validateU128 : Encodes validateU128 Fin.val :=
  encodes_map_validateLow 16 (Fin.ofNat _) Fin.val (by decide) Fin.isLt Fin.ofNat_val_eq_self
    (fun _ hn => Nat.mod_eq_of_lt hn)

theorem encodes_validateAddress : Encodes validateAddress Fin.val :=
  encodes_map_validateLow 20 (Fin.ofNat _) Fin.val (by decide) Fin.isLt Fin.ofNat_val_eq_self
    (fun _ hn => Nat.mod_eq_of_lt hn)

theorem toBeBytes_read (hw : w.length = 32) : toBeBytes 32 (read w).val = w := by
  have hlt : ofBeBytes w < 2 ^ (8 * 32) := by
    rw [pow_eight_mul, ← hw]
    exact ofBeBytes_lt w
  rw [read, Fin.val_ofNat, Nat.mod_eq_of_lt hlt, ← hw, toBeBytes_ofBeBytes]

theorem encodes_read : Encodes (fun e => pure (read e)) Fin.val := by
  intro w a hw
  rw [Except.pure_eq_ok]
  constructor
  · rintro rfl
    exact (toBeBytes_read hw).symm
  · intro hwa
    have ha : a.val < 256 ^ 32 := a.isLt
    apply Fin.ext
    rw [read, Fin.val_ofNat, hwa, ofBeBytes_toBeBytes_of_lt ha]
    exact Nat.mod_eq_of_lt a.isLt

end Validate

end U256BEPtr

/-- `Parser`: the buffer and the offset of the next field. -/
structure Parser where
  slice : List UInt8
  offset : Nat

namespace Parser

/-- `Parser::slice`: the bytes from the offset on. -/
def remaining (p : Parser) : List UInt8 := p.slice.drop p.offset

/-- A parse step: it advances the offset or fails. -/
abbrev M := StateT Parser (Except Unit)

/-- The `parse_*` methods of one head word: the word at the offset, checked by `validate`, with its
range. -/
def parseWord {α : Type} (validate : List UInt8 → Except Unit α) : M (ParsedValue α) := fun p => do
  let (encoding, _) ← U256BEPtr.tryFromSlice p.remaining
  let v ← validate encoding
  pure (⟨v, ⟨p.offset, p.offset + 32⟩⟩, { p with offset := p.offset + 32 })

def parseU8 : M (ParsedValue UInt8) := parseWord U256BEPtr.validateU8

def parseU32 : M (ParsedValue UInt32) := parseWord U256BEPtr.validateU32

def parseU64 : M (ParsedValue UInt64) := parseWord U256BEPtr.validateU64

def parseU128 : M (ParsedValue U128) := parseWord U256BEPtr.validateU128

def parseAddress : M (ParsedValue B160) := parseWord U256BEPtr.validateAddress

def parseU256 : M (ParsedValue U256) := parseWord fun e => pure (U256BEPtr.read e)

/-- The length of a byte string padded to whole words. -/
def padLen (length : Nat) : Nat := (length + 31) / 32 * 32

/-- `parse_bytes`: a `u32` length, then that many bytes zero-padded to whole words. The value's
range is the unpadded bytes. -/
def parseBytes : M (ParsedValue Unit) := fun p₀ => do
  let (length, p) ← parseU32 p₀
  let lengthWords := (length.value.toNat + 31) / 32
  let paddedLen ← okOr (checkedMul 32 lengthWords 32) ()
  -- `self.slice().len() as u32`
  throwIf (p.remaining.length % 2 ^ 32 < paddedLen.val) ()
  let start := p.offset
  let stop ← okOr (checkedAdd 32 p.offset paddedLen.val) ()
  -- a partial last word: the loop over `padded_len - zero_bytes .. padded_len`
  let zeroBytes := 32 - length.value.toNat % 32
  throwIf (length.value.toNat % 32 ≠ 0 ∧
    ((p.remaining.drop (paddedLen.val - zeroBytes)).take zeroBytes).any (· != 0)) ()
  pure (⟨(), ⟨start, start + length.value.toNat⟩⟩, { p with offset := stop })

/-- `parse_bytes32_vector`: a `u32` count, then that many words. -/
def parseBytes32Vector : M (ParsedValue Unit) := fun p₀ => do
  let (numElements, p) ← parseU32 p₀
  let sliceLen ← okOr (checkedMul 32 numElements.value.toNat 32) ()
  throwIf (p.remaining.length % 2 ^ 32 < sliceLen.val) ()
  let start := p.offset
  let stop ← okOr (checkedAdd 32 p.offset sliceLen.val) ()
  pure (⟨(), ⟨start, stop⟩⟩, { p with offset := stop })

/-- The tail `parse_bytes` reads: the length, then the bytes zero-padded to whole words. -/
def bytesTail (b : List UInt8) : List UInt8 :=
  toBeBytes 32 b.length ++ b ++ List.replicate (padLen b.length - b.length) 0

/-- The tail `parse_bytes32_vector` reads: the count, then the words. -/
def wordsTail (ws : List Bytes32) : List UInt8 := toBeBytes 32 ws.length ++ ws.flatMap Bytes32.bytes

/-- The check before each tail: the head's offset is where the parser stands, counted from
`TX_OFFSET` (`(parser.offset - TX_OFFSET) as u32`). -/
def checkOffset (o : ParsedValue UInt32) : M Unit := fun p =>
  if o.value.toNat ≠ (p.offset - txOffset) % 2 ^ 32 then .error () else .ok ((), p)

/-! ### What each parse step reads -/

section Steps

variable {α : Type} {validate : List UInt8 → Except Unit α} {p p' : Parser} {w r : List UInt8}

@[simp] theorem remaining_mk (s : List UInt8) (o : Nat) : (⟨s, o⟩ : Parser).remaining = s.drop o :=
  rfl

theorem remaining_advance (h : p.remaining = w ++ r) :
    ({ p with offset := p.offset + w.length } : Parser).remaining = r := by
  show (p.slice.drop (p.offset + w.length)) = r
  rw [← List.drop_drop]
  show p.remaining.drop w.length = r
  rw [h, List.drop_left]

theorem offset_add_le_of_remaining (h : p.remaining = w ++ r) (hw : w ≠ []) :
    p.offset + w.length ≤ p.slice.length := by
  have hlen := congrArg List.length h
  have hpos : 0 < w.length := List.length_pos_iff.mpr hw
  simp only [remaining, List.length_drop, List.length_append] at hlen
  omega

theorem run_parseWord_of_remaining {v : α} (hp : p.remaining = w ++ r) (hw : w.length = 32)
    (hv : validate w = .ok v) :
    (parseWord validate).run p =
      .ok (⟨v, ⟨p.offset, p.offset + 32⟩⟩, { p with offset := p.offset + 32 }) := by
  have hlen : 32 ≤ p.remaining.length := by rw [hp, List.length_append]; omega
  have htake : p.remaining.take 32 = w := by rw [hp]; exact List.take_left' hw
  simp only [StateT.run, parseWord, U256BEPtr.tryFromSlice, if_pos hlen, htake, hv, bind,
    Except.bind, pure, Except.pure]

theorem parseWord_inv {v : ParsedValue α} (h : (parseWord validate).run p = .ok (v, p')) :
    p' = { p with offset := p.offset + 32 } ∧ v.range = ⟨p.offset, p.offset + 32⟩ ∧
      (p.remaining.take 32).length = 32 ∧ validate (p.remaining.take 32) = .ok v.value ∧
      p.remaining = p.remaining.take 32 ++ p'.remaining := by
  unfold StateT.run parseWord U256BEPtr.tryFromSlice at h
  by_cases hlen : 32 ≤ p.remaining.length
  · have hword : (p.remaining.take 32).length = 32 := by simp only [List.length_take]; omega
    rw [if_pos hlen] at h
    obtain ⟨_, ⟨⟩, h⟩ := Except.bind_eq_ok.mp h
    obtain ⟨_, hv, ⟨⟩⟩ := Except.bind_eq_ok.mp h
    refine ⟨rfl, rfl, hword, hv, ?_⟩
    have hadv := remaining_advance (List.take_append_drop 32 p.remaining).symm
    rw [hword] at hadv
    rw [hadv, List.take_append_drop]
  · rw [if_neg hlen] at h
    cases h

theorem run_parseWord_of_encodes {enc : α → Nat} (he : U256BEPtr.Encodes validate enc) {a : α}
    (hp : p.remaining = toBeBytes 32 (enc a) ++ r) :
    (parseWord validate).run p =
      .ok (⟨a, ⟨p.offset, p.offset + 32⟩⟩, { p with offset := p.offset + 32 }) :=
  run_parseWord_of_remaining hp (length_toBeBytes _ _) ((he _ _ (length_toBeBytes _ _)).mpr rfl)

theorem parseWord_inv_of_encodes {enc : α → Nat} (he : U256BEPtr.Encodes validate enc)
    {v : ParsedValue α} (h : (parseWord validate).run p = .ok (v, p')) :
    p' = { p with offset := p.offset + 32 } ∧ v.range = ⟨p.offset, p.offset + 32⟩ ∧
      p.remaining = toBeBytes 32 (enc v.value) ++ p'.remaining := by
  obtain ⟨hp', hr, hw, hv, hrem⟩ := parseWord_inv h
  refine ⟨hp', hr, ?_⟩
  rw [← (he _ _ hw).mp hv]
  exact hrem

theorem le_padLen (n : Nat) : n ≤ padLen n := by unfold padLen; omega

theorem length_bytesTail (b : List UInt8) : (bytesTail b).length = 32 + padLen b.length := by
  have := le_padLen b.length
  simp only [bytesTail, List.length_append, length_toBeBytes, List.length_replicate]
  omega

theorem length_wordsTail (ws : List Bytes32) : (wordsTail ws).length = 32 + 32 * ws.length := by
  have hwords : ∀ ws : List Bytes32, (ws.flatMap Bytes32.bytes).length = 32 * ws.length := by
    intro ws
    induction ws with
    | nil => rfl
    | cons w ws ih =>
      simp only [List.flatMap_cons, List.length_append, Bytes32.bytes, length_toBeBytes, ih,
        List.length_cons]
      omega
  simp only [wordsTail, List.length_append, length_toBeBytes, hwords]

theorem padding_check_iff (R : List UInt8) (L : Nat) (hR : padLen L ≤ R.length) :
    ¬(L % 32 ≠ 0 ∧ ((R.drop (padLen L - (32 - L % 32))).take (32 - L % 32)).any (· != 0)) ↔
      (R.drop L).take (padLen L - L) = List.replicate (padLen L - L) 0 := by
  by_cases hm : L % 32 = 0
  · have hpad : padLen L = L := by unfold padLen; omega
    simp [hm, hpad]
  · have hpad : padLen L - (32 - L % 32) = L := by unfold padLen; omega
    have hzero : 32 - L % 32 = padLen L - L := by unfold padLen; omega
    have hlen : ((R.drop L).take (padLen L - L)).length = padLen L - L := by
      simp only [List.length_take, List.length_drop]
      omega
    rw [hpad, hzero, List.eq_replicate_iff]
    simp only [hm, not_false_eq_true, true_and, Bool.not_eq_true, List.any_eq_false, bne_iff_ne,
      ne_eq, not_not]
    exact ⟨fun h => ⟨hlen, h⟩, fun h => h.2⟩

theorem run_parseBytes_of_remaining {b : List UInt8} (hp : p.remaining = bytesTail b ++ r)
    (hlen : p.slice.length < 2 ^ 32) :
    parseBytes.run p = .ok (⟨(), ⟨p.offset + 32, p.offset + 32 + b.length⟩⟩,
      { p with offset := p.offset + (32 + padLen b.length) }) := by
  have hin := offset_add_le_of_remaining hp
    (List.ne_nil_of_length_pos (by rw [length_bytesTail]; omega))
  rw [length_bytesTail] at hin
  have hpad := le_padLen b.length
  have hL : (UInt32.ofNat b.length).toNat = b.length := by simp; omega
  -- the length word, then the padded bytes
  have hp1 : p.remaining = toBeBytes 32 (UInt32.ofNat b.length).toNat ++
      (b ++ List.replicate (padLen b.length - b.length) 0 ++ r) := by
    rw [hL, hp, bytesTail]
    simp only [List.append_assoc]
  have h1 : parseU32.run p = _ := run_parseWord_of_encodes U256BEPtr.encodes_validateU32 hp1
  have e1 := remaining_advance hp1
  rw [length_toBeBytes] at e1
  have hmul : checkedMul 32 ((b.length + 31) / 32) 32 =
      some ⟨padLen b.length, by unfold padLen at *; omega⟩ :=
    checkedMul_of_lt (by unfold padLen at *; omega)
  have hadd : checkedAdd 32 (p.offset + 32) (padLen b.length) =
      some ⟨p.offset + 32 + padLen b.length, by omega⟩ := checkedAdd_of_lt (by omega)
  have hrem : ¬((b ++ List.replicate (padLen b.length - b.length) 0 ++ r).length % 2 ^ 32 <
      padLen b.length) := by
    have hbound := congrArg List.length e1
    simp only [remaining, List.length_drop, List.length_append, List.length_replicate] at hbound ⊢
    rw [Nat.mod_eq_of_lt (by omega)]
    omega
  have hzero := (padding_check_iff (b ++ List.replicate (padLen b.length - b.length) 0 ++ r)
    b.length (by simp only [List.length_append, List.length_replicate]; omega)).mpr
    (by rw [List.append_assoc, List.drop_left, List.take_left' List.length_replicate])
  unfold StateT.run parseBytes
  rw [show parseU32 p = _ from h1]
  simp only [bind, Except.bind, hL, hmul, okOr_some, e1, throwIf, hrem, hadd, pure, Except.pure,
    if_false, hzero, Nat.add_assoc]

theorem parseBytes_inv {v : ParsedValue Unit} (h : parseBytes.run p = .ok (v, p')) :
    ∃ b : List UInt8, p.remaining = bytesTail b ++ p'.remaining ∧
      p' = { p with offset := p.offset + (32 + padLen b.length) } ∧
      v.range = ⟨p.offset + 32, p.offset + 32 + b.length⟩ := by
  unfold StateT.run parseBytes at h
  obtain ⟨⟨length, p₁⟩, h₁, h⟩ := Except.bind_eq_ok.mp h
  obtain ⟨rfl, -, e₁⟩ := parseWord_inv_of_encodes U256BEPtr.encodes_validateU32 h₁
  obtain ⟨paddedLen, hmul, h⟩ := Except.bind_eq_ok.mp h
  obtain ⟨_, hcheck, h⟩ := Except.bind_eq_ok.mp h
  obtain ⟨stop, hadd, h⟩ := Except.bind_eq_ok.mp h
  obtain ⟨_, hzero, ⟨⟩⟩ := Except.bind_eq_ok.mp h
  -- the rest of the buffer after the length word, and the length it declares
  set R := ({ p with offset := p.offset + 32 } : Parser).remaining with hR
  set L := length.value.toNat with hL
  have hpadded : paddedLen.val = padLen L := val_of_checkedMul_eq_some (okOr_eq_ok_iff.mp hmul)
  have hstop : stop.val = p.offset + 32 + padLen L := by
    rw [val_of_checkedAdd_eq_some (okOr_eq_ok_iff.mp hadd), hpadded]
  have hge : padLen L ≤ R.length := by
    have := throwIf_eq_ok_iff.mp hcheck
    rw [hpadded] at this
    have := Nat.mod_le R.length (2 ^ 32)
    omega
  have hpadding : (R.drop L).take (padLen L - L) = List.replicate (padLen L - L) 0 := by
    have := throwIf_eq_ok_iff.mp hzero
    rw [hpadded] at this
    exact (padding_check_iff R L hge).mp this
  have hlenb : (R.take L).length = L := by
    have := le_padLen L
    simp only [List.length_take]
    omega
  refine ⟨R.take L, ?_, ?_, ?_⟩
  · -- the padded data is the data, then the zero bytes
    have hsplit : R.take (padLen L) = R.take L ++ List.replicate (padLen L - L) 0 := by
      rw [← hpadding, ← List.take_add, Nat.add_sub_cancel' (le_padLen L)]
    have hrest : (⟨p.slice, stop.val⟩ : Parser).remaining = R.drop (padLen L) := by
      rw [hR, hstop]
      simp only [remaining, List.drop_drop, Nat.add_assoc]
    show p.remaining = bytesTail (R.take L) ++ (⟨p.slice, stop.val⟩ : Parser).remaining
    rw [e₁, bytesTail, hlenb, hrest]
    simp only [List.append_assoc]
    rw [← List.append_assoc (R.take L), ← hsplit, List.take_append_drop]
  · show ({ p with offset := stop.val } : Parser) = _
    rw [hstop, hlenb, Nat.add_assoc]
  · rw [hlenb]

/-- The words of the first `32 * n` bytes. -/
def words : Nat → List UInt8 → List Bytes32
  | 0, _ => []
  | n + 1, l => U256BEPtr.read (l.take 32) :: words n (l.drop 32)

theorem length_words (n : Nat) (l : List UInt8) : (words n l).length = n := by
  induction n generalizing l with
  | zero => rfl
  | succ n ih => rw [words, List.length_cons, ih]

theorem flatMap_bytes_words {n : Nat} {l : List UInt8} (h : l.length = 32 * n) :
    (words n l).flatMap Bytes32.bytes = l := by
  induction n generalizing l with
  | zero =>
    rw [List.eq_nil_of_length_eq_zero h]
    rfl
  | succ n ih =>
    have htake : (l.take 32).length = 32 := by simp only [List.length_take]; omega
    have hdrop : (l.drop 32).length = 32 * n := by simp only [List.length_drop]; omega
    rw [words, List.flatMap_cons, Bytes32.bytes, U256BEPtr.toBeBytes_read htake, ih hdrop,
      List.take_append_drop]

theorem run_parseBytes32Vector_of_remaining {ws : List Bytes32} (hp : p.remaining = wordsTail ws ++ r)
    (hlen : p.slice.length < 2 ^ 32) :
    parseBytes32Vector.run p = .ok (⟨(), ⟨p.offset + 32, p.offset + 32 + 32 * ws.length⟩⟩,
      { p with offset := p.offset + (32 + 32 * ws.length) }) := by
  have hin := offset_add_le_of_remaining hp
    (List.ne_nil_of_length_pos (by rw [length_wordsTail]; omega))
  rw [length_wordsTail] at hin
  have hn : (UInt32.ofNat ws.length).toNat = ws.length := by simp; omega
  have hp1 : p.remaining = toBeBytes 32 (UInt32.ofNat ws.length).toNat ++
      (ws.flatMap Bytes32.bytes ++ r) := by
    rw [hn, hp, wordsTail, List.append_assoc]
  have h1 : parseU32.run p = _ := run_parseWord_of_encodes U256BEPtr.encodes_validateU32 hp1
  have e1 := remaining_advance hp1
  rw [length_toBeBytes] at e1
  have hmul : checkedMul 32 ws.length 32 = some ⟨32 * ws.length, by omega⟩ :=
    (checkedMul_of_lt (by omega)).trans (congrArg some (Fin.ext (Nat.mul_comm _ _)))
  have hadd : checkedAdd 32 (p.offset + 32) (32 * ws.length) =
      some ⟨p.offset + 32 + 32 * ws.length, by omega⟩ := checkedAdd_of_lt (by omega)
  have hrem : ¬((ws.flatMap Bytes32.bytes ++ r).length % 2 ^ 32 < 32 * ws.length) := by
    have hbound := congrArg List.length e1
    simp only [remaining, List.length_drop, List.length_append] at hbound ⊢
    have hw := length_wordsTail ws
    simp only [wordsTail, List.length_append, length_toBeBytes] at hw
    rw [Nat.mod_eq_of_lt (by omega)]
    omega
  unfold StateT.run parseBytes32Vector
  rw [show parseU32 p = _ from h1]
  simp only [bind, Except.bind, hn, hmul, okOr_some, e1, throwIf, hrem, hadd, pure, Except.pure,
    if_false, Nat.add_assoc]

theorem parseBytes32Vector_inv {v : ParsedValue Unit} (h : parseBytes32Vector.run p = .ok (v, p')) :
    ∃ ws : List Bytes32, p.remaining = wordsTail ws ++ p'.remaining ∧
      p' = { p with offset := p.offset + (32 + 32 * ws.length) } ∧
      v.range = ⟨p.offset + 32, p.offset + 32 + 32 * ws.length⟩ := by
  unfold StateT.run parseBytes32Vector at h
  obtain ⟨⟨numElements, p₁⟩, h₁, h⟩ := Except.bind_eq_ok.mp h
  obtain ⟨rfl, -, e₁⟩ := parseWord_inv_of_encodes U256BEPtr.encodes_validateU32 h₁
  obtain ⟨sliceLen, hmul, h⟩ := Except.bind_eq_ok.mp h
  obtain ⟨_, hcheck, h⟩ := Except.bind_eq_ok.mp h
  obtain ⟨stop, hadd, ⟨⟩⟩ := Except.bind_eq_ok.mp h
  set R := ({ p with offset := p.offset + 32 } : Parser).remaining with hR
  set n := numElements.value.toNat with hn
  have hslice : sliceLen.val = 32 * n := by
    rw [val_of_checkedMul_eq_some (okOr_eq_ok_iff.mp hmul), Nat.mul_comm]
  have hstop : stop.val = p.offset + 32 + 32 * n := by
    rw [val_of_checkedAdd_eq_some (okOr_eq_ok_iff.mp hadd), hslice]
  have hge : 32 * n ≤ R.length := by
    have := throwIf_eq_ok_iff.mp hcheck
    rw [hslice] at this
    have := Nat.mod_le R.length (2 ^ 32)
    omega
  have htake : (R.take (32 * n)).length = 32 * n := by simp only [List.length_take]; omega
  refine ⟨words n (R.take (32 * n)), ?_, ?_, ?_⟩
  · have hrest : (⟨p.slice, stop.val⟩ : Parser).remaining = R.drop (32 * n) := by
      rw [hR, hstop]
      simp only [remaining, List.drop_drop, Nat.add_assoc]
    show p.remaining = wordsTail _ ++ (⟨p.slice, stop.val⟩ : Parser).remaining
    rw [e₁, wordsTail, length_words, flatMap_bytes_words htake, hrest, List.append_assoc,
      List.take_append_drop]
  · show ({ p with offset := stop.val } : Parser) = _
    rw [hstop, length_words, Nat.add_assoc]
  · rw [length_words]
    exact congrArg (ByteRange.mk _) hstop

theorem run_checkOffset_eq_ok_iff {o : ParsedValue UInt32} {u : Unit} :
    (checkOffset o).run p = .ok (u, p') ↔ o.value.toNat = (p.offset - txOffset) % 2 ^ 32 ∧ p' = p := by
  unfold StateT.run checkOffset
  by_cases ho : o.value.toNat = (p.offset - txOffset) % 2 ^ 32
  · rw [if_neg (not_not.mpr ho)]
    exact ⟨fun h => by cases h; exact ⟨ho, rfl⟩, fun ⟨_, h⟩ => by rw [h]⟩
  · rw [if_pos ho]
    exact ⟨fun h => (nomatch h), fun h => absurd h.1 ho⟩

theorem run_checkOffset_of_eq {o : ParsedValue UInt32} (h : o.value.toNat = (p.offset - txOffset) % 2 ^ 32) :
    (checkOffset o).run p = .ok ((), p) :=
  run_checkOffset_eq_ok_iff.mpr ⟨h, rfl⟩

/-! The steps at a parser `⟨s, o⟩`, in the form the transaction's parse chains them. -/

section AtOffset

variable {s : List UInt8} {o : Nat}

theorem parseWord_step {enc : α → Nat} (he : U256BEPtr.Encodes validate enc) {a : α}
    (hp : (⟨s, o⟩ : Parser).remaining = toBeBytes 32 (enc a) ++ r) :
    (parseWord validate).run ⟨s, o⟩ = .ok (⟨a, ⟨o, o + 32⟩⟩, ⟨s, o + 32⟩) ∧
      (⟨s, o + 32⟩ : Parser).remaining = r :=
  ⟨run_parseWord_of_encodes he hp, by simpa using remaining_advance hp⟩

theorem parseWord_step_inv {enc : α → Nat} (he : U256BEPtr.Encodes validate enc)
    {v : ParsedValue α} (h : (parseWord validate).run ⟨s, o⟩ = .ok (v, p')) :
    p' = ⟨s, o + 32⟩ ∧ v.range = ⟨o, o + 32⟩ ∧
      (⟨s, o⟩ : Parser).remaining = toBeBytes 32 (enc v.value) ++ (⟨s, o + 32⟩ : Parser).remaining := by
  obtain ⟨rfl, hr, hrem⟩ := parseWord_inv_of_encodes he h
  exact ⟨rfl, hr, hrem⟩

theorem parseBytes_step {b : List UInt8} (hp : (⟨s, o⟩ : Parser).remaining = bytesTail b ++ r)
    (hlen : s.length < 2 ^ 32) :
    parseBytes.run ⟨s, o⟩ = .ok (⟨(), ⟨o + 32, o + 32 + b.length⟩⟩, ⟨s, o + (32 + padLen b.length)⟩) ∧
      (⟨s, o + (32 + padLen b.length)⟩ : Parser).remaining = r :=
  ⟨run_parseBytes_of_remaining hp hlen, by simpa [length_bytesTail] using remaining_advance hp⟩

theorem parseBytes_step_inv {v : ParsedValue Unit} (h : parseBytes.run ⟨s, o⟩ = .ok (v, p')) :
    ∃ b : List UInt8, p' = ⟨s, o + (32 + padLen b.length)⟩ ∧ v.range = ⟨o + 32, o + 32 + b.length⟩ ∧
      (⟨s, o⟩ : Parser).remaining = bytesTail b ++ (⟨s, o + (32 + padLen b.length)⟩ : Parser).remaining := by
  obtain ⟨b, hrem, rfl, hr⟩ := parseBytes_inv h
  exact ⟨b, rfl, hr, hrem⟩

theorem parseBytes32Vector_step {ws : List Bytes32}
    (hp : (⟨s, o⟩ : Parser).remaining = wordsTail ws ++ r) (hlen : s.length < 2 ^ 32) :
    parseBytes32Vector.run ⟨s, o⟩ =
        .ok (⟨(), ⟨o + 32, o + 32 + 32 * ws.length⟩⟩, ⟨s, o + (32 + 32 * ws.length)⟩) ∧
      (⟨s, o + (32 + 32 * ws.length)⟩ : Parser).remaining = r :=
  ⟨run_parseBytes32Vector_of_remaining hp hlen, by simpa [length_wordsTail] using remaining_advance hp⟩

theorem parseBytes32Vector_step_inv {v : ParsedValue Unit}
    (h : parseBytes32Vector.run ⟨s, o⟩ = .ok (v, p')) :
    ∃ ws : List Bytes32, p' = ⟨s, o + (32 + 32 * ws.length)⟩ ∧
      v.range = ⟨o + 32, o + 32 + 32 * ws.length⟩ ∧
      (⟨s, o⟩ : Parser).remaining = wordsTail ws ++ (⟨s, o + (32 + 32 * ws.length)⟩ : Parser).remaining := by
  obtain ⟨ws, hrem, rfl, hr⟩ := parseBytes32Vector_inv h
  exact ⟨ws, rfl, hr, hrem⟩

end AtOffset

end Steps

end Parser

namespace ZkSyncTransaction

/-- `DYNAMIC_PART_EXPECTED_OFFSET`: the head's 16 fields, `reserved` taking 4 words. -/
def dynamicPartExpectedOffset : Nat := 19 * 32

/-- The parse of `try_from_slice`, from `TX_OFFSET` on. -/
def parseTransaction : Parser.M ZkSyncTransaction := do
  let txType ← Parser.parseU8
  let fromAddress ← Parser.parseAddress
  let toAddress ← Parser.parseAddress
  let gasLimit ← Parser.parseU64
  let gasPerPubdataLimit ← Parser.parseU32
  let maxFeePerGas ← Parser.parseU128
  let maxPriorityFeePerGas ← Parser.parseU128
  let paymaster ← Parser.parseAddress
  let nonce ← Parser.parseU256
  let value ← Parser.parseU256
  let reserved0 ← Parser.parseU256
  let reserved1 ← Parser.parseU256
  let reserved2 ← Parser.parseU256
  let reserved3 ← Parser.parseU256
  let dataOffset ← Parser.parseU32
  let signatureOffset ← Parser.parseU32
  let factoryDepsOffset ← Parser.parseU32
  let paymasterInputOffset ← Parser.parseU32
  let reservedDynamicOffset ← Parser.parseU32
  throwIf (dataOffset.value.toNat ≠ dynamicPartExpectedOffset) ()
  Parser.checkOffset dataOffset
  let data ← Parser.parseBytes
  Parser.checkOffset signatureOffset
  let signature ← Parser.parseBytes
  Parser.checkOffset factoryDepsOffset
  let factoryDeps ← Parser.parseBytes32Vector
  Parser.checkOffset paymasterInputOffset
  let paymasterInput ← Parser.parseBytes
  Parser.checkOffset reservedDynamicOffset
  -- the access list is only consumed here; `AccessListParser` reads it later from its offset
  let _ ← Parser.parseBytes
  let p ← get
  throwIf (!p.remaining.isEmpty) ()
  pure ⟨p.slice, txType, fromAddress, toAddress, gasLimit, gasPerPubdataLimit, maxFeePerGas,
    maxPriorityFeePerGas, paymaster, nonce, value, #v[reserved0, reserved1, reserved2, reserved3],
    data, signature, factoryDeps, paymasterInput, reservedDynamicOffset.value.toNat⟩

/-- `validate_structure`: the fields each type of transaction may use. -/
def validateStructure (tx : ZkSyncTransaction) : Except Unit Unit := do
  let txType := tx.txType.value
  if txType ∉ [legacyTxType, eip2930TxType, eip1559TxType, eip712TxType, upgradeTxType, l1L2TxType]
  then throw ()
  if (txType = legacyTxType ∨ txType = eip2930TxType) ∧
      tx.maxFeePerGas.value ≠ tx.maxPriorityFeePerGas.value then throw ()
  -- paymasters only with EIP-712
  if txType ≠ eip712TxType ∧ tx.paymaster.value ≠ 0 then throw ()
  -- `reserved[0]`: the EIP-155 flag of legacy transactions, the mint value of L1 ones
  if ¬(txType = legacyTxType ∨ txType = l1L2TxType ∨ txType = upgradeTxType) ∧
      tx.reserved[0].value ≠ 0 then throw ()
  -- `reserved[1]`: the refund recipient of L1 transactions, the deployment flag of Ethereum ones
  if txType = eip712TxType then
    if tx.reserved[1].value ≠ 0 then throw ()
  else if ¬(txType = l1L2TxType ∨ txType = upgradeTxType) then
    if tx.reserved[1].value ≠ 0 ∧ tx.toAddress.value ≠ 0 then throw ()
  if tx.reserved[2].value ≠ 0 ∨ tx.reserved[3].value ≠ 0 then throw ()
  if txType = l1L2TxType ∨ txType = upgradeTxType then
    if !tx.signature.range.isEmpty then throw ()
  else if tx.signature.range.len ≠ 65 then throw ()
  if txType ≠ eip712TxType ∧ !tx.paymasterInput.range.isEmpty then throw ()
  if ¬(txType = eip712TxType ∨ txType = l1L2TxType ∨ txType = upgradeTxType) ∧
      !tx.factoryDeps.range.isEmpty then throw ()

def tryFromSlice (slice : List UInt8) : Except Unit ZkSyncTransaction := do
  throwIf (slice.length ≤ txOffset) ()
  -- the degenerate case
  throwIf (u32Max ≤ slice.length) ()
  let (new, _) ← parseTransaction.run ⟨slice, txOffset⟩
  validateStructure new
  pure new

end ZkSyncTransaction

/-! ## The tight layout -/

/-- The fields of a transaction, as its ABI encoding carries them. -/
structure TransactionFields where
  txType : UInt8
  fromAddress : B160
  toAddress : B160
  gasLimit : UInt64
  gasPerPubdataLimit : UInt32
  maxFeePerGas : U128
  maxPriorityFeePerGas : U128
  paymaster : B160
  nonce : U256
  value : U256
  reserved : Vector U256 4
  data : List UInt8
  signature : List UInt8
  factoryDeps : List Bytes32
  paymasterInput : List UInt8
  reservedDynamic : List UInt8

namespace TransactionFields

open ZksyncOs.Parser ZkSyncTransaction

variable (f : TransactionFields)

/-- The offset of the signature's tail, right behind the data's. The offsets count from the start
of the encoding. -/
def signatureOffset : Nat := dynamicPartExpectedOffset + (32 + padLen f.data.length)

def factoryDepsOffset : Nat := f.signatureOffset + (32 + padLen f.signature.length)

def paymasterInputOffset : Nat := f.factoryDepsOffset + (32 + 32 * f.factoryDeps.length)

def reservedDynamicOffset : Nat := f.paymasterInputOffset + (32 + padLen f.paymasterInput.length)

/-- The 19 head words: the fields, then the offsets of the tails. -/
def head : List UInt8 :=
  toBeBytes 32 f.txType.toNat ++ toBeBytes 32 f.fromAddress.val ++ toBeBytes 32 f.toAddress.val ++
    toBeBytes 32 f.gasLimit.toNat ++ toBeBytes 32 f.gasPerPubdataLimit.toNat ++
    toBeBytes 32 f.maxFeePerGas.val ++ toBeBytes 32 f.maxPriorityFeePerGas.val ++
    toBeBytes 32 f.paymaster.val ++ toBeBytes 32 f.nonce.val ++ toBeBytes 32 f.value.val ++
    toBeBytes 32 f.reserved[0].val ++ toBeBytes 32 f.reserved[1].val ++
    toBeBytes 32 f.reserved[2].val ++ toBeBytes 32 f.reserved[3].val ++
    toBeBytes 32 dynamicPartExpectedOffset ++ toBeBytes 32 f.signatureOffset ++
    toBeBytes 32 f.factoryDepsOffset ++ toBeBytes 32 f.paymasterInputOffset ++
    toBeBytes 32 f.reservedDynamicOffset

/-- The tight ABI layout: the head, then the five tails, each where the head says. -/
def encode : List UInt8 :=
  f.head ++ bytesTail f.data ++ bytesTail f.signature ++ wordsTail f.factoryDeps ++
    bytesTail f.paymasterInput ++ bytesTail f.reservedDynamic

/-- The range of the `i`-th head word in the buffer. -/
def headRange (i : Nat) : ByteRange := ⟨txOffset + 32 * i, txOffset + 32 * i + 32⟩

/-- The range of the `n` bytes of the tail at offset `o` of the encoding. -/
def tailRange (o n : Nat) : ByteRange := ⟨txOffset + o + 32, txOffset + o + 32 + n⟩

/-- What parsing the tight layout in `buffer` gives. -/
def toTransaction (buffer : List UInt8) : ZkSyncTransaction :=
  ⟨buffer, ⟨f.txType, headRange 0⟩, ⟨f.fromAddress, headRange 1⟩, ⟨f.toAddress, headRange 2⟩,
    ⟨f.gasLimit, headRange 3⟩, ⟨f.gasPerPubdataLimit, headRange 4⟩,
    ⟨f.maxFeePerGas, headRange 5⟩, ⟨f.maxPriorityFeePerGas, headRange 6⟩,
    ⟨f.paymaster, headRange 7⟩, ⟨f.nonce, headRange 8⟩, ⟨f.value, headRange 9⟩,
    #v[⟨f.reserved[0], headRange 10⟩, ⟨f.reserved[1], headRange 11⟩,
      ⟨f.reserved[2], headRange 12⟩, ⟨f.reserved[3], headRange 13⟩],
    ⟨(), tailRange dynamicPartExpectedOffset f.data.length⟩,
    ⟨(), tailRange f.signatureOffset f.signature.length⟩,
    ⟨(), tailRange f.factoryDepsOffset (32 * f.factoryDeps.length)⟩,
    ⟨(), tailRange f.paymasterInputOffset f.paymasterInput.length⟩,
    f.reservedDynamicOffset⟩

theorem length_head : f.head.length = dynamicPartExpectedOffset := by
  simp only [head, List.length_append, length_toBeBytes]
  rfl

theorem length_encode :
    f.encode.length = f.reservedDynamicOffset + (32 + padLen f.reservedDynamic.length) := by
  unfold encode head
  simp only [List.length_append, length_toBeBytes, length_bytesTail, length_wordsTail]
  unfold reservedDynamicOffset paymasterInputOffset factoryDepsOffset signatureOffset
    dynamicPartExpectedOffset
  omega

/-- Every tight layout in a buffer of fewer than `2 ^ 32` bytes is parsed, into its fields. -/
theorem run_parseTransaction_encode {s : List UInt8} (hs : s.drop txOffset = f.encode)
    (hlen : s.length < 2 ^ 32) :
    ∃ p', parseTransaction.run ⟨s, txOffset⟩ = .ok (f.toTransaction s, p') := by
  -- the offsets are below the buffer's length, so they fit their `u32` words
  have hend : txOffset + (f.reservedDynamicOffset + (32 + padLen f.reservedDynamic.length)) ≤
      s.length := by
    have := congrArg List.length hs
    rw [List.length_drop, length_encode] at this
    omega
  have hfit : ∀ n, n ≤ f.reservedDynamicOffset → (UInt32.ofNat n).toNat = n := by
    intro n hn
    simp
    omega
  -- where each tail starts
  have hd : dynamicPartExpectedOffset = 608 := rfl
  have hsig : f.signatureOffset = dynamicPartExpectedOffset + (32 + padLen f.data.length) := rfl
  have hfd : f.factoryDepsOffset = f.signatureOffset + (32 + padLen f.signature.length) := rfl
  have hpm : f.paymasterInputOffset = f.factoryDepsOffset + (32 + 32 * f.factoryDeps.length) := rfl
  have hrd : f.reservedDynamicOffset =
      f.paymasterInputOffset + (32 + padLen f.paymasterInput.length) := rfl
  have e₀ : (⟨s, txOffset⟩ : Parser).remaining = f.encode := hs
  unfold encode head at e₀
  simp only [List.append_assoc] at e₀
  -- the head words, each read where the previous one ends
  obtain ⟨h₁, e₁⟩ := parseWord_step U256BEPtr.encodes_validateU8 e₀
  obtain ⟨h₂, e₂⟩ := parseWord_step U256BEPtr.encodes_validateAddress e₁
  obtain ⟨h₃, e₃⟩ := parseWord_step U256BEPtr.encodes_validateAddress e₂
  obtain ⟨h₄, e₄⟩ := parseWord_step U256BEPtr.encodes_validateU64 e₃
  obtain ⟨h₅, e₅⟩ := parseWord_step U256BEPtr.encodes_validateU32 e₄
  obtain ⟨h₆, e₆⟩ := parseWord_step U256BEPtr.encodes_validateU128 e₅
  obtain ⟨h₇, e₇⟩ := parseWord_step U256BEPtr.encodes_validateU128 e₆
  obtain ⟨h₈, e₈⟩ := parseWord_step U256BEPtr.encodes_validateAddress e₇
  obtain ⟨h₉, e₉⟩ := parseWord_step U256BEPtr.encodes_read e₈
  obtain ⟨h₁₀, e₁₀⟩ := parseWord_step U256BEPtr.encodes_read e₉
  obtain ⟨h₁₁, e₁₁⟩ := parseWord_step U256BEPtr.encodes_read e₁₀
  obtain ⟨h₁₂, e₁₂⟩ := parseWord_step U256BEPtr.encodes_read e₁₁
  obtain ⟨h₁₃, e₁₃⟩ := parseWord_step U256BEPtr.encodes_read e₁₂
  obtain ⟨h₁₄, e₁₄⟩ := parseWord_step U256BEPtr.encodes_read e₁₃
  -- the offset words hold `u32`s
  rw [← hfit dynamicPartExpectedOffset (by omega), ← hfit f.signatureOffset (by omega),
    ← hfit f.factoryDepsOffset (by omega), ← hfit f.paymasterInputOffset (by omega),
    ← hfit f.reservedDynamicOffset le_rfl] at e₁₄
  obtain ⟨h₁₅, e₁₅⟩ := parseWord_step U256BEPtr.encodes_validateU32 e₁₄
  obtain ⟨h₁₆, e₁₆⟩ := parseWord_step U256BEPtr.encodes_validateU32 e₁₅
  obtain ⟨h₁₇, e₁₇⟩ := parseWord_step U256BEPtr.encodes_validateU32 e₁₆
  obtain ⟨h₁₈, e₁₈⟩ := parseWord_step U256BEPtr.encodes_validateU32 e₁₇
  obtain ⟨h₁₉, e₁₉⟩ := parseWord_step U256BEPtr.encodes_validateU32 e₁₈
  -- the tails
  obtain ⟨h₂₀, e₂₀⟩ := parseBytes_step e₁₉ hlen
  obtain ⟨h₂₁, e₂₁⟩ := parseBytes_step e₂₀ hlen
  obtain ⟨h₂₂, e₂₂⟩ := parseBytes32Vector_step e₂₁ hlen
  obtain ⟨h₂₃, e₂₃⟩ := parseBytes_step e₂₂ hlen
  rw [← List.append_nil (bytesTail f.reservedDynamic)] at e₂₃
  obtain ⟨h₂₄, e₂₄⟩ := parseBytes_step e₂₃ hlen
  apply Exists.intro
  unfold parseTransaction
  refine (StateT.run_ok_bind h₁).trans ?_
  refine (StateT.run_ok_bind h₂).trans ?_
  refine (StateT.run_ok_bind h₃).trans ?_
  refine (StateT.run_ok_bind h₄).trans ?_
  refine (StateT.run_ok_bind h₅).trans ?_
  refine (StateT.run_ok_bind h₆).trans ?_
  refine (StateT.run_ok_bind h₇).trans ?_
  refine (StateT.run_ok_bind h₈).trans ?_
  refine (StateT.run_ok_bind h₉).trans ?_
  refine (StateT.run_ok_bind h₁₀).trans ?_
  refine (StateT.run_ok_bind h₁₁).trans ?_
  refine (StateT.run_ok_bind h₁₂).trans ?_
  refine (StateT.run_ok_bind h₁₃).trans ?_
  refine (StateT.run_ok_bind h₁₄).trans ?_
  refine (StateT.run_ok_bind h₁₅).trans ?_
  refine (StateT.run_ok_bind h₁₆).trans ?_
  refine (StateT.run_ok_bind h₁₇).trans ?_
  refine (StateT.run_ok_bind h₁₈).trans ?_
  refine (StateT.run_ok_bind h₁₉).trans ?_
  refine (StateT.run_ok_bind (run_throwIf_of_not ?_)).trans ?_
  · exact not_not.mpr (hfit _ (by omega))
  refine (StateT.run_ok_bind (run_checkOffset_of_eq ?_)).trans ?_
  · rw [hfit _ (by omega)]
    dsimp only
    omega
  refine (StateT.run_ok_bind h₂₀).trans ?_
  refine (StateT.run_ok_bind (run_checkOffset_of_eq ?_)).trans ?_
  · rw [hfit _ (by omega)]
    dsimp only
    omega
  refine (StateT.run_ok_bind h₂₁).trans ?_
  refine (StateT.run_ok_bind (run_checkOffset_of_eq ?_)).trans ?_
  · rw [hfit _ (by omega)]
    dsimp only
    omega
  refine (StateT.run_ok_bind h₂₂).trans ?_
  refine (StateT.run_ok_bind (run_checkOffset_of_eq ?_)).trans ?_
  · rw [hfit _ (by omega)]
    dsimp only
    omega
  refine (StateT.run_ok_bind h₂₃).trans ?_
  refine (StateT.run_ok_bind (run_checkOffset_of_eq ?_)).trans ?_
  · rw [hfit _ le_rfl]
    dsimp only
    omega
  refine (StateT.run_ok_bind h₂₄).trans ?_
  refine (StateT.run_ok_bind (StateT.run_get _)).trans ?_
  refine (StateT.run_ok_bind (run_throwIf_of_not ?_)).trans ?_
  · simp [e₂₄]
  refine congrArg Except.ok (Prod.ext ?_ rfl)
  dsimp only
  unfold toTransaction
  congr 1
  -- the head words and the data match as they stand; the later tails start behind the sum of the
  -- tails before them, and the access list's offset is its head word
  all_goals first
    | exact hfit _ le_rfl
    | (simp only [ParsedValue.mk.injEq, ByteRange.mk.injEq, tailRange, true_and]; omega)

/-- What the parser accepts is a tight layout, and it is parsed into that layout's fields. -/
theorem encode_of_run_parseTransaction {s : List UInt8} {tx : ZkSyncTransaction} {p' : Parser}
    (h : parseTransaction.run ⟨s, txOffset⟩ = .ok (tx, p')) (hlen : s.length < 2 ^ 32) :
    ∃ f : TransactionFields, s.drop txOffset = f.encode ∧ tx = f.toTransaction s := by
  unfold parseTransaction at h
  -- the head words
  obtain ⟨⟨txType, _⟩, _, h₁, h⟩ := StateT.run_bind_eq_ok.mp h
  obtain ⟨rfl, rfl, e₁⟩ := parseWord_step_inv U256BEPtr.encodes_validateU8 h₁
  obtain ⟨⟨fromAddress, _⟩, _, h₂, h⟩ := StateT.run_bind_eq_ok.mp h
  obtain ⟨rfl, rfl, e₂⟩ := parseWord_step_inv U256BEPtr.encodes_validateAddress h₂
  obtain ⟨⟨toAddress, _⟩, _, h₃, h⟩ := StateT.run_bind_eq_ok.mp h
  obtain ⟨rfl, rfl, e₃⟩ := parseWord_step_inv U256BEPtr.encodes_validateAddress h₃
  obtain ⟨⟨gasLimit, _⟩, _, h₄, h⟩ := StateT.run_bind_eq_ok.mp h
  obtain ⟨rfl, rfl, e₄⟩ := parseWord_step_inv U256BEPtr.encodes_validateU64 h₄
  obtain ⟨⟨gasPerPubdataLimit, _⟩, _, h₅, h⟩ := StateT.run_bind_eq_ok.mp h
  obtain ⟨rfl, rfl, e₅⟩ := parseWord_step_inv U256BEPtr.encodes_validateU32 h₅
  obtain ⟨⟨maxFeePerGas, _⟩, _, h₆, h⟩ := StateT.run_bind_eq_ok.mp h
  obtain ⟨rfl, rfl, e₆⟩ := parseWord_step_inv U256BEPtr.encodes_validateU128 h₆
  obtain ⟨⟨maxPriorityFeePerGas, _⟩, _, h₇, h⟩ := StateT.run_bind_eq_ok.mp h
  obtain ⟨rfl, rfl, e₇⟩ := parseWord_step_inv U256BEPtr.encodes_validateU128 h₇
  obtain ⟨⟨paymaster, _⟩, _, h₈, h⟩ := StateT.run_bind_eq_ok.mp h
  obtain ⟨rfl, rfl, e₈⟩ := parseWord_step_inv U256BEPtr.encodes_validateAddress h₈
  obtain ⟨⟨nonce, _⟩, _, h₉, h⟩ := StateT.run_bind_eq_ok.mp h
  obtain ⟨rfl, rfl, e₉⟩ := parseWord_step_inv U256BEPtr.encodes_read h₉
  obtain ⟨⟨value, _⟩, _, h₁₀, h⟩ := StateT.run_bind_eq_ok.mp h
  obtain ⟨rfl, rfl, e₁₀⟩ := parseWord_step_inv U256BEPtr.encodes_read h₁₀
  obtain ⟨⟨reserved₀, _⟩, _, h₁₁, h⟩ := StateT.run_bind_eq_ok.mp h
  obtain ⟨rfl, rfl, e₁₁⟩ := parseWord_step_inv U256BEPtr.encodes_read h₁₁
  obtain ⟨⟨reserved₁, _⟩, _, h₁₂, h⟩ := StateT.run_bind_eq_ok.mp h
  obtain ⟨rfl, rfl, e₁₂⟩ := parseWord_step_inv U256BEPtr.encodes_read h₁₂
  obtain ⟨⟨reserved₂, _⟩, _, h₁₃, h⟩ := StateT.run_bind_eq_ok.mp h
  obtain ⟨rfl, rfl, e₁₃⟩ := parseWord_step_inv U256BEPtr.encodes_read h₁₃
  obtain ⟨⟨reserved₃, _⟩, _, h₁₄, h⟩ := StateT.run_bind_eq_ok.mp h
  obtain ⟨rfl, rfl, e₁₄⟩ := parseWord_step_inv U256BEPtr.encodes_read h₁₄
  obtain ⟨⟨offData, _⟩, _, h₁₅, h⟩ := StateT.run_bind_eq_ok.mp h
  obtain ⟨rfl, rfl, e₁₅⟩ := parseWord_step_inv U256BEPtr.encodes_validateU32 h₁₅
  obtain ⟨⟨offSignature, _⟩, _, h₁₆, h⟩ := StateT.run_bind_eq_ok.mp h
  obtain ⟨rfl, rfl, e₁₆⟩ := parseWord_step_inv U256BEPtr.encodes_validateU32 h₁₆
  obtain ⟨⟨offFactoryDeps, _⟩, _, h₁₇, h⟩ := StateT.run_bind_eq_ok.mp h
  obtain ⟨rfl, rfl, e₁₇⟩ := parseWord_step_inv U256BEPtr.encodes_validateU32 h₁₇
  obtain ⟨⟨offPaymasterInput, _⟩, _, h₁₈, h⟩ := StateT.run_bind_eq_ok.mp h
  obtain ⟨rfl, rfl, e₁₈⟩ := parseWord_step_inv U256BEPtr.encodes_validateU32 h₁₈
  obtain ⟨⟨offReservedDynamic, _⟩, _, h₁₉, h⟩ := StateT.run_bind_eq_ok.mp h
  obtain ⟨rfl, rfl, e₁₉⟩ := parseWord_step_inv U256BEPtr.encodes_validateU32 h₁₉
  -- the offset checks and the tails
  obtain ⟨_, _, hc, h⟩ := StateT.run_bind_eq_ok.mp h
  obtain ⟨hdata, rfl⟩ := run_throwIf_eq_ok_iff.mp hc
  obtain ⟨_, _, hc, h⟩ := StateT.run_bind_eq_ok.mp h
  obtain ⟨-, rfl⟩ := run_checkOffset_eq_ok_iff.mp hc
  obtain ⟨⟨_, _⟩, _, hb, h⟩ := StateT.run_bind_eq_ok.mp h
  obtain ⟨data, rfl, rfl, e₂₀⟩ := parseBytes_step_inv hb
  obtain ⟨_, _, hc, h⟩ := StateT.run_bind_eq_ok.mp h
  obtain ⟨hsig, rfl⟩ := run_checkOffset_eq_ok_iff.mp hc
  obtain ⟨⟨_, _⟩, _, hb, h⟩ := StateT.run_bind_eq_ok.mp h
  obtain ⟨signature, rfl, rfl, e₂₁⟩ := parseBytes_step_inv hb
  obtain ⟨_, _, hc, h⟩ := StateT.run_bind_eq_ok.mp h
  obtain ⟨hfd, rfl⟩ := run_checkOffset_eq_ok_iff.mp hc
  obtain ⟨⟨_, _⟩, _, hb, h⟩ := StateT.run_bind_eq_ok.mp h
  obtain ⟨factoryDeps, rfl, rfl, e₂₂⟩ := parseBytes32Vector_step_inv hb
  obtain ⟨_, _, hc, h⟩ := StateT.run_bind_eq_ok.mp h
  obtain ⟨hpm, rfl⟩ := run_checkOffset_eq_ok_iff.mp hc
  obtain ⟨⟨_, _⟩, _, hb, h⟩ := StateT.run_bind_eq_ok.mp h
  obtain ⟨paymasterInput, rfl, rfl, e₂₃⟩ := parseBytes_step_inv hb
  obtain ⟨_, _, hc, h⟩ := StateT.run_bind_eq_ok.mp h
  obtain ⟨hrd, rfl⟩ := run_checkOffset_eq_ok_iff.mp hc
  obtain ⟨_, _, hb, h⟩ := StateT.run_bind_eq_ok.mp h
  obtain ⟨reservedDynamic, rfl, -, e₂₄⟩ := parseBytes_step_inv hb
  obtain ⟨_, _, ⟨⟩, h⟩ := StateT.run_bind_eq_ok.mp h
  obtain ⟨_, _, hc, ⟨⟩⟩ := StateT.run_bind_eq_ok.mp h
  obtain ⟨hend, rfl⟩ := run_throwIf_eq_ok_iff.mp hc
  dsimp only at *
  simp only [Bool.not_eq_true, Bool.not_eq_false', List.isEmpty_iff] at hend
  -- the access list ends within the buffer, so every offset fits in its `u32` word
  have hin := offset_add_le_of_remaining e₂₄
    (List.ne_nil_of_length_pos (by rw [length_bytesTail]; omega))
  rw [length_bytesTail] at hin
  dsimp only at hin
  have hd : offData.toNat = dynamicPartExpectedOffset := not_not.mp hdata
  unfold dynamicPartExpectedOffset at hd
  have hs : offSignature.toNat = 19 * 32 + (32 + padLen data.length) := by
    rw [hsig]
    omega
  have hf : offFactoryDeps.toNat =
      19 * 32 + (32 + padLen data.length) + (32 + padLen signature.length) := by
    rw [hfd]
    omega
  have hp : offPaymasterInput.toNat = 19 * 32 + (32 + padLen data.length) +
      (32 + padLen signature.length) + (32 + 32 * factoryDeps.length) := by
    rw [hpm]
    omega
  have hr : offReservedDynamic.toNat = 19 * 32 + (32 + padLen data.length) +
      (32 + padLen signature.length) + (32 + 32 * factoryDeps.length) +
      (32 + padLen paymasterInput.length) := by
    rw [hrd]
    omega
  refine ⟨⟨txType, fromAddress, toAddress, gasLimit, gasPerPubdataLimit, maxFeePerGas,
    maxPriorityFeePerGas, paymaster, nonce, value, #v[reserved₀, reserved₁, reserved₂, reserved₃],
    data, signature, factoryDeps, paymasterInput, reservedDynamic⟩, ?_, ?_⟩
  · -- the words and tails read, one after the other, up to the end of the buffer
    show (⟨s, txOffset⟩ : Parser).remaining = _
    rw [e₁, e₂, e₃, e₄, e₅, e₆, e₇, e₈, e₉, e₁₀, e₁₁, e₁₂, e₁₃, e₁₄, e₁₅, e₁₆, e₁₇, e₁₈, e₁₉, e₂₀,
      e₂₁, e₂₂, e₂₃, e₂₄, hend, hd, hs, hf, hp, hr]
    unfold encode head
    simp only [List.append_assoc, List.append_nil]
    rfl
  · unfold toTransaction
    congr 1
    all_goals first
      | exact hr
      | (simp only [ParsedValue.mk.injEq, ByteRange.mk.injEq, tailRange, true_and,
          signatureOffset, factoryDepsOffset, paymasterInputOffset, dynamicPartExpectedOffset]
         omega)

theorem slice_of_drop_bytesTail {s r b : List UInt8} {o : Nat} (h : s.drop o = bytesTail b ++ r) :
    (⟨o + 32, o + 32 + b.length⟩ : ByteRange).slice s = b ∧
      s.drop (o + (32 + padLen b.length)) = r := by
  have hb : s.drop (o + 32) = b ++ (List.replicate (padLen b.length - b.length) 0 ++ r) := by
    rw [← List.drop_drop, h, bytesTail]
    simp only [List.append_assoc]
    exact List.drop_left' (length_toBeBytes _ _)
  constructor
  · unfold ByteRange.slice
    rw [hb, show o + 32 + b.length - (o + 32) = b.length by omega]
    exact List.take_left' rfl
  · rw [← List.drop_drop, h]
    exact List.drop_left' (length_bytesTail b)

theorem slice_of_drop_wordsTail {s r : List UInt8} {ws : List Bytes32} {o : Nat}
    (h : s.drop o = wordsTail ws ++ r) :
    (⟨o + 32, o + 32 + 32 * ws.length⟩ : ByteRange).slice s = ws.flatMap Bytes32.bytes ∧
      s.drop (o + (32 + 32 * ws.length)) = r := by
  have hlen : (ws.flatMap Bytes32.bytes).length = 32 * ws.length := by
    have := length_wordsTail ws
    simp only [wordsTail, List.length_append, length_toBeBytes] at this
    omega
  have hb : s.drop (o + 32) = ws.flatMap Bytes32.bytes ++ r := by
    rw [← List.drop_drop, h, wordsTail, List.append_assoc]
    exact List.drop_left' (length_toBeBytes _ _)
  constructor
  · unfold ByteRange.slice
    rw [hb, show o + 32 + 32 * ws.length - (o + 32) = 32 * ws.length by omega]
    exact List.take_left' hlen
  · rw [← List.drop_drop, h]
    exact List.drop_left' (length_wordsTail ws)

theorem slices_toTransaction {s : List UInt8} (hs : s.drop txOffset = f.encode) :
    (f.toTransaction s).calldata = f.data ∧ (f.toTransaction s).signatureBytes = f.signature ∧
      (f.toTransaction s).factoryDeps.range.slice s = f.factoryDeps.flatMap Bytes32.bytes ∧
      (f.toTransaction s).paymasterInputBytes = f.paymasterInput := by
  have e₀ : s.drop (txOffset + dynamicPartExpectedOffset) = bytesTail f.data ++
      (bytesTail f.signature ++ (wordsTail f.factoryDeps ++
        (bytesTail f.paymasterInput ++ bytesTail f.reservedDynamic))) := by
    rw [← List.drop_drop, hs, encode]
    simp only [List.append_assoc]
    exact List.drop_left' (length_head f)
  -- the tails one after the other
  obtain ⟨hdata, e₁⟩ := slice_of_drop_bytesTail e₀
  obtain ⟨hsig, e₂⟩ := slice_of_drop_bytesTail e₁
  obtain ⟨hdeps, e₃⟩ := slice_of_drop_wordsTail e₂
  obtain ⟨hpm, -⟩ := slice_of_drop_bytesTail e₃
  refine ⟨hdata, ?_, ?_, ?_⟩
  · simpa only [signatureBytes, toTransaction, tailRange, signatureOffset, ← Nat.add_assoc]
      using hsig
  · simpa only [toTransaction, tailRange, factoryDepsOffset, signatureOffset, ← Nat.add_assoc]
      using hdeps
  · simpa only [paymasterInputBytes, toTransaction, tailRange, paymasterInputOffset,
      factoryDepsOffset, signatureOffset, ← Nat.add_assoc] using hpm

/-- The 19 head words as numbers. -/
def headWords : List Nat :=
  [f.txType.toNat, f.fromAddress.val, f.toAddress.val, f.gasLimit.toNat, f.gasPerPubdataLimit.toNat,
    f.maxFeePerGas.val, f.maxPriorityFeePerGas.val, f.paymaster.val, f.nonce.val, f.value.val,
    f.reserved[0].val, f.reserved[1].val, f.reserved[2].val, f.reserved[3].val,
    dynamicPartExpectedOffset, f.signatureOffset, f.factoryDepsOffset, f.paymasterInputOffset,
    f.reservedDynamicOffset]

theorem head_eq_flatMap : f.head = f.headWords.flatMap (toBeBytes 32) := by
  simp only [head, headWords, List.flatMap_cons, List.flatMap_nil, List.append_nil,
    List.append_assoc]

theorem take_drop_flatMap_toBeBytes (r : List UInt8) :
    ∀ (ws : List Nat) (i : Nat), i < ws.length →
      ((ws.flatMap (toBeBytes 32) ++ r).drop (32 * i)).take 32 = toBeBytes 32 (ws.getD i 0)
  | [], _, h => absurd h (Nat.not_lt_zero _)
  | w :: ws, 0, _ => by
    rw [List.flatMap_cons, Nat.mul_zero, List.drop_zero, List.append_assoc]
    exact List.take_left' (length_toBeBytes 32 w)
  | w :: ws, i + 1, h => by
    have hi : i < ws.length := Nat.lt_of_succ_lt_succ h
    rw [List.flatMap_cons, Nat.mul_succ, Nat.add_comm, ← List.drop_drop, List.append_assoc,
      List.drop_left' (length_toBeBytes 32 w)]
    exact take_drop_flatMap_toBeBytes r ws i hi

theorem slice_headRange {s : List UInt8} (hs : s.drop txOffset = f.encode) {i : Nat} (hi : i < 19) :
    (headRange i).slice s = toBeBytes 32 (f.headWords.getD i 0) := by
  unfold ByteRange.slice headRange
  rw [show txOffset + 32 * i + 32 - (txOffset + 32 * i) = 32 by omega, ← List.drop_drop, hs, encode,
    head_eq_flatMap]
  simp only [List.append_assoc]
  exact take_drop_flatMap_toBeBytes _ _ i (by simpa [headWords] using hi)

end TransactionFields

namespace ZkSyncTransaction

open TransactionFields

theorem fields_of_tryFromSlice {s : List UInt8} {tx : ZkSyncTransaction}
    (h : tryFromSlice s = .ok tx) :
    s.length < u32Max ∧ ∃ f : TransactionFields, s.drop txOffset = f.encode ∧
      validateStructure (f.toTransaction s) = .ok () ∧ tx = f.toTransaction s := by
  unfold tryFromSlice at h
  obtain ⟨_, -, h⟩ := Except.bind_eq_ok.mp h
  obtain ⟨_, hshort, h⟩ := Except.bind_eq_ok.mp h
  obtain ⟨⟨new, _⟩, hp, h⟩ := Except.bind_eq_ok.mp h
  obtain ⟨_, hv, h⟩ := Except.bind_eq_ok.mp h
  have hlen : s.length < u32Max := Nat.lt_of_not_le (throwIf_eq_ok_iff.mp hshort)
  obtain ⟨f, hs, rfl⟩ := encode_of_run_parseTransaction hp (by unfold u32Max at hlen; omega)
  exact ⟨hlen, f, hs, hv, (Except.pure_eq_ok.mp h).symm⟩

theorem signature_len_of_validateStructure {tx : ZkSyncTransaction}
    (h : validateStructure tx = .ok ())
    (hty : ¬(tx.txType.value = l1L2TxType ∨ tx.txType.value = upgradeTxType)) :
    tx.signature.range.len = 65 := by
  by_contra hne
  -- every guard that follows the signature's is skipped: each branch then throws
  simp only [validateStructure, ne_eq, hty, hne, Except.throw_bind, if_false, if_true, ite_self,
    not_false_eq_true] at h
  exact Except.throw_ne_ok h

/-- A tight layout in a buffer shorter than `u32::MAX` whose structure is valid is accepted. -/
theorem tryFromSlice_of_encode {s : List UInt8} {f : TransactionFields} (hlen : s.length < u32Max)
    (hs : s.drop txOffset = f.encode) (hv : validateStructure (f.toTransaction s) = .ok ()) :
    tryFromSlice s = .ok (f.toTransaction s) := by
  have hpos : ¬s.length ≤ txOffset := by
    have := congrArg List.length hs
    rw [List.length_drop, length_encode] at this
    omega
  obtain ⟨p', hp⟩ := f.run_parseTransaction_encode hs (by unfold u32Max at hlen; omega)
  unfold tryFromSlice
  simp only [throwIf, if_neg hpos, if_neg (Nat.not_le_of_lt hlen), hp, hv, bind, Except.bind,
    pure, Except.pure]

theorem try_from_slice_accepts_exactly_tight_layouts (s : List UInt8) (tx : ZkSyncTransaction) :
    (tryFromSlice s = .ok tx ↔
      s.length < u32Max ∧ ∃ f : TransactionFields, s.drop txOffset = f.encode ∧
        validateStructure (f.toTransaction s) = .ok () ∧ tx = f.toTransaction s) ∧
    ∀ f : TransactionFields, s.drop txOffset = f.encode →
      (f.toTransaction s).calldata = f.data ∧ (f.toTransaction s).signatureBytes = f.signature ∧
      (f.toTransaction s).factoryDeps.range.slice s = f.factoryDeps.flatMap Bytes32.bytes ∧
      (f.toTransaction s).paymasterInputBytes = f.paymasterInput := by
  refine ⟨⟨fun h => ?_, fun ⟨hlen, f, hs, hv, htx⟩ => ?_⟩, fun f hs => f.slices_toTransaction hs⟩
  · exact fields_of_tryFromSlice h
  · rw [htx]
    exact tryFromSlice_of_encode hlen hs hv

/-- A legacy transaction with every field zero, no data, and a signature of 65 zero bytes. -/
def minimalLegacyFields : TransactionFields :=
  ⟨0, 0, 0, 0, 0, 0, 0, 0, 0, 0, #v[0, 0, 0, 0], [], List.replicate 65 0, [], [], []⟩

/-- Its tight layout behind `TX_OFFSET` zero bytes. -/
def minimalLegacyBuffer : List UInt8 := List.replicate txOffset 0 ++ minimalLegacyFields.encode

theorem length_tight_buffer (f : TransactionFields) :
    (List.replicate txOffset 0 ++ f.encode).length =
      txOffset + (f.reservedDynamicOffset + (32 + Parser.padLen f.reservedDynamic.length)) := by
  rw [List.length_append, List.length_replicate, length_encode]

theorem try_from_slice_minimal_legacy :
    tryFromSlice minimalLegacyBuffer =
      .ok (minimalLegacyFields.toTransaction minimalLegacyBuffer) :=
  (try_from_slice_accepts_exactly_tight_layouts _ _).1.mpr
    ⟨by rw [minimalLegacyBuffer, length_tight_buffer]; decide, minimalLegacyFields,
      List.drop_left' List.length_replicate, by rfl, rfl⟩

/-- The same transaction with an access-list tail of `2 ^ 32 - 2048` zero bytes. -/
def hugeAccessListFields : TransactionFields :=
  { minimalLegacyFields with reservedDynamic := List.replicate (2 ^ 32 - 2048) 0 }

/-- Its tight layout behind `TX_OFFSET` zero bytes: `2 ^ 32 + 68` bytes. -/
def hugeAccessListBuffer : List UInt8 := List.replicate txOffset 0 ++ hugeAccessListFields.encode

/-- A tight layout whose structure is valid is rejected once the buffer reaches `u32::MAX` bytes. -/
theorem try_from_slice_rejects_tight_layout_of_u32_max_bytes :
    hugeAccessListBuffer.drop txOffset = hugeAccessListFields.encode ∧
      validateStructure (hugeAccessListFields.toTransaction hugeAccessListBuffer) = .ok () ∧
      tryFromSlice hugeAccessListBuffer = .error () := by
  have hlen : hugeAccessListBuffer.length =
      txOffset + (hugeAccessListFields.reservedDynamicOffset + (32 + Parser.padLen (2 ^ 32 - 2048))) := by
    have htail : hugeAccessListFields.reservedDynamic = List.replicate (2 ^ 32 - 2048) 0 := rfl
    rw [hugeAccessListBuffer, length_tight_buffer, htail, List.length_replicate]
  have hshort : ¬hugeAccessListBuffer.length ≤ txOffset := by
    rw [hlen]
    omega
  have hlong : u32Max ≤ hugeAccessListBuffer.length := by
    rw [hlen]
    decide
  refine ⟨List.drop_left' List.length_replicate, by rfl, ?_⟩
  unfold tryFromSlice
  simp only [throwIf, if_neg hshort, if_pos hlong]
  rfl

end ZkSyncTransaction

end ZksyncOs
