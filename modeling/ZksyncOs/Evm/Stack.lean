import Mathlib
import ZksyncOs.Evm.Arithmetic
import ZksyncOs.Lib.ListStack

/-!
# The EVM operand stack

`evm_interpreter::evm_stack::EvmStack`: a boxed buffer of `STACK_SIZE` slots of
`MaybeUninit<U256>` and a length that "both indicates how many elements are there, and at least
how many of them are initialized". Every access is unsafe (`get_unchecked`, a raw `add`,
`assume_init_ref`, `assume_init_mut`), guarded by length checks written out per method.

* `EvmStack` : the buffer, a slot `none` while uninitialized, and the length;
* `assumeInit`, `assumeInitMut`, `writeSlot` : the unsafe accesses, undefined behaviour unless
  they read a slot below the length, or write one at the length or below inside the buffer;
* `swap`, `dup`, `popAndIgnore`, `pop1` .. `pop4`, `topMut`, `pop1AndPeekMut`, `pop2AndPeekMut`,
  `pop1MutAndPeek`, `pushZero`, `pushOne`, `push` : the methods;
* `Refines s l` : `s` holds the list `l`, bottom first, of at most `stackSize` words;
* `Op.exec`, `Op.spec` : a call of a method together with what its caller writes through the
  references it returns, and the same call on the list (`ListStack`);
* `exec_matches` : from a state that holds `l` every call ends as the call on `l` does, in a
  state that holds the new list, and never makes an unsafe access outside its bounds; `runOps`
  and `specOps` : the same for every sequence of calls.
-/

namespace ZksyncOs.Evm

open EStateM

def stackSize : Nat := 1024

/-- `EvmStack`: the slots of `buffer`, `none` while `MaybeUninit::uninit`, and `len`. The slots
from `stackSize` on do not exist; every write checks the bound. -/
structure EvmStack where
  buffer : Nat → Option U256
  len : Nat

/-- How a method of `EvmStack` ends when it does not return: with an `ExitCode`, or in undefined
behaviour, an unsafe access that its length checks were meant to rule out. -/
inductive StackFault where
  | exit (code : ExitCode)
  | undefinedBehavior
deriving DecidableEq, Repr

/-- A `&mut U256` into the buffer: its slot, and the value the slot holds when it is made. -/
structure MutRef where
  slot : Nat
  value : U256
deriving DecidableEq, Repr

/-- The `ExitCode` of a failed stack operation. -/
def exitCodeOf : ListStack.Fault → ExitCode
  | .overflow => .stackOverflow
  | .underflow => .stackUnderflow

namespace EvmStack

/-- A method of `EvmStack` on `&mut self`. -/
abbrev M (α : Type) := EStateM StackFault EvmStack α

/-- `new_in`: every slot uninitialized, and no element. -/
def newIn : EvmStack := ⟨fun _ => none, 0⟩

def fail {α : Type} (code : ExitCode) : M α := throw (.exit code)

def setLen (len : Nat) : M Unit := modify fun s => { s with len }

/-- `assume_init_ref` on the slot at `offset`: sound on a slot below the length, which the length
keeps initialized. -/
def assumeInit (offset : Nat) : M U256 := fun s =>
  if offset < s.len then
    match s.buffer offset with
    | some v => .ok v s
    | none => .error .undefinedBehavior s
  else .error .undefinedBehavior s

/-- `assume_init_mut` on the slot at `offset`: the same access, handing back a reference. -/
def assumeInitMut (offset : Nat) : M MutRef := do
  let v ← assumeInit offset
  pure ⟨offset, v⟩

/-- A write through `as_mut_ptr().add(offset)`, or through a reference to that slot: sound inside
the buffer at or below the length. -/
def writeSlot (offset : Nat) (v : U256) : M Unit := fun s =>
  if offset ≤ s.len ∧ offset < stackSize then
    .ok () { s with buffer := Function.update s.buffer offset (some v) }
  else .error .undefinedBehavior s

/-- `swap`: exchange the top with the slot `n` below it. -/
def swap (n : Nat) : M Unit := do
  let s ← get
  if s.len = 0 then fail .stackUnderflow
  let srcOffset := s.len - 1
  if n > srcOffset then fail .stackUnderflow
  let dstOffset := srcOffset - n
  -- `core::mem::swap` of the two `assume_init_mut` references
  let a ← assumeInit srcOffset
  let b ← assumeInit dstOffset
  writeSlot srcOffset b
  writeSlot dstOffset a

/-- `dup`: push a copy of the `n`-th slot from the top. -/
def dup (n : Nat) : M Unit := do
  let s ← get
  if s.len = stackSize then fail .stackOverflow
  if n > s.len then fail .stackUnderflow
  let v ← assumeInit (s.len - n)
  writeSlot s.len v
  setLen (s.len + 1)

def popAndIgnore : M Unit := do
  let s ← get
  if s.len = 0 then fail .stackUnderflow
  setLen (s.len - 1)

/-- The unrolled body of `pop_1` .. `pop_4` after their check: the top `k` slots through
`assume_init_ref`, from offset `len - 1` down, then the length drops by `k`. -/
def popUnchecked (k : Nat) : M (List U256) := do
  let s ← get
  let ps ← ((List.range k).map fun j => s.len - 1 - j).mapM assumeInit
  setLen (s.len - k)
  pure ps

/-- `pop_k`: the top `k` values, top first. -/
def popN (k : Nat) : M (List U256) := do
  if (← get).len < k then fail .stackUnderflow
  popUnchecked k

def pop1 : M (List U256) := popN 1
def pop2 : M (List U256) := popN 2
def pop3 : M (List U256) := popN 3
def pop4 : M (List U256) := popN 4

/-- `top_mut`, `pop_1_and_peek_mut`, `pop_2_and_peek_mut`: pop `k` values, then a reference to
the new top. -/
def popAndPeekMut (k : Nat) : M (List U256 × MutRef) := do
  if (← get).len < k + 1 then fail .stackUnderflow
  let ps ← popUnchecked k
  let peeked ← assumeInitMut ((← get).len - 1)
  pure (ps, peeked)

def topMut : M MutRef := Prod.snd <$> popAndPeekMut 0
def pop1AndPeekMut : M (List U256 × MutRef) := popAndPeekMut 1
def pop2AndPeekMut : M (List U256 × MutRef) := popAndPeekMut 2

/-- `pop_1_mut_and_peek`: a reference to the top, which the pop leaves just above the length,
and one to the new top. -/
def pop1MutAndPeek : M (MutRef × MutRef) := do
  let s ← get
  if s.len < 2 then fail .stackUnderflow
  let offset := s.len - 1
  let p0 ← assumeInitMut offset
  setLen offset
  let peeked ← assumeInitMut (offset - 1)
  pure (p0, peeked)

def push (value : U256) : M Unit := do
  let s ← get
  if s.len = stackSize then fail .stackOverflow
  writeSlot s.len value
  setLen (s.len + 1)

def pushZero : M Unit := push 0
def pushOne : M Unit := push 1

/-! ## The list a stack holds -/

/-- `s` holds `l`, bottom first: its length is the list's, at most `stackSize`, and the slots below
it hold the list's values. -/
def Refines (s : EvmStack) (l : List U256) : Prop :=
  ListStack.Backs s.buffer s.len l ∧ s.len ≤ stackSize

theorem refines_newIn : Refines newIn [] :=
  ⟨ListStack.backs_empty _, Nat.zero_le _⟩

variable {s : EvmStack} {l : List U256}

theorem Refines.len_eq (h : Refines s l) : s.len = l.length := h.1.length_eq

theorem Refines.length_le (h : Refines s l) : l.length ≤ stackSize := h.len_eq ▸ h.2

@[simp] theorem run_fail {α : Type} (code : ExitCode) (s : EvmStack) :
    (fail code : M α).run s = .error (.exit code) s := rfl

@[simp] theorem run_setLen (n : Nat) (s : EvmStack) :
    (setLen n).run s = .ok () { s with len := n } := rfl

theorem run_assumeInit (h : Refines s l) {offset : Nat} (hi : offset < s.len) :
    (assumeInit offset).run s = .ok (l.getD offset 0) s := by
  change (if offset < s.len then _ else _) = _
  rw [if_pos hi, h.1.get hi 0]

theorem run_assumeInitMut (h : Refines s l) {offset : Nat} (hi : offset < s.len) :
    (assumeInitMut offset).run s = .ok ⟨offset, l.getD offset 0⟩ s := by
  rw [assumeInitMut, run_bind_of_ok (run_assumeInit h hi)]
  rfl

theorem run_writeSlot {offset : Nat} (hi : offset ≤ s.len) (hc : offset < stackSize) (v : U256) :
    (writeSlot offset v).run s =
      .ok () { s with buffer := Function.update s.buffer offset (some v) } := by
  change (if offset ≤ s.len ∧ offset < stackSize then _ else _) = _
  rw [if_pos ⟨hi, hc⟩]

theorem run_mapM_assumeInit (h : Refines s l) :
    ∀ offsets : List Nat, (∀ o ∈ offsets, o < s.len) →
      (offsets.mapM assumeInit).run s = .ok (offsets.map fun o => l.getD o 0) s
  | [], _ => rfl
  | o :: offsets, hs => by
    have ih := run_mapM_assumeInit h offsets fun o' ho' => hs o' (List.mem_cons_of_mem _ ho')
    rw [List.mapM_cons, run_bind_of_ok (run_assumeInit h (hs o List.mem_cons_self)),
      run_bind_of_ok ih]
    rfl

theorem run_popUnchecked (h : Refines s l) {k : Nat} (hk : k ≤ s.len) :
    (popUnchecked k).run s = .ok ((l.drop (l.length - k)).reverse) { s with len := s.len - k } := by
  have hoffsets : ∀ o ∈ (List.range k).map (fun j => s.len - 1 - j), o < s.len := by
    intro o ho
    obtain ⟨j, hj, rfl⟩ := List.mem_map.1 ho
    have := List.mem_range.1 hj
    omega
  rw [popUnchecked, run_get_bind, run_bind_of_ok (run_mapM_assumeInit h _ hoffsets),
    run_bind_of_ok (run_setLen _ _), List.map_map,
    ListStack.reverse_drop_eq_map_range (h.len_eq ▸ hk) 0, h.len_eq]
  rfl

/-! ## Each method, from a state that holds a list -/

/-- The state after a push of `v`: the slot at the length written, and one more element. -/
def pushed (s : EvmStack) (v : U256) : EvmStack :=
  ⟨Function.update s.buffer s.len (some v), s.len + 1⟩

theorem Refines.pushed (h : Refines s l) (hl : l.length < stackSize) (v : U256) :
    Refines (s.pushed v) (l ++ [v]) :=
  ⟨h.1.write_push v, by rw [EvmStack.pushed, h.len_eq]; exact hl⟩

theorem Refines.popped (h : Refines s l) {k : Nat} (hk : k ≤ s.len) :
    Refines { s with len := s.len - k } (l.take (l.length - k)) :=
  ⟨h.len_eq ▸ h.1.shrink (Nat.sub_le _ _), by have := h.2; dsimp only; omega⟩

theorem Refines.write_lt (h : Refines s l) {i : Nat} (hi : i < s.len) (v : U256) :
    Refines { s with buffer := Function.update s.buffer i (some v) } (l.set i v) :=
  ⟨h.1.write_lt hi v, h.2⟩

theorem Refines.write_ge (h : Refines s l) {i : Nat} (hi : s.len ≤ i) (v : U256) :
    Refines { s with buffer := Function.update s.buffer i (some v) } l :=
  ⟨h.1.write_ge hi (some v), h.2⟩

theorem run_push_of_lt (h : Refines s l) (hl : l.length < stackSize) (v : U256) :
    (push v).run s = .ok () (s.pushed v) := by
  have hne : s.len ≠ stackSize := by rw [h.len_eq]; omega
  rw [push, run_get_bind, if_neg hne]
  dsimp only
  rw [run_bind_of_ok (run_writeSlot le_rfl (by rw [h.len_eq]; exact hl) v)]
  rfl

theorem run_push_of_not_lt (h : Refines s l) (hl : ¬ l.length < stackSize) (v : U256) :
    (push v).run s = .error (.exit .stackOverflow) s := by
  have heq : s.len = stackSize := by have := h.length_le; rw [h.len_eq]; omega
  rw [push, run_get_bind, if_pos heq]
  rfl

theorem run_popN_of_le (h : Refines s l) {k : Nat} (hk : k ≤ l.length) :
    (popN k).run s = .ok ((l.drop (l.length - k)).reverse) { s with len := s.len - k } := by
  have hk' : ¬ s.len < k := by rw [h.len_eq]; omega
  rw [popN, run_get_bind, if_neg hk']
  exact run_popUnchecked h (by omega)

theorem run_popN_of_not_le (h : Refines s l) {k : Nat} (hk : ¬ k ≤ l.length) :
    (popN k).run s = .error (.exit .stackUnderflow) s := by
  have hk' : s.len < k := by rw [h.len_eq]; omega
  rw [popN, run_get_bind, if_pos hk']
  rfl

theorem run_popAndIgnore_of_pos (h : Refines s l) (hl : 0 < l.length) :
    popAndIgnore.run s = .ok () { s with len := s.len - 1 } := by
  have hne : s.len ≠ 0 := by rw [h.len_eq]; omega
  rw [popAndIgnore, run_get_bind, if_neg hne]
  rfl

theorem run_popAndIgnore_of_nil (hl : s.len = 0) :
    popAndIgnore.run s = .error (.exit .stackUnderflow) s := by
  rw [popAndIgnore, run_get_bind, if_pos hl]
  rfl

theorem run_dup_of_le (h : Refines s l) (hl : l.length < stackSize) {n : Nat} (hn : 0 < n)
    (hnl : n ≤ l.length) :
    (dup n).run s = .ok () (s.pushed (l.getD (l.length - n) 0)) := by
  have hne : s.len ≠ stackSize := by rw [h.len_eq]; omega
  have hnl' : ¬ n > s.len := by rw [h.len_eq]; omega
  rw [← h.len_eq, dup, run_get_bind, if_neg hne]
  dsimp only
  rw [if_neg hnl', run_bind_of_ok (run_assumeInit h (by omega)),
    run_bind_of_ok (run_writeSlot le_rfl (by rw [h.len_eq]; exact hl) _)]
  rfl

theorem run_dup_of_not_lt (h : Refines s l) (hl : ¬ l.length < stackSize) (n : Nat) :
    (dup n).run s = .error (.exit .stackOverflow) s := by
  have heq : s.len = stackSize := by have := h.length_le; rw [h.len_eq]; omega
  rw [dup, run_get_bind, if_pos heq]
  rfl

theorem run_dup_of_lt (h : Refines s l) (hl : l.length < stackSize) {n : Nat}
    (hnl : l.length < n) : (dup n).run s = .error (.exit .stackUnderflow) s := by
  have hne : s.len ≠ stackSize := by rw [h.len_eq]; omega
  have hnl' : n > s.len := by rw [h.len_eq]; omega
  rw [dup, run_get_bind, if_neg hne]
  dsimp only
  rw [if_pos hnl']
  rfl

theorem run_swap_of_lt (h : Refines s l) {n : Nat} (hn : n < l.length) :
    ∃ s', (swap n).run s = .ok () s' ∧
      Refines s' ((l.set (l.length - 1) (l.getD (l.length - 1 - n) 0)).set (l.length - 1 - n)
        (l.getD (l.length - 1) 0)) := by
  have hn' : n < s.len := by rw [h.len_eq]; exact hn
  have hsize := h.2
  rw [← h.len_eq, swap, run_get_bind, if_neg (by omega)]
  dsimp only
  rw [if_neg (by omega), run_bind_of_ok (run_assumeInit h (by omega)),
    run_bind_of_ok (run_assumeInit h (by omega)),
    run_bind_of_ok (run_writeSlot (by omega) (by omega) _)]
  have h₁ := h.write_lt (i := s.len - 1) (by omega) (l.getD (s.len - 1 - n) 0)
  exact ⟨_, run_writeSlot (by dsimp only; omega) (by omega) _, h₁.write_lt (by dsimp only; omega) _⟩

theorem run_swap_of_not_lt (h : Refines s l) {n : Nat} (hn : ¬ n < l.length) :
    (swap n).run s = .error (.exit .stackUnderflow) s := by
  rw [swap, run_get_bind]
  by_cases hne : s.len = 0
  · rw [if_pos hne]
    rfl
  · have hn' : n > s.len - 1 := by rw [h.len_eq] at hne ⊢; omega
    rw [if_neg hne]
    dsimp only
    rw [if_pos hn']
    rfl

theorem run_popAndPeekMut_of_lt (h : Refines s l) {k : Nat} (hk : k < l.length) :
    (popAndPeekMut k).run s = .ok ((l.drop (l.length - k)).reverse,
      ⟨l.length - (k + 1), l.getD (l.length - (k + 1)) 0⟩) { s with len := s.len - k } := by
  have hk' : ¬ s.len < k + 1 := by rw [h.len_eq]; omega
  have hpopped := h.popped (k := k) (by omega)
  rw [popAndPeekMut, run_get_bind, if_neg hk']
  dsimp only
  rw [run_bind_of_ok (run_popUnchecked h (by omega)), run_get_bind,
    run_bind_of_ok (run_assumeInitMut hpopped (by dsimp only; omega))]
  have hslot : s.len - k - 1 = l.length - (k + 1) := by rw [h.len_eq]; omega
  show Result.ok (_, MutRef.mk (s.len - k - 1) ((l.take (l.length - k)).getD (s.len - k - 1) 0)) _
    = _
  rw [hslot, ListStack.getD_take_of_lt (by omega)]

theorem run_popAndPeekMut_of_le (h : Refines s l) {k : Nat} (hk : l.length ≤ k) :
    (popAndPeekMut k).run s = .error (.exit .stackUnderflow) s := by
  have hk' : s.len < k + 1 := by rw [h.len_eq]; omega
  rw [popAndPeekMut, run_get_bind, if_pos hk']
  rfl

theorem run_pop1MutAndPeek_of_le (h : Refines s l) (hl : 2 ≤ l.length) :
    pop1MutAndPeek.run s = .ok (⟨l.length - 1, l.getD (l.length - 1) 0⟩,
      ⟨l.length - 2, l.getD (l.length - 2) 0⟩) { s with len := s.len - 1 } := by
  have hl' : ¬ s.len < 2 := by rw [h.len_eq]; omega
  have hpopped := h.popped (k := 1) (by omega)
  rw [← h.len_eq, pop1MutAndPeek, run_get_bind, if_neg hl']
  dsimp only
  rw [run_bind_of_ok (run_assumeInitMut h (by omega)), run_bind_of_ok (run_setLen _ _),
    run_bind_of_ok (run_assumeInitMut hpopped (by dsimp only; omega))]
  have hlen := h.len_eq
  show Result.ok (_, MutRef.mk (s.len - 1 - 1) ((l.take (l.length - 1)).getD (s.len - 1 - 1) 0)) _
    = _
  rw [Nat.sub_sub, ListStack.getD_take_of_lt (by omega)]

theorem run_pop1MutAndPeek_of_lt (h : Refines s l) (hl : l.length < 2) :
    pop1MutAndPeek.run s = .error (.exit .stackUnderflow) s := by
  have hl' : s.len < 2 := by rw [h.len_eq]; exact hl
  rw [pop1MutAndPeek, run_get_bind, if_pos hl']
  rfl

end EvmStack

/-! ## Calls of the methods, and the same calls on the list -/

/-- A call of a method of `EvmStack`, with what its caller writes through the references it returns;
`dup n` and `swap n` are `DUP(n+1)` and `SWAP(n+1)`. -/
inductive Op where
  | push (v : U256)
  | pushZero
  | pushOne
  | popAndIgnore
  | pop1
  | pop2
  | pop3
  | pop4
  | dup (n : Fin 16)
  | swap (n : Fin 16)
  | topMut (f : List U256 → U256)
  | pop1AndPeekMut (f : List U256 → U256)
  | pop2AndPeekMut (f : List U256 → U256)
  | pop1MutAndPeek (f : List U256 → U256 × U256)

namespace EvmStack

/-- An instruction's use of a combinator's references: write `f` of the operands, top first, into
the peeked slot. -/
def writeResult (ps : List U256) (r : MutRef) (f : List U256 → U256) : M (List U256) := do
  writeSlot r.slot (f (ps ++ [r.value]))
  pure (ps ++ [r.value])

end EvmStack

open EvmStack in
/-- A call on the stack, with the values it hands back, top first. -/
def Op.exec : Op → EvmStack.M (List U256)
  | .push v => do EvmStack.push v; pure []
  | .pushZero => do EvmStack.pushZero; pure []
  | .pushOne => do EvmStack.pushOne; pure []
  | .popAndIgnore => do EvmStack.popAndIgnore; pure []
  | .pop1 => EvmStack.pop1
  | .pop2 => EvmStack.pop2
  | .pop3 => EvmStack.pop3
  | .pop4 => EvmStack.pop4
  | .dup n => do EvmStack.dup (n.val + 1); pure []
  | .swap n => do EvmStack.swap (n.val + 1); pure []
  | .topMut f => do
    let r ← EvmStack.topMut
    writeResult [] r f
  | .pop1AndPeekMut f => do
    let (ps, r) ← EvmStack.pop1AndPeekMut
    writeResult ps r f
  | .pop2AndPeekMut f => do
    let (ps, r) ← EvmStack.pop2AndPeekMut
    writeResult ps r f
  | .pop1MutAndPeek f => do
    let (p0, r) ← EvmStack.pop1MutAndPeek
    let (v0, v1) := f [p0.value, r.value]
    writeSlot p0.slot v0
    writeSlot r.slot v1
    pure [p0.value, r.value]

/-- The same call on the list: the values it hands back and the new list. -/
def Op.spec : Op → List U256 → Except ListStack.Fault (List U256 × List U256)
  | .push v, l => (([], ·)) <$> ListStack.push stackSize v l
  | .pushZero, l => (([], ·)) <$> ListStack.push stackSize 0 l
  | .pushOne, l => (([], ·)) <$> ListStack.push stackSize 1 l
  | .popAndIgnore, l => (fun r => ([], r.2)) <$> ListStack.pop 1 l
  | .pop1, l => ListStack.pop 1 l
  | .pop2, l => ListStack.pop 2 l
  | .pop3, l => ListStack.pop 3 l
  | .pop4, l => ListStack.pop 4 l
  | .dup n, l => (([], ·)) <$> ListStack.dup stackSize (n.val + 1) l
  | .swap n, l => (([], ·)) <$> ListStack.swap (n.val + 1) l
  | .topMut f, l => ListStack.apply 1 f l
  | .pop1AndPeekMut f, l => ListStack.apply 2 f l
  | .pop2AndPeekMut f, l => ListStack.apply 3 f l
  | .pop1MutAndPeek f, l => ListStack.apply 2 (fun ops => (f ops).2) l

namespace EvmStack

/-- A call ends as the same call on the list: the same values and a state that holds the new list,
or the exit code of the same fault with the state unchanged. -/
def Matches (s : EvmStack) : Result StackFault EvmStack (List U256) →
    Except ListStack.Fault (List U256 × List U256) → Prop
  | .ok out s', .ok (out', l') => out = out' ∧ Refines s' l'
  | .error e s', .error f => e = .exit (exitCodeOf f) ∧ s' = s
  | _, _ => False

variable {s : EvmStack} {l : List U256}

theorem matches_push (h : Refines s l) (v : U256) :
    Matches s ((Op.push v).exec.run s) ((Op.push v).spec l) := by
  by_cases hl : l.length < stackSize
  · rw [Op.exec, run_bind_of_ok (run_push_of_lt h hl v), Op.spec, ListStack.push_of_lt hl]
    exact ⟨rfl, h.pushed hl v⟩
  · rw [Op.exec, run_bind_of_error (run_push_of_not_lt h hl v), Op.spec,
      ListStack.push_of_not_lt hl]
    exact ⟨rfl, rfl⟩

theorem matches_popN (h : Refines s l) (k : Nat) :
    Matches s ((popN k).run s) (ListStack.pop k l) := by
  by_cases hk : k ≤ l.length
  · rw [run_popN_of_le h hk, ListStack.pop_of_le hk]
    exact ⟨rfl, h.popped (by rw [h.len_eq]; exact hk)⟩
  · rw [run_popN_of_not_le h hk, ListStack.pop_of_not_le hk]
    exact ⟨rfl, rfl⟩

theorem matches_popAndIgnore (h : Refines s l) :
    Matches s (Op.popAndIgnore.exec.run s) (Op.popAndIgnore.spec l) := by
  by_cases hl : 1 ≤ l.length
  · rw [Op.exec, run_bind_of_ok (run_popAndIgnore_of_pos h hl), Op.spec, ListStack.pop_of_le hl]
    exact ⟨rfl, h.popped (by rw [h.len_eq]; exact hl)⟩
  · rw [Op.exec, run_bind_of_error (run_popAndIgnore_of_nil (by rw [h.len_eq]; omega)), Op.spec,
      ListStack.pop_of_not_le hl]
    exact ⟨rfl, rfl⟩

theorem matches_dup (h : Refines s l) (n : Fin 16) :
    Matches s ((Op.dup n).exec.run s) ((Op.dup n).spec l) := by
  rw [Op.exec, Op.spec]
  by_cases hl : l.length < stackSize
  · by_cases hn : n.val + 1 ≤ l.length
    · rw [run_bind_of_ok (run_dup_of_le h hl (Nat.succ_pos _) hn),
        ListStack.dup_of_le hl (Nat.succ_pos _) hn 0]
      exact ⟨rfl, h.pushed hl _⟩
    · rw [run_bind_of_error (run_dup_of_lt h hl (by omega)), ListStack.dup_of_lt hl (by omega)]
      exact ⟨rfl, rfl⟩
  · rw [run_bind_of_error (run_dup_of_not_lt h hl _), ListStack.dup_of_not_lt hl]
    exact ⟨rfl, rfl⟩

theorem matches_swap (h : Refines s l) (n : Fin 16) :
    Matches s ((Op.swap n).exec.run s) ((Op.swap n).spec l) := by
  rw [Op.exec, Op.spec]
  by_cases hn : n.val + 1 < l.length
  · obtain ⟨s', hrun, hs'⟩ := run_swap_of_lt h hn
    rw [run_bind_of_ok hrun, ListStack.swap_of_lt hn 0]
    exact ⟨rfl, hs'⟩
  · rw [run_bind_of_error (run_swap_of_not_lt h hn), ListStack.swap_of_not_lt hn]
    exact ⟨rfl, rfl⟩

theorem matches_writeResult (h : Refines s l) {k : Nat} (hk : k < l.length)
    (f : List U256 → U256) {ps : List U256} (hps : ps = (l.drop (l.length - k)).reverse) :
    Matches s ((writeResult ps ⟨l.length - (k + 1), l.getD (l.length - (k + 1)) 0⟩ f).run
      { s with len := s.len - k }) (ListStack.apply (k + 1) f l) := by
  have hpopped := h.popped (k := k) (by rw [h.len_eq]; omega)
  have hsize := h.2
  have hlen := h.len_eq
  rw [ListStack.apply_of_le (show k + 1 ≤ l.length by omega) f, ListStack.reverse_drop_succ hk 0,
    ← hps, writeResult, run_bind_of_ok (run_writeSlot (by dsimp only; omega) (by dsimp only; omega) _)]
  refine ⟨rfl, ?_⟩
  have hset := hpopped.write_lt (i := l.length - (k + 1)) (by dsimp only; omega)
    (f (ps ++ [l.getD (l.length - (k + 1)) 0]))
  rwa [ListStack.take_set_of_succ_eq (by omega) (by omega)] at hset

theorem matches_popAndPeekMut (h : Refines s l) (k : Nat) (f : List U256 → U256) :
    Matches s ((do let (ps, r) ← popAndPeekMut k; writeResult ps r f).run s)
      (ListStack.apply (k + 1) f l) := by
  by_cases hk : k < l.length
  · rw [run_bind_of_ok (run_popAndPeekMut_of_lt h hk)]
    exact matches_writeResult h hk f rfl
  · rw [run_bind_of_error (run_popAndPeekMut_of_le h (by omega)),
      ListStack.apply_of_not_le (by omega)]
    exact ⟨rfl, rfl⟩

theorem matches_topMut (h : Refines s l) (f : List U256 → U256) :
    Matches s ((Op.topMut f).exec.run s) ((Op.topMut f).spec l) := by
  rw [Op.exec, Op.spec, topMut]
  by_cases hl : 0 < l.length
  · rw [run_bind_of_ok (by rw [run_map_eq_match, run_popAndPeekMut_of_lt h hl])]
    exact matches_writeResult h hl f (by simp)
  · rw [run_bind_of_error (by rw [run_map_eq_match, run_popAndPeekMut_of_le h (by omega)]),
      ListStack.apply_of_not_le (by omega)]
    exact ⟨rfl, rfl⟩

theorem matches_pop1MutAndPeek (h : Refines s l) (f : List U256 → U256 × U256) :
    Matches s ((Op.pop1MutAndPeek f).exec.run s) ((Op.pop1MutAndPeek f).spec l) := by
  rw [Op.exec, Op.spec]
  by_cases hl : 2 ≤ l.length
  · have hpopped := h.popped (k := 1) (by rw [h.len_eq]; omega)
    have hsize := h.2
    have hlen := h.len_eq
    have htop : (l.drop (l.length - 2)).reverse =
        [l.getD (l.length - 1) 0, l.getD (l.length - 2) 0] := by
      rw [ListStack.reverse_drop_eq_map_range hl 0]
      simp [List.range_succ, Nat.sub_sub]
    rw [run_bind_of_ok (run_pop1MutAndPeek_of_le h hl), ListStack.apply_of_le hl, htop]
    dsimp only
    rw [run_bind_of_ok (run_writeSlot (by dsimp only; omega) (by omega) _),
      run_bind_of_ok (run_writeSlot (by dsimp only; omega) (by omega) _)]
    refine ⟨rfl, ?_⟩
    -- the first write lands on the popped slot, now at the length, the second on the new top
    have hset := (hpopped.write_ge (i := l.length - 1) (by dsimp only; omega)
      (f [l.getD (l.length - 1) 0, l.getD (l.length - 2) 0]).1).write_lt
      (i := l.length - 2) (by dsimp only; omega) (f [l.getD (l.length - 1) 0, l.getD (l.length - 2) 0]).2
    rwa [ListStack.take_set_of_succ_eq (by omega) (by omega)] at hset
  · rw [run_bind_of_error (run_pop1MutAndPeek_of_lt h (by omega)),
      ListStack.apply_of_not_le hl]
    exact ⟨rfl, rfl⟩

/-- Every call from a state that holds `l` ends as the same call on `l`. -/
theorem exec_matches (op : Op) (h : Refines s l) : Matches s (op.exec.run s) (op.spec l) := by
  cases op with
  | push v => exact matches_push h v
  | pushZero => exact matches_push h 0
  | pushOne => exact matches_push h 1
  | popAndIgnore => exact matches_popAndIgnore h
  | pop1 => exact matches_popN h 1
  | pop2 => exact matches_popN h 2
  | pop3 => exact matches_popN h 3
  | pop4 => exact matches_popN h 4
  | dup n => exact matches_dup h n
  | swap n => exact matches_swap h n
  | topMut f => exact matches_topMut h f
  | pop1AndPeekMut f => exact matches_popAndPeekMut h 1 f
  | pop2AndPeekMut f => exact matches_popAndPeekMut h 2 f
  | pop1MutAndPeek f => exact matches_pop1MutAndPeek h f

/-! ## Sequences of calls -/

/-- Calls one after another, each from the state the one before leaves: what each hands back or
how it ends, and the last state. -/
def runOps : List Op → EvmStack → List (Except StackFault (List U256)) × EvmStack
  | [], s => ([], s)
  | op :: ops, s =>
    match op.exec.run s with
    | .ok out s' => (.ok out :: (runOps ops s').1, (runOps ops s').2)
    | .error e s' => (.error e :: (runOps ops s').1, (runOps ops s').2)

/-- The same calls on the list. -/
def specOps : List Op → List U256 → List (Except ListStack.Fault (List U256)) × List U256
  | [], l => ([], l)
  | op :: ops, l =>
    match op.spec l with
    | .ok (out, l') => (.ok out :: (specOps ops l').1, (specOps ops l').2)
    | .error f => (.error f :: (specOps ops l).1, (specOps ops l).2)

/-- A stack fault as the stack reports it. -/
def reportFault (r : Except ListStack.Fault (List U256)) : Except StackFault (List U256) :=
  r.mapError fun f => .exit (exitCodeOf f)

/-- From a state that holds `l`, every sequence of calls ends as the same calls on `l`, one by
one, in a state that holds the list they leave. -/
theorem runOps_matches : ∀ (ops : List Op) {s : EvmStack} {l : List U256}, Refines s l →
    (runOps ops s).1 = (specOps ops l).1.map reportFault ∧ Refines (runOps ops s).2 (specOps ops l).2
  | [], _, _, h => ⟨rfl, h⟩
  | op :: ops, s, l, h => by
    have hm := exec_matches op h
    unfold runOps specOps
    generalize op.exec.run s = r at hm ⊢
    generalize op.spec l = a at hm ⊢
    match r, a, hm with
    | .ok out s', .ok (_, l'), ⟨rfl, h'⟩ =>
      obtain ⟨ih, ih'⟩ := runOps_matches ops h'
      exact ⟨by dsimp only; rw [ih]; rfl, ih'⟩
    | .error _ _, .error _, ⟨rfl, rfl⟩ =>
      obtain ⟨ih, ih'⟩ := runOps_matches ops h
      exact ⟨by dsimp only; rw [ih]; rfl, ih'⟩

example : (runOps [.push 5, .push 7, .swap 0, .dup 1, .pop3, .pop1] newIn).1 =
    [.ok [], .ok [], .ok [], .ok [], .ok [7, 5, 7], .error (.exit .stackUnderflow)] := by
  rfl

theorem reportFault_ne_undefinedBehavior (r : Except ListStack.Fault (List U256)) :
    reportFault r ≠ .error .undefinedBehavior := by
  cases r <;> simp [reportFault, Except.mapError]

/-- `EvmStack` refines the bounded list: from `new_in` every sequence of calls ends as on the list,
never in undefined behaviour. -/
theorem evm_stack_refines_bounded_list (ops : List Op) :
    (runOps ops newIn).1 = (specOps ops []).1.map reportFault ∧
      (∀ r ∈ (runOps ops newIn).1, r ≠ .error .undefinedBehavior) ∧
      Refines (runOps ops newIn).2 (specOps ops []).2 := by
  obtain ⟨hrun, hstate⟩ := runOps_matches ops refines_newIn
  refine ⟨hrun, ?_, hstate⟩
  intro r hr
  rw [hrun, List.mem_map] at hr
  obtain ⟨a, -, rfl⟩ := hr
  exact reportFault_ne_undefinedBehavior a

end EvmStack

end ZksyncOs.Evm
