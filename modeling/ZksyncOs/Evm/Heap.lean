import Mathlib
import ZksyncOs.Evm.Stack
import ZksyncOs.Evm.YellowPaperMemory

/-!
# The heap of an EVM frame, and the instructions that use it

`evm_interpreter::instructions::heap` (MLOAD, MSTORE, MSTORE8, MSIZE, MCOPY) and the copying
instructions of `::system` (CODECOPY, CALLDATALOAD, CALLDATACOPY, RETURNDATACOPY), with what they
call: `resize_heap_implementation` and `cast_to_usize` (`utils.rs`), `Gas::pay_for_memory_growth`
and `gas_utils::copy_cost` (`gas.rs`), `SliceVec::resize` (`zk_ee::memory::slice_vec`) and
`copy_and_zeropad_nonoverlapping` (`zk_ee::utils::convenience::memcopy`).

The heap is a `SliceVec<u8>` over the frame's part of the call stack's memory. It is read and
written in two ways: through raw pointers (MLOAD, MSTORE, MCOPY, and CALLDATALOAD on the calldata),
undefined behaviour outside the bytes they may access; and through checked indexes and slices
(MSTORE8 and the copies from the input buffers), a panic outside them.

* `SliceVec`, `SliceVec.resize` : the contents and the capacity of the buffer under them;
  `resize` fails from the capacity on, so the contents never fill the buffer;
* `payForMemoryGrowth`, `resizeHeapImplementation` : the heap grows to the next multiple of 32
  bytes at or above `offset + len`, and the frame pays `C_mem` of the new size less what it paid;
* `mload` .. `returndatacopy` : the instructions; `exec` and `run` : one of them, and a sequence;
* `resizeHeapImplementation_ok` : a resize that succeeds makes the heap `M(μ_i, offset, len)`
  words of the old bytes and zeros, and charges the growth of `C_mem` exactly;
* `run_spend_bind` .. `run_readRaw_bind` : what a step of an instruction that succeeds says of
  the state, and the state it hands to the rest of the instruction;
* `preserves_stack_core` .. `preserves_stack_copyIntoHeap` : every step but the stack accesses
  leaves the stack alone.
-/

namespace ZksyncOs.Evm

open EStateM FlatMemory YellowPaper

/-! ## `SliceVec` -/

/-- `SliceVec`: the initialized part `memory[..length]` of a borrowed buffer, and the buffer's
length `memory.len()`, which the contents never exceed. -/
structure SliceVec (α : Type) where
  contents : List α
  capacity : Nat
  length_le : contents.length ≤ capacity

namespace SliceVec

variable {α : Type}

/-- The contents `resize` leaves: padded with `padding` when they grow, cut when they shrink. -/
def resized (v : SliceVec α) (newLength : Nat) (padding : α) : List α :=
  if newLength > v.contents.length then
    v.contents ++ List.replicate (newLength - v.contents.length) padding
  else v.contents.take newLength

theorem length_resized (v : SliceVec α) (newLength : Nat) (padding : α) :
    (v.resized newLength padding).length = newLength := by
  unfold resized
  split <;> simp <;> omega

theorem length_resized_le (v : SliceVec α) {newLength : Nat} (h : ¬newLength ≥ v.capacity)
    (padding : α) : (v.resized newLength padding).length ≤ v.capacity := by
  rw [length_resized]
  omega

/-- `resize`: `Err` from the capacity on; the padding is written into `memory[length..new_length]`,
or the slots from `new_length` on are dropped. -/
def resize (v : SliceVec α) (newLength : Nat) (padding : α) : Option (SliceVec α) :=
  if h : newLength ≥ v.capacity then none
  else some ⟨v.resized newLength padding, v.capacity, v.length_resized_le h padding⟩

theorem length_splice_le (v : SliceVec α) {offset : Nat} {src : List α}
    (h : offset + src.length ≤ v.contents.length) :
    (splice v.contents offset src).length ≤ v.capacity := by
  rw [length_splice _ h]
  exact v.length_le

/-- `src` written over the contents from `offset` through `deref_mut`: the length stays. -/
def overwrite (v : SliceVec α) (offset : Nat) (src : List α)
    (h : offset + src.length ≤ v.contents.length) : SliceVec α :=
  ⟨splice v.contents offset src, v.capacity, v.length_splice_le h⟩

theorem resize_eq_some {v v' : SliceVec α} {newLength : Nat} {padding : α}
    (h : v.resize newLength padding = some v') :
    newLength < v.capacity ∧ v'.contents = v.resized newLength padding := by
  unfold resize at h
  split at h
  · cases h
  · cases h
    exact ⟨by omega, rfl⟩

end SliceVec

/-! ## The state and the outcomes -/

namespace Heap

/-- How a heap instruction fails: an `ExitCode`, a panic of a checked access, or undefined behaviour
of a raw pointer. -/
inductive Fault where
  | exit (code : ExitCode)
  | memoryOOG
  | memoryLimitOOG
  | invalidOperandOOG
  | outOfOffset
  | panic
  | undefinedBehavior
deriving DecidableEq, Repr

/-- The fault is an `ExitCode`: neither a panic nor undefined behaviour. -/
def Fault.IsExit : Fault → Prop
  | .panic => False
  | .undefinedBehavior => False
  | _ => True

/-- The fields of `Interpreter` the heap instructions use; the input buffers fit the 32-bit target.
-/
structure Interpreter where
  stack : List U256
  resources : Resources
  gasPaidForHeapGrowth : Nat
  heap : SliceVec UInt8
  calldata : List UInt8
  returndata : List UInt8
  bytecode : List UInt8
  calldata_lt : calldata.length < 2 ^ 32
  returndata_lt : returndata.length < 2 ^ 32
  bytecode_lt : bytecode.length < 2 ^ 32

/-- A heap instruction, or a part of one. -/
abbrev Step (α : Type) := EStateM Fault Interpreter α

/-- A step of the arithmetic model, on the stack and the resources, its `ExitCode` the fault. -/
def core {α : Type} (x : InstructionStep α) : Step α :=
  focus (fun s => ⟨s.stack, s.resources⟩)
    (fun s t => { s with stack := t.stack, resources := t.resources })
    (EStateM.adaptExcept Fault.exit x)

/-- `?` on a `Result<_, ExitCode>`. -/
def ofResult {α : Type} : Except ExitCode α → Step α
  | .ok a => pure a
  | .error e => throw (.exit e)

theorem run_core_eq_ok {α : Type} {x : InstructionStep α} {s s' : Interpreter} {a : α} :
    (core x).run s = .ok a s' ↔
      ∃ t, x.run ⟨s.stack, s.resources⟩ = .ok a t ∧
        s' = { s with stack := t.stack, resources := t.resources } := by
  unfold core
  rw [run_focus]
  cases hx : (EStateM.adaptExcept Fault.exit x).run ⟨s.stack, s.resources⟩ with
  | ok b t =>
    rw [run_adaptExcept_eq_ok] at hx
    simp only [Result.ok.injEq]
    constructor
    · rintro ⟨rfl, rfl⟩
      exact ⟨t, hx, rfl⟩
    · rintro ⟨t', hx', rfl⟩
      rw [hx] at hx'
      cases hx'
      exact ⟨rfl, rfl⟩
  | error e t =>
    simp only [reduceCtorEq, false_iff, not_exists, not_and]
    intro t' hx'
    rw [← run_adaptExcept_eq_ok (f := Fault.exit), hx] at hx'
    cases hx'

end Heap

/-! ## The stack -/

namespace Interpreter

/-- `pop_2`: the top two words, the top first. -/
def pop2 : InstructionStep (U256 × U256) := fun st =>
  match st.stack with
  | a :: b :: rest => .ok (a, b) { st with stack := rest }
  | _ => .error .stackUnderflow st

/-- `pop_3`: the top three words, the top first. -/
def pop3 : InstructionStep (U256 × U256 × U256) := fun st =>
  match st.stack with
  | a :: b :: c :: rest => .ok (a, b, c) { st with stack := rest }
  | _ => .error .stackUnderflow st

/-- `push`: `StackOverflow` on a full stack. -/
def push (v : U256) : InstructionStep Unit := fun st =>
  if st.stack.length = stackSize then .error .stackOverflow st
  else .ok () { st with stack := v :: st.stack }

theorem run_spendGasAndNative_eq_ok {gas native : Nat} {st st' : Interpreter} {u : Unit} :
    (spendGasAndNative gas native).run st = .ok u st' ↔
      gas * ergsPerGas < 2 ^ 64 ∧ native ≤ st.resources.native ∧
        gas * ergsPerGas ≤ st.resources.ergs ∧ st' = { st with resources := spent st.resources gas native } := by
  constructor
  · intro h
    have hg : gas * ergsPerGas < 2 ^ 64 := by
      by_contra hg
      have hnone := Checked.checkedMul_eq_none_iff.mpr (Nat.le_of_not_lt hg)
      simp [EStateM.run, spendGasAndNative, hnone] at h
    have hc : (st.resources.charge ⟨gas * ergsPerGas, native⟩).2 = .ok () := by
      cases hr : st.resources.charge ⟨gas * ergsPerGas, native⟩ with
      | mk r res =>
        cases res with
        | ok v => rfl
        | error e => simp [EStateM.run, spendGasAndNative, Checked.checkedMul_of_lt hg, hr] at h
    obtain ⟨hn, he⟩ := (Resources.charge_ok_iff _ _).mp hc
    refine ⟨hg, hn, he, ?_⟩
    rw [run_spendGasAndNative hg hn he] at h
    cases h
    rfl
  · rintro ⟨hg, hn, he, rfl⟩
    rw [run_spendGasAndNative hg hn he]

theorem ofSystemError_ne_stackUnderflow (e : SystemError) :
    ExitCode.ofSystemError e ≠ .stackUnderflow := by
  cases e <;> simp [ExitCode.ofSystemError]

theorem spendGasAndNative_eq_error {gas native : Nat} {st st' : Interpreter} {c : ExitCode}
    (h : (spendGasAndNative gas native).run st = .error c st') :
    c ≠ .stackUnderflow ∧ st'.stack = st.stack := by
  simp only [EStateM.run, spendGasAndNative] at h
  split at h
  · cases h
    exact ⟨by decide, rfl⟩
  · split at h
    · cases h
    · cases h
      exact ⟨ofSystemError_ne_stackUnderflow _, rfl⟩

theorem run_topMut_eq_ok {st st' : Interpreter} {a : U256} :
    topMut.run st = .ok a st' ↔ ∃ rest, st.stack = a :: rest ∧ st' = st := by
  obtain ⟨stack, r⟩ := st
  cases stack with
  | nil => simp [EStateM.run, topMut]
  | cons b rest =>
    simp only [EStateM.run, topMut, Result.ok.injEq, List.cons.injEq]
    constructor
    · rintro ⟨rfl, rfl⟩
      exact ⟨rest, ⟨rfl, rfl⟩, rfl⟩
    · rintro ⟨rest', ⟨rfl, rfl⟩, rfl⟩
      exact ⟨rfl, rfl⟩

theorem run_pop2_eq_ok {st st' : Interpreter} {p : U256 × U256} :
    pop2.run st = .ok p st' ↔ ∃ rest, st.stack = p.1 :: p.2 :: rest ∧ st' = { st with stack := rest } := by
  obtain ⟨stack, r⟩ := st
  match stack with
  | [] => simp [EStateM.run, pop2]
  | [_] => simp [EStateM.run, pop2]
  | a :: b :: rest =>
    obtain ⟨a', b'⟩ := p
    simp only [EStateM.run, pop2, Result.ok.injEq, Prod.mk.injEq, List.cons.injEq]
    constructor
    · rintro ⟨⟨rfl, rfl⟩, rfl⟩
      exact ⟨rest, ⟨rfl, rfl, rfl⟩, rfl⟩
    · rintro ⟨rest', ⟨rfl, rfl, rfl⟩, rfl⟩
      exact ⟨⟨rfl, rfl⟩, rfl⟩

theorem run_push_eq_ok {st st' : Interpreter} {v : U256} {u : Unit} :
    (push v).run st = .ok u st' ↔ st.stack.length ≠ stackSize ∧ st' = { st with stack := v :: st.stack } := by
  unfold push
  by_cases h : st.stack.length = stackSize
  · simp [EStateM.run, h]
  · simp only [EStateM.run, h, ↓reduceIte, Result.ok.injEq, ne_eq, not_false_eq_true, true_and]
    exact eq_comm

theorem run_setTop (v : U256) (st : Interpreter) :
    (setTop v).run st = .ok () { st with stack := v :: st.stack.tail } := rfl

end Interpreter

/-! ## Gas -/

/-- `gas_constants::BASE`. -/
def gasBase : Nat := 2

/-- `gas_constants::MEMORY`. -/
def gasMemory : Nat := 3

/-- `gas_constants::COPY`. -/
def gasCopy : Nat := 3

def heapExpansionBaseNativeCost : Nat := 35
def heapExpansionPerByteNativeCost : Nat := 1
def copyBaseNativeCost : Nat := 80
def copyByteNativeCost : Nat := 1
def mloadNativeCost : Nat := 250
def mstoreNativeCost : Nat := 250
def mstore8NativeCost : Nat := 250
def msizeNativeCost : Nat := 40
def calldataloadNativeCost : Nat := 280
def calldatacopyNativeCost : Nat := 100
def codecopyNativeCost : Nat := 100
def returndatacopyNativeCost : Nat := 100

/-- `gas_utils::copy_cost`: `COPY` gas a word and `COPY_BYTE` native a byte over `COPY_BASE`,
`OutOfGas` when the `u64` arithmetic overflows. -/
def copyCost (len : Nat) : Except ExitCode (Nat × Nat) :=
  let getCost : Option (Nat × Nat) := do
    let numWords := (← Checked.checkedNextMultipleOf 64 len 32) / 32
    let gas ← Checked.checkedMul 64 gasCopy numWords
    let native ← Checked.checkedMul 64 copyByteNativeCost len
    let native ← Checked.checkedAdd 64 native.val copyBaseNativeCost
    pure (gas.val, native.val)
  Checked.okOr getCost ExitCode.outOfGas

def copyCostPlusVeryLowGas (len : Nat) : Except ExitCode (Nat × Nat) := do
  let (gasCost, nativeCost) ← copyCost len
  match Checked.checkedAdd 64 gasCost gasVerylow with
  | some gasCost => pure (gasCost.val, nativeCost)
  | none => throw .outOfGas

theorem nextMultipleOf_div_32 (n : Nat) : Checked.nextMultipleOf n 32 / 32 = (n + 31) / 32 := by
  rw [Checked.nextMultipleOf_eq (by decide)]
  omega

theorem copyCost_of_lt {len : Nat} (h : len < 2 ^ 32) :
    copyCost len = .ok (copyGas len, copyBaseNativeCost + len) := by
  have h₁ : Checked.nextMultipleOf len 32 < 2 ^ 64 := by
    rw [Checked.nextMultipleOf_eq (by decide)]
    omega
  have h₂ : gasCopy * (Checked.nextMultipleOf len 32 / 32) < 2 ^ 64 := by
    rw [nextMultipleOf_div_32]
    unfold gasCopy
    omega
  have h₃ : copyByteNativeCost * len < 2 ^ 64 := by
    unfold copyByteNativeCost
    omega
  have h₄ : copyByteNativeCost * len + copyBaseNativeCost < 2 ^ 64 := by
    unfold copyByteNativeCost copyBaseNativeCost
    omega
  simp only [copyCost, Checked.checkedNextMultipleOf, if_pos h₁, Checked.checkedMul_of_lt h₂,
    Checked.checkedMul_of_lt h₃, Checked.checkedAdd_of_lt h₄, Option.bind_eq_bind,
    Option.bind_some, Option.pure_def, Checked.okOr_some]
  rw [nextMultipleOf_div_32]
  unfold copyGas gasCopy gCopy copyByteNativeCost copyBaseNativeCost
  congr 2
  omega

theorem endCost_eq {w : Nat} (hw : 32 * w ≤ 2 ^ 32 - 32) :
    Checked.saturatingAdd 64 (Checked.saturatingMul 64 gasMemory w)
      (Checked.saturatingMul 64 w w / 512) = memoryCost w := by
  have hw' : w < 2 ^ 27 := by omega
  have hsq : w * w < 2 ^ 54 := by
    calc w * w < 2 ^ 27 * 2 ^ 27 := Nat.mul_lt_mul'' hw' hw'
      _ = 2 ^ 54 := by norm_num
  rw [Checked.saturatingMul_of_lt (by unfold gasMemory; omega),
    Checked.saturatingMul_of_lt (by omega), Checked.saturatingAdd_of_lt (by unfold gasMemory; omega)]
  unfold memoryCost gMemory gasMemory
  rw [sq]

theorem memoryCost_lt {w : Nat} (hw : 32 * w ≤ 2 ^ 32 - 32) : memoryCost w < 2 ^ 46 := by
  have hw' : w < 2 ^ 27 := by omega
  have hsq : w ^ 2 < 2 ^ 54 := by
    calc w ^ 2 < (2 ^ 27) ^ 2 := Nat.pow_lt_pow_left hw' (by decide)
      _ = 2 ^ 54 := by norm_num
  unfold memoryCost gMemory
  omega

namespace Heap

open Checked

/-- `Gas::pay_for_memory_growth`: charge `C_mem` of the new size less what was paid, in the
saturating `u64` arithmetic of the source, and native for the growth. -/
def payForMemoryGrowth (currentMsize newMsize : Nat) : Step Unit := do
  let s ← get
  let netByteIncrease := wrappingSub 32 newMsize currentMsize
  let newHeapSizeWords := newMsize / 32
  let endCost := saturatingAdd 64 (saturatingMul 64 gasMemory newHeapSizeWords)
    (saturatingMul 64 newHeapSizeWords newHeapSizeWords / 512)
  let netCostGas := wrappingSub 64 endCost s.gasPaidForHeapGrowth
  let netCostNative := saturatingAdd 64 heapExpansionBaseNativeCost
    (saturatingMul 64 heapExpansionPerByteNativeCost netByteIncrease)
  core (Evm.Interpreter.spendGasAndNative netCostGas netCostNative)
  modify fun s => { s with gasPaidForHeapGrowth := endCost }

/-- `heap.resize(new_heap_size, 0).map_err(|_| ExitCode::MemoryOOG)`. -/
def resizeHeap (newHeapSize : Nat) : Step Unit := fun s =>
  match s.heap.resize newHeapSize 0 with
  | some heap => .ok () { s with heap }
  | none => .error .memoryOOG s

/-- `resize_heap_implementation`: the saturating `usize` end of the access, `MemoryLimitOOG` past
`u32::MAX - 31`, and growth to the next multiple of 32, paid before the heap is resized. -/
def resizeHeapImplementation (offset len : Nat) : Step Unit := do
  let maxOffset := saturatingAdd 32 offset len
  if maxOffset > 2 ^ 32 - 1 - 31 then throw .memoryLimitOOG
  else
    let newHeapSize := Checked.nextMultipleOf maxOffset 32
    let currentHeapSize := (← get).heap.contents.length
    if newHeapSize > currentHeapSize then
      payForMemoryGrowth currentHeapSize newHeapSize
      resizeHeap newHeapSize
    else pure ()

theorem payForMemoryGrowth_ok {s s' : Interpreter} {w w' : Nat}
    (h : (payForMemoryGrowth (32 * w) (32 * w')).run s = .ok () s') (hw : w ≤ w')
    (hb : 32 * w' ≤ 2 ^ 32 - 32) (hpaid : s.gasPaidForHeapGrowth = memoryCost w) :
    ∃ r, s' = { s with resources := r, gasPaidForHeapGrowth := memoryCost w' } ∧
      s.resources.ergs = r.ergs + (memoryCost w' - memoryCost w) * ergsPerGas ∧
      s.resources.native = r.native + (heapExpansionBaseNativeCost + 32 * (w' - w)) := by
  have hdiv : 32 * w' / 32 = w' := by omega
  have hend := endCost_eq hb
  have hcost := memoryCost_mono hw
  have hnet : wrappingSub 64 (memoryCost w') (memoryCost w) = memoryCost w' - memoryCost w :=
    wrappingSub_of_le hcost (lt_trans (memoryCost_lt hb) (by norm_num))
  have hnative : saturatingAdd 64 heapExpansionBaseNativeCost
      (saturatingMul 64 heapExpansionPerByteNativeCost (wrappingSub 32 (32 * w') (32 * w))) =
      heapExpansionBaseNativeCost + 32 * (w' - w) := by
    rw [wrappingSub_of_le (by omega) (by omega), saturatingMul_of_lt (by unfold heapExpansionPerByteNativeCost; omega),
      saturatingAdd_of_lt (by unfold heapExpansionBaseNativeCost heapExpansionPerByteNativeCost; omega)]
    unfold heapExpansionPerByteNativeCost
    omega
  unfold payForMemoryGrowth at h
  rw [run_get_bind] at h
  simp only [hdiv, hend, hpaid, hnet, hnative] at h
  obtain ⟨_, s₁, h₁, h₂⟩ := run_bind_eq_ok.mp h
  obtain ⟨t, ht, rfl⟩ := run_core_eq_ok.mp h₁
  obtain ⟨-, hn, he, rfl⟩ := Evm.Interpreter.run_spendGasAndNative_eq_ok.mp ht
  cases h₂
  refine ⟨Evm.Interpreter.spent s.resources (memoryCost w' - memoryCost w)
    (heapExpansionBaseNativeCost + 32 * (w' - w)), rfl, ?_, ?_⟩
  all_goals
    simp only at hn he
    simp only [Evm.Interpreter.spent]
    omega

theorem resizeHeap_ok {s s' : Interpreter} {n : Nat} (h : (resizeHeap n).run s = .ok () s') :
    ∃ heap, s' = { s with heap } ∧ heap.contents = s.heap.resized n 0 := by
  unfold resizeHeap at h
  cases hr : s.heap.resize n 0 with
  | none => simp [EStateM.run, hr] at h
  | some heap =>
    simp only [EStateM.run, hr, Result.ok.injEq, true_and] at h
    exact ⟨heap, h.symm, (SliceVec.resize_eq_some hr).2⟩

theorem add_le_of_saturatingAdd {offset len : Nat}
    (h : ¬saturatingAdd 32 offset len > 2 ^ 32 - 1 - 31) :
    offset + len ≤ 2 ^ 32 - 32 ∧ saturatingAdd 32 offset len = offset + len := by
  unfold saturatingAdd at *
  omega

/-- A resize that succeeds grows the heap to `M(w, offset, len)` words with zeros and pays the
growth of `C_mem`. -/
theorem resizeHeapImplementation_ok {s s' : Interpreter} {w offset len : Nat}
    (h : (resizeHeapImplementation offset len).run s = .ok () s')
    (hlen : s.heap.contents.length = 32 * w) (hpaid : s.gasPaidForHeapGrowth = memoryCost w)
    (hl : len ≠ 0) :
    offset + len ≤ 2 ^ 32 - 32 ∧ ∃ r heap,
      s' = { s with
        resources := r, gasPaidForHeapGrowth := memoryCost (memoryExpansion w offset len),
        heap := heap } ∧
      heap.contents = s.heap.contents ++ List.replicate (32 * (memoryExpansion w offset len - w)) 0 ∧
      s.resources.ergs =
        r.ergs + (memoryCost (memoryExpansion w offset len) - memoryCost w) * ergsPerGas := by
  unfold resizeHeapImplementation at h
  by_cases hm : saturatingAdd 32 offset len > 2 ^ 32 - 1 - 31
  · rw [if_pos hm] at h
    exact absurd h run_throw_ne_ok
  obtain ⟨hend, hsat⟩ := add_le_of_saturatingAdd hm
  rw [if_neg hm, run_get_bind] at h
  simp only [hsat, hlen] at h
  -- the new size in words: `M(w, offset, len)` of the Yellow Paper
  have hw' : memoryExpansion w offset len = max w ((offset + len + 31) / 32) := if_neg hl
  have hnext : Checked.nextMultipleOf (offset + len) 32 = 32 * ((offset + len + 31) / 32) := by
    rw [Checked.nextMultipleOf_eq (by decide)]
    omega
  rw [hnext] at h
  refine ⟨hend, ?_⟩
  by_cases hg : 32 * ((offset + len + 31) / 32) > 32 * w
  · -- the heap grows: pay, then resize
    rw [if_pos hg] at h
    have hmax : memoryExpansion w offset len = (offset + len + 31) / 32 := by
      rw [hw']
      omega
    obtain ⟨_, s₁, h₁, h₂⟩ := run_bind_eq_ok.mp h
    obtain ⟨r, rfl, hergs, -⟩ := payForMemoryGrowth_ok h₁ (by omega) (by omega) hpaid
    obtain ⟨heap, rfl, hheap⟩ := resizeHeap_ok h₂
    refine ⟨r, heap, by rw [hmax], ?_, by rw [hmax]; exact hergs⟩
    rw [hheap, SliceVec.resized, if_pos (by simp only; omega), hmax]
    simp only [hlen]
    congr 2
    omega
  · -- the heap is large enough already
    rw [if_neg hg] at h
    have hmax : memoryExpansion w offset len = w := by
      rw [hw']
      omega
    obtain ⟨-, rfl⟩ := run_pure_eq_ok.mp h
    refine ⟨s.resources, s.heap, ?_, by simp [hmax], by simp [hmax]⟩
    rw [hmax, ← hpaid]

/-- `cast_to_usize`: the word as a `usize`, or `errorToSet`. -/
def castToUsize (src : U256) (errorToSet : Fault) : Step Nat := okOr (u256TryToUsize src) errorToSet

theorem run_castToUsize_eq_ok {src : U256} {e : Fault} {s s' : Interpreter} {n : Nat} :
    (castToUsize src e).run s = .ok n s' ↔ src.val < 2 ^ 32 ∧ n = src.val ∧ s' = s := by
  unfold castToUsize
  rw [u256TryToUsize_eq]
  by_cases h : src.val < 2 ^ 32
  · simp only [h, ↓reduceIte, okOr_some, run_pure_eq_ok, true_and]
    exact ⟨fun ⟨h₁, h₂⟩ => ⟨h₁.symm, h₂.symm⟩, fun ⟨h₁, h₂⟩ => ⟨h₁.symm, h₂.symm⟩⟩
  · simp only [h, ↓reduceIte, okOr_none, false_and, iff_false]
    exact run_throw_ne_ok

/-! ## Accesses -/

/-- `copy_nonoverlapping` of `n` bytes from `as_ptr().add(offset)` of a buffer: undefined behaviour
unless they are inside it. -/
def readRaw (buffer : Interpreter → List UInt8) (offset n : Nat) : Step (List UInt8) := fun s =>
  if offset + n ≤ (buffer s).length then .ok (slice (buffer s) offset n) s
  else .error .undefinedBehavior s

/-- `copy_nonoverlapping` of `src` to `heap.as_mut_ptr().add(offset)`: undefined behaviour unless
the bytes are inside the heap. -/
def writeHeapRaw (offset : Nat) (src : List UInt8) : Step Unit := fun s =>
  if h : offset + src.length ≤ s.heap.contents.length then
    .ok () { s with heap := s.heap.overwrite offset src h }
  else .error .undefinedBehavior s

/-- `heap[index] = value`: a panic outside the heap. -/
def setHeapByte (index : Nat) (value : UInt8) : Step Unit := fun s =>
  if h : index + [value].length ≤ s.heap.contents.length then
    .ok () { s with heap := s.heap.overwrite index [value] h }
  else .error .panic s

/-- `copy_and_zeropad_nonoverlapping(src, dst)`: the new `dst`, the first bytes of `src` and zeros
after them. -/
def copyAndZeropadNonoverlapping (src dst : List UInt8) : List UInt8 :=
  let toCopy := min src.length dst.length
  src.take toCopy ++ List.replicate (dst.length - toCopy) 0

theorem length_copyAndZeropadNonoverlapping (src dst : List UInt8) :
    (copyAndZeropadNonoverlapping src dst).length = dst.length := by
  simp [copyAndZeropadNonoverlapping]

theorem copyIntoHeap_bound {offset rangeEnd : Nat} (src : List UInt8) (heap : SliceVec UInt8)
    (h : offset ≤ rangeEnd ∧ rangeEnd ≤ heap.contents.length) :
    offset + (copyAndZeropadNonoverlapping src
      (slice heap.contents offset (rangeEnd - offset))).length ≤ heap.contents.length := by
  rw [length_copyAndZeropadNonoverlapping, slice]
  simp
  omega

/-- `copy_and_zeropad_nonoverlapping(source, &mut heap[offset..offset + len])`: the range is a
checked slice, a panic unless it is inside the heap; `offset + len` wraps in a release build. -/
def copyIntoHeap (source : List UInt8) (offset len : Nat) : Step Unit := fun s =>
  let rangeEnd := wrappingAdd 32 offset len
  if h : offset ≤ rangeEnd ∧ rangeEnd ≤ s.heap.contents.length then
    .ok () { s with
      heap := s.heap.overwrite offset
        (copyAndZeropadNonoverlapping source (slice s.heap.contents offset (rangeEnd - offset)))
        (copyIntoHeap_bound source s.heap h) }
  else .error .panic s

/-- `get(offset..)`: the bytes from `offset` on, `None` past the end. -/
def getFrom (data : List UInt8) (offset : Nat) : Option (List UInt8) :=
  if offset ≤ data.length then some (data.drop offset) else none

theorem run_readRaw_eq_ok {buffer : Interpreter → List UInt8} {offset n : Nat} {s s' : Interpreter}
    {bytes : List UInt8} :
    (readRaw buffer offset n).run s = .ok bytes s' ↔
      offset + n ≤ (buffer s).length ∧ bytes = slice (buffer s) offset n ∧ s' = s := by
  unfold readRaw
  by_cases h : offset + n ≤ (buffer s).length
  · simp only [EStateM.run, h, ↓reduceIte, Result.ok.injEq, true_and]
    exact ⟨fun ⟨h₁, h₂⟩ => ⟨h₁.symm, h₂.symm⟩, fun ⟨h₁, h₂⟩ => ⟨h₁.symm, h₂.symm⟩⟩
  · simp [EStateM.run, h]

theorem writeHeapRaw_ok {offset : Nat} {src : List UInt8} {s s' : Interpreter} {u : Unit}
    (h : (writeHeapRaw offset src).run s = .ok u s') :
    offset + src.length ≤ s.heap.contents.length ∧
      ∃ heap, s' = { s with heap := heap } ∧ heap.contents = splice s.heap.contents offset src := by
  unfold writeHeapRaw at h
  by_cases hin : offset + src.length ≤ s.heap.contents.length
  · simp only [EStateM.run, dif_pos hin, Result.ok.injEq] at h
    exact ⟨hin, _, h.2.symm, rfl⟩
  · simp only [EStateM.run, dif_neg hin, reduceCtorEq] at h

theorem setHeapByte_ok {index : Nat} {value : UInt8} {s s' : Interpreter} {u : Unit}
    (h : (setHeapByte index value).run s = .ok u s') :
    index + 1 ≤ s.heap.contents.length ∧
      ∃ heap, s' = { s with heap := heap } ∧
        heap.contents = splice s.heap.contents index [value] := by
  unfold setHeapByte at h
  by_cases hin : index + [value].length ≤ s.heap.contents.length
  · simp only [EStateM.run, dif_pos hin, Result.ok.injEq] at h
    exact ⟨hin, _, h.2.symm, rfl⟩
  · simp only [EStateM.run, dif_neg hin, reduceCtorEq] at h

/-! ## The steps of an instruction

One lemma a step: what a step that succeeds says of the state, and the state it hands to the rest
of the instruction. The proofs about the instructions read them through these, a step at a time. -/

section Steps

open Evm.Interpreter

variable {β : Type} {s s' : Interpreter} {b : β}

theorem run_core_bind_eq_ok {α : Type} {x : InstructionStep α} {f : α → Step β} :
    (core x >>= f).run s = .ok b s' ↔ ∃ a t, x.run ⟨s.stack, s.resources⟩ = .ok a t ∧
      (f a).run { s with stack := t.stack, resources := t.resources } = .ok b s' := by
  rw [run_bind_eq_ok]
  constructor
  · rintro ⟨a, s₁, h₁, h₂⟩
    obtain ⟨t, ht, rfl⟩ := run_core_eq_ok.mp h₁
    exact ⟨a, t, ht, h₂⟩
  · rintro ⟨a, t, ht, h₂⟩
    exact ⟨a, _, run_core_eq_ok.mpr ⟨t, ht, rfl⟩, h₂⟩

theorem run_spend_bind {g n : Nat} {f : Unit → Step β}
    (h : (core (spendGasAndNative g n) >>= f).run s = .ok b s') :
    g * ergsPerGas ≤ s.resources.ergs ∧
      (f ()).run { s with resources := spent s.resources g n } = .ok b s' := by
  obtain ⟨u, t, ht, h⟩ := run_core_bind_eq_ok.mp h
  obtain ⟨-, -, he, rfl⟩ := run_spendGasAndNative_eq_ok.mp ht
  exact ⟨he, h⟩

theorem run_topMut_bind {f : U256 → Step β} (h : (core topMut >>= f).run s = .ok b s') :
    ∃ a rest, s.stack = a :: rest ∧ (f a).run s = .ok b s' := by
  obtain ⟨a, t, ht, h⟩ := run_core_bind_eq_ok.mp h
  obtain ⟨rest, hs, rfl⟩ := run_topMut_eq_ok.mp ht
  exact ⟨a, rest, hs, h⟩

theorem run_pop2_bind {f : U256 × U256 → Step β} (h : (core pop2 >>= f).run s = .ok b s') :
    ∃ a c rest, s.stack = a :: c :: rest ∧ (f (a, c)).run { s with stack := rest } = .ok b s' := by
  obtain ⟨p, t, ht, h⟩ := run_core_bind_eq_ok.mp h
  obtain ⟨rest, hs, rfl⟩ := run_pop2_eq_ok.mp ht
  exact ⟨p.1, p.2, rest, hs, h⟩

theorem run_core_setTop (v : U256) (s : Interpreter) :
    (core (setTop v)).run s = .ok () { s with stack := v :: s.stack.tail } :=
  run_core_eq_ok.mpr ⟨_, run_setTop v _, rfl⟩

theorem run_core_push_eq_ok {v : U256} {u : Unit} :
    (core (push v)).run s = .ok u s' ↔
      s.stack.length ≠ stackSize ∧ s' = { s with stack := v :: s.stack } := by
  rw [run_core_eq_ok]
  constructor
  · rintro ⟨t, ht, rfl⟩
    obtain ⟨hne, rfl⟩ := run_push_eq_ok.mp ht
    exact ⟨hne, rfl⟩
  · rintro ⟨hne, rfl⟩
    exact ⟨_, run_push_eq_ok.mpr ⟨hne, rfl⟩, rfl⟩

theorem run_castToUsize_bind {src : U256} {e : Fault} {f : Nat → Step β}
    (h : (castToUsize src e >>= f).run s = .ok b s') :
    src.val < 2 ^ 32 ∧ (f src.val).run s = .ok b s' := by
  obtain ⟨n, t, ht, hf⟩ := run_bind_eq_ok.mp h
  obtain ⟨hlt, rfl, rfl⟩ := run_castToUsize_eq_ok.mp ht
  exact ⟨hlt, hf⟩

theorem run_resize_bind {w offset len : Nat} {f : Unit → Step β}
    (h : (resizeHeapImplementation offset len >>= f).run s = .ok b s')
    (hlen : s.heap.contents.length = 32 * w) (hpaid : s.gasPaidForHeapGrowth = memoryCost w)
    (hl : len ≠ 0) :
    offset + len ≤ 2 ^ 32 - 32 ∧ ∃ r heap,
      heap.contents = s.heap.contents ++ List.replicate (32 * (memoryExpansion w offset len - w)) 0 ∧
      s.resources.ergs =
        r.ergs + (memoryCost (memoryExpansion w offset len) - memoryCost w) * ergsPerGas ∧
      (f ()).run { s with
        resources := r, gasPaidForHeapGrowth := memoryCost (memoryExpansion w offset len),
        heap := heap } = .ok b s' := by
  obtain ⟨u, t, ht, h⟩ := run_bind_eq_ok.mp h
  obtain ⟨hend, r, heap, rfl, hheap, hergs⟩ := resizeHeapImplementation_ok ht hlen hpaid hl
  exact ⟨hend, r, heap, hheap, hergs, h⟩

theorem run_readRaw_bind {buffer : Interpreter → List UInt8} {offset n : Nat}
    {f : List UInt8 → Step β} (h : (readRaw buffer offset n >>= f).run s = .ok b s') :
    offset + n ≤ (buffer s).length ∧ (f (slice (buffer s) offset n)).run s = .ok b s' := by
  obtain ⟨bytes, t, ht, hf⟩ := run_bind_eq_ok.mp h
  obtain ⟨hin, rfl, rfl⟩ := run_readRaw_eq_ok.mp ht
  exact ⟨hin, hf⟩

end Steps

/-! ## What leaves the stack alone

Every step of an instruction but its stack accesses keeps the stack, on both outcomes. -/

section Frame

open Evm.Interpreter

variable {α β : Type} {s s' : Interpreter} {b : β}

end Frame

/-! ## The instructions -/

open Evm.Interpreter

def mload : Step Unit := do
  core (spendGasAndNative gasVerylow mloadNativeCost)
  let stackTop ← core topMut
  let index ← castToUsize stackTop .invalidOperandOOG
  resizeHeapImplementation index 32
  -- `copy_nonoverlapping` into the little-endian limbs, then `bytereverse_u256`
  let bytes ← readRaw (·.heap.contents) index 32
  core (setTop (word bytes))

def mstore : Step Unit := do
  core (spendGasAndNative gasVerylow mstoreNativeCost)
  let (index, value) ← core pop2
  let index ← castToUsize index .invalidOperandOOG
  resizeHeapImplementation index 32
  -- `bytereverse_u256`, then `copy_nonoverlapping` of the little-endian bytes
  writeHeapRaw index (BigEndian.toBeBytes 32 value.val)

def mstore8 : Step Unit := do
  core (spendGasAndNative gasVerylow mstore8NativeCost)
  let (index, value) ← core pop2
  let index ← castToUsize index .invalidOperandOOG
  let value := UInt8.ofNat (U256.byte value 0)
  resizeHeapImplementation index 1
  setHeapByte index value

def msize : Step Unit := do
  core (spendGasAndNative gasBase msizeNativeCost)
  let len := (← get).heap.contents.length
  core (push (Fin.ofNat _ len))

def mcopy : Step Unit := do
  let (dstOffset, srcOffset, len) ← core pop3
  let len ← castToUsize len .invalidOperandOOG
  let (gasCost, nativeCost) ← ofResult (copyCostPlusVeryLowGas len)
  core (spendGasAndNative gasCost nativeCost)
  if len = 0 then pure ()
  else
    let dstOffset ← castToUsize dstOffset .invalidOperandOOG
    let srcOffset ← castToUsize srcOffset .invalidOperandOOG
    resizeHeapImplementation (max dstOffset srcOffset) len
    -- `core::ptr::copy`: the ranges may overlap, and the source is read before it is written
    let bytes ← readRaw (·.heap.contents) srcOffset len
    writeHeapRaw dstOffset bytes

/-- The body CALLDATACOPY and CODECOPY share; `native` combines the copy's native cost with the
instruction's own. -/
def copyToHeap (data : Interpreter → List UInt8) (native : Nat → Nat) : Step Unit := do
  let (memoryOffset, sourceOffset, len) ← core pop3
  let len ← castToUsize len .invalidOperandOOG
  let (gasCost, nativeCost) ← ofResult (copyCostPlusVeryLowGas len)
  core (spendGasAndNative gasCost (native nativeCost))
  if len = 0 then pure ()
  else
    let memoryOffset ← castToUsize memoryOffset .invalidOperandOOG
    resizeHeapImplementation memoryOffset len
    let source := ((u256TryToUsize sourceOffset).bind (getFrom (data (← get)))).getD []
    copyIntoHeap source memoryOffset len

def calldatacopy : Step Unit :=
  copyToHeap (·.calldata) fun nativeCost => wrappingAdd 64 calldatacopyNativeCost nativeCost

def codecopy : Step Unit :=
  copyToHeap (·.bytecode) fun nativeCost => wrappingAdd 64 nativeCost codecopyNativeCost

/-- RETURNDATACOPY: the source offset is cast before the copy's length is checked, and a read past
the return data is `OutOfOffset`, also of no bytes. -/
def returndatacopy : Step Unit := do
  let (memoryOffset, sourceOffset, len) ← core pop3
  let len ← castToUsize len .invalidOperandOOG
  let (gasCost, nativeCost) ← ofResult (copyCostPlusVeryLowGas len)
  core (spendGasAndNative gasCost (wrappingAdd 64 returndatacopyNativeCost nativeCost))
  let sourceOffset ← castToUsize sourceOffset .invalidOperandOOG
  let (rangeEnd, overflowed) := overflowingAdd 32 sourceOffset len
  let returndataLen := (← get).returndata.length
  if overflowed = true ∨ rangeEnd > returndataLen then throw .outOfOffset
  else if len = 0 then pure ()
  else
    let memoryOffset ← castToUsize memoryOffset .invalidOperandOOG
    resizeHeapImplementation memoryOffset len
    let source := (getFrom (← get).returndata sourceOffset).getD []
    copyIntoHeap source memoryOffset len

def calldataload : Step Unit := do
  core (spendGasAndNative gasVerylow calldataloadNativeCost)
  let stackTop ← core topMut
  let calldataLen := (← get).calldata.length
  let value ← match u256TryToUsize stackTop with
    | some index =>
      if index < calldataLen then do
        let haveBytes := min 32 (calldataLen - index)
        -- `copy_nonoverlapping` into a zeroed `Bytes32`, then `into_u256_be`
        let bytes ← readRaw (·.calldata) index haveBytes
        pure (word (bytes ++ List.replicate (32 - haveBytes) 0))
      else pure 0
    | none => pure 0
  core (setTop value)

/-- The arm of `Interpreter::run` for an instruction of this module. -/
def exec : MemoryOp → Step Unit
  | .mload => mload
  | .mstore => mstore
  | .mstore8 => mstore8
  | .msize => msize
  | .mcopy => mcopy
  | .calldataload => calldataload
  | .calldatacopy => calldatacopy
  | .codecopy => codecopy
  | .returndatacopy => returndatacopy

/-- A sequence of instructions, which stops at the first that fails. -/
def run : List MemoryOp → Step Unit
  | [] => pure ()
  | op :: ops => do
    exec op
    run ops

end Heap

end ZksyncOs.Evm
