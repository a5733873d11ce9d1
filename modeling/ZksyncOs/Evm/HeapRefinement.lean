import Mathlib
import ZksyncOs.Evm.Heap

/-!
# The heap instructions refine the Yellow Paper's

The interpreter's heap is the Yellow Paper's memory `μ_m` cut after its last active word: `Refines`
relates a state of the interpreter to a machine state of `YellowPaper` (the stack, the heap's bytes
then zeros, `32 μ_i` bytes of heap, `C_mem(μ_i)` paid for them). An instruction that succeeds takes
a state that refines `μ` to one that refines the Yellow Paper's next state, and charges exactly its
gas in ergs: its own, and the growth of `C_mem` that `pay_for_memory_growth` charges.

* `refines_empty` : a frame starts with an empty heap, which refines memory of zeros;
* `ofList_grown`, `slice_grown`, `splice_grown` : reads and writes inside the heap that
  `resize_heap_implementation` grew are those of the Yellow Paper's memory;
* `mload_refines`, `mstore_refines`, `mstore8_refines`, `msize_refines` : the instructions of
  `instructions::heap` that access one word or byte, or read the heap's size.
-/

namespace ZksyncOs.Evm.Heap

open EStateM FlatMemory YellowPaper Evm.Interpreter

/-- The interpreter's state holds the Yellow Paper's: the stack, the heap as the memory,
`C_mem(μ_i)` paid, and the buffers. -/
structure Refines (s : Interpreter) (I : Environment) (μ : MachineState) : Prop where
  stack : s.stack = μ.stack
  stack_le : μ.stack.length ≤ stackSize
  memory : ofList s.heap.contents 0 = μ.memory
  length : s.heap.contents.length = 32 * μ.activeWords
  bound : 32 * μ.activeWords ≤ 2 ^ 32 - 32
  paid : s.gasPaidForHeapGrowth = memoryCost μ.activeWords
  calldata : s.calldata = I.calldata
  bytecode : s.bytecode = I.code
  returndata : s.returndata = I.returndata

/-- A frame starts with an empty heap and nothing paid for it: it holds the Yellow Paper's state
with no active word and a memory of zeros. -/
theorem refines_empty {s : Interpreter} {I : Environment} (hs : s.stack.length ≤ stackSize)
    (hheap : s.heap.contents = []) (hpaid : s.gasPaidForHeapGrowth = 0)
    (hc : s.calldata = I.calldata) (hb : s.bytecode = I.code) (hrd : s.returndata = I.returndata) :
    Refines s I ⟨s.stack, fun _ => 0, 0⟩ where
  stack := rfl
  stack_le := hs
  memory := by
    funext a
    simp [hheap]
  length := by simp [hheap]
  bound := by
    show 32 * 0 ≤ 2 ^ 32 - 32
    decide
  paid := by simp [hpaid, memoryCost]
  calldata := hc
  bytecode := hb
  returndata := hrd

/-! ## The memory after a resize -/

/-- The memory the heap stands for does not change when it grows by zeros. -/
theorem ofList_grown (c : List UInt8) (k : Nat) : ofList (c ++ List.replicate k 0) 0 = ofList c 0 :=
  ofList_append_replicate c 0 k

/-- A read inside the grown heap is a read of the memory. -/
theorem slice_grown {c : List UInt8} {k o n : Nat} (h : o + n ≤ (c ++ List.replicate k 0).length) :
    slice (c ++ List.replicate k 0) o n = read (ofList c 0) o n := by
  rw [slice_eq_read _ 0 h, ofList_grown]

theorem ofList_splice_grown {c : List UInt8} {k o : Nat} {src : List UInt8}
    (h : o + src.length ≤ (c ++ List.replicate k 0).length) :
    ofList (splice (c ++ List.replicate k 0) o src) 0 = write (ofList c 0) o src := by
  rw [ofList_splice _ 0 h, ofList_grown]

theorem length_grown {c : List UInt8} {w w' : Nat} (hc : c.length = 32 * w) (hw : w ≤ w') :
    (c ++ List.replicate (32 * (w' - w)) 0).length = 32 * w' := by
  simp only [List.length_append, List.length_replicate, hc]
  omega

/-- A write inside the grown heap leaves the Yellow Paper's written memory, in `32 w'` bytes. -/
theorem splice_grown {c src : List UInt8} {m : Nat → UInt8} {w w' o : Nat}
    (hm : ofList c 0 = m) (hc : c.length = 32 * w) (hw : w ≤ w')
    (h : o + src.length ≤ (c ++ List.replicate (32 * (w' - w)) 0).length) :
    ofList (splice (c ++ List.replicate (32 * (w' - w)) 0) o src) 0 = write m o src ∧
      (splice (c ++ List.replicate (32 * (w' - w)) 0) o src).length = 32 * w' := by
  refine ⟨by rw [ofList_splice_grown h, hm], ?_⟩
  rw [length_splice _ h]
  exact length_grown hc hw

theorem memoryExpansion_bound {w f l : Nat} (hw : 32 * w ≤ 2 ^ 32 - 32) (hf : f + l ≤ 2 ^ 32 - 32) :
    32 * memoryExpansion w f l ≤ 2 ^ 32 - 32 := by
  unfold memoryExpansion
  split <;> omega

theorem ergs_of_spent {r₀ r : Resources} {g n D : Nat} (he : g * ergsPerGas ≤ r₀.ergs)
    (h : (spent r₀ g n).ergs = r.ergs + D * ergsPerGas) :
    r₀.ergs = r.ergs + (g + D) * ergsPerGas := by
  simp only [spent] at h
  rw [Nat.add_mul]
  omega

/-- After the resize for `l` bytes from `o` and the write of them, the state refines the Yellow
Paper's with the memory written and `M(μ_i, o, l)` words active. -/
theorem refines_spliced {s : Interpreter} {I : Environment} {stack rest : List U256}
    {m : Nat → UInt8} {i o l : Nat} {src : List UInt8} {r : Resources} {heap : SliceVec UInt8}
    (hr : Refines s I ⟨stack, m, i⟩) (hrest : rest.length ≤ stack.length)
    (hend : o + l ≤ 2 ^ 32 - 32)
    (hin : o + src.length ≤
      (s.heap.contents ++ List.replicate (32 * (memoryExpansion i o l - i)) 0).length)
    (hheap : heap.contents =
      splice (s.heap.contents ++ List.replicate (32 * (memoryExpansion i o l - i)) 0) o src) :
    Refines { s with
        stack := rest, resources := r, gasPaidForHeapGrowth := memoryCost (memoryExpansion i o l),
        heap := heap } I ⟨rest, write m o src, memoryExpansion i o l⟩ := by
  obtain ⟨hmem, hlen⟩ := splice_grown hr.memory hr.length (le_memoryExpansion _ _ _) hin
  exact ⟨rfl, hrest.trans hr.stack_le, hheap ▸ hmem, hheap ▸ hlen,
    memoryExpansion_bound hr.bound hend, rfl, hr.calldata, hr.bytecode, hr.returndata⟩

/-! ## The instructions -/

section Instructions

variable {s s' : Interpreter} {I : Environment} {μ : MachineState}

theorem mload_refines (hr : Refines s I μ) (h : mload.run s = .ok () s') :
    ∃ μ' g, step I .mload μ = some (μ', g) ∧ Refines s' I μ' ∧
      s.resources.ergs = s'.resources.ergs + g * ergsPerGas := by
  obtain ⟨stack, m, i⟩ := μ
  obtain ⟨he, h⟩ := run_spend_bind h
  obtain ⟨top, rest, hstack, h⟩ := run_topMut_bind h
  obtain ⟨-, h⟩ := run_castToUsize_bind h
  obtain ⟨hend, r, heap, hheap, hergs, h⟩ := run_resize_bind h hr.length hr.paid (by decide)
  obtain ⟨hin, h⟩ := run_readRaw_bind h
  rw [run_core_setTop] at h
  cases h
  simp only at hstack hheap hergs hin
  have hst : stack = top :: rest := hr.stack.symm.trans hstack
  subst hst
  rw [hheap] at hin
  refine ⟨_, _, rfl, ⟨?_, ?_, ?_, ?_, ?_, rfl, hr.calldata, hr.bytecode, hr.returndata⟩,
    ergs_of_spent he hergs⟩
  · simp only [hstack, List.tail_cons, hheap, slice_grown hin, hr.memory]
  · simpa using hr.stack_le
  · simp only [hheap, ofList_grown, hr.memory]
  · simp only [hheap]
    exact length_grown hr.length (le_memoryExpansion _ _ _)
  · exact memoryExpansion_bound hr.bound hend

theorem mload_refines_empty_heap :
    ∃ s s', mload.run s = .ok () s' ∧ ∃ μ' g,
      step ⟨[], [], []⟩ .mload ⟨[0], fun _ => 0, 0⟩ = some (μ', g) ∧
        Refines s' ⟨[], [], []⟩ μ' ∧ s.resources.ergs = s'.resources.ergs + g * ergsPerGas := by
  refine ⟨⟨[0], ⟨10 ^ 6, 10 ^ 6⟩, 0, ⟨[], 1024, by decide⟩, [], [], [], by decide, by decide,
    by decide⟩, ?_⟩
  exact ⟨_, rfl, mload_refines (refines_empty (by decide) rfl rfl rfl rfl rfl) rfl⟩

theorem mstore_refines (hr : Refines s I μ) (h : mstore.run s = .ok () s') :
    ∃ μ' g, step I .mstore μ = some (μ', g) ∧ Refines s' I μ' ∧
      s.resources.ergs = s'.resources.ergs + g * ergsPerGas := by
  obtain ⟨stack, m, i⟩ := μ
  obtain ⟨he, h⟩ := run_spend_bind h
  obtain ⟨a, v, rest, hstack, h⟩ := run_pop2_bind h
  obtain ⟨-, h⟩ := run_castToUsize_bind h
  obtain ⟨hend, r, heap, hheap, hergs, h⟩ := run_resize_bind h hr.length hr.paid (by decide)
  obtain ⟨hin, heap', rfl, hheap'⟩ := writeHeapRaw_ok h
  simp only at hstack hheap hergs hin hheap'
  have hst : stack = a :: v :: rest := hr.stack.symm.trans hstack
  subst hst
  rw [hheap] at hin hheap'
  -- the word's 32 bytes go inside the heap that was grown for them
  have hrest : rest.length ≤ (a :: v :: rest).length := by
    simp only [List.length_cons]
    omega
  exact ⟨_, _, rfl, refines_spliced (s := s) hr hrest hend hin hheap', ergs_of_spent he hergs⟩

theorem mstore_refines_empty_heap :
    ∃ s s', mstore.run s = .ok () s' ∧ ∃ μ' g,
      step ⟨[], [], []⟩ .mstore ⟨[32, 7], fun _ => 0, 0⟩ = some (μ', g) ∧
        Refines s' ⟨[], [], []⟩ μ' ∧ s.resources.ergs = s'.resources.ergs + g * ergsPerGas := by
  refine ⟨⟨[32, 7], ⟨10 ^ 6, 10 ^ 6⟩, 0, ⟨[], 1024, by decide⟩, [], [], [], by decide, by decide,
    by decide⟩, ?_⟩
  exact ⟨_, rfl, mstore_refines (refines_empty (by decide) rfl rfl rfl rfl rfl) rfl⟩

theorem uint8_ofNat_byte_zero (v : U256) : UInt8.ofNat (U256.byte v 0) = UInt8.ofNat v.val := by
  apply UInt8.toNat_inj.mp
  simp [U256.byte]

theorem mstore8_refines (hr : Refines s I μ) (h : mstore8.run s = .ok () s') :
    ∃ μ' g, step I .mstore8 μ = some (μ', g) ∧ Refines s' I μ' ∧
      s.resources.ergs = s'.resources.ergs + g * ergsPerGas := by
  obtain ⟨stack, m, i⟩ := μ
  obtain ⟨he, h⟩ := run_spend_bind h
  obtain ⟨a, v, rest, hstack, h⟩ := run_pop2_bind h
  obtain ⟨-, h⟩ := run_castToUsize_bind h
  obtain ⟨hend, r, heap, hheap, hergs, h⟩ := run_resize_bind h hr.length hr.paid (by decide)
  obtain ⟨hin, heap', rfl, hheap'⟩ := setHeapByte_ok h
  simp only at hstack hheap hergs hin hheap'
  have hst : stack = a :: v :: rest := hr.stack.symm.trans hstack
  subst hst
  rw [hheap, uint8_ofNat_byte_zero] at hheap'
  rw [hheap] at hin
  -- the one byte written, as the Yellow Paper's write of a list
  have hin₁ : a.val + [UInt8.ofNat v.val].length ≤ _ := hin
  have hrest : rest.length ≤ (a :: v :: rest).length := by
    simp only [List.length_cons]
    omega
  exact ⟨_, _, rfl, refines_spliced (s := s) hr hrest hend hin₁ hheap', ergs_of_spent he hergs⟩

theorem mstore8_refines_empty_heap :
    ∃ s s', mstore8.run s = .ok () s' ∧ ∃ μ' g,
      step ⟨[], [], []⟩ .mstore8 ⟨[5, 300], fun _ => 0, 0⟩ = some (μ', g) ∧
        Refines s' ⟨[], [], []⟩ μ' ∧ s.resources.ergs = s'.resources.ergs + g * ergsPerGas := by
  refine ⟨⟨[5, 300], ⟨10 ^ 6, 10 ^ 6⟩, 0, ⟨[], 1024, by decide⟩, [], [], [], by decide, by decide,
    by decide⟩, ?_⟩
  exact ⟨_, rfl, mstore8_refines (refines_empty (by decide) rfl rfl rfl rfl rfl) rfl⟩

theorem msize_refines (hr : Refines s I μ) (h : msize.run s = .ok () s') :
    ∃ μ' g, step I .msize μ = some (μ', g) ∧ Refines s' I μ' ∧
      s.resources.ergs = s'.resources.ergs + g * ergsPerGas := by
  obtain ⟨stack, m, i⟩ := μ
  obtain ⟨he, h⟩ := run_spend_bind h
  rw [run_get_bind] at h
  obtain ⟨hne, rfl⟩ := run_core_push_eq_ok.mp h
  simp only at hne
  have hs : s.stack = stack := hr.stack
  have hle : stack.length ≤ stackSize := hr.stack_le
  -- MSIZE is the only one that grows the stack: the code's check is the Yellow Paper's bound
  have hlt : stack.length < 1024 := by
    rw [hs] at hne
    unfold stackSize at hle hne
    omega
  refine ⟨⟨Fin.ofNat _ (32 * i) :: stack, m, i⟩, gBase + (memoryCost i - memoryCost i),
    by simp [step, YellowPaper.exec, hlt],
    ⟨?_, ?_, hr.memory, hr.length, hr.bound, hr.paid, hr.calldata, hr.bytecode, hr.returndata⟩, ?_⟩
  · simp only [hs, hr.length]
  · simp only [List.length_cons]
    unfold stackSize
    omega
  · simp only [spent, Nat.sub_self, Nat.add_zero]
    unfold gBase gasBase at *
    omega

theorem msize_refines_after_mstore :
    ∃ s s', msize.run s = .ok () s' ∧ ∃ μ' g,
      step ⟨[], [], []⟩ .msize ⟨[], ofList (List.replicate 63 0 ++ [7]) 0, 2⟩ = some (μ', g) ∧
        Refines s' ⟨[], [], []⟩ μ' ∧ s.resources.ergs = s'.resources.ergs + g * ergsPerGas := by
  refine ⟨⟨[], ⟨10 ^ 6, 10 ^ 6⟩, memoryCost 2, ⟨List.replicate 63 0 ++ [7], 1024, by decide⟩, [],
    [], [], by decide, by decide, by decide⟩, ?_⟩
  exact ⟨_, rfl,
    msize_refines ⟨rfl, by decide, rfl, by decide, by decide, rfl, rfl, rfl, rfl⟩ rfl⟩

end Instructions

end ZksyncOs.Evm.Heap
