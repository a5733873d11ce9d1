import Mathlib
import ZksyncOs.Evm.YellowPaper
import ZksyncOs.Lib.BigEndian
import ZksyncOs.Lib.FlatMemory

/-!
# The Yellow Paper's memory, and the instructions that use it

The memory of the EVM as the Yellow Paper has it (sections 9.1 and 9.4, Appendix H): `μ_m`, a
byte at every address, zero until written, and `μ_i`, the number of active words. An instruction
that touches `l` bytes from `f` leaves `M(μ_i, f, l)` words active and costs, on top of its own
gas, `C_mem(μ'_i) - C_mem(μ_i)`. The instructions here are those that read or write the memory or
an input buffer: MLOAD, MSTORE, MSTORE8, MSIZE, MCOPY (EIP-5656), CALLDATALOAD, CALLDATACOPY,
CODECOPY and RETURNDATACOPY (EIP-211, which halts on a read past the return data).

* `memoryCost`, `memoryExpansion` : `C_mem` and `M`;
* `exec` : one instruction, its new state and its own gas, or `none` for an exceptional halt that
  gas does not cause (too few operands, a full stack, a read past the return data); `step` adds
  the gas of the memory's growth;
* `run_eq_runExec` : the gas of a sequence of instructions is their own gas and the growth of
  `C_mem` from the first active words to the last, however the memory grew on the way.
-/

namespace ZksyncOs.Evm.YellowPaper

open FlatMemory

def gVerylow : Nat := 3

def gBase : Nat := 2

/-- `G_copy`, a word. -/
def gCopy : Nat := 3

/-- `G_memory`, a word. -/
def gMemory : Nat := 3

/-- `C_mem(a)`: the cost of `a` active words. -/
def memoryCost (a : Nat) : Nat := gMemory * a + a ^ 2 / 512

/-- `M(s, f, l)`: the active words after an access of `l` bytes from `f`; none for `l = 0`. -/
def memoryExpansion (s f l : Nat) : Nat := if l = 0 then s else max s ((f + l + 31) / 32)

/-- The word of 32 bytes, the first the most significant. -/
def word (bytes : List UInt8) : U256 := Fin.ofNat _ (BigEndian.ofBeBytes bytes)

/-- The part of the machine state `μ` these instructions read and write. -/
structure MachineState where
  /-- `μ_s`, the top first. -/
  stack : List U256
  /-- `μ_m`. -/
  memory : Nat → UInt8
  /-- `μ_i`. -/
  activeWords : Nat

/-- What they read of the environment: `I_d`, `I_b` and the return data `μ_o` of the last call. -/
structure Environment where
  calldata : List UInt8
  code : List UInt8
  returndata : List UInt8

/-- The instructions of this module. -/
inductive MemoryOp where
  | mload
  | mstore
  | mstore8
  | msize
  | mcopy
  | calldataload
  | calldatacopy
  | codecopy
  | returndatacopy
deriving DecidableEq, Repr

/-- The copy gas of `l` bytes. -/
def copyGas (l : Nat) : Nat := gCopy * ((l + 31) / 32)

/-- CALLDATACOPY, CODECOPY and RETURNDATACOPY: `l` bytes of `data` from `f`, zeros past its end,
written from `d`. -/
def copyFrom (data : List UInt8) (d f l : U256) (s : List U256) (m : Nat → UInt8) (i : Nat) :
    MachineState × Nat :=
  (⟨s, write m d.val (read (ofList data 0) f.val l.val), memoryExpansion i d.val l.val⟩,
    gVerylow + copyGas l.val)

/-- An instruction: the new state and its own gas, or an exceptional halt. -/
def exec (I : Environment) : MemoryOp → MachineState → Option (MachineState × Nat)
  | .mload, ⟨a :: s, m, i⟩ =>
    some (⟨word (read m a.val 32) :: s, m, memoryExpansion i a.val 32⟩, gVerylow)
  | .mstore, ⟨a :: v :: s, m, i⟩ =>
    some (⟨s, write m a.val (BigEndian.toBeBytes 32 v.val), memoryExpansion i a.val 32⟩, gVerylow)
  | .mstore8, ⟨a :: v :: s, m, i⟩ =>
    some (⟨s, write m a.val [UInt8.ofNat v.val], memoryExpansion i a.val 1⟩, gVerylow)
  | .msize, ⟨s, m, i⟩ =>
    -- the only one of them that grows the stack
    if s.length < 1024 then some (⟨Fin.ofNat _ (32 * i) :: s, m, i⟩, gBase) else none
  | .mcopy, ⟨d :: f :: l :: s, m, i⟩ =>
    some (⟨s, write m d.val (read m f.val l.val), memoryExpansion i (max d.val f.val) l.val⟩,
      gVerylow + copyGas l.val)
  | .calldataload, ⟨a :: s, m, i⟩ =>
    some (⟨word (read (ofList I.calldata 0) a.val 32) :: s, m, i⟩, gVerylow)
  | .calldatacopy, ⟨d :: f :: l :: s, m, i⟩ => some (copyFrom I.calldata d f l s m i)
  | .codecopy, ⟨d :: f :: l :: s, m, i⟩ => some (copyFrom I.code d f l s m i)
  | .returndatacopy, ⟨d :: f :: l :: s, m, i⟩ =>
    if I.returndata.length < f.val + l.val then none else some (copyFrom I.returndata d f l s m i)
  | _, _ => none

/-- The gas of a step: its own, and `C_mem(μ'_i) - C_mem(μ_i)`. -/
def step (I : Environment) (op : MemoryOp) (μ : MachineState) : Option (MachineState × Nat) :=
  (exec I op μ).map fun r => (r.1, r.2 + (memoryCost r.1.activeWords - memoryCost μ.activeWords))

/-- A sequence of instructions, and the sum of what `f` gives for each. -/
def runWith (f : MemoryOp → MachineState → Option (MachineState × Nat)) :
    List MemoryOp → MachineState → Option (MachineState × Nat)
  | [], μ => some (μ, 0)
  | op :: ops, μ => (f op μ).bind fun r => (runWith f ops r.1).map fun r₂ => (r₂.1, r.2 + r₂.2)

/-- A sequence of steps and its gas. -/
def run (I : Environment) : List MemoryOp → MachineState → Option (MachineState × Nat) :=
  runWith (step I)

/-- A sequence of instructions and their own gas. -/
def runExec (I : Environment) : List MemoryOp → MachineState → Option (MachineState × Nat) :=
  runWith (exec I)

/-! ## The cost of memory -/

theorem le_memoryExpansion (s f l : Nat) : s ≤ memoryExpansion s f l := by
  unfold memoryExpansion
  split <;> omega

theorem memoryCost_mono {a b : Nat} (h : a ≤ b) : memoryCost a ≤ memoryCost b := by
  unfold memoryCost gMemory
  have : a ^ 2 / 512 ≤ b ^ 2 / 512 := Nat.div_le_div_right (Nat.pow_le_pow_left h 2)
  omega

theorem activeWords_le_of_exec {I : Environment} {op : MemoryOp} {μ μ' : MachineState} {g : Nat}
    (h : exec I op μ = some (μ', g)) : μ.activeWords ≤ μ'.activeWords := by
  revert h
  fun_cases exec I op μ <;> intro h <;>
    simp only [copyFrom, Option.some.injEq, Prod.mk.injEq, reduceCtorEq] at h <;>
    obtain ⟨rfl, -⟩ := h
  -- the new active words are the old ones, or `M` of them
  all_goals
    dsimp only
    first | exact le_rfl | exact le_memoryExpansion _ _ _

theorem step_eq_some {I : Environment} {op : MemoryOp} {μ μ' : MachineState} {g : Nat} :
    step I op μ = some (μ', g) ↔ ∃ own, exec I op μ = some (μ', own) ∧
      g = own + (memoryCost μ'.activeWords - memoryCost μ.activeWords) := by
  unfold step
  constructor
  · intro h
    obtain ⟨⟨μ₁, own⟩, h₁, h₂⟩ := Option.map_eq_some_iff.mp h
    simp only [Prod.mk.injEq] at h₂
    obtain ⟨rfl, rfl⟩ := h₂
    exact ⟨own, h₁, rfl⟩
  · rintro ⟨own, h₁, rfl⟩
    rw [h₁]
    rfl

theorem runWith_cons_eq_some {f : MemoryOp → MachineState → Option (MachineState × Nat)}
    {op : MemoryOp} {ops : List MemoryOp} {μ μ₂ : MachineState} {g : Nat} :
    runWith f (op :: ops) μ = some (μ₂, g) ↔
      ∃ μ₁ g₁ g₂, f op μ = some (μ₁, g₁) ∧ runWith f ops μ₁ = some (μ₂, g₂) ∧ g = g₁ + g₂ := by
  simp only [runWith, Option.bind_eq_some_iff, Option.map_eq_some_iff, Prod.exists,
    Prod.mk.injEq]
  constructor
  · rintro ⟨μ₁, g₁, h₁, μ₂', g₂, h₂, rfl, rfl⟩
    exact ⟨μ₁, g₁, g₂, h₁, h₂, rfl⟩
  · rintro ⟨μ₁, g₁, g₂, h₁, h₂, rfl⟩
    exact ⟨μ₁, g₁, h₁, μ₂, g₂, h₂, rfl, rfl⟩

theorem activeWords_le_of_runExec {I : Environment} :
    ∀ {ops : List MemoryOp} {μ μ' : MachineState} {g : Nat},
      runExec I ops μ = some (μ', g) → μ.activeWords ≤ μ'.activeWords
  | [], μ, μ', g, h => by
    simp only [runExec, runWith, Option.some.injEq, Prod.mk.injEq] at h
    rw [h.1]
  | op :: ops, μ, μ', g, h => by
    obtain ⟨μ₁, g₁, g₂, h₁, h₂, -⟩ := runWith_cons_eq_some.mp h
    exact le_trans (activeWords_le_of_exec h₁) (activeWords_le_of_runExec h₂)

/-- The gas of a sequence of steps is the instructions' own gas and the growth of `C_mem` from the
first memory to the last: the memory's price depends on its final size only. -/
theorem run_eq_runExec (I : Environment) :
    ∀ (ops : List MemoryOp) (μ : MachineState),
      run I ops μ = (runExec I ops μ).map fun r =>
        (r.1, r.2 + (memoryCost r.1.activeWords - memoryCost μ.activeWords))
  | [], μ => by simp [run, runExec, runWith]
  | op :: ops, μ => by
    cases hx : exec I op μ with
    | none =>
      have hs : step I op μ = none := by rw [step, hx]; rfl
      simp only [run, runExec, runWith, hs, hx, Option.bind_none, Option.map_none]
    | some r =>
      obtain ⟨μ₁, own⟩ := r
      have hs : step I op μ =
          some (μ₁, own + (memoryCost μ₁.activeWords - memoryCost μ.activeWords)) :=
        step_eq_some.mpr ⟨own, hx, rfl⟩
      have hrest := run_eq_runExec I ops μ₁
      have hle₁ := memoryCost_mono (activeWords_le_of_exec hx)
      simp only [run, runExec, runWith, hs, hx, Option.bind_some] at hrest ⊢
      rw [hrest]
      -- the rest of the run: its growth of `C_mem` from `μ₁` and the step's from `μ` telescope
      cases hr : runWith (exec I) ops μ₁ with
      | none => rfl
      | some r₂ =>
        obtain ⟨μ₂, own₂⟩ := r₂
        have hle₂ := memoryCost_mono (activeWords_le_of_runExec hr)
        simp only [Option.map_some, Option.some.injEq, Prod.mk.injEq, true_and]
        omega

end ZksyncOs.Evm.YellowPaper
