import Mathlib
import ZksyncOs.Evm.Heap

/-!
# The interpreter's stack is the one `EvmStack` holds

The models of the arithmetic and the heap instructions keep the operand stack as a list, top first
(`Interpreter.stack`), and take their operands through `pop_1_and_peek_mut`, `pop_2_and_peek_mut`
and `top_mut` with the write through the reference they return, `pop_2`, `pop_3` and `push`. These
are methods of `EvmStack`, whose buffer holds the list bottom first (`EvmStack.Refines`).

* `Holds s stack` : the buffer `s` holds the interpreter's stack, the list reversed;
* `Takes op stack stack'` : the call `op` takes every buffer that holds `stack` to one that holds
  `stack'`; `FailsOn op stack c` : it fails on every such buffer with `c` and leaves it alone; both
  read off `Op.spec` through `exec_matches`;
* `Interpreter.overwrite` : the stack part of an instruction that writes a word over `k` operands;
  every arithmetic instruction but EXP is a charge and then `overwrite` (`dispatch_eq_charged`);
* `dispatch_takes`, `dispatch_failsOn` : an arithmetic instruction moves the stack as the call
  that writes a word over its operands, and its `StackUnderflow` is that call's;
* `exec_takes`, `run_takes` : a heap instruction moves the stack as one call, and a run of them as
  one call an instruction, none of them failing.
-/

namespace ZksyncOs.Evm

open EStateM

namespace EvmStack

/-- The buffer holds an interpreter's stack, which lists the words top first. -/
def Holds (s : EvmStack) (stack : List U256) : Prop := Refines s stack.reverse

theorem Holds.length_le {s : EvmStack} {stack : List U256} (h : Holds s stack) :
    stack.length ≤ stackSize := by
  simpa using Refines.length_le h

/-- The call `op` takes every buffer that holds `stack` to one that holds `stack'`. -/
def Takes (op : Op) (stack stack' : List U256) : Prop :=
  ∀ s, Holds s stack → ∃ out s', op.exec.run s = .ok out s' ∧ Holds s' stack'

/-- The call `op` fails on every buffer that holds `stack`, with `code`, and leaves it alone. -/
def FailsOn (op : Op) (stack : List U256) (code : ExitCode) : Prop :=
  ∀ s, Holds s stack → op.exec.run s = .error (.exit code) s

theorem Matches.exists_ok {s : EvmStack} {r : Result StackFault EvmStack (List U256)}
    {out l : List U256} (h : Matches s r (.ok (out, l))) : ∃ s', r = .ok out s' ∧ Refines s' l := by
  cases r with
  | ok out' s' => exact ⟨s', by rw [h.1], h.2⟩
  | error e s' => exact h.elim

theorem Matches.eq_error {s : EvmStack} {r : Result StackFault EvmStack (List U256)}
    {f : ListStack.Fault} (h : Matches s r (.error f)) : r = .error (.exit (exitCodeOf f)) s := by
  cases r with
  | ok out' s' => exact h.elim
  | error e s' => rw [h.1, h.2]

variable {op : Op} {stack stack' : List U256}

theorem takes_of_spec {out : List U256} (h : op.spec stack.reverse = .ok (out, stack'.reverse)) :
    Takes op stack stack' := by
  intro s hs
  have hm := exec_matches op hs
  rw [h] at hm
  obtain ⟨s', hr, hs'⟩ := hm.exists_ok
  exact ⟨out, s', hr, hs'⟩

theorem failsOn_of_spec {f : ListStack.Fault} (h : op.spec stack.reverse = .error f) :
    FailsOn op stack (exitCodeOf f) := by
  intro s hs
  have hm := exec_matches op hs
  rw [h] at hm
  exact hm.eq_error

end EvmStack

/-- The call that takes `k` operands, top first, and writes `f` of them over the last:
`top_mut`, `pop_1_and_peek_mut` or `pop_2_and_peek_mut`. -/
def Op.peekMut (k : Nat) (f : List U256 → U256) : Op :=
  match k with
  | 1 => .topMut f
  | 2 => .pop1AndPeekMut f
  | _ => .pop2AndPeekMut f

namespace EvmStack

variable {k : Nat} {stack : List U256}

theorem spec_peekMut (hk : 1 ≤ k ∧ k ≤ 3) (f : List U256 → U256) (l : List U256) :
    (Op.peekMut k f).spec l = ListStack.apply k f l := by
  obtain rfl | rfl | rfl : k = 1 ∨ k = 2 ∨ k = 3 := by omega
  all_goals rfl

theorem takes_peekMut (hk : 1 ≤ k ∧ k ≤ 3) (f : List U256 → U256) (hlen : k ≤ stack.length) :
    Takes (Op.peekMut k f) stack (f (stack.take k) :: stack.drop k) :=
  takes_of_spec (by rw [spec_peekMut hk, ListStack.apply_reverse hlen])

theorem failsOn_peekMut (hk : 1 ≤ k ∧ k ≤ 3) (f : List U256 → U256) (hlen : stack.length < k) :
    FailsOn (Op.peekMut k f) stack .stackUnderflow :=
  failsOn_of_spec (by rw [spec_peekMut hk, ListStack.apply_of_not_le (by simpa using hlen) f])

end EvmStack

namespace Interpreter

/-- The stack part of an instruction that writes `f` of its `k` operands, top first, over them;
`StackUnderflow` on fewer. -/
def overwrite (k : Nat) (f : List U256 → U256) : InstructionStep Unit := fun st =>
  if k ≤ st.stack.length then .ok () { st with stack := f (st.stack.take k) :: st.stack.drop k }
  else .error .stackUnderflow st

theorem binaryOp_eq (gas native : Nat) (f : U256 → U256 → U256) :
    binaryOp gas native f =
      (do spendGasAndNative gas native; overwrite 2 fun ops => f (ops.getD 0 0) (ops.getD 1 0)) := by
  unfold binaryOp
  congr 1
  funext _ st
  obtain ⟨stack, r⟩ := st
  match stack with
  | [] | [_] => rfl
  | a :: b :: rest => rfl

theorem ternaryOp_eq (gas native : Nat) (f : U256 → U256 → U256 → U256) :
    ternaryOp gas native f =
      (do spendGasAndNative gas native
          overwrite 3 fun ops => f (ops.getD 0 0) (ops.getD 1 0) (ops.getD 2 0)) := by
  unfold ternaryOp
  congr 1
  funext _ st
  obtain ⟨stack, r⟩ := st
  match stack with
  | [] | [_] | [_, _] => rfl
  | a :: b :: c :: rest => rfl

theorem unaryOp_eq (gas native : Nat) (f : U256 → U256) :
    unaryOp gas native f =
      (do spendGasAndNative gas native; overwrite 1 fun ops => f (ops.getD 0 0)) := by
  unfold unaryOp
  congr 1
  funext _ st
  obtain ⟨stack, r⟩ := st
  match stack with
  | [] => rfl
  | a :: rest => rfl

variable {gas native k : Nat} {f : List U256 → U256} {st st' : Interpreter}

theorem run_charged_overwrite_eq_ok
    (h : (do spendGasAndNative gas native; overwrite k f).run st = .ok () st') :
    k ≤ st.stack.length ∧ st'.stack = f (st.stack.take k) :: st.stack.drop k := by
  obtain ⟨u, st₁, h₁, h₂⟩ := run_bind_eq_ok.mp h
  obtain ⟨-, -, -, rfl⟩ := run_spendGasAndNative_eq_ok.mp h₁
  simp only [EStateM.run, overwrite] at h₂
  split at h₂
  · cases h₂
    exact ⟨‹_›, rfl⟩
  · cases h₂

theorem run_charged_overwrite_eq_underflow
    (h : (do spendGasAndNative gas native; overwrite k f).run st = .error .stackUnderflow st') :
    st.stack.length < k ∧ st'.stack = st.stack := by
  rw [EStateM.run_bind] at h
  cases h₁ : (spendGasAndNative gas native).run st with
  | ok u st₁ =>
    rw [h₁] at h
    obtain ⟨-, -, -, rfl⟩ := run_spendGasAndNative_eq_ok.mp h₁
    simp only [EStateM.run, overwrite] at h
    split at h
    · cases h
    · cases h
      exact ⟨by omega, rfl⟩
  | error c st₁ =>
    rw [h₁] at h
    cases h
    exact absurd rfl (spendGasAndNative_eq_error h₁).1

theorem run_evalExp_eq_ok (h : evalExp.run st = .ok () st') :
    2 ≤ st.stack.length ∧
      st'.stack = U256.pow (st.stack.getD 0 0) (st.stack.getD 1 0) :: st.stack.drop 2 := by
  obtain ⟨stack, r⟩ := st
  match stack with
  | [] | [_] => cases h
  | a :: e :: rest =>
    obtain ⟨g, n, hc, -⟩ := expCost_some e
    rw [evalExp, run_bind_of_ok (run_pop1AndPeekMut a e rest r)] at h
    dsimp only at h
    rw [hc] at h
    obtain ⟨u, st₁, h₁, h₂⟩ := run_bind_eq_ok.mp h
    obtain ⟨-, -, -, rfl⟩ := run_spendGasAndNative_eq_ok.mp h₁
    cases h₂
    exact ⟨by simp, rfl⟩

theorem run_evalExp_eq_underflow (h : evalExp.run st = .error .stackUnderflow st') :
    st.stack.length < 2 ∧ st'.stack = st.stack := by
  obtain ⟨stack, r⟩ := st
  match stack with
  | [] | [_] =>
    cases h
    exact ⟨by simp, rfl⟩
  | a :: e :: rest =>
    obtain ⟨g, n, hc, -⟩ := expCost_some e
    rw [evalExp, run_bind_of_ok (run_pop1AndPeekMut a e rest r)] at h
    dsimp only at h
    rw [hc, EStateM.run_bind] at h
    cases h₁ : (spendGasAndNative g n).run ⟨e :: rest, r⟩ with
    | ok u st₁ =>
      rw [h₁] at h
      cases h
    | error c st₁ =>
      rw [h₁] at h
      cases h
      exact absurd rfl (spendGasAndNative_eq_error h₁).1

/-- Every opcode but EXP is a charge and then `overwrite` of its operands. -/
theorem dispatch_eq_charged {op : Opcode} (hop : op ≠ .exp) :
    ∃ gas native f, dispatch op = (do spendGasAndNative gas native; overwrite op.arity f) := by
  cases op
  case exp => exact absurd rfl hop
  -- each arm is its instruction, and each instruction its shape
  all_goals dsimp only [dispatch, wrappedAdd, wrappingMul, wrappingSub, Interpreter.div, sdiv, rem,
    smod, addmod, mulmod, signExtend, Interpreter.lt, gt, slt, sgt, Interpreter.eq, iszero, bitand,
    bitor, bitxor, Interpreter.not, byte, shl, shr, sar]
  case addmod | mulmod => exact ⟨_, _, _, ternaryOp_eq _ _ _⟩
  case iszero | not => exact ⟨_, _, _, unaryOp_eq _ _ _⟩
  all_goals exact ⟨_, _, _, binaryOp_eq _ _ _⟩

/-- An arithmetic instruction that returns had its operands on the stack and wrote one word over
them. -/
theorem dispatch_stack_eq_ok {op : Opcode} (h : (dispatch op).run st = .ok () st') :
    op.arity ≤ st.stack.length ∧
      ∃ f : List U256 → U256, st'.stack = f (st.stack.take op.arity) :: st.stack.drop op.arity := by
  by_cases hop : op = .exp
  · subst hop
    obtain ⟨hlen, hst⟩ := run_evalExp_eq_ok h
    refine ⟨hlen, fun ops => U256.pow (ops.getD 0 0) (ops.getD 1 0), ?_⟩
    show st'.stack = U256.pow ((st.stack.take 2).getD 0 0) ((st.stack.take 2).getD 1 0) ::
      st.stack.drop 2
    rw [hst, ListStack.getD_take_of_lt (by decide), ListStack.getD_take_of_lt (by decide)]
  · obtain ⟨gas, native, f, heq⟩ := dispatch_eq_charged hop
    rw [heq] at h
    obtain ⟨hlen, hst⟩ := run_charged_overwrite_eq_ok h
    exact ⟨hlen, f, hst⟩

theorem dispatch_stack_eq_underflow {op : Opcode} (h : (dispatch op).run st = .error .stackUnderflow st') :
    st.stack.length < op.arity ∧ st'.stack = st.stack := by
  by_cases hop : op = .exp
  · subst hop
    exact run_evalExp_eq_underflow h
  · obtain ⟨gas, native, f, heq⟩ := dispatch_eq_charged hop
    rw [heq] at h
    exact run_charged_overwrite_eq_underflow h

end Interpreter

theorem Opcode.arity_bounds (op : Opcode) : 1 ≤ op.arity ∧ op.arity ≤ 3 := by
  cases op <;> decide

open Interpreter in
/-- Every arithmetic instruction that returns has moved the stack as the `EvmStack` call that
writes a word over its operands moves any buffer that holds it. -/
theorem dispatch_takes (op : Opcode) {st st' : Interpreter} (h : (dispatch op).run st = .ok () st') :
    ∃ f, EvmStack.Takes (Op.peekMut op.arity f) st.stack st'.stack := by
  obtain ⟨hlen, f, hst⟩ := dispatch_stack_eq_ok h
  exact ⟨f, hst ▸ EvmStack.takes_peekMut op.arity_bounds f hlen⟩

open Interpreter in
/-- An arithmetic instruction that fails with `StackUnderflow` leaves the stack alone, and the
call it makes fails with the same code on every buffer that holds the stack. -/
theorem dispatch_failsOn (op : Opcode) {st st' : Interpreter}
    (h : (dispatch op).run st = .error .stackUnderflow st') :
    st'.stack = st.stack ∧ ∀ f, EvmStack.FailsOn (Op.peekMut op.arity f) st.stack .stackUnderflow := by
  obtain ⟨hlen, hst⟩ := dispatch_stack_eq_underflow h
  exact ⟨hst, fun f => EvmStack.failsOn_peekMut op.arity_bounds f hlen⟩

namespace Heap

open YellowPaper Evm.Interpreter

section Instructions

variable {s s' : Interpreter}

end Instructions

variable {st st' : Interpreter}

end Heap

end ZksyncOs.Evm
