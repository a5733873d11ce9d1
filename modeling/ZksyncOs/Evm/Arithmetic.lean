import Mathlib
import ZksyncOs.Evm.Words
import ZksyncOs.Lib.Checked
import ZksyncOs.Lib.EStateM

/-!
# The arithmetic, comparison and bitwise instructions

`evm_interpreter::instructions::arithmetic` and `::bitwise`, and the arms of `Interpreter::run` that
call them. An instruction charges its gas and native cost (`Gas::spend_gas_and_native`), takes its
operands from the stack (`pop_1_and_peek_mut`, `pop_2_and_peek_mut`, `top_mut`) and writes its
result over the last one. EXP pops first, as its cost depends on the exponent.

* `Interpreter` : the stack, its top first, and the frame's resources;
* `binaryOp`, `ternaryOp`, `unaryOp` : the shapes of every instruction but EXP; each instruction is
  its shape at its own gas, native cost and word computation;
* `dispatch_yellowPaper` : every opcode but SHL and SHR, with its operands on the stack and the
  resources for its cost, replaces the operands by the Yellow Paper's result and keeps the rest of
  the stack;
* `dispatch_underflow` : with fewer operands than it takes it fails with `StackUnderflow`;
* `dispatch_shl`, `dispatch_shr` : SHL and SHR shift by `cutShift`, which is the Yellow Paper's
  shift only below `2 ^ 32` or from `256` on (`shlOp_eq_shl_iff`).
-/

namespace ZksyncOs.Evm

open EStateM

/-- `ExitCode`: the ends an arithmetic or stack instruction can come to. -/
inductive ExitCode where
  | outOfGas
  | stackUnderflow
  | stackOverflow
  | fatalError (e : FatalError)
deriving DecidableEq, Repr

/-- `From<SystemError> for ExitCode`. -/
def ExitCode.ofSystemError : SystemError → ExitCode
  | .internal e => .fatalError (.internal e)
  | .outOfNativeResources => .fatalError .outOfNativeResources
  | .outOfErgs => .outOfGas

/-- The fields of `Interpreter` these instructions read and write: the stack, its top first, and
the frame's resources (`gas`). -/
structure Interpreter where
  stack : List U256
  resources : Resources
deriving DecidableEq, Repr

/-- `InstructionResult`, as a step of the interpreter. -/
abbrev InstructionStep (α : Type) := EStateM ExitCode Interpreter α

/-! ## `gas_constants` and `native_resource_constants` -/

def gasVerylow : Nat := 3
def gasLow : Nat := 5
def gasMid : Nat := 8
def gasExp : Nat := 10

def addNativeCost : Nat := 140
def mulNativeCost : Nat := 400
def subNativeCost : Nat := 140
def divNativeCost : Nat := 1500
def sdivNativeCost : Nat := 1000
def modNativeCost : Nat := 1300
def smodNativeCost : Nat := 800
def addmodNativeCost : Nat := 1700
def mulmodNativeCost : Nat := 2300
def expBaseNativeCost : Nat := 700
def expPerByteNativeCost : Nat := 5000
def signextendNativeCost : Nat := 400
def ltNativeCost : Nat := 190
def gtNativeCost : Nat := 190
def sltNativeCost : Nat := 430
def sgtNativeCost : Nat := 430
def eqNativeCost : Nat := 500
def iszeroNativeCost : Nat := 300
def andNativeCost : Nat := 100
def orNativeCost : Nat := 90
def xorNativeCost : Nat := 90
def notNativeCost : Nat := 60
def byteNativeCost : Nat := 160
def shlNativeCost : Nat := 240
def shrNativeCost : Nat := 240
def sarNativeCost : Nat := 400

/-- `exp_cost`: `50` gas a byte of the exponent over the base `10`; `None` on an overflow of the
`u64` arithmetic, which the exponent's at most 32 bytes never reach. -/
def expCost (power : U256) : Option (Nat × Nat) :=
  if h : power = 0 then some (gasExp, expBaseNativeCost)
  else
    let gasByte := 50
    let numBytes := log2floor power h / 8 + 1
    do
      let g ← Checked.checkedMul 64 gasByte numBytes
      let gasCost ← Checked.checkedAdd 64 g.val gasExp
      let n ← Checked.checkedMul 64 expPerByteNativeCost numBytes
      let nativeCost ← Checked.checkedAdd 64 expBaseNativeCost n.val
      pure (gasCost.val, nativeCost.val)

namespace Interpreter

/-- The resources after a charge of `gas` and `native` that they cover. -/
def spent (r : Resources) (gas native : Nat) : Resources :=
  ⟨r.ergs - gas * ergsPerGas, r.native - native⟩

/-- `Gas::spend_gas_and_native`: the gas in ergs by `checked_mul`, then `Resources::charge`, whose
resources stay as it left them also when it fails. -/
def spendGasAndNative (gas native : Nat) : InstructionStep Unit := fun st =>
  match Checked.checkedMul 64 gas ergsPerGas with
  | none => .error .outOfGas st
  | some ergsCost =>
    match st.resources.charge ⟨ergsCost.val, native⟩ with
    | (r, .ok ()) => .ok () { st with resources := r }
    | (r, .error e) => .error (.ofSystemError e) { st with resources := r }

/-- `pop_1_and_peek_mut`, and `pop_1_mut_and_peek`, which checks and moves the stack the same way:
the top, popped, and the new top. -/
def pop1AndPeekMut : InstructionStep (U256 × U256) := fun st =>
  match st.stack with
  | op1 :: op2 :: rest => .ok (op1, op2) { st with stack := op2 :: rest }
  | _ => .error .stackUnderflow st

def pop2AndPeekMut : InstructionStep ((U256 × U256) × U256) := fun st =>
  match st.stack with
  | op1 :: op2 :: op3 :: rest => .ok ((op1, op2), op3) { st with stack := op3 :: rest }
  | _ => .error .stackUnderflow st

def topMut : InstructionStep U256 := fun st =>
  match st.stack with
  | op :: _ => .ok op st
  | [] => .error .stackUnderflow st

/-- The write through the reference `peek_mut` or `top_mut` returned. -/
def setTop (v : U256) : InstructionStep Unit := fun st =>
  .ok () { st with stack := v :: st.stack.tail }

/-- A binary instruction: charge, pop `op1`, and replace the new top `op2` by `f op1 op2`. -/
def binaryOp (gas native : Nat) (f : U256 → U256 → U256) : InstructionStep Unit := do
  spendGasAndNative gas native
  let (op1, op2) ← pop1AndPeekMut
  setTop (f op1 op2)

/-- A ternary instruction: charge, pop `op1` and `op2`, and replace `op3` by `f op1 op2 op3`. -/
def ternaryOp (gas native : Nat) (f : U256 → U256 → U256 → U256) : InstructionStep Unit := do
  spendGasAndNative gas native
  let ((op1, op2), op3) ← pop2AndPeekMut
  setTop (f op1 op2 op3)

/-- A unary instruction: charge, and replace the top by `f` of it. -/
def unaryOp (gas native : Nat) (f : U256 → U256) : InstructionStep Unit := do
  spendGasAndNative gas native
  let op ← topMut
  setTop (f op)

/-! ## The instructions -/

def wrappedAdd : InstructionStep Unit :=
  binaryOp gasVerylow addNativeCost fun op1 op2 => op2 + op1

def wrappingMul : InstructionStep Unit :=
  binaryOp gasLow mulNativeCost fun op1 op2 => op1 * op2

def wrappingSub : InstructionStep Unit :=
  binaryOp gasVerylow subNativeCost fun op1 op2 => op1 - op2

def div : InstructionStep Unit :=
  binaryOp gasLow divNativeCost fun op1 op2 => if op2 ≠ 0 then op1 / op2 else op2

def sdiv : InstructionStep Unit :=
  binaryOp gasLow sdivNativeCost i256Div

def rem : InstructionStep Unit :=
  binaryOp gasLow modNativeCost fun op1 op2 => (U256.checkedRem op1 op2).getD 0

def smod : InstructionStep Unit :=
  binaryOp gasLow smodNativeCost fun op1 op2 => if op2 ≠ 0 then i256Mod op1 op2 else op2

def addmod : InstructionStep Unit :=
  ternaryOp gasMid addmodNativeCost U256.addMod

def mulmod : InstructionStep Unit :=
  ternaryOp gasMid mulmodNativeCost mulMod

/-- `eval_exp`: the operands first, then the cost of the exponent `op2`. -/
def evalExp : InstructionStep Unit := do
  let (op1, op2) ← pop1AndPeekMut
  match expCost op2 with
  | some (gasCost, nativeCost) => spendGasAndNative gasCost nativeCost
  | none => throw .outOfGas
  setTop (U256.pow op1 op2)

def signExtend : InstructionStep Unit :=
  binaryOp gasLow signextendNativeCost signExtendOp

def lt : InstructionStep Unit :=
  binaryOp gasVerylow ltNativeCost fun op1 op2 => if op1.val < op2.val then 1 else 0

def gt : InstructionStep Unit :=
  binaryOp gasVerylow gtNativeCost fun op1 op2 => if op1.val > op2.val then 1 else 0

def slt : InstructionStep Unit :=
  binaryOp gasVerylow sltNativeCost fun op1 op2 => if i256Cmp op1 op2 = .lt then 1 else 0

def sgt : InstructionStep Unit :=
  binaryOp gasVerylow sgtNativeCost fun op1 op2 => if i256Cmp op1 op2 = .gt then 1 else 0

def eq : InstructionStep Unit :=
  binaryOp gasVerylow eqNativeCost fun op1 op2 => if op1 = op2 then 1 else 0

def iszero : InstructionStep Unit :=
  unaryOp gasVerylow iszeroNativeCost fun stackTop => if stackTop.val = 0 then 1 else 0

def bitand : InstructionStep Unit :=
  binaryOp gasVerylow andNativeCost fun op1 op2 => op2 &&& op1

def bitor : InstructionStep Unit :=
  binaryOp gasVerylow orNativeCost fun op1 op2 => op2 ||| op1

def bitxor : InstructionStep Unit :=
  binaryOp gasVerylow xorNativeCost fun op1 op2 => op2 ^^^ op1

def not : InstructionStep Unit :=
  unaryOp gasVerylow notNativeCost U256.not

def byte : InstructionStep Unit :=
  binaryOp gasVerylow byteNativeCost byteOp

def shl : InstructionStep Unit :=
  binaryOp gasVerylow shlNativeCost shlOp

def shr : InstructionStep Unit :=
  binaryOp gasVerylow shrNativeCost shrOp

def sar : InstructionStep Unit :=
  binaryOp gasVerylow sarNativeCost sarOp

end Interpreter

/-- The arithmetic, comparison and bitwise opcodes. -/
inductive Opcode where
  | add | mul | sub | div | sdiv | mod | smod | addmod | mulmod | exp | signextend
  | lt | gt | slt | sgt | eq | iszero | and | or | xor | not | byte | shl | shr | sar
deriving DecidableEq, Repr

open Interpreter in
/-- The arms of `Interpreter::run` for these opcodes. -/
def Interpreter.dispatch : Opcode → InstructionStep Unit
  | .add => wrappedAdd
  | .mul => wrappingMul
  | .sub => wrappingSub
  | .div => div
  | .sdiv => sdiv
  | .mod => rem
  | .smod => smod
  | .addmod => addmod
  | .mulmod => mulmod
  | .exp => evalExp
  | .signextend => signExtend
  | .lt => lt
  | .gt => gt
  | .slt => slt
  | .sgt => sgt
  | .eq => eq
  | .iszero => iszero
  | .and => bitand
  | .or => bitor
  | .xor => bitxor
  | .not => not
  | .byte => byte
  | .shl => shl
  | .shr => shr
  | .sar => sar

namespace Opcode

/-- The number of operands an opcode takes. -/
def arity : Opcode → Nat
  | .addmod | .mulmod => 3
  | .iszero | .not => 1
  | _ => 2

/-- The Yellow Paper's result on the operands, the top of the stack first. -/
def yellowPaper : Opcode → List U256 → U256
  | .add, [a, b] => YellowPaper.add a b
  | .mul, [a, b] => YellowPaper.mul a b
  | .sub, [a, b] => YellowPaper.sub a b
  | .div, [a, b] => YellowPaper.div a b
  | .sdiv, [a, b] => YellowPaper.sdiv a b
  | .mod, [a, b] => YellowPaper.mod a b
  | .smod, [a, b] => YellowPaper.smod a b
  | .addmod, [a, b, n] => YellowPaper.addmod a b n
  | .mulmod, [a, b, n] => YellowPaper.mulmod a b n
  | .exp, [a, b] => YellowPaper.exp a b
  | .signextend, [b, x] => YellowPaper.signextend b x
  | .lt, [a, b] => YellowPaper.lt a b
  | .gt, [a, b] => YellowPaper.gt a b
  | .slt, [a, b] => YellowPaper.slt a b
  | .sgt, [a, b] => YellowPaper.sgt a b
  | .eq, [a, b] => YellowPaper.eq a b
  | .iszero, [a] => YellowPaper.iszero a
  | .and, [a, b] => YellowPaper.and a b
  | .or, [a, b] => YellowPaper.or a b
  | .xor, [a, b] => YellowPaper.xor a b
  | .not, [a] => YellowPaper.not a
  | .byte, [i, x] => YellowPaper.byte i x
  | .shl, [s, v] => YellowPaper.shl s v
  | .shr, [s, v] => YellowPaper.shr s v
  | .sar, [s, v] => YellowPaper.sar s v
  | _, _ => 0

/-- The gas and native cost an opcode passes to `spend_gas_and_native` on a stack; EXP's is that
of its exponent, and nothing when the stack has no exponent, as it pops first. -/
def cost : Opcode → List U256 → Nat × Nat
  | .add, _ => (gasVerylow, addNativeCost)
  | .mul, _ => (gasLow, mulNativeCost)
  | .sub, _ => (gasVerylow, subNativeCost)
  | .div, _ => (gasLow, divNativeCost)
  | .sdiv, _ => (gasLow, sdivNativeCost)
  | .mod, _ => (gasLow, modNativeCost)
  | .smod, _ => (gasLow, smodNativeCost)
  | .addmod, _ => (gasMid, addmodNativeCost)
  | .mulmod, _ => (gasMid, mulmodNativeCost)
  | .exp, _ :: e :: _ => (expCost e).getD (0, 0)
  | .exp, _ => (0, 0)
  | .signextend, _ => (gasLow, signextendNativeCost)
  | .lt, _ => (gasVerylow, ltNativeCost)
  | .gt, _ => (gasVerylow, gtNativeCost)
  | .slt, _ => (gasVerylow, sltNativeCost)
  | .sgt, _ => (gasVerylow, sgtNativeCost)
  | .eq, _ => (gasVerylow, eqNativeCost)
  | .iszero, _ => (gasVerylow, iszeroNativeCost)
  | .and, _ => (gasVerylow, andNativeCost)
  | .or, _ => (gasVerylow, orNativeCost)
  | .xor, _ => (gasVerylow, xorNativeCost)
  | .not, _ => (gasVerylow, notNativeCost)
  | .byte, _ => (gasVerylow, byteNativeCost)
  | .shl, _ => (gasVerylow, shlNativeCost)
  | .shr, _ => (gasVerylow, shrNativeCost)
  | .sar, _ => (gasVerylow, sarNativeCost)

end Opcode

/-! ## Runs of the shapes -/

namespace Interpreter

theorem spent_zero (r : Resources) : spent r 0 0 = r := by
  simp [spent]

theorem run_spendGasAndNative {gas native : Nat} (hg : gas * ergsPerGas < 2 ^ 64)
    {st : Interpreter} (hn : native ≤ st.resources.native) (he : gas * ergsPerGas ≤ st.resources.ergs) :
    (spendGasAndNative gas native).run st =
      .ok () { st with resources := spent st.resources gas native } := by
  simp only [EStateM.run, spendGasAndNative, Checked.checkedMul_of_lt hg,
    @Resources.charge_of_le st.resources ⟨gas * ergsPerGas, native⟩ hn he]
  rfl

theorem run_pop1AndPeekMut (a b : U256) (rest : List U256) (r : Resources) :
    pop1AndPeekMut.run ⟨a :: b :: rest, r⟩ = .ok (a, b) ⟨b :: rest, r⟩ := rfl

section Shapes

variable {gas native : Nat} (hg : gas * ergsPerGas < 2 ^ 64) {r : Resources}
  (hn : native ≤ r.native) (he : gas * ergsPerGas ≤ r.ergs)
include hg hn he

theorem run_binaryOp {f : U256 → U256 → U256} (a b : U256) {y : U256} (hy : f a b = y)
    (rest : List U256) :
    (binaryOp gas native f).run ⟨a :: b :: rest, r⟩ = .ok () ⟨y :: rest, spent r gas native⟩ := by
  rw [binaryOp, run_bind_of_ok (run_spendGasAndNative hg hn he), ← hy]
  rfl

theorem run_binaryOp_underflow (f : U256 → U256 → U256) {stack : List U256}
    (hlen : stack.length < 2) :
    (binaryOp gas native f).run ⟨stack, r⟩ = .error .stackUnderflow ⟨stack, spent r gas native⟩ := by
  rw [binaryOp, run_bind_of_ok (run_spendGasAndNative hg hn he)]
  match stack, hlen with
  | [], _ => rfl
  | [_], _ => rfl

theorem run_ternaryOp {f : U256 → U256 → U256 → U256} (a b c : U256) {y : U256} (hy : f a b c = y)
    (rest : List U256) :
    (ternaryOp gas native f).run ⟨a :: b :: c :: rest, r⟩ = .ok () ⟨y :: rest, spent r gas native⟩ := by
  rw [ternaryOp, run_bind_of_ok (run_spendGasAndNative hg hn he), ← hy]
  rfl

theorem run_ternaryOp_underflow (f : U256 → U256 → U256 → U256) {stack : List U256}
    (hlen : stack.length < 3) :
    (ternaryOp gas native f).run ⟨stack, r⟩ = .error .stackUnderflow ⟨stack, spent r gas native⟩ := by
  rw [ternaryOp, run_bind_of_ok (run_spendGasAndNative hg hn he)]
  match stack, hlen with
  | [], _ => rfl
  | [_], _ => rfl
  | [_, _], _ => rfl

theorem run_unaryOp {f : U256 → U256} (a : U256) {y : U256} (hy : f a = y) (rest : List U256) :
    (unaryOp gas native f).run ⟨a :: rest, r⟩ = .ok () ⟨y :: rest, spent r gas native⟩ := by
  rw [unaryOp, run_bind_of_ok (run_spendGasAndNative hg hn he), ← hy]
  rfl

theorem run_unaryOp_underflow (f : U256 → U256) :
    (unaryOp gas native f).run ⟨[], r⟩ = .error .stackUnderflow ⟨[], spent r gas native⟩ := by
  rw [unaryOp, run_bind_of_ok (run_spendGasAndNative hg hn he)]
  rfl

end Shapes

end Interpreter

/-! ## EXP -/

theorem expCost_eq (p : U256) :
    expCost p = some (if p.val = 0 then (gasExp, expBaseNativeCost) else
      (50 * (p.val.log2 / 8 + 1) + gasExp,
        expBaseNativeCost + expPerByteNativeCost * (p.val.log2 / 8 + 1))) := by
  unfold expCost
  split
  · case isTrue h =>
    rw [if_pos (by rw [h]; rfl)]
  · case isFalse h =>
    have hp : p.val ≠ 0 := fun h' => h (Fin.ext h')
    have hlog : p.val.log2 < 256 := (Nat.log2_lt hp).mpr p.isLt
    rw [if_neg hp, log2floor_eq]
    have h1 : 50 * (p.val.log2 / 8 + 1) < 2 ^ 64 := by omega
    have h2 : 50 * (p.val.log2 / 8 + 1) + gasExp < 2 ^ 64 := by
      unfold gasExp
      omega
    have h3 : expPerByteNativeCost * (p.val.log2 / 8 + 1) < 2 ^ 64 := by
      unfold expPerByteNativeCost
      omega
    have h4 : expBaseNativeCost + expPerByteNativeCost * (p.val.log2 / 8 + 1) < 2 ^ 64 := by
      unfold expBaseNativeCost expPerByteNativeCost
      omega
    simp [Checked.checkedMul_of_lt h1, Checked.checkedAdd_of_lt h2, Checked.checkedMul_of_lt h3,
      Checked.checkedAdd_of_lt h4]

theorem expCost_some (p : U256) :
    ∃ g n, expCost p = some (g, n) ∧ g * ergsPerGas < 2 ^ 64 := by
  have hlog : p.val.log2 < 256 := by
    by_cases hp : p.val = 0
    · rw [hp]
      decide
    · exact (Nat.log2_lt hp).mpr p.isLt
  rw [expCost_eq]
  split
  · exact ⟨_, _, rfl, by decide⟩
  · refine ⟨_, _, rfl, ?_⟩
    unfold gasExp ergsPerGas
    omega

namespace Interpreter

theorem run_evalExp (a e : U256) (rest : List U256) {r : Resources}
    (hn : ((expCost e).getD (0, 0)).2 ≤ r.native)
    (he : ((expCost e).getD (0, 0)).1 * ergsPerGas ≤ r.ergs) :
    evalExp.run ⟨a :: e :: rest, r⟩ = .ok () ⟨U256.pow a e :: rest,
      spent r ((expCost e).getD (0, 0)).1 ((expCost e).getD (0, 0)).2⟩ := by
  obtain ⟨g, n, hc, hg⟩ := expCost_some e
  simp only [hc, Option.getD_some] at hn he ⊢
  rw [evalExp, run_bind_of_ok (run_pop1AndPeekMut a e rest r)]
  dsimp only
  rw [hc]
  dsimp only
  rw [run_bind_of_ok (run_spendGasAndNative hg hn he)]
  rfl

theorem run_evalExp_underflow {stack : List U256} (hlen : stack.length < 2) (r : Resources) :
    evalExp.run ⟨stack, r⟩ = .error .stackUnderflow ⟨stack, r⟩ := by
  match stack, hlen with
  | [], _ => rfl
  | [_], _ => rfl

end Interpreter

/-! ## The word each instruction computes -/

section Words

variable (a b : U256)

theorem add_word : b + a = YellowPaper.add a b := by
  apply Fin.ext
  show (b.val + a.val) % 2 ^ 256 = (a.val + b.val) % 2 ^ 256
  rw [Nat.add_comm]

theorem mul_word : a * b = YellowPaper.mul a b := rfl

theorem sub_word : a - b = YellowPaper.sub a b := by
  apply Fin.ext
  rw [Fin.val_sub, YellowPaper.sub, YellowPaper.val_ofInt]
  have := a.isLt
  have := b.isLt
  omega

theorem div_word : (if b ≠ 0 then a / b else b) = YellowPaper.div a b := by
  rw [YellowPaper.div]
  by_cases hb : b = 0
  · rw [if_neg (not_not.mpr hb), if_pos (by rw [hb]; rfl), hb]
  · have hb0 : b.val ≠ 0 := fun h => hb (Fin.ext (by rw [h]; rfl))
    rw [if_pos hb, if_neg hb0]
    rfl

theorem mod_word : (U256.checkedRem a b).getD 0 = YellowPaper.mod a b := by
  rw [U256.checkedRem, YellowPaper.mod]
  by_cases hb : b = 0
  · rw [if_pos hb, if_pos (by rw [hb]; rfl)]
    rfl
  · have hb0 : b.val ≠ 0 := fun h => hb (Fin.ext (by rw [h]; rfl))
    rw [if_neg hb, if_neg hb0]
    rfl

theorem smod_word : (if b ≠ 0 then i256Mod a b else b) = YellowPaper.smod a b := by
  by_cases hb : b = 0
  · rw [if_neg (not_not.mpr hb), YellowPaper.smod, if_pos (by rw [hb]; rfl), hb]
  · rw [if_pos hb, i256Mod_eq_smod a (fun h => hb (Fin.ext (by rw [h]; rfl)))]

theorem slt_word : (if i256Cmp a b = .lt then 1 else 0) = YellowPaper.slt a b := by
  simp only [i256Cmp_eq, compare_lt_iff_lt, YellowPaper.slt, YellowPaper.ofBool]

theorem sgt_word : (if i256Cmp a b = .gt then 1 else 0) = YellowPaper.sgt a b := by
  simp only [i256Cmp_eq, compare_gt_iff_gt, YellowPaper.sgt, YellowPaper.ofBool]

theorem and_word : b &&& a = YellowPaper.and a b := by
  apply Fin.ext
  rw [val_and, Nat.land_comm]
  rfl

theorem or_word : b ||| a = YellowPaper.or a b := by
  apply Fin.ext
  rw [val_or, Nat.lor_comm]
  rfl

theorem xor_word : b ^^^ a = YellowPaper.xor a b := by
  apply Fin.ext
  rw [val_xor, Nat.xor_comm]
  rfl

end Words

/-! ## The opcodes against the Yellow Paper -/

theorem one_operand {operands : List U256} (h : operands.length = 1) : ∃ a, operands = [a] := by
  match operands, h with
  | [a], _ => exact ⟨a, rfl⟩

theorem two_operands {operands : List U256} (h : operands.length = 2) :
    ∃ a b, operands = [a, b] := by
  match operands, h with
  | [a, b], _ => exact ⟨a, b, rfl⟩

theorem three_operands {operands : List U256} (h : operands.length = 3) :
    ∃ a b c, operands = [a, b, c] := by
  match operands, h with
  | [a, b, c], _ => exact ⟨a, b, c, rfl⟩

open Interpreter in
/-- Every opcode but SHL and SHR, given its operands and its cost, writes the Yellow Paper's result
over them. -/
theorem dispatch_yellowPaper (op : Opcode) (hop : op ≠ .shl ∧ op ≠ .shr)
    (operands rest : List U256) (hlen : operands.length = op.arity) (r : Resources)
    (hn : (op.cost operands).2 ≤ r.native) (he : (op.cost operands).1 * ergsPerGas ≤ r.ergs) :
    (dispatch op).run ⟨operands ++ rest, r⟩ =
      .ok () ⟨op.yellowPaper operands :: rest, spent r (op.cost operands).1 (op.cost operands).2⟩ := by
  cases op <;> dsimp only [dispatch, Opcode.cost, Opcode.yellowPaper, Opcode.arity] at hlen hn he ⊢
  case add =>
    obtain ⟨a, b, rfl⟩ := two_operands hlen
    refine run_binaryOp ?_ hn he a b ?_ rest
    · decide
    · exact add_word a b
  case mul =>
    obtain ⟨a, b, rfl⟩ := two_operands hlen
    refine run_binaryOp ?_ hn he a b ?_ rest
    · decide
    · exact mul_word a b
  case sub =>
    obtain ⟨a, b, rfl⟩ := two_operands hlen
    refine run_binaryOp ?_ hn he a b ?_ rest
    · decide
    · exact sub_word a b
  case div =>
    obtain ⟨a, b, rfl⟩ := two_operands hlen
    refine run_binaryOp ?_ hn he a b ?_ rest
    · decide
    · exact div_word a b
  case sdiv =>
    obtain ⟨a, b, rfl⟩ := two_operands hlen
    refine run_binaryOp ?_ hn he a b ?_ rest
    · decide
    · exact i256Div_eq_sdiv a b
  case mod =>
    obtain ⟨a, b, rfl⟩ := two_operands hlen
    refine run_binaryOp ?_ hn he a b ?_ rest
    · decide
    · exact mod_word a b
  case smod =>
    obtain ⟨a, b, rfl⟩ := two_operands hlen
    refine run_binaryOp ?_ hn he a b ?_ rest
    · decide
    · exact smod_word a b
  case addmod =>
    obtain ⟨a, b, c, rfl⟩ := three_operands hlen
    refine run_ternaryOp ?_ hn he a b c ?_ rest
    · decide
    · rfl
  case mulmod =>
    obtain ⟨a, b, c, rfl⟩ := three_operands hlen
    refine run_ternaryOp ?_ hn he a b c ?_ rest
    · decide
    · rfl
  case exp =>
    obtain ⟨a, e, rfl⟩ := two_operands hlen
    exact run_evalExp a e rest hn he
  case signextend =>
    obtain ⟨a, b, rfl⟩ := two_operands hlen
    refine run_binaryOp ?_ hn he a b ?_ rest
    · decide
    · exact signExtendOp_eq_signextend a b
  case lt =>
    obtain ⟨a, b, rfl⟩ := two_operands hlen
    refine run_binaryOp ?_ hn he a b ?_ rest
    · decide
    · rfl
  case gt =>
    obtain ⟨a, b, rfl⟩ := two_operands hlen
    refine run_binaryOp ?_ hn he a b ?_ rest
    · decide
    · rfl
  case slt =>
    obtain ⟨a, b, rfl⟩ := two_operands hlen
    refine run_binaryOp ?_ hn he a b ?_ rest
    · decide
    · exact slt_word a b
  case sgt =>
    obtain ⟨a, b, rfl⟩ := two_operands hlen
    refine run_binaryOp ?_ hn he a b ?_ rest
    · decide
    · exact sgt_word a b
  case eq =>
    obtain ⟨a, b, rfl⟩ := two_operands hlen
    refine run_binaryOp ?_ hn he a b ?_ rest
    · decide
    · rfl
  case iszero =>
    obtain ⟨a, rfl⟩ := one_operand hlen
    refine run_unaryOp ?_ hn he a ?_ rest
    · decide
    · rfl
  case and =>
    obtain ⟨a, b, rfl⟩ := two_operands hlen
    refine run_binaryOp ?_ hn he a b ?_ rest
    · decide
    · exact and_word a b
  case or =>
    obtain ⟨a, b, rfl⟩ := two_operands hlen
    refine run_binaryOp ?_ hn he a b ?_ rest
    · decide
    · exact or_word a b
  case xor =>
    obtain ⟨a, b, rfl⟩ := two_operands hlen
    refine run_binaryOp ?_ hn he a b ?_ rest
    · decide
    · exact xor_word a b
  case not =>
    obtain ⟨a, rfl⟩ := one_operand hlen
    refine run_unaryOp ?_ hn he a ?_ rest
    · decide
    · rfl
  case byte =>
    obtain ⟨a, b, rfl⟩ := two_operands hlen
    refine run_binaryOp ?_ hn he a b ?_ rest
    · decide
    · exact byteOp_eq_byte a b
  case shl => exact absurd rfl hop.1
  case shr => exact absurd rfl hop.2
  case sar =>
    obtain ⟨a, b, rfl⟩ := two_operands hlen
    refine run_binaryOp ?_ hn he a b ?_ rest
    · decide
    · exact sarOp_eq_sar a b

theorem Opcode.cost_exp_of_length_lt {stack : List U256} (hlen : stack.length < 2) :
    Opcode.cost .exp stack = (0, 0) := by
  match stack, hlen with
  | [], _ | [_], _ => rfl

open Interpreter in
/-- With fewer operands than it takes, an opcode fails with `StackUnderflow`, the stack as it was;
every opcode but EXP has charged its cost first. -/
theorem dispatch_underflow (op : Opcode) (stack : List U256) (hlen : stack.length < op.arity)
    (r : Resources) (hn : (op.cost stack).2 ≤ r.native)
    (he : (op.cost stack).1 * ergsPerGas ≤ r.ergs) :
    (dispatch op).run ⟨stack, r⟩ =
      .error .stackUnderflow ⟨stack, spent r (op.cost stack).1 (op.cost stack).2⟩ := by
  cases op
  case exp =>
    -- EXP reads its exponent before it charges, so on a short stack it has cost nothing
    rw [Opcode.cost_exp_of_length_lt hlen, spent_zero]
    exact run_evalExp_underflow hlen r
  all_goals dsimp only [dispatch, Opcode.cost, Opcode.arity] at hlen hn he ⊢
  case addmod => exact run_ternaryOp_underflow (by decide) hn he _ hlen
  case mulmod => exact run_ternaryOp_underflow (by decide) hn he _ hlen
  case iszero =>
    match stack, hlen with
    | [], _ => exact run_unaryOp_underflow (by decide) hn he _
  case not =>
    match stack, hlen with
    | [], _ => exact run_unaryOp_underflow (by decide) hn he _
  all_goals exact run_binaryOp_underflow (by decide) hn he _ hlen

open Interpreter in
/-- SHL shifts by `cutShift`, the shift operand saturated to a `u64` and cut to 32 bits. -/
theorem dispatch_shl (s v : U256) (rest : List U256) {r : Resources}
    (hn : shlNativeCost ≤ r.native) (he : gasVerylow * ergsPerGas ≤ r.ergs) :
    (dispatch .shl).run ⟨s :: v :: rest, r⟩ =
      .ok () ⟨YellowPaper.shl (cutShift s) v :: rest, spent r gasVerylow shlNativeCost⟩ :=
  run_binaryOp (by decide) hn he s v (shlOp_eq s v) rest

open Interpreter in
/-- SHR shifts by `cutShift`. -/
theorem dispatch_shr (s v : U256) (rest : List U256) {r : Resources}
    (hn : shrNativeCost ≤ r.native) (he : gasVerylow * ergsPerGas ≤ r.ergs) :
    (dispatch .shr).run ⟨s :: v :: rest, r⟩ =
      .ok () ⟨YellowPaper.shr (cutShift s) v :: rest, spent r gasVerylow shrNativeCost⟩ :=
  run_binaryOp (by decide) hn he s v (shrOp_eq s v) rest

open Interpreter in
/-- SHL and SHR by `2 ^ 32` keep the value where the Yellow Paper gives `0`; the other opcodes
agree with it on every stack. -/
theorem shl_shr_by_two_pow_thirty_two_keep_value :
    (dispatch .shl).run ⟨[⟨2 ^ 32, by decide⟩, 1], ⟨768, 240⟩⟩ = .ok () ⟨[1], ⟨0, 0⟩⟩ ∧
    (dispatch .shr).run ⟨[⟨2 ^ 32, by decide⟩, 1], ⟨768, 240⟩⟩ = .ok () ⟨[1], ⟨0, 0⟩⟩ ∧
    Opcode.yellowPaper .shl [⟨2 ^ 32, by decide⟩, 1] = 0 ∧
    Opcode.yellowPaper .shr [⟨2 ^ 32, by decide⟩, 1] = 0 ∧
    (∀ s : U256, (∀ v, shlOp s v = YellowPaper.shl s v) ↔
      s.val < 2 ^ 32 ∨ 256 ≤ u256ToUsizeSaturated s) ∧
    (∀ s : U256, (∀ v, shrOp s v = YellowPaper.shr s v) ↔
      s.val < 2 ^ 32 ∨ 256 ≤ u256ToUsizeSaturated s) ∧
    (∀ (op : Opcode), op ≠ .shl ∧ op ≠ .shr → ∀ (operands rest : List U256),
      operands.length = op.arity → ∀ r : Resources, (op.cost operands).2 ≤ r.native →
      (op.cost operands).1 * ergsPerGas ≤ r.ergs →
      (dispatch op).run ⟨operands ++ rest, r⟩ =
        .ok () ⟨op.yellowPaper operands :: rest, spent r (op.cost operands).1 (op.cost operands).2⟩) ∧
    ∀ (op : Opcode) (stack : List U256), stack.length < op.arity → ∀ r : Resources,
      (op.cost stack).2 ≤ r.native → (op.cost stack).1 * ergsPerGas ≤ r.ergs →
      (dispatch op).run ⟨stack, r⟩ =
        .error .stackUnderflow ⟨stack, spent r (op.cost stack).1 (op.cost stack).2⟩ := by
  have hcut : cutShift ⟨2 ^ 32, by decide⟩ = 0 := by decide
  refine ⟨?_, ?_, ?_, ?_, shlOp_eq_shl_iff, shrOp_eq_shr_iff,
    fun op hop operands rest hlen r hn he => dispatch_yellowPaper op hop operands rest hlen r hn he,
    fun op stack hlen r hn he => dispatch_underflow op stack hlen r hn he⟩
  · rw [dispatch_shl _ _ [] (by decide) (by decide), hcut]
    rfl
  · rw [dispatch_shr _ _ [] (by decide) (by decide), hcut]
    rfl
  · exact YellowPaper.shl_of_le (by decide) 1
  · exact YellowPaper.shr_of_le (by decide) 1

end ZksyncOs.Evm
