import Mathlib
import ZksyncOs.Bootloader.GasHelpers
import ZksyncOs.Lib.Except

/-!
# The gas refund and the fee settlement of L1 transactions

`BasicBootloader::compute_gas_refund` turns what is left of a transaction's resources into the gas
it used: the gas whose ergs were spent, raised to the gas its native use is worth, through `i64`
casts; `process_l1_transaction` then pays the operator and refunds the rest of the deposit with
checked `U256` arithmetic.

* `Spent` : what charging can do to resources, neither counter growing;
* `getResourcesForTx_bounds` : the resources a transaction starts with, and those withheld from it,
  fit in its gas limit and in its full native limit, and the gas limit exceeds the intrinsic gas by
  less than `2 ^ 57`;
* `computeGasRefund_eq` : from resources spent from those, with the withheld ones reclaimed, no
  subtraction of `compute_gas_refund` wraps and the gas used is the larger of the two measures;
* `l1FeeSettlement_eq` : with the deposit checked before execution, the settlement subtracts
  without failing.
-/

namespace ZksyncOs

open Checked

def l1TxIntrinsicL2Gas : Nat := 11000

def l1TxIntrinsicNativeCost : Nat := 10000

def l1TxIntrinsicPubdata : Nat := 88

/-- `r'` is what charging has left of `r`: neither counter has grown. -/
def Spent (r r' : Resources) : Prop := r'.ergs ≤ r.ergs ∧ r'.native ≤ r.native

namespace Spent

theorem refl (r : Resources) : Spent r r := ⟨Nat.le_refl _, Nat.le_refl _⟩

theorem trans {r r' r'' : Resources} (h : Spent r r') (h' : Spent r' r'') : Spent r r'' :=
  ⟨Nat.le_trans h'.1 h.1, Nat.le_trans h'.2 h.2⟩

theorem charge (r c : Resources) : Spent r (r.charge c).1 := Resources.charge_le r c

theorem exhaustErgs (r : Resources) : Spent r r.exhaustErgs := ⟨Nat.zero_le _, Nat.le_refl _⟩

theorem chargeUnchecked_eq {r c : Resources} (h : r.hasEnough c = true) (hr : r.ergs < 2 ^ 64)
    (hn : r.native < 2 ^ 64) : r.chargeUnchecked c = ⟨r.ergs - c.ergs, r.native - c.native⟩ := by
  simp only [Resources.hasEnough, Bool.and_eq_true, decide_eq_true_eq] at h
  rw [Resources.chargeUnchecked, wrappingSub_of_le h.1 hr, wrappingSub_of_le h.2 hn]

theorem chargeUnchecked {r c : Resources} (h : r.hasEnough c = true) (hr : r.ergs < 2 ^ 64)
    (hn : r.native < 2 ^ 64) : Spent r (r.chargeUnchecked c) := by
  rw [chargeUnchecked_eq h hr hn]
  exact ⟨Nat.sub_le _ _, Nat.sub_le _ _⟩

end Spent

/-- `compute_gas_refund`, in the `u64` and `i64` arithmetic of a release build; the pubdata charge
is unchecked, as its caller has checked it. -/
def computeGasRefund (toChargeForPubdata : Resources) (gasLimit : Nat) (nativePerGas : U256)
    (resources : Resources) : Resources × Except InternalError (Nat × Nat) :=
  let resources := resources.chargeUnchecked toChargeForPubdata
  let gasUsed := wrappingSub 64 gasLimit (resources.ergs / ergsPerGas)
  let resources := resources.exhaustErgs
  let nativePerGas := u256ToU64Saturated nativePerGas
  let fullNativeLimit := saturatingMul 64 gasLimit nativePerGas
  let nativeUsed := wrappingSub 64 fullNativeLimit resources.native
  let deltaGas : Int :=
    if nativePerGas = 0 then 0
    else wrappingSubSigned 64 (toSigned 64 (nativeUsed / nativePerGas)) (toSigned 64 gasUsed)
  -- more native used than gas accounted for: the extra is gas used too
  let gasUsed := if deltaGas > 0 then wrappingAdd 64 gasUsed deltaGas.toNat else gasUsed
  let totalGasRefund := wrappingSub 64 gasLimit gasUsed
  if totalGasRefund ≤ gasLimit then (resources, .ok (totalGasRefund, gasUsed))
  else (resources, .error ⟨"Gas refund greater than gas limit"⟩)

section Bounds

variable {gasLimit : Nat} {nativePerPubdata nativePerGas : U256} {calldata : List UInt8}
  {intrinsicGas intrinsicPubdata intrinsicNative : Nat} {r w : Resources}

theorem costForCalldata_bounds {gas native : Nat}
    (h : costForCalldata calldata = .ok (gas, native)) :
    native = calldata.length ∧ gas ≤ calldataNonZeroByteGasCost * calldata.length := by
  simp only [costForCalldata, Except.bind_eq_ok, okOr_eq_ok_iff, Except.pure_eq_ok] at h
  obtain ⟨zc, hzc, nzc, hnzc, gc, hgc, nc, hnc, heq⟩ := h
  cases heq
  have hz := val_of_checkedMul_eq_some hzc
  have hnz := val_of_checkedMul_eq_some hnzc
  have hg := val_of_checkedAdd_eq_some hgc
  have hn := val_of_checkedMul_eq_some hnc
  have hcount := List.countP_le_length (p := (· == (0 : UInt8))) (l := calldata)
  simp only [calldataZeroByteGasCost, calldataNonZeroByteGasCost, copyByteNativeCost] at *
  omega

/-- `get_resources_for_tx` hands out ergs within the gas limit less the intrinsic gas, and native
that fits the full native limit with the withheld native. -/
theorem getResourcesForTx_bounds
    (h : getResourcesForTx gasLimit nativePerPubdata nativePerGas calldata intrinsicGas
      intrinsicPubdata intrinsicNative = .ok (r, w)) :
    r.ergs / ergsPerGas + intrinsicGas ≤ gasLimit ∧ r.ergs < 2 ^ 64 ∧
      r.native + w.native ≤ saturatingMul 64 gasLimit (u256ToU64Saturated nativePerGas) ∧
      w.ergs = 0 ∧ gasLimit < 2 ^ 57 + intrinsicGas := by
  simp only [getResourcesForTx, Except.bind_eq_ok, okOr_eq_ok_iff] at h
  obtain ⟨overhead, -, nl1, hnl1, h⟩ := h
  rcases hc : costForCalldata calldata with e | ⟨calldataGas, calldataNative⟩
  · rw [hc] at h
    simp at h
  rw [hc] at h
  simp only [Except.bind_eq_ok, okOr_eq_ok_iff, Except.pure_eq_ok] at h
  obtain ⟨_, rfl, nativeLimit, hnl, total, htotal, h⟩ := h
  -- the cap at `MAX_NATIVE_COMPUTATIONAL`: what is above it is withheld
  generalize hcapdef : (if nl1 ≤ maxNativeComputational then (nl1, Resources.fromErgs 0)
    else (maxNativeComputational, Resources.fromNative (nl1 - maxNativeComputational))) = cap at hnl h
  have hcap : cap.1 + cap.2.native = nl1 ∧ cap.2.ergs = 0 ∧ cap.1 ≤ maxNativeComputational := by
    rw [← hcapdef]
    split_ifs <;> simp [Resources.fromErgs, Resources.fromNative] <;> omega
  by_cases hgt : total.val > gasLimit
  · rw [if_pos hgt] at h
    simp at h
  rw [if_neg hgt] at h
  simp only [Except.bind_eq_ok, okOr_eq_ok_iff, Except.pure_eq_ok] at h
  obtain ⟨ergs, hergs, heq⟩ := h
  cases heq
  obtain ⟨hnative, hgas⟩ := costForCalldata_bounds hc
  have hn1 : nl1 ≤ saturatingMul 64 gasLimit (u256ToU64Saturated nativePerGas) := by
    simp only [checkedSub] at hnl1
    split_ifs at hnl1
    cases hnl1
    omega
  have hnl' : nativeLimit + calldataNative ≤ cap.1 := by
    simp only [Option.bind_eq_some_iff, checkedSub] at hnl
    obtain ⟨x, hx, hy⟩ := hnl
    split_ifs at hx hy
    cases hx
    cases hy
    omega
  have ht := val_of_checkedAdd_eq_some htotal
  have he := val_of_checkedMul_eq_some hergs
  simp only [ergsPerGas, calldataNonZeroByteGasCost, maxNativeComputational] at *
  refine ⟨?_, ergs.isLt, by omega, hcap.2.1, by omega⟩
  rw [he, Nat.mul_div_cancel _ (by decide)]
  omega

end Bounds

/-! ## The refund -/

/-- The gas a transaction used, as it is meant to be: the gas whose ergs were spent, or the gas the
native used is worth when that is more; with no native price, the ergs alone. -/
def gasUsedOf (gasLimit ergsLeft nativeLeft nativePerGas : Nat) : Nat :=
  if nativePerGas = 0 then gasLimit - ergsLeft / ergsPerGas
  else max (gasLimit - ergsLeft / ergsPerGas)
    ((saturatingMul 64 gasLimit nativePerGas - nativeLeft) / nativePerGas)

theorem adjustGasUsed_eq {gu nu : Nat} (hgu : gu < 2 ^ 63) (hnu : nu < 2 ^ 63) :
    (if wrappingSubSigned 64 (toSigned 64 nu) (toSigned 64 gu) > 0 then
      wrappingAdd 64 gu (wrappingSubSigned 64 (toSigned 64 nu) (toSigned 64 gu)).toNat else gu) =
      max gu nu := by
  rw [toSigned_of_lt hnu, toSigned_of_lt hgu, wrappingSubSigned_of_lt (by decide) hnu hgu]
  by_cases h : gu < nu
  · rw [if_pos (by omega), wrappingAdd_of_lt (by omega)]
    omega
  · rw [if_neg (by omega)]
    omega

theorem nativeGas_le (gasLimit nativePerGas nativeLeft : Nat) :
    (saturatingMul 64 gasLimit nativePerGas - nativeLeft) / nativePerGas ≤ gasLimit := by
  apply Nat.div_le_of_le_mul
  have := Nat.min_le_left (gasLimit * nativePerGas) (2 ^ 64 - 1)
  unfold saturatingMul
  rw [Nat.mul_comm]
  omega

section Refund

variable {gasLimit : Nat} {nativePerPubdata nativePerGas : U256} {calldata : List UInt8}
  {intrinsicGas intrinsicPubdata intrinsicNative : Nat} {r0 w r1 r2 toCharge : Resources}

/-- From resources spent from those of `get_resources_for_tx`, `compute_gas_refund` subtracts
without wrapping and returns the refund and the gas used. -/
theorem computeGasRefund_eq (hig : intrinsicGas < 2 ^ 62)
    (h : getResourcesForTx gasLimit nativePerPubdata nativePerGas calldata intrinsicGas
      intrinsicPubdata intrinsicNative = .ok (r0, w))
    (h1 : Spent r0 r1) (h2 : Spent (r1.reclaimWithheld w) r2) (hpub : r2.hasEnough toCharge = true) :
    (r2.chargeUnchecked toCharge).ergs / ergsPerGas ≤ gasLimit ∧
      (r2.chargeUnchecked toCharge).native ≤
        saturatingMul 64 gasLimit (u256ToU64Saturated nativePerGas) ∧
      gasUsedOf gasLimit (r2.chargeUnchecked toCharge).ergs (r2.chargeUnchecked toCharge).native
        (u256ToU64Saturated nativePerGas) ≤ gasLimit ∧
      computeGasRefund toCharge gasLimit nativePerGas r2 =
        ((r2.chargeUnchecked toCharge).exhaustErgs,
          .ok (gasLimit - gasUsedOf gasLimit (r2.chargeUnchecked toCharge).ergs
              (r2.chargeUnchecked toCharge).native (u256ToU64Saturated nativePerGas),
            gasUsedOf gasLimit (r2.chargeUnchecked toCharge).ergs
              (r2.chargeUnchecked toCharge).native (u256ToU64Saturated nativePerGas))) := by
  obtain ⟨hergs0, hergs0lt, hnative0, hw, hlimit⟩ := getResourcesForTx_bounds h
  have hfull : saturatingMul 64 gasLimit (u256ToU64Saturated nativePerGas) < 2 ^ 64 := by
    unfold saturatingMul
    omega
  -- what is left before the pubdata charge is within what `get_resources_for_tx` handed out
  have hr2e : r2.ergs ≤ r0.ergs := by
    have := h2.1
    have := h1.1
    simp only [Resources.reclaimWithheld] at *
    omega
  have hr2n : r2.native ≤ saturatingMul 64 gasLimit (u256ToU64Saturated nativePerGas) := by
    have := h2.2
    have := h1.2
    simp only [Resources.reclaimWithheld] at *
    omega
  obtain ⟨hr3e, hr3n⟩ := Spent.chargeUnchecked hpub (by omega) (by omega)
  have hergs : (r2.chargeUnchecked toCharge).ergs / ergsPerGas ≤ gasLimit :=
    Nat.le_trans (Nat.div_le_div_right (Nat.le_trans hr3e hr2e)) (by omega)
  have hnative : (r2.chargeUnchecked toCharge).native ≤
      saturatingMul 64 gasLimit (u256ToU64Saturated nativePerGas) := Nat.le_trans hr3n hr2n
  have hused : ∀ e n, gasUsedOf gasLimit e n (u256ToU64Saturated nativePerGas) ≤ gasLimit := by
    intro e n
    unfold gasUsedOf
    split_ifs
    · exact Nat.sub_le _ _
    · exact Nat.max_le.2 ⟨Nat.sub_le _ _, nativeGas_le _ _ _⟩
  refine ⟨hergs, hnative, hused _ _, ?_⟩
  have hnu := nativeGas_le gasLimit (u256ToU64Saturated nativePerGas)
    (r2.chargeUnchecked toCharge).native
  have hused' := hused (r2.chargeUnchecked toCharge).ergs (r2.chargeUnchecked toCharge).native
  unfold computeGasRefund
  dsimp only
  generalize r2.chargeUnchecked toCharge = r3 at hergs hnative hnu hused' ⊢
  have hgu : gasLimit - r3.ergs / ergsPerGas < 2 ^ 63 := by
    have := Nat.sub_le gasLimit (r3.ergs / ergsPerGas)
    omega
  rw [wrappingSub_of_le hergs (by omega), show r3.exhaustErgs.native = r3.native from rfl,
    wrappingSub_of_le hnative hfull]
  -- the `i64` adjustment gives the gas used as it is meant to be
  have hadj : (if (if u256ToU64Saturated nativePerGas = 0 then 0
        else wrappingSubSigned 64
          (toSigned 64 ((saturatingMul 64 gasLimit (u256ToU64Saturated nativePerGas) - r3.native) /
            u256ToU64Saturated nativePerGas)) (toSigned 64 (gasLimit - r3.ergs / ergsPerGas))) > 0 then
      wrappingAdd 64 (gasLimit - r3.ergs / ergsPerGas)
        (if u256ToU64Saturated nativePerGas = 0 then 0
          else wrappingSubSigned 64
            (toSigned 64 ((saturatingMul 64 gasLimit (u256ToU64Saturated nativePerGas) - r3.native) /
              u256ToU64Saturated nativePerGas)) (toSigned 64 (gasLimit - r3.ergs / ergsPerGas))).toNat
      else gasLimit - r3.ergs / ergsPerGas) =
      gasUsedOf gasLimit r3.ergs r3.native (u256ToU64Saturated nativePerGas) := by
    unfold gasUsedOf
    by_cases hz : u256ToU64Saturated nativePerGas = 0
    · simp only [if_pos hz, gt_iff_lt, Int.lt_irrefl, if_false]
    · simp only [if_neg hz]
      exact adjustGasUsed_eq hgu (by omega)
  rw [hadj, wrappingSub_of_le hused' (by omega), if_pos (Nat.sub_le _ _)]

end Refund

/-! ## The fee settlement of L1 transactions -/

/-- The deposit check of `process_l1_transaction`, before execution: the deposit covers the value
and the most the transaction can cost, `gas_price * gas_limit` in `u128`. -/
def l1DepositCheck (gasPrice gasLimit : Nat) (value totalDeposited : U256) : Except TxError Unit := do
  let txInternalCost ← okOr (checkedMul 128 gasPrice gasLimit) (TxError.internal ⟨"gp*gl"⟩)
  let neededAmount ← okOr (checkedAdd 256 value.val txInternalCost.val) (TxError.internal ⟨"v+tic"⟩)
  if totalDeposited.val < neededAmount.val then throw (TxError.internal ⟨"Deposited amount too low"⟩)

/-- The settlement of `process_l1_transaction`: the operator's pay and the refund of the rest of the
deposit, or the rejection of a reverted upgrade transaction. -/
def l1FeeSettlement (isPriorityOp reverted : Bool) (gasUsed gasPrice : Nat) (value totalDeposited : U256) :
    Except TxError (Nat × Nat) := do
  let payToOperator ← okOr (checkedMul 256 gasUsed gasPrice) (TxError.internal ⟨"gu*gp"⟩)
  let toRefundRecipient ← if reverted then do
      if !isPriorityOp then throw (TxError.validation .upgradeTxFailed)
      okOr (checkedSub totalDeposited.val payToOperator.val) (TxError.internal ⟨"td-pto"⟩)
    else do
      let valuePlusFee ← okOr (checkedAdd 256 value.val payToOperator.val) (TxError.internal ⟨"v+pto"⟩)
      okOr (checkedSub totalDeposited.val valuePlusFee.val) (TxError.internal ⟨"td-vpf"⟩)
  pure (payToOperator.val, toRefundRecipient)

theorem l1DepositCheck_bounds {gasPrice gasLimit : Nat} {value totalDeposited : U256}
    (h : l1DepositCheck gasPrice gasLimit value totalDeposited = .ok ()) :
    gasPrice * gasLimit < 2 ^ 128 ∧ value.val + gasPrice * gasLimit ≤ totalDeposited.val := by
  simp only [l1DepositCheck, Except.bind_eq_ok, okOr_eq_ok_iff] at h
  obtain ⟨tic, htic, needed, hneeded, h⟩ := h
  have ht := val_of_checkedMul_eq_some htic
  have hn := val_of_checkedAdd_eq_some hneeded
  by_cases hlow : totalDeposited.val < needed.val
  · rw [if_pos hlow] at h
    exact absurd h Except.throw_ne_ok
  · exact ⟨ht ▸ tic.isLt, by omega⟩

/-- With the deposit checked before execution and a gas used within the gas limit, the operator's
pay is within the deposit less the value, and no checked operation of the settlement fails. -/
theorem l1FeeSettlement_eq {gasPrice gasLimit gasUsed : Nat} {value totalDeposited : U256}
    (hdep : l1DepositCheck gasPrice gasLimit value totalDeposited = .ok ()) (hused : gasUsed ≤ gasLimit)
    (isPriorityOp reverted : Bool) :
    gasUsed * gasPrice ≤ totalDeposited.val - value.val ∧
      l1FeeSettlement isPriorityOp reverted gasUsed gasPrice value totalDeposited =
        if reverted ∧ isPriorityOp = false then .error (.validation .upgradeTxFailed)
        else .ok (gasUsed * gasPrice,
          if reverted then totalDeposited.val - gasUsed * gasPrice
          else totalDeposited.val - (value.val + gasUsed * gasPrice)) := by
  obtain ⟨htic, hneeded⟩ := l1DepositCheck_bounds hdep
  have hpay : gasUsed * gasPrice ≤ gasPrice * gasLimit := by
    rw [Nat.mul_comm gasPrice]
    exact Nat.mul_le_mul_right _ hused
  have hval := value.isLt
  have htot := totalDeposited.isLt
  refine ⟨by omega, ?_⟩
  have hadd := checkedAdd_of_lt (w := 256) (a := value.val) (b := gasUsed * gasPrice) (by omega)
  have hpto : checkedSub totalDeposited.val (gasUsed * gasPrice) =
      some (totalDeposited.val - gasUsed * gasPrice) := checkedSub_of_le (by omega)
  have hvpf : checkedSub totalDeposited.val (value.val + gasUsed * gasPrice) =
      some (totalDeposited.val - (value.val + gasUsed * gasPrice)) := checkedSub_of_le (by omega)
  unfold l1FeeSettlement
  rw [checkedMul_of_lt (by omega), okOr_some]
  cases reverted <;> cases isPriorityOp <;> simp [hadd, hpto, hvpf]
  rfl

/-- The pubdata check after execution, at the counter that refund reads again: the resources it
accepted, with the withheld ones reclaimed, have enough for the charge refund computes. -/
theorem hasEnough_of_checkEnoughResourcesForPubdata {netPubdataUsed : Nat} {nativePerPubdata : U256}
    {r : Resources} {base : Option Nat} {spent : Nat} {toCharge : Resources}
    (hcheck : checkEnoughResourcesForPubdata netPubdataUsed nativePerPubdata r base = .ok true)
    (hcharge : getResourcesToChargeForPubdata netPubdataUsed nativePerPubdata base = .ok (spent, toCharge))
    (w : Resources) : (r.reclaimWithheld w).hasEnough toCharge = true := by
  simp only [checkEnoughResourcesForPubdata, hcharge, Except.bind_eq_ok, Except.pure_eq_ok] at hcheck
  obtain ⟨_, heq, hcheck⟩ := hcheck
  cases heq
  simp only [Resources.hasEnough, Bool.and_eq_true, decide_eq_true_eq] at hcheck ⊢
  dsimp only [Resources.reclaimWithheld]
  omega

/-- The gas refund is bounded and exact, and the settlement of an L1 transaction after it never
fails. -/
theorem compute_gas_refund_bounded_and_exact {gasLimit : Nat} {nativePerPubdata nativePerGas : U256}
    {calldata : List UInt8} {intrinsicGas intrinsicPubdata intrinsicNative : Nat}
    {r0 w r1 r2 toCharge : Resources} (hig : intrinsicGas < 2 ^ 62)
    (h : getResourcesForTx gasLimit nativePerPubdata nativePerGas calldata intrinsicGas
      intrinsicPubdata intrinsicNative = .ok (r0, w))
    (h1 : Spent r0 r1) (h2 : Spent (r1.reclaimWithheld w) r2) (hpub : r2.hasEnough toCharge = true) :
    let r3 := r2.chargeUnchecked toCharge
    let gasUsed := gasUsedOf gasLimit r3.ergs r3.native (u256ToU64Saturated nativePerGas)
    r3.ergs / ergsPerGas ≤ gasLimit ∧
      r3.native ≤ saturatingMul 64 gasLimit (u256ToU64Saturated nativePerGas) ∧ gasUsed ≤ gasLimit ∧
      computeGasRefund toCharge gasLimit nativePerGas r2 = (r3.exhaustErgs, .ok (gasLimit - gasUsed, gasUsed)) ∧
      ∀ (isPriorityOp reverted : Bool) (gasPrice : Nat) (value totalDeposited : U256),
        l1DepositCheck gasPrice gasLimit value totalDeposited = .ok () →
        gasUsed * gasPrice ≤ totalDeposited.val - value.val ∧
          l1FeeSettlement isPriorityOp reverted gasUsed gasPrice value totalDeposited =
            if reverted ∧ isPriorityOp = false then .error (.validation .upgradeTxFailed)
            else .ok (gasUsed * gasPrice,
              if reverted then totalDeposited.val - gasUsed * gasPrice
              else totalDeposited.val - (value.val + gasUsed * gasPrice)) := by
  obtain ⟨hergs, hnative, hused, hrefund⟩ := computeGasRefund_eq hig h h1 h2 hpub
  exact ⟨hergs, hnative, hused, hrefund, fun isPriorityOp reverted _ _ _ hdep =>
    l1FeeSettlement_eq hdep hused isPriorityOp reverted⟩

/-- An L2 transaction with native withheld, resources spent and a pubdata charge that its check
accepted; its native raises the gas used to 50000. -/
theorem compute_gas_refund_bounded_and_exact_l2_after_pubdata_check :
    l2TxIntrinsicGas < 2 ^ 62 ∧
      getResourcesForTx 100000 10 1000000 [1, 0] l2TxIntrinsicGas l2TxIntrinsicPubdata
        l2TxIntrinsicNativeCost = .ok (⟨20986880, 68719472734⟩, ⟨0, 31280523264⟩) ∧
      Spent ⟨20986880, 68719472734⟩ ⟨15610880, 18719472734⟩ ∧
      Spent ((⟨15610880, 18719472734⟩ : Resources).reclaimWithheld ⟨0, 31280523264⟩)
        ⟨15610880, 49999995998⟩ ∧
      (⟨15610880, 49999995998⟩ : Resources).hasEnough (Resources.fromNative 1000) = true ∧
      (let r3 := (⟨15610880, 49999995998⟩ : Resources).chargeUnchecked (Resources.fromNative 1000)
      let gasUsed := gasUsedOf 100000 r3.ergs r3.native (u256ToU64Saturated 1000000)
      r3.ergs / ergsPerGas ≤ 100000 ∧
        r3.native ≤ saturatingMul 64 100000 (u256ToU64Saturated 1000000) ∧ gasUsed ≤ 100000 ∧
        computeGasRefund (Resources.fromNative 1000) 100000 1000000 ⟨15610880, 49999995998⟩ =
          (r3.exhaustErgs, .ok (100000 - gasUsed, gasUsed)) ∧
        ∀ (isPriorityOp reverted : Bool) (gasPrice : Nat) (value totalDeposited : U256),
          l1DepositCheck gasPrice 100000 value totalDeposited = .ok () →
          gasUsed * gasPrice ≤ totalDeposited.val - value.val ∧
            l1FeeSettlement isPriorityOp reverted gasUsed gasPrice value totalDeposited =
              if reverted ∧ isPriorityOp = false then .error (.validation .upgradeTxFailed)
              else .ok (gasUsed * gasPrice,
                if reverted then totalDeposited.val - gasUsed * gasPrice
                else totalDeposited.val - (value.val + gasUsed * gasPrice))) :=
  have hres : getResourcesForTx 100000 10 1000000 [1, 0] l2TxIntrinsicGas l2TxIntrinsicPubdata
      l2TxIntrinsicNativeCost = .ok (⟨20986880, 68719472734⟩, ⟨0, 31280523264⟩) := by decide
  have h1 : Spent ⟨20986880, 68719472734⟩ ⟨15610880, 18719472734⟩ := ⟨by decide, by decide⟩
  have h2 : Spent ((⟨15610880, 18719472734⟩ : Resources).reclaimWithheld ⟨0, 31280523264⟩)
      ⟨15610880, 49999995998⟩ := Spent.refl _
  -- the check after execution, 100 bytes of pubdata over the 50 of validation
  have hpub : (⟨15610880, 49999995998⟩ : Resources).hasEnough (Resources.fromNative 1000) = true :=
    @hasEnough_of_checkEnoughResourcesForPubdata 150 10 ⟨15610880, 18719472734⟩ (some 50) 100
      (Resources.fromNative 1000) (by decide) (by decide) ⟨0, 31280523264⟩
  ⟨by decide, hres, h1, h2, hpub,
    compute_gas_refund_bounded_and_exact (by decide) hres h1 h2 hpub⟩

example : gasUsedOf 100000 15610880 49999994998 1000000 = 50000 := by decide

end ZksyncOs
