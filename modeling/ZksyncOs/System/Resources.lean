import Mathlib
import ZksyncOs.System.Errors
import ZksyncOs.Lib.EStateM
import ZksyncOs.Lib.Checked

/-!
# Resources: ergs and native

The reference implementation `BaseResources<DecreasingNative>` of `zk_ee`: two `u64` counters that
count down, the EE resource (ergs, `ERGS_PER_GAS` to a unit of gas) and the native resource (prover
work). Both are `Nat` here; only `reclaimWithheld` adds to them, at the end of a transaction.

* `Resources.charge` : `BaseResources::charge`, native first, then ergs; a counter that cannot pay
  is set to `0` and the charge fails, out of native winning over out of ergs;
* `chargeM`, `withInfiniteErgs` : the same as steps of a state `σ × Resources` (the code's
  `&mut self` and `resources: &mut R`), keeping what they wrote when they fail; `withInfiniteErgs`
  runs with `u64::MAX` ergs and restores the ergs after, on both outcomes;
* `spends_chargeM`, `spends_withInfiniteErgs` : the ergs they take when they succeed.
-/

namespace ZksyncOs

inductive ExecutionEnvironmentType where
  | noEE
  | evm
  | eraVM
  | iWasm
deriving DecidableEq, Repr

def ergsPerGas : Nat := 256

/-- `u64::MAX`. -/
def u64Max : Nat := 2 ^ 64 - 1

/-- `BaseResources`: ergs and native. -/
structure Resources where
  ergs : Nat
  native : Nat
deriving DecidableEq, Repr

namespace Resources

def fromErgs (ergs : Nat) : Resources := ⟨ergs, 0⟩

def fromNative (native : Nat) : Resources := ⟨0, native⟩

/-- `FORMAL_INFINITE`: both counters at `u64::MAX`. -/
def formalInfinite : Resources := ⟨u64Max, u64Max⟩

def empty : Resources := ⟨0, 0⟩

def addErgs (r : Resources) (toAdd : Nat) : Resources := { r with ergs := r.ergs + toAdd }

/-- `has_enough`: both counters cover the amount. -/
def hasEnough (r toSpend : Resources) : Bool :=
  decide (toSpend.ergs ≤ r.ergs) && decide (toSpend.native ≤ r.native)

/-- `charge_unchecked`: the `u64` subtraction of a release build, which wraps. -/
def chargeUnchecked (r toCharge : Resources) : Resources :=
  ⟨Checked.wrappingSub 64 r.ergs toCharge.ergs, Checked.wrappingSub 64 r.native toCharge.native⟩

def exhaustErgs (r : Resources) : Resources := { r with ergs := 0 }

/-- `reclaim_withheld`: the withheld ergs and native are added back. -/
def reclaimWithheld (r toReclaim : Resources) : Resources :=
  ⟨r.ergs + toReclaim.ergs, r.native + toReclaim.native⟩

/-- `Resource::charge` of one counter: the counter after it, and whether it could pay. -/
def chargeCounter (available toCharge : Nat) : Nat × Bool :=
  if available < toCharge then (0, false) else (available - toCharge, true)

/-- `BaseResources::charge`: charge native, and ergs whether or not native could pay. -/
def charge (r toCharge : Resources) : Resources × Except SystemError Unit :=
  let (native, nativeOk) := chargeCounter r.native toCharge.native
  let (ergs, ergsOk) := chargeCounter r.ergs toCharge.ergs
  if !nativeOk then (⟨ergs, native⟩, .error .outOfNativeResources)
  else if !ergsOk then (⟨ergs, native⟩, .error .outOfErgs)
  else (⟨ergs, native⟩, .ok ())

theorem charge_ok_iff (r c : Resources) :
    (r.charge c).2 = .ok () ↔ c.native ≤ r.native ∧ c.ergs ≤ r.ergs := by
  unfold charge chargeCounter
  by_cases hn : r.native < c.native
  · simp [hn]
  · by_cases he : r.ergs < c.ergs
    · simp [hn, he]
    · simp [hn, he]
      omega

theorem charge_of_le {r c : Resources} (hn : c.native ≤ r.native) (he : c.ergs ≤ r.ergs) :
    r.charge c = (⟨r.ergs - c.ergs, r.native - c.native⟩, .ok ()) := by
  have hn' : ¬ r.native < c.native := by omega
  have he' : ¬ r.ergs < c.ergs := by omega
  simp [charge, chargeCounter, hn', he']

theorem charge_of_native_lt {r c : Resources} (h : r.native < c.native) :
    (r.charge c).2 = .error .outOfNativeResources := by
  simp [charge, chargeCounter, h]

theorem charge_of_ergs_lt {r c : Resources} (hn : c.native ≤ r.native) (he : r.ergs < c.ergs) :
    (r.charge c).2 = .error .outOfErgs := by
  have hn' : ¬ r.native < c.native := by omega
  simp [charge, chargeCounter, hn', he]

theorem charge_le (r c : Resources) :
    (r.charge c).1.ergs ≤ r.ergs ∧ (r.charge c).1.native ≤ r.native := by
  unfold charge chargeCounter
  by_cases hn : r.native < c.native <;> by_cases he : r.ergs < c.ergs <;> simp [hn, he]

theorem ergs_charge_fromNative (r : Resources) (native : Nat) :
    (r.charge (fromNative native)).1.ergs = r.ergs := by
  unfold charge chargeCounter fromNative
  by_cases hn : r.native < native <;> simp [hn]

end Resources

section Steps

variable {σ ε α : Type}

/-- `resources.charge(&to_charge)?`. -/
def chargeM (toCharge : Resources) : EStateM SystemError (σ × Resources) Unit := fun s =>
  match s.2.charge toCharge with
  | (r, .ok ()) => .ok () (s.1, r)
  | (r, .error e) => .error e (s.1, r)

/-- `Resources::with_infinite_ergs`: `f` runs with `u64::MAX` ergs; the ergs are restored after,
also when `f` fails. -/
def withInfiniteErgs (f : EStateM ε (σ × Resources) α) : EStateM ε (σ × Resources) α := fun s =>
  match f.run (s.1, { s.2 with ergs := u64Max }) with
  | .ok a (c, r) => .ok a (c, { r with ergs := s.2.ergs })
  | .error e (c, r) => .error e (c, { r with ergs := s.2.ergs })

theorem chargeM_of_le {c : σ} {r toCharge : Resources} (hn : toCharge.native ≤ r.native)
    (he : toCharge.ergs ≤ r.ergs) :
    (chargeM toCharge).run (c, r) = .ok () (c, ⟨r.ergs - toCharge.ergs, r.native - toCharge.native⟩) := by
  simp only [EStateM.run, chargeM, Resources.charge_of_le hn he]

theorem run_chargeM (toCharge : Resources) (c : σ) (r : Resources) :
    (chargeM toCharge).run (c, r) =
      match r.charge toCharge with
      | (r', .ok ()) => .ok () (c, r')
      | (r', .error e) => .error e (c, r') := rfl

theorem state_chargeM_bind (toCharge : Resources) (f : Unit → EStateM SystemError (σ × Resources) α)
    (c : σ) (r : Resources) :
    ((chargeM toCharge >>= f).run (c, r)).state = (c, (r.charge toCharge).1) ∨
      ((chargeM toCharge >>= f).run (c, r)).state = ((f ()).run (c, (r.charge toCharge).1)).state := by
  rw [EStateM.run_bind, run_chargeM]
  obtain ⟨r', res⟩ := r.charge toCharge
  cases res with
  | error e => exact Or.inl rfl
  | ok u => exact Or.inr rfl

theorem preserves_chargeM (toCharge : Resources) :
    EStateM.Preserves Prod.fst (chargeM toCharge : EStateM SystemError (σ × Resources) Unit) := by
  intro s
  simp only [EStateM.run, chargeM]
  split <;> rfl

/-- A charge that succeeds takes its ergs. -/
theorem spends_chargeM (toCharge : Resources) :
    EStateM.Spends (Resources.ergs ∘ Prod.snd) toCharge.ergs
      (chargeM toCharge : EStateM SystemError (σ × Resources) Unit) := by
  rintro ⟨c, r⟩ u t h
  have hok : (r.charge toCharge).2 = .ok () := by
    rw [run_chargeM] at h
    revert h
    obtain ⟨r', res⟩ := r.charge toCharge
    cases res <;> simp
  obtain ⟨hn, he⟩ := (Resources.charge_ok_iff r toCharge).mp hok
  rw [chargeM_of_le hn he] at h
  cases h
  show r.ergs = r.ergs - toCharge.ergs + toCharge.ergs
  omega

/-- Whatever `f` spends, the ergs are restored after it. -/
theorem spends_withInfiniteErgs (f : EStateM ε (σ × Resources) α) :
    EStateM.Spends (Resources.ergs ∘ Prod.snd) 0 (withInfiniteErgs f) := by
  intro s a t h
  simp only [EStateM.run, withInfiniteErgs] at h
  split at h
  · cases h
    rfl
  · cases h

end Steps

end ZksyncOs
