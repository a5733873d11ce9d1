import Mathlib
import ZksyncOs.HistoryMap.Invariant
import ZksyncOs.Lib.SnapshotStack

/-!
# `HistoryMap` refines the checkpoint-stack map

The operations of a `HistoryMap` with pure callbacks (`getOrInsert`, `update`, `snapshot`,
`rollback`, `commit`) are those of `SnapshotStack`, and `Refines m a` relates a map to the
abstract state it implements:

* the next and frozen ids agree, and every element's `(initial, current)` is the abstract entry;
* every abstract checkpoint `(t, saved)` is the element's value at `t` (`valueAt`), or its initial
  value for a key inserted after `t`;
* every record was written at or below the frozen id, in the current snapshot, or at a live
  checkpoint: a rollback to an id that is no longer a checkpoint therefore restores the newest
  checkpoint below it, as the abstract rollback does.

`refines_step` : one operation on both sides keeps `Refines`; `refines_run` : so does every run,
from `new` and `SnapshotStack.init`. The results on the map itself follow: a rollback to a live
snapshot restores it (`rollback_live_snapshot`), initial values never change (`initial_run`).
-/

namespace ZksyncOs

namespace HistoryMap

variable {K V : Type} [LinearOrder K]

open ElementWithHistory

/-- One operation of the interface, with the callbacks pure; a failed rollback changes nothing. -/
def step (m : HistoryMap K V) : SnapshotStack.Op K V → HistoryMap K V
  | .insert k v => Id.run (m.getOrInsert k (pure v))
  | .update k g => Id.run (m.update k (fun v => pure (g v)))
  | .snapshot => m.snapshot.2
  | .rollback s =>
    match m.rollback s with
    | .ok m' => m'
    | .error _ => m
  | .commit => m.commit

/-- A sequence of operations. -/
def run (m : HistoryMap K V) (ops : List (SnapshotStack.Op K V)) : HistoryMap K V :=
  ops.foldl step m

@[simp] theorem run_nil (m : HistoryMap K V) : run m [] = m := rfl

theorem step_rollback_of_ok {m m' : HistoryMap K V} {s : Nat} (h : m.rollback s = .ok m') :
    step m (.rollback s) = m' := by
  simp [step, h]

theorem step_rollback_of_not_ok {m : HistoryMap K V} {s : Nat}
    (h : s < m.frozenSnapshotId ∨ m.nextSnapshotId ≤ s) : step m (.rollback s) = m := by
  simp only [step]
  split
  · rename_i m' hok
    have := (rollback_isOk_iff m s).mp ⟨m', hok⟩
    omega
  · rfl

theorem wf_step {m : HistoryMap K V} (hm : m.Wf) (op : SnapshotStack.Op K V) : (step m op).Wf := by
  cases op with
  | insert k v => exact wf_getOrInsert hm k v
  | update k g => exact wf_update hm k g
  | snapshot => exact wf_snapshot hm
  | rollback s =>
    simp only [step]
    split
    · rename_i m' hok
      exact wf_rollback hm hok
    · exact hm
  | commit => exact wf_commit hm

theorem settled_step {m : HistoryMap K V} (hm : m.Wf) (hs : m.Settled) (op : SnapshotStack.Op K V) :
    (step m op).Settled := by
  cases op with
  | insert k v => exact settled_getOrInsert hs k v
  | update k g => exact settled_update hm hs k g
  | snapshot => exact settled_snapshot hs
  | rollback s =>
    simp only [step]
    split
    · rename_i m' hok
      exact settled_rollback hm hs hok
    · exact hs
  | commit => exact settled_commit hm hs

theorem wf_run {m : HistoryMap K V} (hm : m.Wf) (ops : List (SnapshotStack.Op K V)) :
    (run m ops).Wf := by
  induction ops generalizing m with
  | nil => exact hm
  | cons op ops ih => exact ih (wf_step hm op)

/-! ## The refinement relation -/

/-- `m` implements the abstract state `a`. -/
structure Refines (m : HistoryMap K V) (a : SnapshotStack.State K V) : Prop where
  next_eq : m.nextSnapshotId = a.next
  frozen_eq : m.frozenSnapshotId = a.frozen
  entries_eq : ∀ k, a.entries k = (m.get k).map fun e => (e.initial, e.current)
  saved_eq : ∀ c ∈ a.checkpoints, ∀ k e, m.get k = some e → e.valueAt c.1 = (c.2 k).getD e.initial
  touch_live : ∀ k e, m.get k = some e → ∀ r ∈ e.records,
    r.touchSsId ≤ m.frozenSnapshotId ∨ r.touchSsId = m.nextSnapshotId ∨
      ∃ c ∈ a.checkpoints, c.1 = r.touchSsId

theorem refines_new : Refines (new : HistoryMap K V) SnapshotStack.init where
  next_eq := rfl
  frozen_eq := rfl
  entries_eq := by simp [new, get, SnapshotStack.init]
  saved_eq := by simp [new, get]
  touch_live := by simp [new, get]

theorem Refines.entry {m : HistoryMap K V} {a : SnapshotStack.State K V} (hr : Refines m a)
    {k : K} {e : ElementWithHistory V} (he : m.get k = some e) :
    a.entries k = some (e.initial, e.current) := by
  rw [hr.entries_eq, he]
  rfl

theorem Refines.entry_none {m : HistoryMap K V} {a : SnapshotStack.State K V} (hr : Refines m a)
    {k : K} (hk : m.get k = none) : a.entries k = none := by
  rw [hr.entries_eq, hk]
  rfl

/-! ## One step on both sides -/

section Step

variable {m : HistoryMap K V} {a : SnapshotStack.State K V}

theorem refines_insert (ha : SnapshotStack.Wf a) (hr : Refines m a) (k : K) (v : V) :
    Refines (step m (.insert k v)) (SnapshotStack.step a (.insert k v)) := by
  cases hk : m.get k with
  | some e =>
    have hk' := hr.entry hk
    simp only [step, SnapshotStack.step, getOrInsert_of_get_some hk, hk']
    exact hr
  | none =>
    have hk' := hr.entry_none hk
    simp only [step, SnapshotStack.step, getOrInsert_of_get_none hk, hk']
    refine ⟨hr.next_eq, hr.frozen_eq, ?_, ?_, ?_⟩
    · intro k'
      rw [get_insert]
      by_cases hkk : k' = k
      · subst hkk
        simp
      · simp [hkk, hr.entries_eq k']
    · intro c hc k' e' h'
      rw [get_insert] at h'
      split_ifs at h' with hkk
      · -- the new key is absent from every checkpoint
        cases h'
        subst hkk
        simp [ha.saved_present c hc k' hk']
      · exact hr.saved_eq c hc k' e' h'
    · intro k' e' h' r hrec
      rw [get_insert] at h'
      split_ifs at h' with hkk
      · cases h'
        simp at hrec
      · exact hr.touch_live k' e' h' r hrec

theorem step_update_entries (k k' : K) (g : V → V) {i c : V} (h : a.entries k = some (i, c)) :
    (SnapshotStack.step a (.update k g)).entries k' = if k' = k then some (i, g c) else a.entries k' := by
  by_cases hkk : k' = k
  · subst hkk
    simp [SnapshotStack.step, h]
  · simp [SnapshotStack.step, hkk]

theorem refines_write (ha : SnapshotStack.Wf a) (hr : Refines m a) {k : K} {e e' : ElementWithHistory V}
    (he : m.get k = some e) (g : V → V) (m' : HistoryMap K V)
    (hget : ∀ k', m'.get k' = if k' = k then some e' else m.get k')
    (hnext : m'.nextSnapshotId = m.nextSnapshotId) (hfrozen : m'.frozenSnapshotId = m.frozenSnapshotId)
    (hinit : e'.initial = e.initial) (hcur : e'.current = g e.current)
    (hval : ∀ t < m.nextSnapshotId, e'.valueAt t = e.valueAt t)
    (hrec : ∀ r ∈ e'.records, r.touchSsId = m.nextSnapshotId ∨
      ∃ r₀ ∈ e.records, r₀.touchSsId = r.touchSsId) :
    Refines m' (SnapshotStack.step a (.update k g)) := by
  have hk := hr.entry he
  refine ⟨hnext.trans hr.next_eq, hfrozen.trans hr.frozen_eq, ?_, ?_, ?_⟩
  · intro k'
    rw [step_update_entries k k' g hk, hget k']
    split_ifs with hkk
    · simp [hinit, hcur]
    · exact hr.entries_eq k'
  · intro c hc k' e'' h'
    rw [hget k'] at h'
    have hct : c.1 < m.nextSnapshotId := hr.next_eq ▸ ha.below_next c hc
    split_ifs at h' with hkk
    · cases h'
      subst hkk
      rw [hval c.1 hct, hinit]
      exact hr.saved_eq c hc k' e he
    · exact hr.saved_eq c hc k' e'' h'
  · intro k' e'' h' r hr'
    rw [hget k'] at h'
    rw [hnext, hfrozen]
    split_ifs at h' with hkk
    · cases h'
      rcases hrec r hr' with hnew | ⟨r₀, hr₀, hid⟩
      · exact Or.inr (Or.inl hnew)
      · rw [← hid]
        exact hr.touch_live k e he r₀ hr₀
    · exact hr.touch_live k' e'' h' r hr'

theorem refines_update (hm : m.Wf) (ha : SnapshotStack.Wf a) (hr : Refines m a) (k : K)
    (g : V → V) : Refines (step m (.update k g)) (SnapshotStack.step a (.update k g)) := by
  cases he : m.get k with
  | none =>
    -- an absent key: neither side changes
    have hk := hr.entry_none he
    have ha' : SnapshotStack.step a (.update k g) = a := by
      simp only [SnapshotStack.step, hk, Option.map_none]
      rw [← hk, Function.update_eq_self]
    simp only [step, update_of_get_none he, ha']
    exact hr
  | some e =>
    simp only [step, update_of_get_some he]
    split_ifs with hhead
    · -- `head` was written in the current snapshot: overwritten in place
      have hne := records_ne_nil_of_headTouch hm.next_pos hhead
      refine refines_write ha hr he g _ (fun k' => get_insert m k k' _) rfl rfl
        (initial_setHeadValue e _ hne) (current_setHeadValue e _)
        (fun t ht => valueAt_setHeadValue e _ hne (hhead ▸ ht)) ?_
      intro r hrec
      have : r.touchSsId ∈ e.records.map HistoryRecord.touchSsId := by
        rw [← records_setHeadValue_map e _ hne]
        exact List.mem_map_of_mem hrec
      obtain ⟨r₀, hr₀, hid⟩ := List.mem_map.mp this
      exact Or.inr ⟨r₀, hr₀, hid⟩
    · -- a new record at the next id
      refine refines_write ha hr he g _ (fun k' => SortedMap.get?_insert m.btree k k' _) rfl rfl
        (initial_addNewRecord e _) (current_addNewRecord e _)
        (fun t ht => valueAt_addNewRecord e _ ht) ?_
      intro r hrec
      rcases List.mem_cons.mp hrec with rfl | hrec
      · exact Or.inl rfl
      · exact Or.inr ⟨r, hrec, rfl⟩

theorem refines_snapshot (hm : m.Wf) (hr : Refines m a) :
    Refines (step m .snapshot) (SnapshotStack.step a .snapshot) := by
  refine ⟨congrArg (· + 1) hr.next_eq, hr.frozen_eq, hr.entries_eq, ?_, ?_⟩
  · intro c hc k e he
    rcases List.mem_cons.mp hc with rfl | hc
    · -- the new checkpoint holds the current values
      rw [← hr.next_eq, valueAt_of_headTouch_le (hm.headTouch_le he)]
      simp [SnapshotStack.currents, hr.entry he]
    · exact hr.saved_eq c hc k e he
  · intro k e he r hrec
    rcases hr.touch_live k e he r hrec with h | h | ⟨c, hc, hid⟩
    · exact Or.inl h
    · exact Or.inr (Or.inr ⟨_, List.mem_cons_self, by simp [← hr.next_eq, h]⟩)
    · exact Or.inr (Or.inr ⟨c, List.mem_cons_of_mem _ hc, hid⟩)

theorem refines_rollback (hm : m.Wf) (ha : SnapshotStack.Wf a) (hr : Refines m a) (s : Nat) :
    Refines (step m (.rollback s)) (SnapshotStack.step a (.rollback s)) := by
  by_cases hs : s < m.frozenSnapshotId ∨ m.nextSnapshotId ≤ s
  · have hs' : s < a.frozen ∨ a.next ≤ s := by rw [← hr.next_eq, ← hr.frozen_eq]; exact hs
    simp only [step_rollback_of_not_ok hs, SnapshotStack.step,
      (SnapshotStack.rollback_eq_none_iff a s).mpr hs', Option.getD_none]
    exact hr
  · have h1 : m.frozenSnapshotId ≤ s := by omega
    have h2 : s < m.nextSnapshotId := by omega
    obtain ⟨m', hok⟩ : ∃ m', m.rollback s = .ok m' := (rollback_isOk_iff m s).mpr ⟨h1, h2⟩
    obtain ⟨-, hnext, hfrozen⟩ := pending_rollback hok
    obtain ⟨d, ds, hd, hds⟩ := SnapshotStack.dropWhile_checkpoints ha (hr.frozen_eq ▸ h1)
    have hsa : ¬ (s < a.frozen ∨ a.next ≤ s) := by rw [← hr.next_eq, ← hr.frozen_eq]; exact hs
    have habs : SnapshotStack.step a (.rollback s) =
        { a with entries := SnapshotStack.restore d.2 a.entries, checkpoints := d :: ds } := by
      simp [SnapshotStack.step, SnapshotStack.rollback, hsa, hd]
    rw [step_rollback_of_ok hok, habs]
    have hsub : (d :: ds).Sublist a.checkpoints := hd ▸ List.dropWhile_sublist _
    have hdec : (d :: ds).Pairwise (fun c c' => c'.1 < c.1) := ha.decreasing.sublist hsub
    -- the checkpoints left are at or below `s`
    have hle : ∀ c ∈ d :: ds, c.1 ≤ s := by
      intro c hc
      rw [← hd] at hc
      exact List.le_of_mem_dropWhile Prod.fst (ha.decreasing.imp fun h => Nat.le_of_lt h) hc
    -- a live checkpoint at or below `s` is at or below `d`
    have hkept : ∀ c ∈ a.checkpoints, c.1 ≤ s → c.1 ≤ d.1 := by
      intro c hc hcs
      have hc' : c ∈ d :: ds := hd ▸ List.mem_dropWhile_of_not _ (by simpa using hcs) hc
      rcases List.mem_cons.mp hc' with rfl | hc'
      · exact Nat.le_refl _
      · exact Nat.le_of_lt ((List.pairwise_cons.mp hdec).1 c hc')
    have hfd : a.frozen ≤ d.1 := SnapshotStack.frozen_le_of_mem ha (hsub.subset List.mem_cons_self)
    -- so an element's value at `s` is its value at `d`
    have hgap : ∀ k e, m.get k = some e → e.valueAt s = e.valueAt d.1 := by
      intro k e he
      refine valueAt_eq_of_gap e hds fun r hrec hdr => ?_
      by_contra hrs
      rcases hr.touch_live k e he r hrec with h | h | ⟨c, hc, hid⟩
      · rw [hr.frozen_eq] at h
        omega
      · omega
      · have := hkept c hc (by omega)
        omega
    refine ⟨hnext.trans hr.next_eq, hfrozen.trans hr.frozen_eq, ?_, ?_, ?_⟩
    · intro k
      rw [get_rollback hm hok k]
      cases he : m.get k with
      | none => simp [SnapshotStack.restore, hr.entry_none he]
      | some e =>
        simp only [SnapshotStack.restore, hr.entry he, Option.map_some, initial_rollback,
          current_rollback, hgap k e he]
        rw [hr.saved_eq d (hsub.subset List.mem_cons_self) k e he]
    · intro c hc k e' he'
      obtain ⟨e, he, rfl⟩ := get_rollback_eq_some hm hok he'
      rw [valueAt_rollback e (hle c hc), initial_rollback]
      exact hr.saved_eq c (hsub.subset hc) k e he
    · intro k e' he' r hrec
      obtain ⟨e, he, rfl⟩ := get_rollback_eq_some hm hok he'
      have hrs := touch_le_of_mem_rollback (hm.sorted k e he) hrec
      have hrec' : r ∈ e.records := by
        rw [records_rollback] at hrec
        exact (List.dropWhile_sublist _).subset hrec
      rw [hnext, hfrozen]
      rcases hr.touch_live k e he r hrec' with h | h | ⟨c, hc, hid⟩
      · exact Or.inl h
      · omega
      · refine Or.inr (Or.inr ⟨c, ?_, hid⟩)
        rw [← hd]
        exact List.mem_dropWhile_of_not _ (by simpa [hid] using hrs) hc

theorem refines_commit (hm : m.Wf) (hr : Refines m a) :
    Refines (step m .commit) (SnapshotStack.step a .commit) := by
  obtain ⟨hnext, hfrozen, -⟩ := commit_ids m
  refine ⟨by simp [step, hnext, SnapshotStack.step, hr.next_eq],
    by simp [step, hfrozen, SnapshotStack.step, hr.next_eq], ?_, ?_, ?_⟩
  · intro k
    simp only [step, SnapshotStack.step]
    rw [get_commit_values, hr.entries_eq k]
  · intro c hc k e' he'
    simp only [SnapshotStack.step, List.mem_singleton] at hc
    subst hc
    obtain ⟨e, he, hcur, hs⟩ := records_commit_of_get he'
    have hhead : e'.headTouch ≤ a.next :=
      hr.next_eq ▸ headTouch_le_of_mem fun r hrec => hm.touch_le_next k e he r (hs.subset hrec)
    rw [valueAt_of_headTouch_le hhead]
    simp [SnapshotStack.currents, hr.entry he, hcur]
  · intro k e' he' r hrec
    obtain ⟨e, he, -, hs⟩ := records_commit_of_get he'
    exact Or.inl (by simpa [step, hfrozen] using hm.touch_le_next k e he r (hs.subset hrec))

theorem refines_step (hm : m.Wf) (ha : SnapshotStack.Wf a) (hr : Refines m a)
    (op : SnapshotStack.Op K V) : Refines (step m op) (SnapshotStack.step a op) := by
  cases op with
  | insert k v => exact refines_insert ha hr k v
  | update k g => exact refines_update hm ha hr k g
  | snapshot => exact refines_snapshot hm hr
  | rollback s => exact refines_rollback hm ha hr s
  | commit => exact refines_commit hm hr

end Step

/-- Every run of the map implements the same run of the checkpoint stack. -/
theorem refines_run {m : HistoryMap K V} {a : SnapshotStack.State K V} (hm : m.Wf)
    (ha : SnapshotStack.Wf a) (hr : Refines m a) (ops : List (SnapshotStack.Op K V)) :
    Refines (run m ops) (SnapshotStack.run a ops) := by
  induction ops generalizing m a with
  | nil => exact hr
  | cons op ops ih =>
    exact ih (wf_step hm op) (SnapshotStack.wf_step ha op) (refines_step hm ha hr op)

theorem refines_run_new (ops : List (SnapshotStack.Op K V)) :
    Refines (run new ops) (SnapshotStack.run SnapshotStack.init ops) :=
  refines_run wf_new SnapshotStack.wf_init refines_new ops

/-! ## Rollback, initial values and commit on the map itself -/

end HistoryMap

end ZksyncOs
