import Mathlib
import ZksyncOs.HistoryMap.Basic
import ZksyncOs.Lib.DropWhile

/-!
# The invariant of a `HistoryMap`

What every reachable `HistoryMap` satisfies, and what each operation does to its elements.

* `ElementWithHistory.valueAt e t` : the value `e` had at snapshot `t`, the current value after a
  rollback to `t`; `valueAt_rollback`, `valueAt_eq_of_gap`, and the write lemmas;
* `HistoryMap.Wf` : the frozen id is below the next one, record ids strictly decrease along every
  chain and stay at or below the next id, and every record above the frozen id is on the pending
  stack, whose ids do not increase from the top;
* `get_rollback` : under `Wf`, a rollback to `s` rolls every element back to `s` — the pending
  stack lists every element with a record above `s`;
* `get_commit` : a commit commits every pending element and only those;
* `wf_getOrInsert`, `wf_update`, `wf_snapshot`, `wf_rollback`, `wf_commit` : every operation
  keeps `Wf`;
* `Settled`, `length_records_of_commit` : records are above snapshot `0` and at most one is at or
  below the frozen id, so after a commit every element has at most one record.
-/

namespace ZksyncOs

namespace ElementWithHistory

variable {V : Type}

/-! ## Records, rollback and commit of one element -/

/-- Record ids strictly decrease from `head` towards the initial record. -/
def Sorted (e : ElementWithHistory V) : Prop :=
  e.records.Pairwise (fun r r' => r'.touchSsId < r.touchSsId)

theorem rollback_eq (e : ElementWithHistory V) (s : Nat) :
    e.rollback s = { e with records := e.records.dropWhile (fun r => s < r.touchSsId) } := by
  unfold rollback
  split_ifs with h
  · -- `head` is already at or below `s`: `dropWhile` stops at once
    cases hr : e.records with
    | nil => cases e; simp_all
    | cons r rs =>
      have hrs : ¬ s < r.touchSsId := by
        simp only [headTouch, hr] at h
        omega
      cases e
      simp_all
  · rfl

@[simp] theorem initial_rollback (e : ElementWithHistory V) (s : Nat) :
    (e.rollback s).initial = e.initial := by
  rw [rollback_eq]

theorem records_rollback (e : ElementWithHistory V) (s : Nat) :
    (e.rollback s).records = e.records.dropWhile (fun r => s < r.touchSsId) := by
  rw [rollback_eq]

theorem rollback_of_headTouch_le {e : ElementWithHistory V} {s : Nat} (h : e.headTouch ≤ s) :
    e.rollback s = e := by
  simp [rollback, h]

theorem rollback_rollback_of_le (e : ElementWithHistory V) {t s : Nat} (hts : t ≤ s) :
    (e.rollback s).rollback t = e.rollback t := by
  rw [rollback_eq (e.rollback s), records_rollback,
    List.dropWhile_dropWhile_of_imp (fun r h => by simp at h ⊢; omega), rollback_eq e t,
    initial_rollback]

theorem rollback_rollback (e : ElementWithHistory V) (s : Nat) :
    (e.rollback s).rollback s = e.rollback s :=
  rollback_rollback_of_le e (Nat.le_refl s)

theorem sorted_rollback {e : ElementWithHistory V} (he : e.Sorted) (s : Nat) :
    (e.rollback s).Sorted := by
  unfold Sorted
  rw [records_rollback]
  exact he.sublist (List.dropWhile_sublist _)

theorem touch_le_of_mem_rollback {e : ElementWithHistory V} (he : e.Sorted) {s : Nat}
    {r : HistoryRecord V} (hr : r ∈ (e.rollback s).records) : r.touchSsId ≤ s := by
  rw [records_rollback] at hr
  exact List.le_of_mem_dropWhile HistoryRecord.touchSsId
    (he.imp fun h => Nat.le_of_lt h) hr

theorem records_commit_sublist (e : ElementWithHistory V) : e.commit.records.Sublist e.records := by
  unfold commit
  split
  · exact List.Sublist.refl _
  · exact List.Sublist.refl _
  · rename_i r _ _ heq
    rw [heq]
    exact List.Sublist.cons_cons r (List.nil_sublist _)

@[simp] theorem initial_commit (e : ElementWithHistory V) : e.commit.initial = e.initial := by
  unfold commit
  split <;> rfl

@[simp] theorem current_commit (e : ElementWithHistory V) : e.commit.current = e.current := by
  unfold commit
  split
  · rfl
  · rfl
  · rename_i heq
    simp [current, heq]

theorem commit_commit (e : ElementWithHistory V) : e.commit.commit = e.commit := by
  cases hr : e.records with
  | nil => simp [commit, hr]
  | cons r rs =>
    cases rs with
    | nil => simp [commit, hr]
    | cons r' rs => simp [commit, hr]

theorem length_records_commit (e : ElementWithHistory V) : e.commit.records.length ≤ 1 := by
  unfold commit
  split
  · rename_i heq
    rw [heq]
    exact Nat.zero_le _
  · rename_i heq
    rw [heq]
    exact Nat.le_refl _
  · exact Nat.le_refl _

/-! ## The value at a snapshot -/

/-- The value `e` had when snapshot `t` was taken: its current value after a rollback to `t`. -/
def valueAt (e : ElementWithHistory V) (t : Nat) : V := (e.rollback t).current

theorem valueAt_of_headTouch_le {e : ElementWithHistory V} {t : Nat} (h : e.headTouch ≤ t) :
    e.valueAt t = e.current := by
  rw [valueAt, rollback_of_headTouch_le h]

theorem valueAt_rollback (e : ElementWithHistory V) {t s : Nat} (hts : t ≤ s) :
    (e.rollback s).valueAt t = e.valueAt t := by
  rw [valueAt, rollback_rollback_of_le e hts, valueAt]

@[simp] theorem current_rollback (e : ElementWithHistory V) (s : Nat) :
    (e.rollback s).current = e.valueAt s := rfl

/-- With no record in `(u, t]`, the values at `u` and at `t` agree. -/
theorem valueAt_eq_of_gap (e : ElementWithHistory V) {u t : Nat} (hut : u ≤ t)
    (hgap : ∀ r ∈ e.records, u < r.touchSsId → t < r.touchSsId) : e.valueAt t = e.valueAt u := by
  have hu : e.rollback u = (e.rollback t).rollback u := (rollback_rollback_of_le e hut).symm
  rw [valueAt, valueAt, hu]
  -- the new `head` after the rollback to `t` is already at or below `u`
  suffices h : (e.rollback t).headTouch ≤ u by rw [rollback_of_headTouch_le h]
  cases hd : (e.rollback t).records with
  | nil => simp [headTouch, hd]
  | cons r rs =>
    have hr : r ∈ e.records.dropWhile (fun r => t < r.touchSsId) := by
      rw [← records_rollback, hd]
      exact List.mem_cons_self
    have hrt : ¬ t < r.touchSsId := by
      have := List.head_dropWhile_not (fun r : HistoryRecord V => decide (t < r.touchSsId))
        (l := e.records) (by rw [← records_rollback, hd]; simp)
      simp only [← records_rollback, hd, List.head_cons, decide_eq_false_iff_not] at this
      exact this
    have hru : ¬ u < r.touchSsId := fun h => hrt (hgap r ((List.dropWhile_sublist _).subset hr) h)
    simp only [headTouch, hd]
    omega

@[simp] theorem initial_new (v : V) : (new v).initial = v := rfl

@[simp] theorem current_new (v : V) : (new v).current = v := rfl

@[simp] theorem records_new (v : V) : (new v).records = [] := rfl

@[simp] theorem valueAt_new (v : V) (t : Nat) : (new v).valueAt t = v := rfl

theorem valueAt_addNewRecord (e : ElementWithHistory V) {t n : Nat} (v : V) (ht : t < n) :
    (e.addNewRecord ⟨n, v⟩).valueAt t = e.valueAt t := by
  simp only [valueAt, rollback_eq, addNewRecord]
  rw [List.dropWhile_cons_of_pos (by simpa using ht)]

theorem valueAt_setHeadValue (e : ElementWithHistory V) {t : Nat} (v : V)
    (hne : e.records ≠ []) (ht : t < e.headTouch) : (e.setHeadValue v).valueAt t = e.valueAt t := by
  cases hr : e.records with
  | nil => exact absurd hr hne
  | cons r rs =>
    have htr : t < r.touchSsId := by simpa [headTouch, hr] using ht
    simp only [valueAt, rollback_eq, setHeadValue, hr]
    rw [List.dropWhile_cons_of_pos (by simpa using htr), List.dropWhile_cons_of_pos (by simpa using htr)]

@[simp] theorem initial_addNewRecord (e : ElementWithHistory V) (r : HistoryRecord V) :
    (e.addNewRecord r).initial = e.initial := rfl

@[simp] theorem current_addNewRecord (e : ElementWithHistory V) (r : HistoryRecord V) :
    (e.addNewRecord r).current = r.value := rfl

theorem initial_setHeadValue (e : ElementWithHistory V) (v : V) (hne : e.records ≠ []) :
    (e.setHeadValue v).initial = e.initial := by
  cases hr : e.records with
  | nil => exact absurd hr hne
  | cons r rs => simp [setHeadValue, hr]

@[simp] theorem current_setHeadValue (e : ElementWithHistory V) (v : V) :
    (e.setHeadValue v).current = v := by
  unfold setHeadValue
  split <;> simp_all [current]

theorem records_setHeadValue_map (e : ElementWithHistory V) (v : V) (hne : e.records ≠ []) :
    (e.setHeadValue v).records.map HistoryRecord.touchSsId = e.records.map HistoryRecord.touchSsId := by
  cases hr : e.records with
  | nil => exact absurd hr hne
  | cons r rs => simp [setHeadValue, hr]

theorem headTouch_le_of_mem {e : ElementWithHistory V} {n : Nat}
    (h : ∀ r ∈ e.records, r.touchSsId ≤ n) : e.headTouch ≤ n := by
  unfold headTouch
  split
  · exact Nat.zero_le n
  · rename_i r _ hr
    exact h r (by simp [hr])

theorem records_ne_nil_of_headTouch {e : ElementWithHistory V} {n : Nat} (hn : 0 < n)
    (h : e.headTouch = n) : e.records ≠ [] := by
  intro hr
  simp [headTouch, hr] at h
  omega

end ElementWithHistory

namespace HistoryMap

variable {K V : Type} [LinearOrder K]

open ElementWithHistory

/-! ## The well-formedness invariant -/

/-- The invariant of every reachable `HistoryMap`. -/
structure Wf (m : HistoryMap K V) : Prop where
  frozen_lt_next : m.frozenSnapshotId < m.nextSnapshotId
  sorted : ∀ k e, m.get k = some e → e.Sorted
  touch_le_next : ∀ k e, m.get k = some e → ∀ r ∈ e.records, r.touchSsId ≤ m.nextSnapshotId
  pending_covers : ∀ k e, m.get k = some e → ∀ r ∈ e.records,
    m.frozenSnapshotId < r.touchSsId → (k, r.touchSsId) ∈ m.pendingUpdatedElements
  pending_antitone : m.pendingUpdatedElements.Pairwise (fun p q => q.2 ≤ p.2)
  pending_le_next : ∀ p ∈ m.pendingUpdatedElements, p.2 ≤ m.nextSnapshotId

theorem wf_new : Wf (new : HistoryMap K V) where
  frozen_lt_next := by simp [new]
  sorted := by simp [new, get]
  touch_le_next := by simp [new, get]
  pending_covers := by simp [new, get]
  pending_antitone := by simp [new]
  pending_le_next := by simp [new]

theorem Wf.next_pos {m : HistoryMap K V} (hm : m.Wf) : 0 < m.nextSnapshotId :=
  Nat.lt_of_le_of_lt (Nat.zero_le _) hm.frozen_lt_next

theorem Wf.headTouch_le {m : HistoryMap K V} (hm : m.Wf) {k : K} {e : ElementWithHistory V}
    (he : m.get k = some e) : e.headTouch ≤ m.nextSnapshotId :=
  headTouch_le_of_mem (hm.touch_le_next k e he)

/-! ## `getOrInsert` and `update` over `Id` -/

theorem getOrInsert_of_get_some {m : HistoryMap K V} {k : K} {e : ElementWithHistory V}
    (h : m.get k = some e) (v : V) : Id.run (m.getOrInsert k (pure v)) = m := by
  simp only [get] at h
  simp [getOrInsert, h]

theorem getOrInsert_of_get_none {m : HistoryMap K V} {k : K} (h : m.get k = none) (v : V) :
    Id.run (m.getOrInsert k (pure v)) = { m with btree := m.btree.insert k (ElementWithHistory.new v) } := by
  simp only [get] at h
  simp [getOrInsert, h]

theorem update_of_get_none {m : HistoryMap K V} {k : K} (h : m.get k = none) (g : V → V) :
    Id.run (m.update k (fun v => pure (g v))) = m := by
  simp only [get] at h
  simp [update, h]

theorem update_of_get_some {m : HistoryMap K V} {k : K} {e : ElementWithHistory V}
    (h : m.get k = some e) (g : V → V) :
    Id.run (m.update k (fun v => pure (g v))) =
      if e.headTouch = m.nextSnapshotId then
        { m with btree := m.btree.insert k (e.setHeadValue (g e.current)) }
      else
        { m with
          btree := m.btree.insert k (e.addNewRecord ⟨m.nextSnapshotId, g e.current⟩)
          pendingUpdatedElements := (k, m.nextSnapshotId) :: m.pendingUpdatedElements } := by
  simp only [get] at h
  simp only [update, h]
  split_ifs <;> rfl

/-! ## `getOrInsert` and `update` in any monad

A callback in a lawful monad runs once, on the element's current value; what the map does with its
result is the pure operation with a constant callback. So every lemma about the pure operations
applies to a run of the caches' callbacks. -/

section AnyMonad

variable {M : Type → Type} [Monad M]

theorem getOrInsert_of_get_some_bind {m : HistoryMap K V} {k : K} {e : ElementWithHistory V}
    (h : m.get k = some e) (spawnV : M V) : m.getOrInsert k spawnV = pure m := by
  simp only [get] at h
  simp [getOrInsert, h]

theorem getOrInsert_of_get_none_bind [LawfulMonad M] {m : HistoryMap K V} {k : K}
    (h : m.get k = none) (spawnV : M V) :
    m.getOrInsert k spawnV = (fun v => Id.run (m.getOrInsert k (pure v))) <$> spawnV := by
  simp only [get] at h
  simp [getOrInsert, h]

theorem update_of_get_none_bind {m : HistoryMap K V} {k : K} (h : m.get k = none) (f : V → M V) :
    m.update k f = pure m := by
  simp only [get] at h
  simp [update, h]

theorem update_of_get_some_bind [LawfulMonad M] {m : HistoryMap K V} {k : K}
    {e : ElementWithHistory V} (h : m.get k = some e) (f : V → M V) :
    m.update k f = (fun v => Id.run (m.update k (fun _ => pure v))) <$> f e.current := by
  simp only [get] at h
  simp only [update, h]
  split_ifs <;> simp

theorem getOrInsert_pure [LawfulMonad M] (m : HistoryMap K V) (k : K) (v : V) :
    (m.getOrInsert k (pure v) : M (HistoryMap K V)) = pure (Id.run (m.getOrInsert k (pure v))) := by
  cases hk : m.get k with
  | some e => rw [getOrInsert_of_get_some_bind hk, getOrInsert_of_get_some hk]
  | none => rw [getOrInsert_of_get_none_bind hk, map_pure]

end AnyMonad

theorem get_insert (m : HistoryMap K V) (k k' : K) (e : ElementWithHistory V) :
    ({ m with btree := m.btree.insert k e } : HistoryMap K V).get k' =
      if k' = k then some e else m.get k' :=
  SortedMap.get?_insert m.btree k k' e

/-! ## Rollback -/

theorem rollbackPending_eq (s : Nat) (pending : List (K × Nat)) :
    ∀ btree : SortedMap K (ElementWithHistory V), rollbackPending s btree pending =
      ((pending.takeWhile (fun p => s < p.2)).foldl (fun bt p => bt.modify p.1 (·.rollback s)) btree,
        pending.dropWhile (fun p => s < p.2)) := by
  induction pending with
  | nil => intro btree; rfl
  | cons p rest ih =>
    intro btree
    obtain ⟨key, id⟩ := p
    by_cases h : id ≤ s
    · have hn : ¬ s < id := by omega
      simp [rollbackPending, h, hn]
    · have hs : s < id := by omega
      simp only [rollbackPending, h, if_false, ih]
      simp [hs]

theorem rollback_eq_ok {m : HistoryMap K V} {s : Nat} (h1 : m.frozenSnapshotId ≤ s)
    (h2 : s < m.nextSnapshotId) :
    m.rollback s = .ok { m with
      btree := (rollbackPending s m.btree m.pendingUpdatedElements).1
      pendingUpdatedElements := (rollbackPending s m.btree m.pendingUpdatedElements).2 } := by
  simp [rollback, show ¬ s < m.frozenSnapshotId by omega, show ¬ m.nextSnapshotId ≤ s by omega]

theorem rollback_isOk_iff (m : HistoryMap K V) (s : Nat) :
    (∃ m', m.rollback s = .ok m') ↔ m.frozenSnapshotId ≤ s ∧ s < m.nextSnapshotId := by
  constructor
  · rintro ⟨m', h⟩
    unfold rollback at h
    split_ifs at h with h1 h2
    exact ⟨by omega, by omega⟩
  · rintro ⟨h1, h2⟩
    exact ⟨_, rollback_eq_ok h1 h2⟩

theorem rollback_of_not_popped {m : HistoryMap K V} (hm : m.Wf) {s : Nat}
    (hs : m.frozenSnapshotId ≤ s) {k : K} {e : ElementWithHistory V} (he : m.get k = some e)
    (hk : k ∉ (m.pendingUpdatedElements.takeWhile (fun p => s < p.2)).map Prod.fst) :
    e.rollback s = e := by
  apply rollback_of_headTouch_le
  cases hr : e.records with
  | nil => simp [headTouch, hr]
  | cons r rs =>
    simp only [headTouch, hr]
    by_contra hlt
    have hrs : s < r.touchSsId := by omega
    have hmem : (k, r.touchSsId) ∈ m.pendingUpdatedElements :=
      hm.pending_covers k e he r (by simp [hr]) (by omega)
    have hpop := List.mem_takeWhile_of_antitone Prod.snd hm.pending_antitone hmem hrs
    exact hk (List.mem_map.mpr ⟨_, hpop, rfl⟩)

theorem get_rollback {m m' : HistoryMap K V} (hm : m.Wf) {s : Nat} (h : m.rollback s = .ok m') (k : K) :
    m'.get k = (m.get k).map (·.rollback s) := by
  obtain ⟨h1, h2⟩ := (rollback_isOk_iff m s).mp ⟨m', h⟩
  rw [rollback_eq_ok h1 h2] at h
  cases h
  simp only [get, rollbackPending_eq]
  rw [SortedMap.get?_foldl_modify _ (fun e => rollback_rollback e s)]
  split_ifs with hk
  · rfl
  · cases he : m.btree.get? k with
    | none => rfl
    | some e => rw [Option.map_some, rollback_of_not_popped hm h1 he hk]

theorem get_rollback_eq_some {m m' : HistoryMap K V} (hm : m.Wf) {s : Nat}
    (h : m.rollback s = .ok m') {k : K} {e' : ElementWithHistory V} (he' : m'.get k = some e') :
    ∃ e, m.get k = some e ∧ e' = e.rollback s := by
  rw [get_rollback hm h k] at he'
  obtain ⟨e, he, rfl⟩ := Option.map_eq_some_iff.mp he'
  exact ⟨e, he, rfl⟩

theorem pending_rollback {m m' : HistoryMap K V} {s : Nat} (h : m.rollback s = .ok m') :
    m'.pendingUpdatedElements = m.pendingUpdatedElements.dropWhile (fun p => s < p.2) ∧
      m'.nextSnapshotId = m.nextSnapshotId ∧ m'.frozenSnapshotId = m.frozenSnapshotId := by
  obtain ⟨h1, h2⟩ := (rollback_isOk_iff m s).mp ⟨m', h⟩
  rw [rollback_eq_ok h1 h2] at h
  cases h
  simp [rollbackPending_eq]

/-! ## Commit -/

theorem get_commit (m : HistoryMap K V) (k : K) :
    m.commit.get k = if k ∈ m.pendingUpdatedElements.map Prod.fst then (m.get k).map ElementWithHistory.commit
      else m.get k :=
  SortedMap.get?_foldl_modify _ commit_commit k _ _

theorem get_commit_eq_some {m : HistoryMap K V} {k : K} {e' : ElementWithHistory V}
    (he' : m.commit.get k = some e') :
    ∃ e, m.get k = some e ∧ (e' = e ∨ e' = ElementWithHistory.commit e) := by
  rw [get_commit] at he'
  split_ifs at he'
  · obtain ⟨e, he, rfl⟩ := Option.map_eq_some_iff.mp he'
    exact ⟨e, he, Or.inr rfl⟩
  · exact ⟨e', he', Or.inl rfl⟩

theorem records_commit_of_get {m : HistoryMap K V} {k : K} {e' : ElementWithHistory V}
    (he' : m.commit.get k = some e') :
    ∃ e, m.get k = some e ∧ e'.current = e.current ∧ e'.records.Sublist e.records := by
  obtain ⟨e, he, h | h⟩ := get_commit_eq_some he'
  · subst h
    exact ⟨e', he, rfl, List.Sublist.refl _⟩
  · subst h
    exact ⟨e, he, current_commit e, records_commit_sublist e⟩

theorem get_commit_values (m : HistoryMap K V) (k : K) :
    (m.commit.get k).map (fun e => (e.initial, e.current)) =
      (m.get k).map (fun e => (e.initial, e.current)) := by
  rw [get_commit]
  split_ifs
  · cases m.get k <;> simp
  · rfl

theorem commit_ids (m : HistoryMap K V) :
    m.commit.nextSnapshotId = m.nextSnapshotId + 1 ∧ m.commit.frozenSnapshotId = m.nextSnapshotId ∧
      m.commit.pendingUpdatedElements = [] :=
  ⟨rfl, rfl, rfl⟩

/-! ## Lookups after a write -/

theorem get_getOrInsert_of_ne (m : HistoryMap K V) {k k' : K} (hne : k' ≠ k) (v : V) :
    (Id.run (m.getOrInsert k (pure v))).get k' = m.get k' := by
  cases hk : m.get k with
  | some e => rw [getOrInsert_of_get_some hk]
  | none => rw [getOrInsert_of_get_none hk, get_insert, if_neg hne]

theorem get_getOrInsert_self (m : HistoryMap K V) (k : K) (v : V) :
    (Id.run (m.getOrInsert k (pure v))).get k = some ((m.get k).getD (ElementWithHistory.new v)) := by
  cases hk : m.get k with
  | some e => rw [getOrInsert_of_get_some hk, hk]; rfl
  | none => rw [getOrInsert_of_get_none hk, get_insert, if_pos rfl]; rfl

theorem get_update_of_ne (m : HistoryMap K V) {k k' : K} (hne : k' ≠ k) (g : V → V) :
    (Id.run (m.update k (fun v => pure (g v)))).get k' = m.get k' := by
  cases hk : m.get k with
  | none => rw [update_of_get_none hk]
  | some e =>
    rw [update_of_get_some hk]
    split_ifs
    · exact get_insert m k k' _ |>.trans (if_neg hne)
    · exact (SortedMap.get?_insert m.btree k k' _).trans (if_neg hne)

theorem get_update_self {m : HistoryMap K V} (hm : m.Wf) {k : K} {e : ElementWithHistory V}
    (h : m.get k = some e) (g : V → V) :
    ∃ e', (Id.run (m.update k (fun v => pure (g v)))).get k = some e' ∧
      e'.current = g e.current ∧ e'.initial = e.initial := by
  rw [update_of_get_some h]
  split_ifs with hhead
  · -- `head` is a record of this snapshot, not the initial one
    have hne := records_ne_nil_of_headTouch hm.next_pos hhead
    exact ⟨_, get_insert m k k _ |>.trans (if_pos rfl), current_setHeadValue e _,
      initial_setHeadValue e _ hne⟩
  · exact ⟨_, (SortedMap.get?_insert m.btree k k _).trans (if_pos rfl), current_addNewRecord e _,
      initial_addNewRecord e _⟩

theorem isSome_get_insert (m : HistoryMap K V) (k k' : K) (e : ElementWithHistory V) :
    (({ m with btree := m.btree.insert k e } : HistoryMap K V).get k').isSome = true ↔
      k' = k ∨ (m.get k').isSome = true := by
  rw [get_insert]
  split_ifs with h <;> simp [h]

theorem isSome_get_getOrInsert (m : HistoryMap K V) (k k' : K) (v : V) :
    ((Id.run (m.getOrInsert k (pure v))).get k').isSome = true ↔
      k' = k ∨ (m.get k').isSome = true := by
  cases hk : m.get k with
  | some e =>
    rw [getOrInsert_of_get_some hk]
    constructor
    · exact Or.inr
    · rintro (rfl | h)
      · rw [hk]; rfl
      · exact h
  | none =>
    rw [getOrInsert_of_get_none hk, isSome_get_insert]

theorem isSome_get_update (m : HistoryMap K V) (k k' : K) (g : V → V) :
    ((Id.run (m.update k (fun v => pure (g v)))).get k').isSome = (m.get k').isSome := by
  cases hk : m.get k with
  | none => rw [update_of_get_none hk]
  | some e =>
    rw [update_of_get_some hk]
    simp only [get] at hk ⊢
    -- both writes store an element under `k`, which was present
    split_ifs <;> rw [SortedMap.get?_insert] <;> split_ifs with h <;> simp [h, hk]

theorem isSome_get_rollback {m m' : HistoryMap K V} {s : Nat} (h : m.rollback s = .ok m') (k : K) :
    (m'.get k).isSome = (m.get k).isSome := by
  obtain ⟨h1, h2⟩ := (rollback_isOk_iff m s).mp ⟨m', h⟩
  rw [rollback_eq_ok h1 h2] at h
  cases h
  simp only [get, rollbackPending_eq]
  exact SortedMap.isSome_get?_foldl_modify _ k _ _

theorem isSome_get_commit (m : HistoryMap K V) (k : K) :
    (m.commit.get k).isSome = (m.get k).isSome := by
  rw [get_commit]
  split_ifs <;> simp

/-! ## Every operation keeps `Wf` -/

theorem wf_getOrInsert {m : HistoryMap K V} (hm : m.Wf) (k : K) (v : V) :
    (Id.run (m.getOrInsert k (pure v))).Wf := by
  cases hk : m.get k with
  | some e => rw [getOrInsert_of_get_some hk]; exact hm
  | none =>
    rw [getOrInsert_of_get_none hk]
    -- the new element has no record, every other element is unchanged
    have hget : ∀ k' e', ({ m with btree := m.btree.insert k (ElementWithHistory.new v) } : HistoryMap K V).get k' = some e' →
        (k' = k ∧ e' = ElementWithHistory.new v) ∨ m.get k' = some e' := by
      intro k' e' h
      rw [get_insert] at h
      split_ifs at h with hkk
      · cases h
        exact Or.inl ⟨hkk, rfl⟩
      · exact Or.inr h
    refine ⟨hm.frozen_lt_next, ?_, ?_, ?_, hm.pending_antitone, hm.pending_le_next⟩
    · intro k' e' h
      rcases hget k' e' h with ⟨-, rfl⟩ | h
      · simp [Sorted, ElementWithHistory.new]
      · exact hm.sorted k' e' h
    · intro k' e' h
      rcases hget k' e' h with ⟨-, rfl⟩ | h
      · simp [ElementWithHistory.new]
      · exact hm.touch_le_next k' e' h
    · intro k' e' h
      rcases hget k' e' h with ⟨-, rfl⟩ | h
      · simp [ElementWithHistory.new]
      · exact hm.pending_covers k' e' h

theorem wf_update_inPlace {m : HistoryMap K V} (hm : m.Wf) {k : K} {e : ElementWithHistory V}
    (he : m.get k = some e) (hhead : e.headTouch = m.nextSnapshotId) (v : V) :
    ({ m with btree := m.btree.insert k (e.setHeadValue v) } : HistoryMap K V).Wf := by
  have hne : e.records ≠ [] := records_ne_nil_of_headTouch hm.next_pos hhead
  have hids := records_setHeadValue_map e v hne
  -- a record of the overwritten element has the id of a record of `e`
  have hmem : ∀ r ∈ (e.setHeadValue v).records, ∃ r' ∈ e.records, r'.touchSsId = r.touchSsId := by
    intro r hr
    have : r.touchSsId ∈ e.records.map HistoryRecord.touchSsId := by
      rw [← hids]
      exact List.mem_map_of_mem hr
    simpa using this
  refine ⟨hm.frozen_lt_next, ?_, ?_, ?_, hm.pending_antitone, hm.pending_le_next⟩
  · intro k' e' h
    rw [get_insert] at h
    split_ifs at h with hkk
    · cases h
      have hs := hm.sorted k e he
      unfold Sorted at hs ⊢
      rw [← List.pairwise_map (R := fun a b => b < a)] at hs ⊢
      rw [hids]
      exact hs
    · exact hm.sorted k' e' h
  · intro k' e' h r hr
    rw [get_insert] at h
    split_ifs at h with hkk
    · cases h
      obtain ⟨r', hr', hid⟩ := hmem r hr
      rw [← hid]
      exact hm.touch_le_next k e he r' hr'
    · exact hm.touch_le_next k' e' h r hr
  · intro k' e' h r hr hfr
    rw [get_insert] at h
    split_ifs at h with hkk
    · cases h
      obtain ⟨r', hr', hid⟩ := hmem r hr
      rw [← hid] at hfr ⊢
      rw [hkk]
      exact hm.pending_covers k e he r' hr' hfr
    · exact hm.pending_covers k' e' h r hr hfr

theorem wf_update_push {m : HistoryMap K V} (hm : m.Wf) {k : K} {e : ElementWithHistory V}
    (he : m.get k = some e) (hhead : e.headTouch ≠ m.nextSnapshotId) (v : V) :
    ({ m with
        btree := m.btree.insert k (e.addNewRecord ⟨m.nextSnapshotId, v⟩)
        pendingUpdatedElements := (k, m.nextSnapshotId) :: m.pendingUpdatedElements } :
      HistoryMap K V).Wf := by
  have hlt : ∀ r ∈ e.records, r.touchSsId < m.nextSnapshotId := by
    intro r hr
    -- `r` is at or below `head`, and `head` is below the next id
    have hs : e.records.Pairwise (fun r r' => r'.touchSsId < r.touchSsId) := hm.sorted k e he
    have hh : e.headTouch < m.nextSnapshotId := Nat.lt_of_le_of_ne (hm.headTouch_le he) hhead
    cases hrs : e.records with
    | nil => simp [hrs] at hr
    | cons r₀ rs =>
      simp only [headTouch, hrs] at hh
      rw [hrs] at hr hs
      rcases List.mem_cons.mp hr with rfl | hr
      · exact hh
      · exact Nat.lt_trans ((List.pairwise_cons.mp hs).1 r hr) hh
  refine ⟨hm.frozen_lt_next, ?_, ?_, ?_, ?_, ?_⟩
  · intro k' e' h
    simp only [get, SortedMap.get?_insert] at h
    split_ifs at h with hkk
    · cases h
      exact List.Pairwise.cons (fun r hr => hlt r hr) (hm.sorted k e he)
    · exact hm.sorted k' e' h
  · intro k' e' h r hr
    simp only [get, SortedMap.get?_insert] at h
    split_ifs at h with hkk
    · cases h
      rcases List.mem_cons.mp hr with rfl | hr
      · exact Nat.le_refl _
      · exact Nat.le_of_lt (hlt r hr)
    · exact hm.touch_le_next k' e' h r hr
  · intro k' e' h r hr hfr
    simp only [get, SortedMap.get?_insert] at h
    split_ifs at h with hkk
    · cases h
      rcases List.mem_cons.mp hr with rfl | hr
      · simp [hkk]
      · exact List.mem_cons_of_mem _ (hkk ▸ hm.pending_covers k e he r hr hfr)
    · exact List.mem_cons_of_mem _ (hm.pending_covers k' e' h r hr hfr)
  · exact List.Pairwise.cons (fun p hp => hm.pending_le_next p hp) hm.pending_antitone
  · intro p hp
    rcases List.mem_cons.mp hp with rfl | hp
    · exact Nat.le_refl _
    · exact hm.pending_le_next p hp

theorem wf_update {m : HistoryMap K V} (hm : m.Wf) (k : K) (g : V → V) :
    (Id.run (m.update k (fun v => pure (g v)))).Wf := by
  cases he : m.get k with
  | none => rw [update_of_get_none he]; exact hm
  | some e =>
    rw [update_of_get_some he]
    split_ifs with hhead
    · exact wf_update_inPlace hm he hhead _
    · exact wf_update_push hm he hhead _

theorem wf_snapshot {m : HistoryMap K V} (hm : m.Wf) : m.snapshot.2.Wf where
  frozen_lt_next := Nat.lt_succ_of_lt hm.frozen_lt_next
  sorted := hm.sorted
  touch_le_next k e h r hr := Nat.le_succ_of_le (hm.touch_le_next k e h r hr)
  pending_covers := hm.pending_covers
  pending_antitone := hm.pending_antitone
  pending_le_next p hp := Nat.le_succ_of_le (hm.pending_le_next p hp)

theorem wf_rollback {m m' : HistoryMap K V} (hm : m.Wf) {s : Nat} (h : m.rollback s = .ok m') :
    m'.Wf := by
  obtain ⟨hs1, hs2⟩ := (rollback_isOk_iff m s).mp ⟨m', h⟩
  obtain ⟨hpend, hnext, hfrozen⟩ := pending_rollback h
  refine ⟨by omega, ?_, ?_, ?_, ?_, ?_⟩
  · intro k e' h'
    obtain ⟨e, he, rfl⟩ := get_rollback_eq_some hm h h'
    exact sorted_rollback (hm.sorted k e he) s
  · intro k e' h' r hr
    obtain ⟨e, he, rfl⟩ := get_rollback_eq_some hm h h'
    have := touch_le_of_mem_rollback (hm.sorted k e he) hr
    omega
  · intro k e' h' r hr hfr
    obtain ⟨e, he, rfl⟩ := get_rollback_eq_some hm h h'
    have hrs := touch_le_of_mem_rollback (hm.sorted k e he) hr
    have hr' : r ∈ e.records := by
      rw [records_rollback] at hr
      exact (List.dropWhile_sublist _).subset hr
    rw [hpend]
    exact List.mem_dropWhile_of_not _ (by simpa using hrs)
      (hm.pending_covers k e he r hr' (by omega))
  · rw [hpend]
    exact hm.pending_antitone.sublist (List.dropWhile_sublist _)
  · intro p hp
    rw [hpend] at hp
    rw [hnext]
    exact hm.pending_le_next p ((List.dropWhile_sublist _).subset hp)

theorem wf_commit {m : HistoryMap K V} (hm : m.Wf) : m.commit.Wf := by
  obtain ⟨hnext, hfrozen, hpend⟩ := commit_ids m
  refine ⟨by omega, ?_, ?_, ?_, by simp [hpend], by simp [hpend]⟩
  · intro k e' h'
    obtain ⟨e, he, -, hs⟩ := records_commit_of_get h'
    exact (hm.sorted k e he).sublist hs
  · intro k e' h' r hr
    obtain ⟨e, he, -, hs⟩ := records_commit_of_get h'
    have := hm.touch_le_next k e he r (hs.subset hr)
    omega
  · intro k e' h' r hr hfr
    obtain ⟨e, he, -, hs⟩ := records_commit_of_get h'
    have := hm.touch_le_next k e he r (hs.subset hr)
    omega

/-! ## At most one record at or below the frozen id -/

/-- Every record is above snapshot `0`, and every record but the oldest is above the frozen id:
a commit leaves each element at most one record, and later records are written above it. -/
structure Settled (m : HistoryMap K V) : Prop where
  touch_pos : ∀ k e, m.get k = some e → ∀ r ∈ e.records, 0 < r.touchSsId
  frozen_lt : ∀ k e, m.get k = some e → ∀ r ∈ e.records.dropLast,
    m.frozenSnapshotId < r.touchSsId

theorem settled_new : Settled (new : HistoryMap K V) where
  touch_pos := by simp [new, get]
  frozen_lt := by simp [new, get]

theorem settled_getOrInsert {m : HistoryMap K V} (hs : m.Settled) (k : K) (v : V) :
    (Id.run (m.getOrInsert k (pure v))).Settled := by
  cases hk : m.get k with
  | some e => rw [getOrInsert_of_get_some hk]; exact hs
  | none =>
    rw [getOrInsert_of_get_none hk]
    constructor
    · intro k' e' h r hr
      rw [get_insert] at h
      split_ifs at h
      · cases h
        simp [ElementWithHistory.new] at hr
      · exact hs.touch_pos k' e' h r hr
    · intro k' e' h r hr
      rw [get_insert] at h
      split_ifs at h
      · cases h
        simp [ElementWithHistory.new] at hr
      · exact hs.frozen_lt k' e' h r hr

theorem settled_update {m : HistoryMap K V} (hm : m.Wf) (hs : m.Settled) (k : K) (g : V → V) :
    (Id.run (m.update k (fun v => pure (g v)))).Settled := by
  cases he : m.get k with
  | none => rw [update_of_get_none he]; exact hs
  | some e =>
    rw [update_of_get_some he]
    split_ifs with hhead
    · have hids := records_setHeadValue_map e (g e.current)
        (records_ne_nil_of_headTouch hm.next_pos hhead)
      -- the overwritten records are the old ones, id for id
      have hmem : ∀ l : List (HistoryRecord V), l.map HistoryRecord.touchSsId =
          e.records.map HistoryRecord.touchSsId → ∀ r ∈ l, ∃ r' ∈ e.records,
            r'.touchSsId = r.touchSsId := by
        intro l hl r hr
        have : r.touchSsId ∈ e.records.map HistoryRecord.touchSsId := by
          rw [← hl]
          exact List.mem_map_of_mem hr
        simpa using this
      have hdrop : (e.setHeadValue (g e.current)).records.dropLast.map HistoryRecord.touchSsId =
          e.records.dropLast.map HistoryRecord.touchSsId := by
        rw [List.map_dropLast, List.map_dropLast, hids]
      constructor
      · intro k' e' h r hr
        rw [get_insert] at h
        split_ifs at h with hkk
        · cases h
          obtain ⟨r', hr', hid⟩ := hmem _ hids r hr
          rw [← hid]
          exact hs.touch_pos k e he r' hr'
        · exact hs.touch_pos k' e' h r hr
      · intro k' e' h r hr
        rw [get_insert] at h
        split_ifs at h with hkk
        · cases h
          have : r.touchSsId ∈ e.records.dropLast.map HistoryRecord.touchSsId := by
            rw [← hdrop]
            exact List.mem_map_of_mem hr
          obtain ⟨r', hr', hid⟩ := List.mem_map.mp this
          rw [← hid]
          exact hs.frozen_lt k e he r' hr'
        · exact hs.frozen_lt k' e' h r hr
    · constructor
      · intro k' e' h r hr
        simp only [get, SortedMap.get?_insert] at h
        split_ifs at h with hkk
        · cases h
          rcases List.mem_cons.mp hr with rfl | hr
          · exact hm.next_pos
          · exact hs.touch_pos k e he r hr
        · exact hs.touch_pos k' e' h r hr
      · intro k' e' h r hr
        simp only [get, SortedMap.get?_insert] at h
        split_ifs at h with hkk
        · cases h
          -- the new `head` is above the frozen id; below it the old records but the oldest
          cases hrs : e.records with
          | nil => simp [addNewRecord, hrs] at hr
          | cons r₀ rs =>
            simp only [addNewRecord, hrs] at hr
            rw [List.dropLast_cons_of_ne_nil (List.cons_ne_nil r₀ rs)] at hr
            rcases List.mem_cons.mp hr with rfl | hr
            · exact hm.frozen_lt_next
            · exact hs.frozen_lt k e he r (hrs ▸ hr)
        · exact hs.frozen_lt k' e' h r hr

theorem settled_snapshot {m : HistoryMap K V} (hs : m.Settled) : m.snapshot.2.Settled where
  touch_pos := hs.touch_pos
  frozen_lt := hs.frozen_lt

theorem settled_rollback {m m' : HistoryMap K V} (hm : m.Wf) (hs : m.Settled) {s : Nat}
    (h : m.rollback s = .ok m') : m'.Settled := by
  obtain ⟨-, -, hfrozen⟩ := pending_rollback h
  constructor
  · intro k e' h' r hr
    obtain ⟨e, he, rfl⟩ := get_rollback_eq_some hm h h'
    rw [records_rollback] at hr
    exact hs.touch_pos k e he r ((List.dropWhile_sublist _).subset hr)
  · intro k e' h' r hr
    obtain ⟨e, he, rfl⟩ := get_rollback_eq_some hm h h'
    rw [records_rollback] at hr
    rw [hfrozen]
    exact hs.frozen_lt k e he r (List.mem_dropLast_of_mem_dropLast_dropWhile _ hr)

/-- After a commit every element has at most one record above the initial one: an element with
two has its newer one above the frozen id, hence on the pending stack, hence committed. -/
theorem length_records_of_commit {m : HistoryMap K V} (hm : m.Wf) (hs : m.Settled) {k : K}
    {e' : ElementWithHistory V} (he' : m.commit.get k = some e') : e'.records.length ≤ 1 := by
  have hget := get_commit m k
  rw [he'] at hget
  split_ifs at hget with hk
  · obtain ⟨e, -, rfl⟩ := Option.map_eq_some_iff.mp hget.symm
    exact length_records_commit e
  · cases hrs : e'.records with
    | nil => exact Nat.zero_le _
    | cons r rs =>
      cases rs with
      | nil => exact Nat.le_refl _
      | cons r' rs =>
        have hr : r ∈ e'.records.dropLast := by simp [hrs]
        have hpend := hm.pending_covers k e' hget.symm r (by simp [hrs])
          (hs.frozen_lt k e' hget.symm r hr)
        exact absurd (List.mem_map.mpr ⟨_, hpend, rfl⟩) hk

theorem settled_commit {m : HistoryMap K V} (hm : m.Wf) (hs : m.Settled) : m.commit.Settled := by
  constructor
  · intro k e' h' r hr
    obtain ⟨e, he, -, hsub⟩ := records_commit_of_get h'
    exact hs.touch_pos k e he r (hsub.subset hr)
  · intro k e' h' r hr
    -- at most one record is left, so none is above the oldest
    have hlen := length_records_of_commit hm hs h'
    have hnil : e'.records.dropLast = [] := by
      apply List.eq_nil_of_length_eq_zero
      rw [List.length_dropLast]
      omega
    rw [hnil] at hr
    exact absurd hr List.not_mem_nil

end HistoryMap

end ZksyncOs