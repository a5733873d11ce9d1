import Mathlib
import ZksyncOs.HistoryMap.LinkedElement
import ZksyncOs.HistoryMap.Refinement

/-!
# The map in memory refines the list-level map

`Layout` is the memory invariant of a pointer-level `HistoryMap`: under each key the chain of its
element (`ElemAt`, at the addresses `L k`), the pool's chain (at `P`), no address in two of them,
and nothing allocated from `fresh` on. `Represents m a` adds that the snapshot ids and the pending
stack are those of the list-level map `a`, and that every pending key has an element.

* `Layout.update` : an operation on the element under one key that writes only its own chain, the
  pool and fresh addresses keeps the layout of every other key: the one lemma each operation uses;
* `getOrInsert_refines`, `update_refines`, `snapshot_refines`, `rollback_refines`,
  `commit_refines` : each operation, on a represented map, does not panic, returns what the
  list-level operation returns (in `Except`, a failed callback or a refused rollback leaving the
  map as it was) and leaves a map that represents the list-level result;
* `step_refines`, `run_refines` : so does every sequence of operations.
-/

namespace ZksyncOs

namespace Linked

open LinkedChain

variable {K V E : Type} [LinearOrder K]

namespace Memory

theorem Bounded.lt_of_records {mem : Memory V} (hb : mem.Bounded) {p : Nat} {r : HistoryRecord V}
    (h : mem.records p = some r) : p < mem.fresh := by
  by_contra hge
  rw [hb p (Nat.le_of_not_lt hge)] at h
  cases h

theorem Bounded.write {mem : Memory V} (hb : mem.Bounded) {p : Nat} (hp : p < mem.fresh)
    (r : HistoryRecord V) : (mem.write p r).Bounded := fun y hy => by
  rw [fresh_write] at hy
  rw [records_write, if_neg (by omega)]
  exact hb y hy

theorem Frame.bounded {W : Nat → Prop} {mem mem' : Memory V} (h : Frame W mem mem')
    (hb : mem.Bounded) (hf : mem'.fresh = mem.fresh) (hW : ∀ y, W y → y < mem.fresh) :
    mem'.Bounded := fun y hy => by
  rw [hf] at hy
  rw [h y fun hw => absurd (hW y hw) (Nat.not_lt_of_le hy)]
  exact hb y hy

end Memory

theorem PoolChain.lt_fresh {mem : Memory V} {pool : ElementPool} {P : List Nat}
    (hP : PoolChain mem pool P) (hb : mem.Bounded) {y : Nat} (hy : y ∈ P) : y < mem.fresh := by
  obtain ⟨r, hr⟩ := Option.isSome_iff_exists.mp (hP.isSome_of_mem hy)
  exact hb.lt_of_records hr

/-! ## The element under a key -/

/-- The element under a key, in memory and at the list level, with its chain at `L`: both absent
and `L` empty, or both present and `L` the chain of `ElemAbs`. -/
def ElemAt (mem : Memory V) : Option ElementWithHistory → Option (ZksyncOs.ElementWithHistory V) →
    List Nat → Prop
  | none, none, L => L = []
  | some e, some a, L => ∃ recs, L = recs ++ [e.initial] ∧ ElemAbs mem e recs a
  | _, _, _ => False

namespace ElemAt

variable {mem mem' : Memory V} {oe : Option ElementWithHistory}
  {oa : Option (ZksyncOs.ElementWithHistory V)} {L : List Nat}

theorem frame (h : ElemAt mem oe oa L) (hm : ∀ y ∈ L, mem'.records y = mem.records y) :
    ElemAt mem' oe oa L := by
  match oe, oa, h with
  | none, none, h => exact h
  | some _, some _, ⟨recs, hL, he⟩ => exact ⟨recs, hL, he.frame (hL ▸ hm)⟩

theorem lt_fresh (h : ElemAt mem oe oa L) (hb : mem.Bounded) {y : Nat} (hy : y ∈ L) :
    y < mem.fresh := by
  match oe, oa, h with
  | none, none, h => exact absurd (h ▸ hy) List.not_mem_nil
  | some _, some _, ⟨_, hL, he⟩ => exact hb.lt_of_mem he.chain (hL ▸ hy)

theorem nodup (h : ElemAt mem oe oa L) : L.Nodup := by
  match oe, oa, h with
  | none, none, h => exact h ▸ List.nodup_nil
  | some _, some _, ⟨_, hL, he⟩ => exact hL ▸ he.chain.nodup

theorem isSome_iff (h : ElemAt mem oe oa L) : oe.isSome = oa.isSome := by
  match oe, oa, h with
  | none, none, _ => rfl
  | some _, some _, _ => rfl

theorem unique {L' : List Nat} (h : ElemAt mem oe oa L) (h' : ElemAt mem oe oa L') : L = L' := by
  match oe, oa, h, h' with
  | none, none, h, h' => exact h.trans h'.symm
  | some _, some _, ⟨_, hL, he⟩, ⟨_, hL', he'⟩ =>
    rw [hL, hL']
    exact he.chain.unique he'.chain

end ElemAt

theorem PoolChain.unique {mem : Memory V} {pool : ElementPool} {P P' : List Nat}
    (h : PoolChain mem pool P) (h' : PoolChain mem pool P') : P = P' := by
  unfold PoolChain at h h'
  cases hh : pool.head with
  | none =>
    simp only [hh] at h h'
    exact h.1.trans h'.1.symm
  | some p =>
    simp only [hh] at h h'
    exact h.1.unique h'.1

/-! ## The layout of a map in memory -/

/-- The memory of a map: the chain of each key's element at `L k`, the pool's at `P`, no address
in two of them, nothing allocated from `fresh` on. -/
structure Layout (bt : SortedMap K ElementWithHistory) (pool : ElementPool) (mem : Memory V)
    (abt : SortedMap K (ZksyncOs.ElementWithHistory V)) (L : K → List Nat) (P : List Nat) :
    Prop where
  bounded : mem.Bounded
  elem : ∀ k, ElemAt mem (bt.get? k) (abt.get? k) (L k)
  pool : PoolChain mem pool P
  disj : ∀ k k', k ≠ k' → (L k).Disjoint (L k')
  disj_pool : ∀ k, P.Disjoint (L k)

theorem layout_new :
    Layout (K := K) SortedMap.empty ElementPool.new (Memory.empty : Memory V) SortedMap.empty
      (fun _ => []) [] where
  bounded := fun _ _ => rfl
  elem := fun _ => rfl
  pool := ⟨rfl, rfl⟩
  disj := fun _ _ _ _ hy => absurd hy List.not_mem_nil
  disj_pool := fun _ _ hy => absurd hy List.not_mem_nil

theorem Layout.unique {bt : SortedMap K ElementWithHistory} {pool : ElementPool} {mem : Memory V}
    {abt : SortedMap K (ZksyncOs.ElementWithHistory V)} {L L' : K → List Nat} {P P' : List Nat}
    (hl : Layout bt pool mem abt L P) (hl' : Layout bt pool mem abt L' P') : L = L' ∧ P = P' :=
  ⟨funext fun k => (hl.elem k).unique (hl'.elem k), hl.pool.unique hl'.pool⟩

section Layout

variable {bt bt' : SortedMap K ElementWithHistory} {pool pool' : ElementPool}
  {mem mem' : Memory V} {abt abt' : SortedMap K (ZksyncOs.ElementWithHistory V)}
  {L : K → List Nat} {P : List Nat}

/-- The addresses an operation on the element under `k` may write or take: the pool's, the
element's own, and fresh ones. -/
def Own (L : K → List Nat) (P : List Nat) (mem : Memory V) (k : K) (y : Nat) : Prop :=
  y ∈ P ∨ y ∈ L k ∨ mem.fresh ≤ y

theorem Layout.not_own (hl : Layout bt pool mem abt L P) {k k' : K} (hk' : k' ≠ k) {y : Nat}
    (hy : y ∈ L k') : ¬ Own L P mem k y := by
  rintro (hyP | hyk | hyf)
  · exact hl.disj_pool k' hyP hy
  · exact hl.disj k k' (Ne.symm hk') hyk hy
  · exact Nat.not_le_of_lt ((hl.elem k').lt_fresh hl.bounded hy) hyf

/-- An operation on the element under `k` that writes only what `k` may touch keeps the layout:
`k`'s chain becomes `Lk` and the pool's `P'`, both taken from what `k` may touch. -/
theorem Layout.update (hl : Layout bt pool mem abt L P) {k : K} {Lk P' : List Nat}
    (hbt : ∀ k', k' ≠ k → bt'.get? k' = bt.get? k')
    (habt : ∀ k', k' ≠ k → abt'.get? k' = abt.get? k')
    (hframe : Memory.Frame (Own L P mem k) mem mem') (hb : mem'.Bounded)
    (hk : ElemAt mem' (bt'.get? k) (abt'.get? k) Lk) (hP : PoolChain mem' pool' P')
    (hLk : ∀ y ∈ Lk, Own L P mem k y) (hP' : ∀ y ∈ P', Own L P mem k y)
    (hdisj : P'.Disjoint Lk) :
    Layout bt' pool' mem' abt' (Function.update L k Lk) P' := by
  refine ⟨hb, fun k' => ?_, hP, fun k₁ k₂ h12 => ?_, fun k' => ?_⟩
  · by_cases hk' : k' = k
    · rw [hk', Function.update_self]
      exact hk
    · rw [Function.update_apply, if_neg hk', hbt k' hk', habt k' hk']
      exact (hl.elem k').frame fun y hy => hframe y (hl.not_own hk' hy)
  · -- the new chain meets no other key's, nor do two old ones
    by_cases h1 : k₁ = k
    · rw [h1, Function.update_self, Function.update_apply, if_neg (h1 ▸ Ne.symm h12)]
      exact fun y hy hy' => hl.not_own (h1 ▸ Ne.symm h12) hy' (hLk y hy)
    · by_cases h2 : k₂ = k
      · rw [h2, Function.update_self, Function.update_apply, if_neg h1]
        exact fun y hy hy' => hl.not_own h1 hy (hLk y hy')
      · rw [Function.update_apply, if_neg h1, Function.update_apply, if_neg h2]
        exact hl.disj k₁ k₂ h12
  · by_cases hk' : k' = k
    · rw [hk', Function.update_self]
      exact hdisj
    · rw [Function.update_apply, if_neg hk']
      exact fun y hy hy' => hl.not_own hk' hy' (hP' y hy)

theorem Layout.createElement (hl : Layout bt pool mem abt L P) (k : K) (value : V)
    (previous : Option Nat) (ss : Nat) :
    ∃ x pool' mem' P', pool.createElement mem value previous ss = some (x, pool', mem') ∧
      mem'.records x = some ⟨ss, value, previous⟩ ∧ Memory.Frame (fun y => y = x) mem mem' ∧
      mem'.Bounded ∧ PoolChain mem' pool' P' ∧ Own L P mem k x ∧ (∀ y ∈ P', Own L P mem k y) ∧
      x ∉ L k ∧ P'.Disjoint (x :: L k) := by
  obtain ⟨x, pool', mem', P', hrun, hx, hframe, hb, hP', hxP', hcase⟩ :=
    ElementPool.createElement_spec hl.bounded hl.pool value previous ss
  have hxo : x ∈ P ∨ mem.fresh ≤ x := by
    rcases hcase with ⟨rfl, -⟩ | ⟨-, rfl, -⟩
    · exact Or.inl List.mem_cons_self
    · exact Or.inr le_rfl
  have hPP : ∀ y ∈ P', y ∈ P := by
    rcases hcase with ⟨rfl, -⟩ | ⟨rfl, -⟩
    · exact fun y hy => List.mem_cons_of_mem _ hy
    · exact fun y hy => hy
  have hown : Own L P mem k x := hxo.elim Or.inl fun h => Or.inr (Or.inr h)
  -- the pool's records and fresh addresses are on no chain
  have hxL : x ∉ L k := fun hx' => by
    rcases hxo with hxP | hxf
    · exact hl.disj_pool k hxP hx'
    · exact Nat.not_le_of_lt ((hl.elem k).lt_fresh hl.bounded hx') hxf
  refine ⟨x, pool', mem', P', hrun, hx, hframe, hb, hP',
    hown, fun y hy => Or.inl (hPP y hy), hxL, fun y hy hy' => ?_⟩
  rcases List.mem_cons.mp hy' with rfl | hyk
  · exact hxP' hy
  · exact hl.disj_pool k (hPP y hy) hyk

theorem Layout.unused (hl : Layout bt pool mem abt L P) {k : K} {x : Nat} {P' : List Nat}
    (hframe : Memory.Frame (fun y => y = x) mem mem') (hb : mem'.Bounded)
    (hP' : PoolChain mem' pool' P') (hown : Own L P mem k x) (hPown : ∀ y ∈ P', Own L P mem k y)
    (hxL : x ∉ L k) (hdisj : P'.Disjoint (x :: L k)) : Layout bt pool' mem' abt L P' := by
  have h := hl.update (fun _ _ => rfl) (fun _ _ => rfl) (hframe.mono fun y hy => hy ▸ hown) hb
    ((hl.elem k).frame fun y hy => hframe y fun h => hxL (h ▸ hy)) hP'
    (fun y hy => Or.inr (Or.inl hy)) hPown fun y hy hy' => hdisj hy (List.mem_cons_of_mem _ hy')
  rwa [Function.update_eq_self] at h

theorem Layout.update_elem (hl : Layout bt pool mem abt L P) {k : K} {e e' : ElementWithHistory}
    {a' : ZksyncOs.ElementWithHistory V} {recs R recs' : List Nat}
    (hbt : ∀ k', k' ≠ k → bt'.get? k' = bt.get? k')
    (habt : ∀ k', k' ≠ k → abt'.get? k' = abt.get? k')
    (hbtk : bt'.get? k = some e') (habtk : abt'.get? k = some a')
    (hL : L k = recs ++ [e.initial]) (hperm : (R ++ recs').Perm recs)
    (hinit : e'.initial = e.initial) (he' : ElemAbs mem' e' recs' a')
    (hpool : PoolChain mem' pool' (P ++ R))
    (hframe : Memory.Frame (fun y => y ∈ P ∨ y ∈ recs) mem mem')
    (hfresh : mem'.fresh = mem.fresh) :
    Layout bt' pool' mem' abt' (Function.update L k (recs' ++ [e.initial])) (P ++ R) := by
  have hrecs : ∀ y ∈ recs, y ∈ L k := fun y hy => hL ▸ List.mem_append_left _ hy
  have hR : ∀ y ∈ R, y ∈ recs := fun y hy => hperm.subset (List.mem_append_left _ hy)
  have hrecs' : ∀ y ∈ recs', y ∈ recs := fun y hy => hperm.subset (List.mem_append_right _ hy)
  -- `R` and what stays of the chain are apart: the chain visits no address twice
  have hnd : (R ++ (recs' ++ [e.initial])).Nodup := by
    rw [← List.append_assoc, (hperm.append_right [e.initial]).nodup_iff, ← hL]
    exact (hl.elem k).nodup
  have hstay : ∀ y ∈ recs' ++ [e.initial], y ∈ L k := fun y hy => by
    rcases List.mem_append.mp hy with hy | hy
    · exact hrecs y (hrecs' y hy)
    · rw [hL]
      exact List.mem_append_right _ hy
  refine hl.update hbt habt (hframe.mono fun y => Or.imp_right fun hy => Or.inl (hrecs y hy))
    ?_ ?_ hpool (fun y hy => Or.inr (Or.inl (hstay y hy))) ?_ ?_
  · exact hframe.bounded hl.bounded hfresh fun y hy =>
      hy.elim (hl.pool.lt_fresh hl.bounded) fun hy => (hl.elem k).lt_fresh hl.bounded (hrecs y hy)
  · rw [hbtk, habtk]
    exact ⟨recs', by rw [hinit], he'⟩
  · intro y hy
    rcases List.mem_append.mp hy with hy | hy
    · exact Or.inl hy
    · exact Or.inr (Or.inl (hrecs y (hR y hy)))
  · intro y hy hy'
    rcases List.mem_append.mp hy with hyP | hyR
    · exact hl.disj_pool k hyP (hstay y hy')
    · exact (List.nodup_append.mp hnd).2.2 y hyR y hy' rfl

end Layout

/-! ## The map -/

/-- The pointer-level map `m` implements the list-level map `a`: the same elements, snapshot ids and
pending stack. -/
structure Represents (m : HistoryMap K V) (a : ZksyncOs.HistoryMap K V) : Prop where
  layout : ∃ L P, Layout m.btree m.recordsMemoryPool m.memory a.btree L P
  next : m.nextSnapshotId = a.nextSnapshotId
  frozen : m.frozenSnapshotId = a.frozenSnapshotId
  pending : m.pendingUpdatedElements = a.pendingUpdatedElements
  pending_mem : ∀ p ∈ a.pendingUpdatedElements, (a.btree.get? p.1).isSome

theorem represents_new : Represents (HistoryMap.new : HistoryMap K V) ZksyncOs.HistoryMap.new where
  layout := ⟨_, _, layout_new⟩
  next := rfl
  frozen := rfl
  pending := rfl
  pending_mem := fun _ h => absurd h List.not_mem_nil

/-- The value of a result, or `a` when it is an error: the list-level map an operation leaves,
which a failed callback or a refused rollback leaves as it was. -/
def resultOr {ε α : Type} (a : α) : Except ε α → α
  | .ok b => b
  | .error _ => a

@[simp] theorem resultOr_ok {ε α : Type} (a b : α) : resultOr a (Except.ok b : Except ε α) = b := rfl

@[simp] theorem resultOr_error {ε α : Type} (a : α) (e : ε) :
    resultOr a (Except.error e : Except ε α) = a := rfl

theorem isSome_get?_insert {abt : SortedMap K (ZksyncOs.ElementWithHistory V)} {k' : K}
    (h : (abt.get? k').isSome) (k : K) (a : ZksyncOs.ElementWithHistory V) :
    ((abt.insert k a).get? k').isSome := by
  rw [SortedMap.get?_insert]
  split_ifs
  · rfl
  · exact h

/-! ## One element at a time -/

theorem isSome_get?_modify {abt : SortedMap K (ZksyncOs.ElementWithHistory V)} {k' : K}
    (h : (abt.get? k').isSome) (k : K) (f : ZksyncOs.ElementWithHistory V → ZksyncOs.ElementWithHistory V) :
    ((abt.modify k f).get? k').isSome := by
  rw [SortedMap.get?_modify]
  split_ifs
  · rwa [Option.isSome_map]
  · exact h

section Elements

variable {m : HistoryMap K V} {abt : SortedMap K (ZksyncOs.ElementWithHistory V)}
  {L : K → List Nat} {P : List Nat}

theorem Layout.elem_some (hl : Layout m.btree m.recordsMemoryPool m.memory abt L P) {key : K}
    (hkey : (abt.get? key).isSome) :
    ∃ e ae recs, m.btree.get? key = some e ∧ abt.get? key = some ae ∧ L key = recs ++ [e.initial] ∧
      ElemAbs m.memory e recs ae := by
  obtain ⟨ae, hk⟩ := Option.isSome_iff_exists.mp hkey
  obtain ⟨e, he⟩ : ∃ e, m.btree.get? key = some e :=
    Option.isSome_iff_exists.mp (by rw [(hl.elem key).isSome_iff, hk]; rfl)
  have h := hl.elem key
  rw [he, hk] at h
  obtain ⟨recs, hL, hea⟩ := h
  exact ⟨e, ae, recs, he, hk, hL, hea⟩

theorem Layout.head_record (hl : Layout m.btree m.recordsMemoryPool m.memory abt L P) {key : K}
    {ae : ZksyncOs.ElementWithHistory V} (hk : abt.get? key = some ae) :
    ∃ e recs last, m.btree.get? key = some e ∧ L key = recs ++ [e.initial] ∧
      ElemAbs m.memory e recs ae ∧ m.memory.records e.head = some last ∧
      last.touchSsId = ae.headTouch ∧ last.value = ae.current := by
  obtain ⟨e, ae', recs, he, hk', hL, hea⟩ := hl.elem_some (by rw [hk]; rfl)
  rw [hk, Option.some.injEq] at hk'
  subst hk'
  obtain ⟨last, hlast⟩ :=
    Option.isSome_iff_exists.mp (hea.chain.isSome_of_mem hea.chain.mem_self)
  have hview := hea.view_head
  rw [Memory.view_of_records hlast, Option.some.injEq, ZksyncOs.HistoryRecord.mk.injEq] at hview
  exact ⟨e, recs, last, he, hL, hea, hlast, hview⟩

theorem Layout.rollbackElement (hl : Layout m.btree m.recordsMemoryPool m.memory abt L P)
    {key : K} (hkey : (abt.get? key).isSome) (s : Nat) :
    ∃ bt' pool' mem' L' P', m.rollbackElement key s =
        some { m with btree := bt', recordsMemoryPool := pool', memory := mem' } ∧
      Layout bt' pool' mem' (abt.modify key (·.rollback s)) L' P' := by
  obtain ⟨e, ae, recs, he, hk, hL, hea⟩ := hl.elem_some hkey
  obtain ⟨e', pool', mem', R, recs', hrun, hrecs, hinit, hea', hpool, hframe, hfresh⟩ :=
    ElementWithHistory.rollback_spec hl.bounded hl.pool hea (hL ▸ hl.disj_pool key) s
  refine ⟨m.btree.insert key e', pool', mem', _, _, by simp [HistoryMap.rollbackElement, he, hrun],
    hl.update_elem (fun k' hk' => SortedMap.get?_insert_of_ne _ _ hk')
      (fun k' hk' => SortedMap.get?_modify_of_ne _ _ hk') (SortedMap.get?_insert_self _ _ _)
      (by rw [SortedMap.get?_modify_self, hk]; rfl) hL (hrecs ▸ List.Perm.refl _) hinit hea'
      hpool hframe hfresh⟩

theorem Layout.commitElement (hl : Layout m.btree m.recordsMemoryPool m.memory abt L P)
    {key : K} (hkey : (abt.get? key).isSome) :
    ∃ bt' pool' mem' L' P', m.commitElement key =
        some { m with btree := bt', recordsMemoryPool := pool', memory := mem' } ∧
      Layout bt' pool' mem' (abt.modify key ZksyncOs.ElementWithHistory.commit) L' P' := by
  obtain ⟨e, ae, recs, he, hk, hL, hea⟩ := hl.elem_some hkey
  obtain ⟨e', pool', mem', R, recs', hrun, hrecs, hinit, hea', hpool, hframe, hfresh⟩ :=
    ElementWithHistory.commit_spec hl.pool hea (hL ▸ hl.disj_pool key)
  refine ⟨m.btree.insert key e', pool', mem', _, _, by simp [HistoryMap.commitElement, he, hrun],
    hl.update_elem (fun k' hk' => SortedMap.get?_insert_of_ne _ _ hk')
      (fun k' hk' => SortedMap.get?_modify_of_ne _ _ hk') (SortedMap.get?_insert_self _ _ _)
      (by rw [SortedMap.get?_modify_self, hk]; rfl) hL (hrecs ▸ List.perm_append_comm) hinit hea'
      hpool hframe hfresh⟩

end Elements

/-! ## The operations -/

theorem getOrInsert_refines {m : HistoryMap K V} {a : ZksyncOs.HistoryMap K V}
    (hr : Represents m a) (k : K) (spawnV : Except E V) :
    ∃ m', m.getOrInsert k spawnV = some (m', (a.getOrInsert k spawnV).map fun _ => ()) ∧
      Represents m' (resultOr a (a.getOrInsert k spawnV)) := by
  obtain ⟨⟨L, P, hl⟩, hnext, hfrozen, hpending, hpm⟩ := hr
  have hiff := (hl.elem k).isSome_iff
  cases hk : a.btree.get? k with
  | some ae =>
    -- present: `spawnV` does not run
    obtain ⟨e, he⟩ : ∃ e, m.btree.get? k = some e :=
      Option.isSome_iff_exists.mp (by rw [hiff, hk]; rfl)
    have ha : a.getOrInsert k spawnV = .ok a :=
      ZksyncOs.HistoryMap.getOrInsert_of_get_some_bind hk spawnV
    rw [ha]
    exact ⟨m, by simp [HistoryMap.getOrInsert, he]; rfl,
      ⟨⟨L, P, hl⟩, hnext, hfrozen, hpending, hpm⟩⟩
  | none =>
    have he : m.btree.get? k = none := Option.not_isSome_iff_eq_none.mp (by rw [hiff, hk]; simp)
    have hLk : L k = [] := by
      have h := hl.elem k
      rwa [he, hk] at h
    cases spawnV with
    | error err =>
      have ha : a.getOrInsert k (Except.error err : Except E V) = Except.error err :=
        ZksyncOs.HistoryMap.getOrInsert_of_get_none_bind hk _
      rw [ha]
      exact ⟨m, by simp [HistoryMap.getOrInsert, he]; rfl,
        ⟨⟨L, P, hl⟩, hnext, hfrozen, hpending, hpm⟩⟩
    | ok v =>
      obtain ⟨x, pool', mem', P', hrun, hx, hframe, hb, hP', hown, hPown, -, hdisj⟩ :=
        hl.createElement k v none 0
      have ha : a.getOrInsert k (Except.ok v : Except E V) =
          Except.ok { a with btree := a.btree.insert k (ZksyncOs.ElementWithHistory.new v) } :=
        (ZksyncOs.HistoryMap.getOrInsert_of_get_none_bind hk _).trans
          (congrArg Except.ok (ZksyncOs.HistoryMap.getOrInsert_of_get_none hk v))
      -- the new element is the record `create_element` returned, alone on its chain
      have hlay : Layout (m.btree.insert k ⟨x, x, x⟩) pool' mem'
          (a.btree.insert k (ZksyncOs.ElementWithHistory.new v)) (Function.update L k [x]) P' := by
        refine hl.update (fun k' hk' => SortedMap.get?_insert_of_ne _ _ hk')
          (fun k' hk' => SortedMap.get?_insert_of_ne _ _ hk')
          (hframe.mono fun y hy => hy ▸ hown) hb ?_ hP' ?_ hPown ?_
        · rw [SortedMap.get?_insert_self, SortedMap.get?_insert_self]
          exact ⟨[], rfl, ElemAbs.new hx⟩
        · intro y hy
          rw [List.mem_singleton.mp hy]
          exact hown
        · rw [hLk] at hdisj
          exact hdisj
      rw [ha]
      refine ⟨{ m with
          btree := m.btree.insert k ⟨x, x, x⟩, recordsMemoryPool := pool', memory := mem' },
        ?_, ⟨_, _, hlay⟩, hnext, hfrozen, hpending, fun p hp => isSome_get?_insert (hpm p hp) _ _⟩
      simp [HistoryMap.getOrInsert, he, ElementWithHistory.new, hrun]
      rfl

theorem update_refines {m : HistoryMap K V} {a : ZksyncOs.HistoryMap K V} (hr : Represents m a)
    (k : K) (f : V → Except E V) :
    ∃ m', m.update k f = some (m', (a.update k f).map fun _ => ()) ∧
      Represents m' (resultOr a (a.update k f)) := by
  obtain ⟨⟨L, P, hl⟩, hnext, hfrozen, hpending, hpm⟩ := hr
  have hrep : Represents m a := ⟨⟨L, P, hl⟩, hnext, hfrozen, hpending, hpm⟩
  have hiff := (hl.elem k).isSome_iff
  cases hk : a.btree.get? k with
  | none =>
    have he : m.btree.get? k = none := Option.not_isSome_iff_eq_none.mp (by rw [hiff, hk]; simp)
    rw [ZksyncOs.HistoryMap.update_of_get_none_bind hk f]
    exact ⟨m, by simp [HistoryMap.update, he]; rfl, hrep⟩
  | some ae =>
    obtain ⟨e, recs, last, he, hL, hea, hlast, htouch, hval⟩ := hl.head_record (m := m) hk
    have hhead : e.head ∈ L k := by
      rw [hL]
      exact hea.chain.mem_self
    have ha := ZksyncOs.HistoryMap.update_of_get_some_bind hk f
    by_cases hin : ae.headTouch = a.nextSnapshotId
    · -- written in the current snapshot: `head` is overwritten in place
      have hin' : last.touchSsId = m.nextSnapshotId := by rw [htouch, hnext, hin]
      cases hf : f ae.current with
      | error err =>
        rw [ha, hf]
        exact ⟨m, by simp [HistoryMap.update, he, hlast, hin', hval, hf]; rfl, hrep⟩
      | ok v =>
        have ha' : a.update k f =
            Except.ok { a with btree := a.btree.insert k (ae.setHeadValue v) } := by
          rw [ha, hf]
          exact congrArg Except.ok
            ((ZksyncOs.HistoryMap.update_of_get_some hk fun _ => v).trans (if_pos hin))
        have hlay : Layout m.btree m.recordsMemoryPool
            (m.memory.write e.head { last with value := v }) (a.btree.insert k (ae.setHeadValue v))
            (Function.update L k (L k)) P := by
          refine hl.update (fun _ _ => rfl) (fun k' hk' => SortedMap.get?_insert_of_ne _ _ hk')
            (fun y hy => ?_) (hl.bounded.write (hl.bounded.lt_of_records hlast) _) ?_
            (hl.pool.frame fun y hy => ?_) (fun y hy => Or.inr (Or.inl hy)) (fun y hy => Or.inl hy)
            (hl.disj_pool k)
          · rw [Memory.records_write, if_neg fun (h : y = e.head) => hy (Or.inr (Or.inl (h ▸ hhead)))]
          · rw [he, SortedMap.get?_insert_self]
            exact ⟨recs, hL, hea.write_head hlast v⟩
          · rw [Memory.records_write, if_neg fun (h : y = e.head) => hl.disj_pool k hy (h ▸ hhead)]
        rw [ha']
        exact ⟨{ m with memory := m.memory.write e.head { last with value := v } },
          by simp [HistoryMap.update, he, hlast, hin', hval, hf]; rfl,
          ⟨_, _, hlay⟩, hnext, hfrozen, hpending, fun p hp => isSome_get?_insert (hpm p hp) _ _⟩
    · -- written before: a record is taken from the pool, or allocated, before `f` runs
      have hin' : ¬ last.touchSsId = m.nextSnapshotId := by rw [htouch, hnext]; exact hin
      obtain ⟨x, pool', mem', P', hrun, hx, hframe, hb, hP', hown, hPown, hxL, hdisj⟩ :=
        hl.createElement k ae.current (some e.head) m.nextSnapshotId
      have hm : ∀ y ∈ L k, mem'.records y = m.memory.records y :=
        fun y hy => hframe y fun h => hxL (h ▸ hy)
      cases hf : f ae.current with
      | error err =>
        -- the record stays taken: on no chain and out of the pool
        have hlay := hl.unused hframe hb hP' hown hPown hxL hdisj
        rw [ha, hf]
        exact ⟨{ m with recordsMemoryPool := pool', memory := mem' },
          by simp [HistoryMap.update, he, hlast, hin', hrun, hval, hf]; rfl,
          ⟨_, _, hlay⟩, hnext, hfrozen, hpending, hpm⟩
      | ok v =>
        have ha' : a.update k f = Except.ok { a with
            btree := a.btree.insert k (ae.addNewRecord ⟨a.nextSnapshotId, v⟩)
            pendingUpdatedElements := (k, a.nextSnapshotId) :: a.pendingUpdatedElements } := by
          rw [ha, hf]
          exact congrArg Except.ok
            ((ZksyncOs.HistoryMap.update_of_get_some hk fun _ => v).trans (if_neg hin))
        -- `f`'s value is written into the new record, which goes on top of the chain
        have hx' : (mem'.write x ⟨m.nextSnapshotId, v, some e.head⟩).records x =
            some ⟨a.nextSnapshotId, v, some e.head⟩ := by simp [hnext]
        have hlay : Layout (m.btree.insert k (e.addNewRecord x)) pool'
            (mem'.write x ⟨m.nextSnapshotId, v, some e.head⟩)
            (a.btree.insert k (ae.addNewRecord ⟨a.nextSnapshotId, v⟩))
            (Function.update L k (x :: L k)) P' := by
          refine hl.update (fun k' hk' => SortedMap.get?_insert_of_ne _ _ hk')
            (fun k' hk' => SortedMap.get?_insert_of_ne _ _ hk') (fun y hy => ?_)
            (hb.write (hb.lt_of_records hx) _) ?_ (hP'.frame fun y hy => ?_) (fun y hy => ?_) hPown
            hdisj
          · have hyx : y ≠ x := fun h => hy (h ▸ hown)
            rw [Memory.records_write, if_neg hyx, hframe y hyx]
          · rw [SortedMap.get?_insert_self, SortedMap.get?_insert_self]
            refine ⟨x :: recs, by rw [hL]; rfl, hea.push hx' (fun y hy => ?_) (hL ▸ hxL)⟩
            have hyx : y ≠ x := fun h => hxL (h ▸ hL ▸ hy)
            rw [Memory.records_write, if_neg hyx, hframe y hyx]
          · rw [Memory.records_write, if_neg fun (h : y = x) => hdisj hy (h ▸ List.mem_cons_self)]
          · rcases List.mem_cons.mp hy with rfl | hy
            · exact hown
            · exact Or.inr (Or.inl hy)
        rw [ha']
        refine ⟨{ m with
            btree := m.btree.insert k (e.addNewRecord x)
            pendingUpdatedElements := (k, m.nextSnapshotId) :: m.pendingUpdatedElements
            recordsMemoryPool := pool'
            memory := mem'.write x ⟨m.nextSnapshotId, v, some e.head⟩ },
          by simp [HistoryMap.update, he, hlast, hin', hrun, hval, hf]; rfl,
          ⟨_, _, hlay⟩, hnext, hfrozen, ?_, fun p hp => ?_⟩
        · show (k, m.nextSnapshotId) :: m.pendingUpdatedElements =
            (k, a.nextSnapshotId) :: a.pendingUpdatedElements
          rw [hpending, hnext]
        · rcases List.mem_cons.mp hp with rfl | hp
          · exact congrArg Option.isSome (SortedMap.get?_insert_self a.btree k _)
          · exact isSome_get?_insert (hpm p hp) _ _

theorem snapshot_refines {m : HistoryMap K V} {a : ZksyncOs.HistoryMap K V} (hr : Represents m a) :
    m.snapshot.1 = a.snapshot.1 ∧ Represents m.snapshot.2 a.snapshot.2 :=
  ⟨hr.next, ⟨hr.layout, by simp [HistoryMap.snapshot, ZksyncOs.HistoryMap.snapshot, hr.next],
    hr.frozen, hr.pending, hr.pending_mem⟩⟩

theorem rollbackPending_refines (s : Nat) :
    ∀ (l : List (K × Nat)) (m : HistoryMap K V) (abt : SortedMap K (ZksyncOs.ElementWithHistory V))
      (L : K → List Nat) (P : List Nat), Layout m.btree m.recordsMemoryPool m.memory abt L P →
      (∀ p ∈ l, (abt.get? p.1).isSome) →
      ∃ bt' pool' mem' L' P', HistoryMap.rollbackPending s m l = some { m with
          btree := bt', recordsMemoryPool := pool', memory := mem'
          pendingUpdatedElements := (ZksyncOs.HistoryMap.rollbackPending s abt l).2 } ∧
        Layout bt' pool' mem' (ZksyncOs.HistoryMap.rollbackPending s abt l).1 L' P'
  | [], m, _, L, P, hl, _ => ⟨m.btree, m.recordsMemoryPool, m.memory, L, P, rfl, hl⟩
  | (key, id) :: rest, m, abt, L, P, hl, hkeys => by
    by_cases hid : id ≤ s
    · -- an entry at or below `s` is pushed back and ends the loop
      have hlist : ZksyncOs.HistoryMap.rollbackPending s abt ((key, id) :: rest) =
          (abt, (key, id) :: rest) := if_pos hid
      rw [hlist]
      exact ⟨m.btree, m.recordsMemoryPool, m.memory, L, P,
        by simp [HistoryMap.rollbackPending, hid], hl⟩
    · have hlist : ZksyncOs.HistoryMap.rollbackPending s abt ((key, id) :: rest) =
          ZksyncOs.HistoryMap.rollbackPending s (abt.modify key (·.rollback s)) rest := if_neg hid
      obtain ⟨bt', pool', mem', L', P', hrun, hl'⟩ :=
        hl.rollbackElement (hkeys _ List.mem_cons_self) s
      obtain ⟨bt'', pool'', mem'', L'', P'', hrun', hl''⟩ :=
        rollbackPending_refines s rest { m with btree := bt', recordsMemoryPool := pool', memory := mem' }
          (abt.modify key (·.rollback s)) L' P' hl'
          fun p hp => isSome_get?_modify (hkeys p (List.mem_cons_of_mem _ hp)) _ _
      rw [hlist]
      exact ⟨bt'', pool'', mem'', L'', P'', by simp [HistoryMap.rollbackPending, hid, hrun, hrun'],
        hl''⟩

theorem isSome_rollbackPending (s : Nat) (abt : SortedMap K (ZksyncOs.ElementWithHistory V))
    (l : List (K × Nat)) (hkeys : ∀ p ∈ l, (abt.get? p.1).isSome) :
    ∀ p ∈ (ZksyncOs.HistoryMap.rollbackPending s abt l).2,
      ((ZksyncOs.HistoryMap.rollbackPending s abt l).1.get? p.1).isSome := by
  intro p hp
  rw [ZksyncOs.HistoryMap.rollbackPending_eq] at hp ⊢
  rw [SortedMap.isSome_get?_foldl_modify]
  exact hkeys p ((List.dropWhile_sublist _).subset hp)

theorem rollback_refines {m : HistoryMap K V} {a : ZksyncOs.HistoryMap K V} (hr : Represents m a)
    (s : Nat) :
    ∃ m', m.rollback s = some (m', (a.rollback s).map fun _ => ()) ∧
      Represents m' (resultOr a (a.rollback s)) := by
  obtain ⟨⟨L, P, hl⟩, hnext, hfrozen, hpending, hpm⟩ := hr
  have hrep : Represents m a := ⟨⟨L, P, hl⟩, hnext, hfrozen, hpending, hpm⟩
  by_cases h1 : s < a.frozenSnapshotId
  · -- below the frozen snapshot: refused on both sides
    exact ⟨m, by simp [HistoryMap.rollback, ZksyncOs.HistoryMap.rollback, hfrozen, h1]; rfl, by
      simpa [ZksyncOs.HistoryMap.rollback, h1] using hrep⟩
  by_cases h2 : a.nextSnapshotId ≤ s
  · exact ⟨m, by simp [HistoryMap.rollback, ZksyncOs.HistoryMap.rollback, hfrozen, hnext, h1, h2]; rfl,
      by simpa [ZksyncOs.HistoryMap.rollback, h1, h2] using hrep⟩
  obtain ⟨bt', pool', mem', L', P', hrun, hl'⟩ :=
    rollbackPending_refines s a.pendingUpdatedElements m a.btree L P hl hpm
  have ha := ZksyncOs.HistoryMap.rollback_eq_ok (m := a) (Nat.le_of_not_lt h1) (Nat.lt_of_not_le h2)
  rw [ha, resultOr_ok]
  refine ⟨{ m with
      btree := bt', recordsMemoryPool := pool', memory := mem'
      pendingUpdatedElements := (ZksyncOs.HistoryMap.rollbackPending s a.btree
        a.pendingUpdatedElements).2 }, ?_, ⟨_, _, hl'⟩, hnext, hfrozen, rfl,
    isSome_rollbackPending s a.btree a.pendingUpdatedElements hpm⟩
  simp [HistoryMap.rollback, hfrozen, hnext, h1, h2, hpending, hrun]
  rfl

theorem commitPending_refines :
    ∀ (l : List (K × Nat)) (m : HistoryMap K V) (abt : SortedMap K (ZksyncOs.ElementWithHistory V))
      (L : K → List Nat) (P : List Nat), Layout m.btree m.recordsMemoryPool m.memory abt L P →
      (∀ p ∈ l, (abt.get? p.1).isSome) →
      ∃ bt' pool' mem' L' P', HistoryMap.commitPending m l =
          some { m with btree := bt', recordsMemoryPool := pool', memory := mem' } ∧
        Layout bt' pool' mem' (l.foldl (fun bt p => bt.modify p.1 ZksyncOs.ElementWithHistory.commit)
          abt) L' P'
  | [], m, _, L, P, hl, _ => ⟨m.btree, m.recordsMemoryPool, m.memory, L, P, rfl, hl⟩
  | (key, id) :: rest, m, abt, L, P, hl, hkeys => by
    obtain ⟨bt', pool', mem', L', P', hrun, hl'⟩ := hl.commitElement (hkeys _ List.mem_cons_self)
    obtain ⟨bt'', pool'', mem'', L'', P'', hrun', hl''⟩ :=
      commitPending_refines rest { m with btree := bt', recordsMemoryPool := pool', memory := mem' }
        (abt.modify key ZksyncOs.ElementWithHistory.commit) L' P' hl'
        fun p hp => isSome_get?_modify (hkeys p (List.mem_cons_of_mem _ hp)) _ _
    exact ⟨bt'', pool'', mem'', L'', P'', by simp [HistoryMap.commitPending, hrun, hrun'], hl''⟩

theorem commit_refines {m : HistoryMap K V} {a : ZksyncOs.HistoryMap K V} (hr : Represents m a) :
    ∃ m', m.commit = some m' ∧ Represents m' a.commit := by
  obtain ⟨⟨L, P, hl⟩, hnext, hfrozen, hpending, hpm⟩ := hr
  obtain ⟨bt', pool', mem', L', P', hrun, hl'⟩ :=
    commitPending_refines m.pendingUpdatedElements { m with
      frozenSnapshotId := m.nextSnapshotId, nextSnapshotId := m.nextSnapshotId + 1 }
      a.btree L P hl (hpending ▸ hpm)
  rw [hpending] at hl'
  refine ⟨{ m with
      frozenSnapshotId := m.nextSnapshotId, nextSnapshotId := m.nextSnapshotId + 1
      btree := bt', recordsMemoryPool := pool', memory := mem', pendingUpdatedElements := [] },
    ?_, ⟨_, _, hl'⟩, by simp [ZksyncOs.HistoryMap.commit, ZksyncOs.HistoryMap.snapshot, hnext],
    by simp [ZksyncOs.HistoryMap.commit, ZksyncOs.HistoryMap.snapshot, hnext], rfl,
    fun _ hp => absurd hp List.not_mem_nil⟩
  simp [HistoryMap.commit, HistoryMap.snapshot, hrun]

/-! ## Runs -/

/-- The list-level map an operation leaves, its callbacks in `Except`. -/
def listStep (a : ZksyncOs.HistoryMap K V) : HistoryMap.Op K V E → ZksyncOs.HistoryMap K V
  | .getOrInsert k spawnV => resultOr a (a.getOrInsert k spawnV)
  | .update k f => resultOr a (a.update k f)
  | .snapshot => a.snapshot.2
  | .rollback s => resultOr a (a.rollback s)
  | .commit => a.commit

/-- The list-level map a sequence of operations leaves. -/
def listRun (a : ZksyncOs.HistoryMap K V) (ops : List (HistoryMap.Op K V E)) :
    ZksyncOs.HistoryMap K V :=
  ops.foldl listStep a

theorem step_refines {m : HistoryMap K V} {a : ZksyncOs.HistoryMap K V} (hr : Represents m a)
    (op : HistoryMap.Op K V E) : ∃ m', m.step op = some m' ∧ Represents m' (listStep a op) := by
  cases op with
  | getOrInsert k spawnV =>
    obtain ⟨m', hrun, hr'⟩ := getOrInsert_refines hr k spawnV
    exact ⟨m', by simp [HistoryMap.step, hrun], hr'⟩
  | update k f =>
    obtain ⟨m', hrun, hr'⟩ := update_refines hr k f
    exact ⟨m', by simp [HistoryMap.step, hrun], hr'⟩
  | snapshot => exact ⟨m.snapshot.2, rfl, (snapshot_refines hr).2⟩
  | rollback s =>
    obtain ⟨m', hrun, hr'⟩ := rollback_refines hr s
    exact ⟨m', by simp [HistoryMap.step, hrun], hr'⟩
  | commit => exact commit_refines hr

/-- Every run of operations on a represented map: no panic, and the map it leaves represents the
list-level map the same run leaves. -/
theorem run_refines {m : HistoryMap K V} {a : ZksyncOs.HistoryMap K V} (hr : Represents m a)
    (ops : List (HistoryMap.Op K V E)) :
    ∃ m', m.run ops = some m' ∧ Represents m' (listRun a ops) := by
  induction ops generalizing m a with
  | nil => exact ⟨m, rfl, hr⟩
  | cons op ops ih =>
    obtain ⟨m₁, h₁, hr₁⟩ := step_refines hr op
    obtain ⟨m₂, h₂, hr₂⟩ := ih hr₁
    exact ⟨m₂, by simp [HistoryMap.run, h₁, h₂], hr₂⟩

/-- From `new`, no sequence of operations panics or reads an address that holds no record, and the
map it leaves represents the list-level map the same sequence leaves. -/
theorem run_new_refines (ops : List (HistoryMap.Op K V E)) :
    ∃ m', (HistoryMap.new : HistoryMap K V).run ops = some m' ∧
      Represents m' (listRun ZksyncOs.HistoryMap.new ops) :=
  run_refines represents_new ops

/-- A list-level operation, its callbacks as ones that do not fail. -/
def HistoryMap.Op.ofPure : SnapshotStack.Op K V → HistoryMap.Op K V E
  | .insert k v => .getOrInsert k (.ok v)
  | .update k g => .update k fun v => .ok (g v)
  | .snapshot => .snapshot
  | .rollback s => .rollback s
  | .commit => .commit

theorem listStep_ofPure (a : ZksyncOs.HistoryMap K V) (op : SnapshotStack.Op K V) :
    listStep a (HistoryMap.Op.ofPure (E := E) op) = ZksyncOs.HistoryMap.step a op := by
  cases op with
  | insert k v =>
    show resultOr a (a.getOrInsert k (pure v)) = _
    rw [ZksyncOs.HistoryMap.getOrInsert_pure]
    rfl
  | update k g =>
    show resultOr a (a.update k fun v => pure (g v)) = Id.run (a.update k fun v => pure (g v))
    cases hk : a.get k with
    | none =>
      rw [ZksyncOs.HistoryMap.update_of_get_none_bind hk, ZksyncOs.HistoryMap.update_of_get_none hk]
      rfl
    | some e =>
      rw [ZksyncOs.HistoryMap.update_of_get_some_bind hk]
      exact (ZksyncOs.HistoryMap.update_of_get_some hk fun _ => g e.current).trans
        (ZksyncOs.HistoryMap.update_of_get_some hk g).symm
  | snapshot => rfl
  | rollback s =>
    simp only [listStep, HistoryMap.Op.ofPure, ZksyncOs.HistoryMap.step]
    cases a.rollback s <;> rfl
  | commit => rfl

theorem listRun_ofPure (a : ZksyncOs.HistoryMap K V) (ops : List (SnapshotStack.Op K V)) :
    listRun a (ops.map (HistoryMap.Op.ofPure (E := E))) = ZksyncOs.HistoryMap.run a ops := by
  induction ops generalizing a with
  | nil => rfl
  | cons op ops ih =>
    show listRun (listStep a (HistoryMap.Op.ofPure op)) (ops.map HistoryMap.Op.ofPure) =
      ZksyncOs.HistoryMap.run (ZksyncOs.HistoryMap.step a op) ops
    rw [listStep_ofPure]
    exact ih _

/-- With callbacks that do not fail, every run from `new` refines the checkpoint stack through the
list-level map. -/
theorem run_new_refines_snapshotStack (ops : List (SnapshotStack.Op K V)) :
    ∃ m', (HistoryMap.new : HistoryMap K V).run (ops.map (HistoryMap.Op.ofPure (E := E))) =
        some m' ∧ Represents m' (ZksyncOs.HistoryMap.run ZksyncOs.HistoryMap.new ops) ∧
      ZksyncOs.HistoryMap.Refines (ZksyncOs.HistoryMap.run ZksyncOs.HistoryMap.new ops)
        (SnapshotStack.run SnapshotStack.init ops) := by
  obtain ⟨m', hrun, hr⟩ := run_refines (represents_new (K := K) (V := V))
    (ops.map (HistoryMap.Op.ofPure (E := E)))
  rw [listRun_ofPure] at hr
  exact ⟨m', hrun, hr, ZksyncOs.HistoryMap.refines_run_new ops⟩

/-! ## The chains over whole runs -/

theorem listStep_eq (a : ZksyncOs.HistoryMap K V) (op : HistoryMap.Op K V E) :
    listStep a op = a ∨ ∃ op' : SnapshotStack.Op K V, listStep a op = ZksyncOs.HistoryMap.step a op' := by
  cases op with
  | getOrInsert k spawnV =>
    cases spawnV with
    | ok v => exact Or.inr ⟨.insert k v, listStep_ofPure a (.insert k v)⟩
    | error err =>
      -- a failed `spawnV` inserts nothing
      left
      cases hk : a.get k with
      | some e =>
        show resultOr a (a.getOrInsert k _) = a
        rw [ZksyncOs.HistoryMap.getOrInsert_of_get_some_bind hk]
        rfl
      | none =>
        show resultOr a (a.getOrInsert k _) = a
        rw [ZksyncOs.HistoryMap.getOrInsert_of_get_none_bind hk]
        rfl
  | update k f =>
    cases hk : a.get k with
    | none =>
      left
      show resultOr a (a.update k f) = a
      rw [ZksyncOs.HistoryMap.update_of_get_none_bind hk]
      rfl
    | some e =>
      show resultOr a (a.update k f) = a ∨ ∃ op', resultOr a (a.update k f) = _
      rw [ZksyncOs.HistoryMap.update_of_get_some_bind hk]
      cases f e.current with
      | error err => exact Or.inl rfl
      | ok v => exact Or.inr ⟨.update k fun _ => v, rfl⟩
  | snapshot => exact Or.inr ⟨.snapshot, rfl⟩
  | rollback s => exact Or.inr ⟨.rollback s, listStep_ofPure a (.rollback s)⟩
  | commit => exact Or.inr ⟨.commit, rfl⟩

theorem listRun_append (a : ZksyncOs.HistoryMap K V) (ops ops' : List (HistoryMap.Op K V E)) :
    listRun a (ops ++ ops') = listRun (listRun a ops) ops' :=
  List.foldl_append

theorem wf_settled_listRun {a : ZksyncOs.HistoryMap K V} (hw : a.Wf) (hs : a.Settled)
    (ops : List (HistoryMap.Op K V E)) : (listRun a ops).Wf ∧ (listRun a ops).Settled := by
  induction ops generalizing a with
  | nil => exact ⟨hw, hs⟩
  | cons op ops ih =>
    apply ih
    · rcases listStep_eq a op with h | ⟨op', h⟩ <;> rw [h]
      · exact hw
      · exact ZksyncOs.HistoryMap.wf_step hw op'
    · rcases listStep_eq a op with h | ⟨op', h⟩ <;> rw [h]
      · exact hs
      · exact ZksyncOs.HistoryMap.settled_step hw hs op'

theorem Memory.touch_eq_comp (mem : Memory V) :
    mem.touch = (fun o : Option (ZksyncOs.HistoryRecord V) => (o.map (·.touchSsId)).getD 0) ∘
      mem.view := by
  funext p
  rcases h : mem.records p with _ | r <;> simp [Memory.touch, Memory.view, h]

section Chains

variable {mem : Memory V} {e : ElementWithHistory} {recs : List Nat}
  {a : ZksyncOs.ElementWithHistory V}

theorem ElemAbs.map_touch (he : ElemAbs mem e recs a) :
    recs.map mem.touch = a.records.map (·.touchSsId) := by
  rw [Memory.touch_eq_comp, ← List.map_map, he.records, List.map_map]
  rfl

theorem ElemAbs.pairwise_touch (he : ElemAbs mem e recs a) (hs : a.Sorted)
    (hpos : ∀ r ∈ a.records, 0 < r.touchSsId) :
    (recs ++ [e.initial]).Pairwise (fun p q => mem.touch q < mem.touch p) := by
  have hinit : mem.touch e.initial = 0 := Memory.touch_of_view he.initial
  have hmap := he.map_touch
  refine List.pairwise_append.mpr ⟨?_, List.pairwise_singleton _ _, fun p hp q hq => ?_⟩
  · have hsorted : (recs.map mem.touch).Pairwise (fun x y => y < x) := by
      rw [hmap]
      exact List.pairwise_map.mpr hs
    exact List.pairwise_map.mp hsorted
  · rw [List.mem_singleton.mp hq, hinit]
    obtain ⟨r, hr, hrp⟩ := List.mem_map.mp (hmap ▸ List.mem_map_of_mem hp :
      mem.touch p ∈ a.records.map (·.touchSsId))
    rw [← hrp]
    exact hpos r hr

end Chains

/-- After every run from `new`, each element's chain goes from `head` through decreasing snapshot
ids to the initial record. -/
theorem chains_run_new (ops : List (HistoryMap.Op K V E)) :
    ∃ m', (HistoryMap.new : HistoryMap K V).run ops = some m' ∧
      ∀ k e, m'.btree.get? k = some e → ∃ recs,
        RecChain m'.memory e.head (recs ++ [e.initial]) ∧
        (recs ++ [e.initial]).Pairwise (fun p q => m'.memory.touch q < m'.memory.touch p) ∧
        m'.memory.touch e.initial = 0 ∧ e.first = recs.getLast?.getD e.initial := by
  obtain ⟨m', hrun, hr⟩ := run_refines (represents_new (K := K) (V := V)) ops
  obtain ⟨hw, hs⟩ := wf_settled_listRun ZksyncOs.HistoryMap.wf_new
    ZksyncOs.HistoryMap.settled_new ops
  obtain ⟨L, P, hl⟩ := hr.layout
  refine ⟨m', hrun, fun k e he => ?_⟩
  have hks := (hl.elem k).isSome_iff
  rw [he, Option.isSome_some, eq_comm] at hks
  obtain ⟨e', ae, recs, he', hk, -, hea⟩ := hl.elem_some hks
  rw [he, Option.some.injEq] at he'
  subst he'
  exact ⟨recs, hea.chain, hea.pairwise_touch (hw.sorted k ae hk) (hs.touch_pos k ae hk),
    Memory.touch_of_view hea.initial, hea.first_eq⟩

/-- After a commit every element's chain in memory is `head`, then the initial record, or the
initial record alone, and `first` is `head`. -/
theorem chains_after_commit (ops : List (HistoryMap.Op K V E)) :
    ∃ m', (HistoryMap.new : HistoryMap K V).run (ops ++ [.commit]) = some m' ∧
      ∀ k e, m'.btree.get? k = some e → ∃ recs, recs.length ≤ 1 ∧
        RecChain m'.memory e.head (recs ++ [e.initial]) ∧ e.first = e.head := by
  obtain ⟨m', hrun, hr⟩ := run_refines (represents_new (K := K) (V := V)) (ops ++ [.commit])
  obtain ⟨hw, hs⟩ := wf_settled_listRun ZksyncOs.HistoryMap.wf_new
    ZksyncOs.HistoryMap.settled_new ops
  rw [listRun_append] at hr
  obtain ⟨L, P, hl⟩ := hr.layout
  refine ⟨m', hrun, fun k e he => ?_⟩
  have hks := (hl.elem k).isSome_iff
  rw [he, Option.isSome_some, eq_comm] at hks
  obtain ⟨e', ae, recs, he', hk, -, hea⟩ := hl.elem_some hks
  rw [he, Option.some.injEq] at he'
  subst he'
  -- the list-level commit leaves at most one record
  have hlen : recs.length ≤ 1 := by
    have h := congrArg List.length hea.records
    rw [List.length_map, List.length_map] at h
    rw [h]
    exact ZksyncOs.HistoryMap.length_records_of_commit hw hs hk
  refine ⟨recs, hlen, hea.chain, ?_⟩
  -- `first` is the oldest record, which is `head`
  have hfirst := hea.first_eq
  obtain ⟨t, ht⟩ := hea.chain.eq_cons
  match recs, hlen, ht with
  | [], _, ht => rw [hfirst, ← (List.cons.inj ht).1]; rfl
  | [p], _, ht => rw [hfirst, ← (List.cons.inj ht).1]; rfl

/-! ## The record `update` leaks -/

/-- An `update` whose callback fails after a record was taken leaks it: on no chain and out of the
pool. -/
theorem update_error_leaks_record {m : HistoryMap K V} {a : ZksyncOs.HistoryMap K V}
    (hr : Represents m a) {k : K} {ae : ZksyncOs.ElementWithHistory V}
    (hk : a.btree.get? k = some ae) (hold : ae.headTouch ≠ a.nextSnapshotId)
    {f : V → Except E V} {err : E} (hf : f ae.current = .error err) :
    ∃ m' x, m.update k f = some (m', .error err) ∧ (m'.memory.records x).isSome ∧
      ∀ L P, Layout m'.btree m'.recordsMemoryPool m'.memory a.btree L P → x ∉ P ∧ ∀ k', x ∉ L k' := by
  obtain ⟨⟨L, P, hl⟩, hnext, -, -, -⟩ := hr
  obtain ⟨e, recs, last, he, hL, hea, hlast, htouch, hval⟩ := hl.head_record (m := m) hk
  have hin' : ¬ last.touchSsId = m.nextSnapshotId := by
    rw [htouch, hnext]
    exact hold
  obtain ⟨x, pool', mem', P', hrun, hx, hframe, hb, hP', hown, hPown, hxL, hdisj⟩ :=
    hl.createElement k ae.current (some e.head) m.nextSnapshotId
  have hlay := hl.unused hframe hb hP' hown hPown hxL hdisj
  refine ⟨{ m with recordsMemoryPool := pool', memory := mem' }, x,
    by simp [HistoryMap.update, he, hlast, hin', hrun, hval, hf], by simp [hx], fun L' P' hl' => ?_⟩
  -- memory fixes the layout: it is the one the record was taken from
  obtain ⟨rfl, rfl⟩ := hlay.unique hl'
  refine ⟨fun hxP => hdisj hxP List.mem_cons_self, fun k' hk' => ?_⟩
  by_cases hkk : k' = k
  · exact hxL (hkk ▸ hk')
  · exact hl.not_own hkk hk' hown

/-- The leak after an insert and a snapshot: the update of key `0` with a failing callback. -/
theorem update_error_leaks_record_after_snapshot :
    ∃ m, (HistoryMap.new : HistoryMap Nat Nat).run
        ([.getOrInsert 0 (.ok 5), .snapshot] : List (HistoryMap.Op Nat Nat Unit)) = some m ∧
      ∃ m' x, m.update 0 (fun _ => (.error () : Except Unit Nat)) = some (m', .error ()) ∧
        (m'.memory.records x).isSome ∧
        ∀ L P, Layout m'.btree m'.recordsMemoryPool m'.memory
          (listRun ZksyncOs.HistoryMap.new
            ([.getOrInsert 0 (.ok 5), .snapshot] : List (HistoryMap.Op Nat Nat Unit))).btree
          L P → x ∉ P ∧ ∀ k', x ∉ L k' := by
  obtain ⟨m, hrun, hr⟩ := run_refines (represents_new (K := Nat) (V := Nat))
    [HistoryMap.Op.getOrInsert 0 (Except.ok 5 : Except Unit Nat), .snapshot]
  exact ⟨m, hrun, update_error_leaks_record hr rfl (by decide) rfl⟩

end Linked

end ZksyncOs
