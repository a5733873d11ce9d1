import Mathlib
import ZksyncOs.HistoryMap.Linked
import ZksyncOs.HistoryMap.Invariant

/-!
# One element in memory, and the pool

What each element operation of the pointer level does to the chains. An element is the chain from
its `head`: its records, newest first, then the initial record (`ElemAbs`, which also says which
list-level element the chain stands for); the pool is a chain from its `head` to its `last`
(`PoolChain`).

* `ElemAbs.new`, `ElemAbs.write_head`, `ElemAbs.push` : the records `new` and `update` write are
  those of the list-level `new`, `setHeadValue` and `addNewRecord`;
* `createElement_spec` : the record comes from the pool's head, or from a fresh address;
* `reuseMemory_spec` : the chain handed over goes to the end of the pool, cut from what followed
  it;
* `rollbackLoop_spec`, `rollback_spec` : the records above the snapshot go to the pool, the rest of
  the chain is the element rolled back at the list level;
* `commit_spec` : the records between `head` and the initial one go to the pool.

Each also says which addresses it writes, and that it changes no record's snapshot id or value
other than its own new one: the frame the map-level proofs need.
-/

namespace ZksyncOs

namespace Linked

open LinkedChain

variable {V : Type}

/-- The chain of records from `p`, along `previous`. -/
abbrev RecChain (mem : Memory V) (p : Nat) (l : List Nat) : Prop :=
  Chain (fun r : HistoryRecord V => r.previous) mem.records p l

namespace Memory

/-- The snapshot id of the record at `p`. -/
def touch (mem : Memory V) (p : Nat) : Nat :=
  match mem.records p with
  | some r => r.touchSsId
  | none => 0

/-- What the list-level model sees of the record at `p`: its snapshot id and value. -/
def view (mem : Memory V) (p : Nat) : Option (ZksyncOs.HistoryRecord V) :=
  (mem.records p).map fun r => ⟨r.touchSsId, r.value⟩

/-- Nothing is allocated from `fresh` on. -/
def Bounded (mem : Memory V) : Prop := ∀ p, mem.fresh ≤ p → mem.records p = none

theorem touch_of_records {mem : Memory V} {p : Nat} {r : HistoryRecord V}
    (h : mem.records p = some r) : mem.touch p = r.touchSsId := by
  simp [touch, h]

theorem view_of_records {mem : Memory V} {p : Nat} {r : HistoryRecord V}
    (h : mem.records p = some r) : mem.view p = some ⟨r.touchSsId, r.value⟩ := by
  simp [view, h]

theorem touch_of_view {mem : Memory V} {p : Nat} {r : ZksyncOs.HistoryRecord V}
    (h : mem.view p = some r) : mem.touch p = r.touchSsId := by
  obtain ⟨r', hr', rfl⟩ := Option.map_eq_some_iff.mp h
  exact touch_of_records hr'

theorem view_write_link {mem : Memory V} {p : Nat} {r : HistoryRecord V} (q : Option Nat)
    (h : mem.records p = some r) : (mem.write p { r with previous := q }).view = mem.view := by
  funext y
  simp only [view, records_write]
  split_ifs with hy
  · rw [hy, h, Option.map_some, Option.map_some]
  · rfl

/-- `mem'` agrees with `mem` outside the addresses `W`. -/
def Frame (W : Nat → Prop) (mem mem' : Memory V) : Prop :=
  ∀ y, ¬ W y → mem'.records y = mem.records y

theorem Frame.refl (W : Nat → Prop) (mem : Memory V) : Frame W mem mem := fun _ _ => rfl

theorem Frame.trans {W : Nat → Prop} {mem₁ mem₂ mem₃ : Memory V} (h₁ : Frame W mem₁ mem₂)
    (h₂ : Frame W mem₂ mem₃) : Frame W mem₁ mem₃ := fun y hy => (h₂ y hy).trans (h₁ y hy)

theorem Frame.mono {W W' : Nat → Prop} {mem mem' : Memory V} (h : Frame W mem mem')
    (hW : ∀ y, W y → W' y) : Frame W' mem mem' := fun y hy => h y fun hw => hy (hW y hw)

theorem Frame.write {W : Nat → Prop} {mem mem' : Memory V} (h : Frame W mem mem') {p : Nat}
    (hp : W p) (r : HistoryRecord V) : Frame W mem (mem'.write p r) := by
  intro y hy
  have hyp : y ≠ p := by
    rintro rfl
    exact hy hp
  rw [records_write, if_neg hyp]
  exact h y hy

theorem Bounded.lt_of_mem {mem : Memory V} (hb : mem.Bounded) {p y : Nat} {l : List Nat}
    (h : RecChain mem p l) (hy : y ∈ l) : y < mem.fresh := by
  by_contra hge
  have hnone := hb y (Nat.le_of_not_lt hge)
  have hsome := h.isSome_of_mem hy
  rw [hnone] at hsome
  cases hsome

end Memory

/-- The pool's records: the chain from `head`, whose last record is `last`, or none at all. -/
def PoolChain (mem : Memory V) (pool : ElementPool) (l : List Nat) : Prop :=
  match pool.head with
  | none => l = [] ∧ pool.last = none
  | some h => RecChain mem h l ∧ pool.last = l.getLast?

theorem PoolChain.nodup {mem : Memory V} {pool : ElementPool} {l : List Nat}
    (hP : PoolChain mem pool l) : l.Nodup := by
  unfold PoolChain at hP
  split at hP
  · rw [hP.1]
    exact List.nodup_nil
  · exact hP.1.nodup

theorem PoolChain.isSome_of_mem {mem : Memory V} {pool : ElementPool} {l : List Nat}
    (hP : PoolChain mem pool l) {y : Nat} (hy : y ∈ l) : (mem.records y).isSome := by
  unfold PoolChain at hP
  split at hP
  · rw [hP.1] at hy
    cases hy
  · exact hP.1.isSome_of_mem hy

theorem PoolChain.frame {mem mem' : Memory V} {pool : ElementPool} {l : List Nat}
    (hP : PoolChain mem pool l) (hm : ∀ y ∈ l, mem'.records y = mem.records y) :
    PoolChain mem' pool l := by
  unfold PoolChain at hP ⊢
  split at hP
  · exact hP
  · exact ⟨hP.1.frame hm, hP.2⟩

/-- The element `e` in memory is the list-level element: from `head` its chain holds the records at
`recs`, then the initial one. -/
structure ElemAbs (mem : Memory V) (e : ElementWithHistory) (recs : List Nat)
    (a : ZksyncOs.ElementWithHistory V) : Prop where
  chain : RecChain mem e.head (recs ++ [e.initial])
  records : recs.map mem.view = a.records.map some
  initial : mem.view e.initial = some ⟨0, a.initial⟩
  first_eq : e.first = recs.getLast?.getD e.initial

theorem ElemAbs.frame {mem mem' : Memory V} {e : ElementWithHistory} {recs : List Nat}
    {a : ZksyncOs.ElementWithHistory V} (he : ElemAbs mem e recs a)
    (hm : ∀ y ∈ recs ++ [e.initial], mem'.records y = mem.records y) : ElemAbs mem' e recs a where
  chain := he.chain.frame hm
  records := by
    rw [← he.records]
    refine List.map_congr_left fun y hy => ?_
    simp only [Memory.view, hm y (List.mem_append_left _ hy)]
  initial := by
    rw [← he.initial]
    simp only [Memory.view, hm e.initial (List.mem_append_right _ (List.mem_singleton_self _))]
  first_eq := he.first_eq

theorem ElemAbs.records_cons {mem : Memory V} {e : ElementWithHistory} {p : Nat}
    {recs : List Nat} {a : ZksyncOs.ElementWithHistory V} (he : ElemAbs mem e (p :: recs) a) :
    ∃ r rs, a.records = r :: rs ∧ mem.view p = some r ∧ recs.map mem.view = rs.map some := by
  have h := he.records.symm
  rw [List.map_cons] at h
  obtain ⟨r, rs, hr, hv, hrs⟩ := List.map_eq_cons_iff.mp h
  exact ⟨r, rs, hr, hv.symm, hrs.symm⟩

theorem ElemAbs.view_head {mem : Memory V} {e : ElementWithHistory} {recs : List Nat}
    {a : ZksyncOs.ElementWithHistory V} (he : ElemAbs mem e recs a) :
    mem.view e.head = some ⟨a.headTouch, a.current⟩ := by
  obtain ⟨t, ht⟩ := he.chain.eq_cons
  cases recs with
  | nil =>
    have hi : e.initial = e.head := (List.cons.inj ht).1
    have ha : a.records = [] := List.map_eq_nil_iff.mp he.records.symm
    rw [← hi, he.initial]
    simp [ZksyncOs.ElementWithHistory.headTouch, ZksyncOs.ElementWithHistory.current, ha]
  | cons p recs =>
    obtain ⟨rfl, -⟩ := List.cons.inj ht
    obtain ⟨r, rs, ha, hv, -⟩ := he.records_cons
    rw [hv]
    simp [ZksyncOs.ElementWithHistory.headTouch, ZksyncOs.ElementWithHistory.current, ha]

theorem ElemAbs.touch_head {mem : Memory V} {e : ElementWithHistory} {recs : List Nat}
    {a : ZksyncOs.ElementWithHistory V} (he : ElemAbs mem e recs a) :
    mem.touch e.head = a.headTouch :=
  Memory.touch_of_view he.view_head

/-- A record at snapshot `0` linked nowhere is the element `new` makes. -/
theorem ElemAbs.new {mem : Memory V} {x : Nat} {v : V} (hx : mem.records x = some ⟨0, v, none⟩) :
    ElemAbs mem ⟨x, x, x⟩ [] (ZksyncOs.ElementWithHistory.new v) where
  chain := Chain.last hx rfl
  records := rfl
  initial := Memory.view_of_records hx
  first_eq := rfl

/-- Writing the value of `head` in place is `setHeadValue`; the initial record stands for `head`
when there is no other. -/
theorem ElemAbs.write_head {mem : Memory V} {e : ElementWithHistory} {recs : List Nat}
    {a : ZksyncOs.ElementWithHistory V} (he : ElemAbs mem e recs a) {r : HistoryRecord V}
    (hr : mem.records e.head = some r) (v : V) :
    ElemAbs (mem.write e.head { r with value := v }) e recs (a.setHeadValue v) := by
  have hview : ∀ y, y ≠ e.head → (mem.write e.head { r with value := v }).view y = mem.view y :=
    fun y hy => by simp [Memory.view, hy]
  have hhead : (mem.write e.head { r with value := v }).view e.head =
      some ⟨r.touchSsId, v⟩ := by simp [Memory.view]
  have hchain : RecChain (mem.write e.head { r with value := v }) e.head (recs ++ [e.initial]) :=
    he.chain.frame_link fun y _ => by
      by_cases hy : y = e.head
      · simp [hy, hr]
      · simp [hy]
  obtain ⟨t, ht⟩ := he.chain.eq_cons
  cases recs with
  | nil =>
    -- `head` is the initial record, at `0`
    have hi : e.initial = e.head := (List.cons.inj ht).1
    have ha : a.records = [] := List.map_eq_nil_iff.mp he.records.symm
    have h0 : r.touchSsId = 0 := by
      have := Memory.touch_of_view he.initial
      rwa [hi, Memory.touch_of_records hr] at this
    have hsv : a.setHeadValue v = { a with initial := v } := by
      simp [ZksyncOs.ElementWithHistory.setHeadValue, ha]
    refine ⟨hchain, by simp [hsv, ha], ?_, he.first_eq⟩
    rw [hsv, hi, hhead, h0]
  | cons p recs =>
    obtain ⟨rfl, -⟩ := List.cons.inj ht
    obtain ⟨r₀, rs, ha, hv, hrs⟩ := he.records_cons
    have hnd := List.nodup_cons.mp he.chain.nodup
    have htouch : r.touchSsId = r₀.touchSsId :=
      (Memory.touch_of_records hr).symm.trans (Memory.touch_of_view hv)
    refine ⟨hchain, ?_, ?_, he.first_eq⟩
    · -- `head` is rewritten, the records below it are not
      have hrest : recs.map (mem.write e.head { r with value := v }).view = recs.map mem.view :=
        List.map_congr_left fun y hy => hview y fun h => hnd.1 (h ▸ List.mem_append_left _ hy)
      rw [List.map_cons, hhead, hrest, hrs]
      simp [ZksyncOs.ElementWithHistory.setHeadValue, ha, htouch]
    · rw [hview _ fun h => hnd.1 (h ▸ List.mem_append_right _ (List.mem_singleton_self _))]
      simpa [ZksyncOs.ElementWithHistory.setHeadValue, ha] using he.initial

/-- A record linked to `head`, at an address off the chain, is the record `addNewRecord` pushes. -/
theorem ElemAbs.push {mem mem' : Memory V} {e : ElementWithHistory} {recs : List Nat}
    {a : ZksyncOs.ElementWithHistory V} (he : ElemAbs mem e recs a) {x ss : Nat} {v : V}
    (hx : mem'.records x = some ⟨ss, v, some e.head⟩)
    (hm : ∀ y ∈ recs ++ [e.initial], mem'.records y = mem.records y)
    (hxL : x ∉ recs ++ [e.initial]) :
    ElemAbs mem' (e.addNewRecord x) (x :: recs) (a.addNewRecord ⟨ss, v⟩) := by
  have he' := he.frame hm
  refine ⟨Chain.cons hx rfl he'.chain, ?_, he'.initial, ?_⟩
  · simp [ZksyncOs.ElementWithHistory.addNewRecord, Memory.view_of_records hx, he'.records]
  · -- `first` moves to the new record exactly when it was the initial one
    have hfirst := he.first_eq
    simp only [ElementWithHistory.addNewRecord]
    rcases List.eq_nil_or_concat' recs with rfl | ⟨T, y, rfl⟩
    · simp [hfirst]
    · have hyi : y ≠ e.initial :=
        (List.nodup_append.mp he.chain.nodup).2.2 y (by simp) e.initial (by simp)
      simp only [List.getLast?_concat, Option.getD_some] at hfirst
      rw [← List.cons_append, List.getLast?_concat, Option.getD_some, hfirst, if_neg hyi.symm]

namespace ElementPool

/-- `create_element` takes the pool's first record, or allocates at `fresh`, and writes the new
record there and nowhere else. -/
theorem createElement_spec {pool : ElementPool} {mem : Memory V} {P : List Nat}
    (hb : mem.Bounded) (hP : PoolChain mem pool P) (value : V) (previous : Option Nat)
    (ss : Nat) :
    ∃ x pool' mem' P', pool.createElement mem value previous ss = some (x, pool', mem') ∧
      mem'.records x = some ⟨ss, value, previous⟩ ∧ (∀ y, y ≠ x → mem'.records y = mem.records y) ∧
      mem'.Bounded ∧ PoolChain mem' pool' P' ∧ x ∉ P' ∧
      ((P = x :: P' ∧ mem'.fresh = mem.fresh) ∨
        (P' = P ∧ x = mem.fresh ∧ mem'.fresh = mem.fresh + 1)) := by
  unfold PoolChain at hP
  cases hh : pool.head with
  | none =>
    rw [hh] at hP
    obtain ⟨rfl, hlast⟩ := hP
    refine ⟨mem.fresh, pool, (mem.alloc ⟨ss, value, previous⟩).2, [], ?_, ?_, ?_, ?_, ?_, ?_, ?_⟩
    · simp [createElement, hh, Memory.alloc]
    · simp
    · intro y hy
      simp [hy]
    · intro y hy
      simp only [Memory.fresh_alloc] at hy
      simp only [Memory.records_alloc, if_neg (show y ≠ mem.fresh by omega)]
      exact hb y (by omega)
    · unfold PoolChain
      rw [hh]
      exact ⟨rfl, hlast⟩
    · exact List.not_mem_nil
    · exact Or.inr ⟨rfl, rfl, rfl⟩
  | some h =>
    rw [hh] at hP
    obtain ⟨hc, hlast⟩ := hP
    -- the pool's first record, and the chain after it
    cases hc with
    | @last _ r hr hprev =>
      refine ⟨h, ⟨none, none⟩, mem.write h ⟨ss, value, previous⟩, [], ?_, ?_, ?_, ?_, ?_, ?_, ?_⟩
      · simp [createElement, hh, hr, hprev]
      · simp
      · intro y hy
        simp [hy]
      · intro y hy
        have hne : y ≠ h := by
          rintro rfl
          rw [hb y hy] at hr
          cases hr
        simp only [Memory.records_write, if_neg hne]
        exact hb y hy
      · exact ⟨rfl, rfl⟩
      · exact List.not_mem_nil
      · exact Or.inl ⟨rfl, rfl⟩
    | @cons _ q r l hr hprev hq =>
      have hnd := (Chain.cons hr hprev hq).nodup
      have hhl : h ∉ l := (List.nodup_cons.mp hnd).1
      have hlne : l ≠ [] := by
        obtain ⟨t, ht⟩ := hq.eq_cons
        rw [ht]
        exact List.cons_ne_nil _ _
      refine ⟨h, ⟨some q, pool.last⟩, mem.write h ⟨ss, value, previous⟩, l, ?_, ?_, ?_, ?_, ?_,
        hhl, Or.inl ⟨rfl, rfl⟩⟩
      · simp [createElement, hh, hr, hprev]
      · simp
      · intro y hy
        simp [hy]
      · intro y hy
        have hne : y ≠ h := by
          rintro rfl
          rw [hb y hy] at hr
          cases hr
        simp only [Memory.records_write, if_neg hne]
        exact hb y hy
      · refine ⟨hq.frame fun y hy => ?_, ?_⟩
        · have hne : y ≠ h := fun hyh => hhl (hyh ▸ hy)
          simp only [Memory.records_write, if_neg hne]
        · rw [hlast, List.getLast?_cons, List.getLast?_eq_some_getLast hlne]
          rfl

/-- `reuse_memory` hands the chain `Q ++ [chainTail]` to the end of the pool, cutting it from what
followed it; it writes only the links of the pool's `last` and of `chainTail`. -/
theorem reuseMemory_spec {pool : ElementPool} {mem : Memory V} {P Q rest : List Nat}
    {chainHead chainTail : Nat} (hP : PoolChain mem pool P)
    (hQ : RecChain mem chainHead (Q ++ chainTail :: rest))
    (hdisj : P.Disjoint (Q ++ chainTail :: rest)) :
    ∃ pool' mem', pool.reuseMemory mem chainHead chainTail = some (pool', mem') ∧
      PoolChain mem' pool' (P ++ Q ++ [chainTail]) ∧
      (∀ y, y ∉ P → y ≠ chainTail → mem'.records y = mem.records y) ∧
      mem'.view = mem.view ∧ mem'.fresh = mem.fresh := by
  have hnd := hQ.nodup
  have htQ : chainTail ∉ Q := fun hmem =>
    (List.nodup_append.mp hnd).2.2 _ hmem _ List.mem_cons_self rfl
  obtain ⟨r, hr⟩ := Option.isSome_iff_exists.mp (hQ.isSome_of_mem (x := chainTail) (by simp))
  unfold PoolChain at hP
  cases hh : pool.head with
  | none =>
    rw [hh] at hP
    obtain ⟨rfl, hlast⟩ := hP
    refine ⟨⟨some chainHead, some chainTail⟩, mem.write chainTail { r with previous := none },
      ?_, ?_, ?_, ?_, ?_⟩
    · simp [reuseMemory, linkChain, hlast, Memory.setPrevious, hr]
    · unfold PoolChain
      refine ⟨?_, by simp⟩
      simpa using hQ.cut (a := { r with previous := none }) (by simp) rfl fun y hy => by simp [show y ≠ chainTail by rintro rfl; exact htQ hy]
    · intro y _ hy
      simp [hy]
    · exact Memory.view_write_link none hr
    · rfl
  | some h =>
    rw [hh] at hP
    obtain ⟨hc, hlast⟩ := hP
    -- the pool's last record links to the chain handed over, whose tail is then cut
    obtain ⟨P₀, l, rfl⟩ := List.eq_nil_or_concat' P |>.resolve_left fun hnil => by
      obtain ⟨t, ht⟩ := hc.eq_cons
      rw [hnil] at ht
      cases ht
    rw [List.getLast?_concat] at hlast
    obtain ⟨rl, hrl, -⟩ := hc.last_link
    have hlQ : l ∉ Q ++ chainTail :: rest := fun hmem => hdisj (by simp) hmem
    have hlt : chainTail ≠ l := fun heq => hlQ (heq ▸ by simp)
    have hlP₀ : l ∉ P₀ := fun hmem => (List.nodup_append.mp hc.nodup).2.2 _ hmem _
      (List.mem_singleton_self l) rfl
    have htP₀ : chainTail ∉ P₀ := fun hmem =>
      hdisj (List.mem_append_left _ hmem) (List.mem_append_right _ List.mem_cons_self)
    set mem₁ := mem.write l { rl with previous := some chainHead } with hmem₁
    have hjoin : RecChain mem₁ h (P₀ ++ l :: (Q ++ chainTail :: rest)) :=
      hc.join hQ (a := { rl with previous := some chainHead }) (by simp [mem₁]) rfl
        (fun y hy => by simp [mem₁, show y ≠ l by rintro rfl; exact hlP₀ hy])
        (fun y hy => by simp [mem₁, show y ≠ l by rintro rfl; exact hlQ hy])
    have hr₁ : mem₁.records chainTail = some r := by simp [mem₁, hlt, hr]
    refine ⟨⟨some h, some chainTail⟩, mem₁.write chainTail { r with previous := none },
      ?_, ?_, ?_, ?_, ?_⟩
    · rw [hmem₁]
      simp [reuseMemory, linkChain, hlast, Memory.setPrevious, hrl, hlt, hr, hh]
    · refine ⟨?_, List.getLast?_concat.symm⟩
      have hjoin' : RecChain mem₁ h ((P₀ ++ l :: Q) ++ chainTail :: rest) := by simpa using hjoin
      have hx : (mem₁.write chainTail { r with previous := none }).records chainTail =
          some { r with previous := none } := by simp
      have hcut := hjoin'.cut hx rfl fun y hy => by
        simp only [Memory.records_write]
        rw [if_neg]
        rintro rfl
        simp only [List.mem_append, List.mem_cons] at hy
        rcases hy with hy | rfl | hy
        · exact htP₀ hy
        · exact hlt rfl
        · exact htQ hy
      simpa using hcut
    · intro y hyP hy
      have hyl : y ≠ l := by rintro rfl; simp at hyP
      simp [mem₁, hy, hyl]
    · rw [Memory.view_write_link none hr₁, hmem₁, Memory.view_write_link _ hrl]
    · rfl

end ElementPool

/-! ## Rollback -/

namespace Memory

/-- The records above `s`, as `rollback` tests them. -/
def Above (mem : Memory V) (s p : Nat) : Bool := decide (s < mem.touch p)

theorem above_eq_comp (mem : Memory V) (s : Nat) :
    mem.Above s = (fun o : Option (ZksyncOs.HistoryRecord V) =>
      decide (s < (o.map (·.touchSsId)).getD 0)) ∘ mem.view := by
  funext p
  rcases h : mem.records p with _ | r <;> simp [Above, touch, view, h]

end Memory

theorem ElemAbs.views_rollback {mem : Memory V} {e : ElementWithHistory} {recs : List Nat}
    {a : ZksyncOs.ElementWithHistory V} (he : ElemAbs mem e recs a) (s : Nat) :
    (recs.takeWhile (mem.Above s)).map mem.view =
        (a.records.takeWhile fun r => decide (s < r.touchSsId)).map some ∧
      (recs.dropWhile (mem.Above s)).map mem.view =
        (a.records.dropWhile fun r => decide (s < r.touchSsId)).map some := by
  rw [Memory.above_eq_comp, ← List.takeWhile_map, ← List.dropWhile_map, he.records,
    List.takeWhile_map, List.dropWhile_map]
  exact ⟨rfl, rfl⟩

theorem ElemAbs.split_above {mem : Memory V} {e : ElementWithHistory} {recs : List Nat}
    {a : ZksyncOs.ElementWithHistory V} (he : ElemAbs mem e recs a) {s : Nat}
    (hs : s < mem.touch e.head) :
    ∃ T x y rest, recs.takeWhile (mem.Above s) = T ++ [x] ∧
      recs.dropWhile (mem.Above s) ++ [e.initial] = y :: rest ∧ mem.touch y ≤ s := by
  have hinit : mem.touch e.initial = 0 := Memory.touch_of_view he.initial
  obtain ⟨t, ht⟩ := he.chain.eq_cons
  cases recs with
  | nil =>
    -- no record above the initial one, which is at `0`
    rw [List.nil_append] at ht
    rw [← (List.cons.inj ht).1, hinit] at hs
    omega
  | cons r recs =>
    obtain ⟨rfl, -⟩ := List.cons.inj ht
    have hr : mem.Above s e.head = true := decide_eq_true hs
    obtain ⟨T, x, hTx⟩ : ∃ T x, (e.head :: recs).takeWhile (mem.Above s) = T ++ [x] := by
      rcases List.eq_nil_or_concat' ((e.head :: recs).takeWhile (mem.Above s)) with h | h
      · rw [List.takeWhile_cons_of_pos hr] at h
        cases h
      · exact h
    cases hD : (e.head :: recs).dropWhile (mem.Above s) with
    | nil => exact ⟨T, x, e.initial, [], hTx, rfl, by omega⟩
    | cons d D =>
      -- the first record kept is the first one not above `s`
      have hd := List.head_dropWhile_not (mem.Above s) (l := e.head :: recs) (by simp [hD])
      simp only [hD, List.head_cons, Memory.Above, decide_eq_false_iff_not, not_lt] at hd
      exact ⟨T, x, d, D ++ [e.initial], hTx, rfl, hd⟩

namespace ElementWithHistory

/-- The loop of `rollback`, from the head of a chain whose records `T ++ [x]` are above `s` and
whose next one `y` is not, stops at `x`. -/
theorem rollbackLoop_spec {mem : Memory V} {s x y : Nat} {rest : List Nat} :
    ∀ {T : List Nat} {p fuel : Nat}, RecChain mem p (T ++ x :: y :: rest) →
      (∀ z ∈ T ++ [x], s < mem.touch z) → mem.touch y ≤ s → T.length < fuel →
      rollbackLoop mem s fuel p = some x
  | _, _, 0, _, _, _, hlen => absurd hlen (Nat.not_lt_zero _)
  | [], p, fuel + 1, hc, _, hy, _ => by
    rw [List.nil_append] at hc
    obtain ⟨rfl, r, q, hr, hl, hq⟩ := hc.cons_inv (List.cons_ne_nil _ _)
    obtain ⟨t, ht⟩ := hq.eq_cons
    obtain ⟨rfl, -⟩ := List.cons.inj ht
    obtain ⟨n, hn⟩ := Option.isSome_iff_exists.mp (hq.isSome_of_mem hq.mem_self)
    rw [Memory.touch_of_records hn] at hy
    simp [rollbackLoop, hr, hl, hn, hy]
  | t :: T, p, fuel + 1, hc, hT, hy, hlen => by
    obtain ⟨rfl, r, q, hr, hl, hq⟩ := hc.cons_inv (by simp)
    replace hq : RecChain mem q (T ++ x :: y :: rest) := hq
    -- the next record is the first of `T ++ [x]`, so above `s`
    have hqT : q ∈ T ++ [x] := by
      have hq' : RecChain mem q (T ++ [x] ++ y :: rest) := by simpa using hq
      exact hq'.mem_left (by simp)
    obtain ⟨n, hn⟩ := Option.isSome_iff_exists.mp (hq.isSome_of_mem hq.mem_self)
    have habove := hT q (List.mem_cons_of_mem _ hqT)
    rw [Memory.touch_of_records hn] at habove
    simp only [rollbackLoop, hr, hl, hn, Option.bind_eq_bind, Option.bind_some,
      if_neg (Nat.not_le_of_lt habove)]
    exact rollbackLoop_spec hq (fun z hz => hT z (List.mem_cons_of_mem _ hz)) hy
      (by simpa using hlen)

/-- `rollback` refines the list-level one: the records above `snapshotId` go back to the pool. -/
theorem rollback_spec {pool : ElementPool} {mem : Memory V} {e : ElementWithHistory}
    {recs P : List Nat} {a : ZksyncOs.ElementWithHistory V} (hb : mem.Bounded)
    (hP : PoolChain mem pool P) (he : ElemAbs mem e recs a)
    (hdisj : P.Disjoint (recs ++ [e.initial])) (s : Nat) :
    ∃ e' pool' mem' R recs', e.rollback pool mem s = some (e', pool', mem') ∧
      recs = R ++ recs' ∧ e'.initial = e.initial ∧ ElemAbs mem' e' recs' (a.rollback s) ∧
      PoolChain mem' pool' (P ++ R) ∧ Memory.Frame (fun y => y ∈ P ∨ y ∈ recs) mem mem' ∧
      mem'.fresh = mem.fresh := by
  obtain ⟨h, hh⟩ := Option.isSome_iff_exists.mp (he.chain.isSome_of_mem he.chain.mem_self)
  have htouch : mem.touch e.head = h.touchSsId := Memory.touch_of_records hh
  by_cases hle : h.touchSsId ≤ s
  · -- `head` is at or below the snapshot: nothing changes
    refine ⟨e, pool, mem, [], recs, by simp [rollback, hh, hle], rfl, rfl, ?_,
      by simpa using hP, Memory.Frame.refl _ _, rfl⟩
    rw [ZksyncOs.ElementWithHistory.rollback, if_pos (he.touch_head ▸ htouch ▸ hle)]
    exact he
  -- the records above `s` are `T ++ [x]`, and `x` links to the new head `y`
  have hs : s < mem.touch e.head := htouch ▸ Nat.lt_of_not_le hle
  obtain ⟨T, x, y, rest, hR, hD, hy⟩ := he.split_above hs
  have hrecs : recs = (T ++ [x]) ++ recs.dropWhile (mem.Above s) := by
    rw [← hR, List.takeWhile_append_dropWhile]
  have hchain' : RecChain mem e.head ((T ++ [x]) ++ y :: rest) := by
    have h₀ := he.chain
    rwa [hrecs, List.append_assoc, hD] at h₀
  have hchain : RecChain mem e.head (T ++ x :: y :: rest) := by simpa using hchain'
  have hnd := hchain.nodup
  have hxT : x ∉ T := fun hm => (List.nodup_append.mp hnd).2.2 _ hm _ List.mem_cons_self rfl
  have hxL : x ∉ y :: rest := (List.nodup_cons.mp (List.nodup_append.mp hnd).2.1).1
  have hTx : ∀ z ∈ T ++ [x], z ∈ recs := fun z hz => hrecs ▸ List.mem_append_left _ hz
  -- the loop stops at `x` within `fresh` steps: the chain has no more addresses
  have hfuel : T.length < mem.fresh := by
    have hlen := hchain.length_le fun z hz => hb.lt_of_mem hchain hz
    simp only [List.length_append, List.length_cons] at hlen
    omega
  have habove : ∀ z ∈ T ++ [x], s < mem.touch z := fun z hz => by
    have hz' := List.mem_takeWhile_imp (hR ▸ hz)
    simpa [Memory.Above] using hz'
  have hloop := rollbackLoop_spec hchain habove hy hfuel
  obtain ⟨r, hxr, hxl⟩ := hchain.link_eq
  -- cut the chain after `x`, and hand `T ++ [x]` to the pool
  set mem₁ := mem.write x { r with previous := none } with hmem₁
  have hcut : RecChain mem₁ e.head (T ++ [x]) :=
    hchain.cut (a := { r with previous := none }) (by simp [hmem₁]) rfl fun z hz => by
      simp [hmem₁, show z ≠ x from fun h => hxT (h ▸ hz)]
  have hxP : x ∉ P := fun hm => hdisj hm (List.mem_append_left _ (hTx x (by simp)))
  have hP₁ : PoolChain mem₁ pool P := hP.frame fun z hz => by
    simp [hmem₁, show z ≠ x from fun h => hxP (h ▸ hz)]
  obtain ⟨pool', mem', hrun, hpool, hframe, hview, hfresh⟩ :=
    ElementPool.reuseMemory_spec hP₁ hcut
      (fun z hzP hz => hdisj hzP (List.mem_append_left _ (hTx z hz)))
  have hm : ∀ z, z ∉ P → z ≠ x → mem'.records z = mem.records z := fun z hzP hzx => by
    rw [hframe z hzP hzx, hmem₁, Memory.records_write, if_neg hzx]
  have hview' : mem'.view = mem.view := hview.trans (Memory.view_write_link none hxr)
  refine ⟨⟨e.initial, if x = e.first then y else e.first, y⟩, pool', mem', T ++ [x],
    recs.dropWhile (mem.Above s), ?_, hrecs, rfl, ?_, by simpa using hpool, ?_, hfresh⟩
  · simp [rollback, hh, hle, hloop, hxr, hxl, ← hmem₁, hrun]
  · have hrb : a.rollback s =
        { a with records := a.records.dropWhile fun r => decide (s < r.touchSsId) } := by
      rw [ZksyncOs.ElementWithHistory.rollback, if_neg (Nat.not_le_of_lt (he.touch_head ▸ hs))]
    rw [hrb]
    refine ⟨?_, ?_, ?_, ?_⟩
    · -- the chain from `y` is what followed `x`, away from every address written
      rw [hD]
      refine hchain'.suffix.frame fun z hz => hm z (fun hzP => hdisj hzP ?_) ?_
      · rw [← hD] at hz
        rw [hrecs, List.append_assoc]
        exact List.mem_append_right _ hz
      · rintro rfl
        exact hxL hz
    · rw [hview']
      exact (he.views_rollback s).2
    · rw [hview']
      exact he.initial
    · -- `first` moves to the new head exactly when every record was above `s`
      have hfirst := he.first_eq
      rw [hrecs] at hfirst
      rcases List.eq_nil_or_concat' (recs.dropWhile (mem.Above s)) with hd | ⟨D, d, hd⟩
      · rw [hd] at hfirst hD ⊢
        simp only [List.append_nil, List.getLast?_concat, Option.getD_some] at hfirst
        simp only [List.nil_append, List.cons.injEq] at hD
        simp [← hfirst, hD.1]
      · have hdx : d ≠ x := by
          intro hdx
          apply hxL
          rw [← hD, hd, hdx]
          simp
        rw [hd] at hfirst
        simp only [List.append_assoc, List.getLast?_append] at hfirst
        simp [hd, hfirst, hdx.symm]
  · intro z hz
    have hzP : z ∉ P := fun h => hz (Or.inl h)
    exact hm z hzP fun h => hz (Or.inr (h ▸ hTx x (by simp)))

/-- `commit` refines the list-level one: with two records or more above the initial one, `head`
is linked to the initial record and the others go to the end of the pool. -/
theorem commit_spec {pool : ElementPool} {mem : Memory V} {e : ElementWithHistory}
    {recs P : List Nat} {a : ZksyncOs.ElementWithHistory V} (hP : PoolChain mem pool P)
    (he : ElemAbs mem e recs a) (hdisj : P.Disjoint (recs ++ [e.initial])) :
    ∃ e' pool' mem' R recs', e.commit pool mem = some (e', pool', mem') ∧
      recs = recs' ++ R ∧ e'.initial = e.initial ∧ ElemAbs mem' e' recs' a.commit ∧
      PoolChain mem' pool' (P ++ R) ∧ Memory.Frame (fun y => y ∈ P ∨ y ∈ recs) mem mem' ∧
      mem'.fresh = mem.fresh := by
  have hfirst := he.first_eq
  obtain ⟨t, ht⟩ := he.chain.eq_cons
  rcases recs with _ | ⟨p, _ | ⟨q, rest⟩⟩
  · -- no record: `head` is the initial one, and nothing changes
    have hhead : e.head = e.initial := (List.cons.inj ht).1.symm
    have ha : a.records = [] := List.map_eq_nil_iff.mp he.records.symm
    refine ⟨e, pool, mem, [], [], by simp [commit, hhead], rfl, rfl, ?_, by simpa using hP,
      Memory.Frame.refl _ _, rfl⟩
    simp only [ZksyncOs.ElementWithHistory.commit, ha]
    exact he
  · -- one record: it is `head` and `first`, and nothing changes
    obtain ⟨rfl, -⟩ := List.cons.inj ht
    obtain ⟨r, rs, ha, -, hrs⟩ := he.records_cons
    have hrs' : rs = [] := List.map_eq_nil_iff.mp hrs.symm
    refine ⟨e, pool, mem, [], [e.head], by simp [commit, hfirst], rfl, rfl, ?_,
      by simpa using hP, Memory.Frame.refl _ _, rfl⟩
    simp only [ZksyncOs.ElementWithHistory.commit, ha, hrs']
    exact he
  obtain ⟨rfl, -⟩ := List.cons.inj ht
  obtain ⟨r, rs, ha, hv, hrs⟩ := he.records_cons
  obtain ⟨r', rs', rfl, -, -⟩ := List.map_eq_cons_iff.mp hrs.symm
  -- the records after `head` end in `first`, then the initial record
  obtain ⟨Q, f, hQf⟩ : ∃ Q f, q :: rest = Q ++ [f] :=
    (List.eq_nil_or_concat' _).resolve_left (List.cons_ne_nil _ _)
  have hf : e.first = f := by
    rw [hfirst, List.getLast?_cons_cons, hQf, List.getLast?_concat]
    rfl
  have hc : RecChain mem e.head (e.head :: (Q ++ [f, e.initial])) := by
    have h₀ := he.chain
    rw [hQf] at h₀
    simpa using h₀
  have hnd := List.nodup_cons.mp hc.nodup
  have hhead : e.head ∉ Q ++ [f, e.initial] := hnd.1
  have hfi : f ≠ e.initial := fun h =>
    (List.nodup_cons.mp (List.nodup_append.mp hnd.2).2.1).1 (by simp [h])
  have hrecs : ∀ z ∈ Q ++ [f, e.initial], z ∈ (e.head :: q :: rest) ++ [e.initial] := by
    intro z hz
    rw [hQf]
    simp only [List.mem_append, List.mem_cons, List.not_mem_nil] at hz ⊢
    tauto
  have hhP : e.head ∉ P := fun hm => hdisj hm (by simp)
  obtain ⟨-, h, q', hh, hl, hq⟩ := hc.cons_inv (by simp)
  -- link `head` to the initial record, and hand `Q ++ [f]` to the pool
  set mem₁ := mem.write e.head { h with previous := some e.initial } with hmem₁
  have hQ₁ : RecChain mem₁ q' (Q ++ f :: [e.initial]) := hq.frame fun z hz => by
    simp [hmem₁, show z ≠ e.head from fun h => hhead (h ▸ hz)]
  have hP₁ : PoolChain mem₁ pool P := hP.frame fun z hz => by
    simp [hmem₁, show z ≠ e.head from fun h => hhP (h ▸ hz)]
  obtain ⟨pool', mem', hrun, hpool, hframe, hview, hfresh⟩ :=
    ElementPool.reuseMemory_spec hP₁ hQ₁ fun z hzP hz => hdisj hzP (hrecs z hz)
  have hm : ∀ z, z ∉ P → z ≠ f → z ≠ e.head → mem'.records z = mem.records z :=
    fun z hzP hzf hzh => by rw [hframe z hzP hzf, hmem₁, Memory.records_write, if_neg hzh]
  have hview' : mem'.view = mem.view := hview.trans (Memory.view_write_link _ hh)
  have hhf : e.head ≠ f := fun h => hhead (by simp [h])
  have hhi : e.head ≠ e.initial := fun h => hhead (by simp [h])
  refine ⟨{ e with first := e.head }, pool', mem', q :: rest, [e.head], ?_, rfl, rfl, ?_, ?_, ?_,
    hfresh⟩
  · simp [commit, hhi, hf, hhf, hh, hl, ← hmem₁, hrun]
  · obtain ⟨ai, hai, hail⟩ := he.chain.last_link
    have hiP : e.initial ∉ P := fun hm => hdisj hm (by simp)
    have hac : a.commit = { a with records := [r] } := by
      simp [ZksyncOs.ElementWithHistory.commit, ha]
    rw [hac]
    refine ⟨?_, ?_, ?_, rfl⟩
    · -- `head`, then the initial record, which links nowhere
      refine Chain.cons (a := { h with previous := some e.initial }) ?_ rfl
        (Chain.last ((hm _ hiP hfi.symm hhi.symm).trans hai) hail)
      rw [hframe _ hhP hhf, hmem₁, Memory.records_write, if_pos rfl]
    · rw [hview']
      simp [hv]
    · rw [hview']
      exact he.initial
  · rw [hQf, ← List.append_assoc]
    exact hpool
  · intro z hz
    have hzP : z ∉ P := fun h => hz (Or.inl h)
    refine hm z hzP (fun h => hz (Or.inr ?_)) fun h => hz (Or.inr (by simp [h]))
    rw [h, hQf]
    simp

end ElementWithHistory

end Linked

end ZksyncOs
