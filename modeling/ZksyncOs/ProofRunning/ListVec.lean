import Mathlib
import ZksyncOs.Memory.StackTrait
import ZksyncOs.Lib.Chunks

/-!
# The prover's chunked stack

`proof_running_system::skip_list_quasi_vec::ListVec<T, N, A>`: the `Stack` of the proving
environment, a linked list of `ArrayVec<T, N>` nodes. Its comment states the invariants the code
relies on: the last node is never empty, and every node but the last is full. `pop`, `top` and
`top_mut` take the last node's last value with `unwrap_unchecked`, `len` counts from the last
node, and `ListVecIter::next` reaches `unreachable!` on an empty node.

* `ArrayVec`, `ListVec`, `Iter` : the nodes, the list of nodes, and the iterator;
* `len`, `tryPush`, `pop`, `top`, `topMut`, `clear`, `iter`, `Iter.next` : the methods, with
  `push` and `truncate` the trait's default bodies;
* `Refines lv l` : the nodes are `Chunked` and hold `l`;
* `exec_refines` : from a state that holds `l`, every call hands back what the call on the list
  does (`StackOp.spec`) and leaves a state that holds the new list; `runOps_refines` : so does every
  sequence of calls;
* `Iter.Wf`, `next_of_wf`, `drain_of_wf` : each `next` yields the first value still to come, and
  `remaining` counts them.
-/

namespace ZksyncOs.ProofRunning

open EStateM Memory Chunks

/-- `ArrayVec<T, N>`: at most `N` values. -/
structure ArrayVec (α : Type) (N : Nat) where
  items : List α
  length_le : items.length ≤ N

namespace ArrayVec

variable {α : Type} {N : Nat}

def new : ArrayVec α N := ⟨[], Nat.zero_le _⟩

def isFull (a : ArrayVec α N) : Bool := a.items.length == N

/-- `ArrayVec::push`, `none` where it panics on a full vector. -/
def push (a : ArrayVec α N) (v : α) : Option (ArrayVec α N) :=
  if h : a.items.length < N then some ⟨a.items ++ [v], by simp; omega⟩ else none

def pop (a : ArrayVec α N) : Option α × ArrayVec α N :=
  (a.items.getLast?, ⟨a.items.dropLast, by have := a.length_le; simp; omega⟩)

/-- A write of `f` of the last value through `last_mut`. -/
def modifyLast (a : ArrayVec α N) (f : α → α) : ArrayVec α N :=
  ⟨a.items.dropLast ++ (a.items.getLast?.map f).toList, (length_modifyLast a.items f).symm ▸ a.length_le⟩

end ArrayVec

/-- `ListVec<T, N, A>`: the nodes of its linked list, front to back. -/
structure ListVec (α : Type) (N : Nat) where
  nodes : List (ArrayVec α N)

/-- `ListVecIter`: the nodes not yet started, what is left of the current one, and the count of
values still to come. -/
structure Iter (α : Type) (N : Nat) where
  outer : List (ArrayVec α N)
  inner : Option (List α)
  remaining : Nat

namespace ListVec

variable {α : Type} {N : Nat}

/-- A method of `ListVec` on `&mut self`. -/
abbrev M (α : Type) (N : Nat) (β : Type) := EStateM Fault (ListVec α N) β

def newIn : ListVec α N := ⟨[]⟩

/-- `len`: the last node's length, and `N` for every node before it. -/
def len (lv : ListVec α N) : Nat :=
  match lv.nodes.getLast? with
  | none => 0
  | some lastNode => lastNode.items.length + (lv.nodes.length - 1) * N

/-- A new node holding `value` at the back of the list. -/
def pushNewNode (value : α) : M α N Unit := do
  let some newNode := (ArrayVec.new : ArrayVec α N).push value | throw .panic
  modify fun lv => ⟨lv.nodes ++ [newNode]⟩

/-- `try_push`: into the last node, or into a new one after a full last node. -/
def tryPush (value : α) : M α N Bool := do
  let lv ← get
  match lv.nodes.getLast? with
  | none => pushNewNode value
  | some lastNode =>
    if lastNode.isFull then pushNewNode value
    else
      let some lastNode := lastNode.push value | throw .panic
      set (⟨lv.nodes.dropLast ++ [lastNode]⟩ : ListVec α N)
  pure true

/-- `pop`: the last node's last value, dropping the node once empty. -/
def pop : M α N (Option α) := do
  let lv ← get
  match lv.nodes.getLast? with
  | none => pure none
  | some lastNode =>
    let (x, lastNode) := lastNode.pop
    let some x := x | throw .undefinedBehavior
    if lastNode.items.isEmpty then set (⟨lv.nodes.dropLast⟩ : ListVec α N)
    else set (⟨lv.nodes.dropLast ++ [lastNode]⟩ : ListVec α N)
    pure (some x)

def top : M α N (Option α) := do
  let lv ← get
  match lv.nodes.getLast? with
  | none => pure none
  | some lastNode =>
    let some x := lastNode.items.getLast? | throw .undefinedBehavior
    pure (some x)

/-- `top_mut`, with the caller's write of `f` of the top through the reference. -/
def topMut (f : α → α) : M α N (Option α) := do
  let lv ← get
  match lv.nodes.getLast? with
  | none => pure none
  | some lastNode =>
    let some x := lastNode.items.getLast? | throw .undefinedBehavior
    set (⟨lv.nodes.dropLast ++ [lastNode.modifyLast f]⟩ : ListVec α N)
    pure (some x)

def clear : M α N Unit := set (⟨[]⟩ : ListVec α N)

/-- The trait's default `push`. -/
def push (value : α) : M α N Unit := defaultPush tryPush value

/-- The trait's default `truncate`. -/
def truncate (newLen : Nat) : M α N Unit := defaultTruncate len pop newLen

/-- `iter`: the first node's values, the other nodes, and `len` values to come. -/
def iter (lv : ListVec α N) : Iter α N :=
  match lv.nodes with
  | [] => ⟨[], none, len lv⟩
  | first :: rest => ⟨rest, some first.items, len lv⟩

end ListVec

namespace Iter

variable {α : Type} {N : Nat}

def next (it : Iter α N) : Except Fault (Option α × Iter α N) :=
  match it.inner with
  | none => .ok (none, it)
  | some [] => .error .panic
  | some (x :: rest) =>
    -- the current node is done: move on to the next one
    if rest.length = 0 then .ok (some x, ⟨it.outer.tail, it.outer.head?.map (·.items), it.remaining - 1⟩)
    else .ok (some x, ⟨it.outer, some rest, it.remaining - 1⟩)

/-- Calling `next` until it yields `None`, at most `fuel` times. -/
def drain : Nat → Iter α N → Except Fault (List α)
  | 0, _ => .ok []
  | fuel + 1, it =>
    match it.next with
    | .error e => .error e
    | .ok (none, _) => .ok []
    | .ok (some x, it') => (x :: ·) <$> drain fuel it'

end Iter

namespace ListVec

variable {α : Type} {N : Nat}

/-- A call on the `ListVec`: the iterator is drained, `len + 1` calls of `next` at most. -/
def exec : StackOp α → M α N (StackReply α)
  | .len => do pure (.len (len (← get)))
  | .tryPush v => .tryPush <$> tryPush v
  | .push v => do push v; pure .unit
  | .pop => .value <$> pop
  | .top => .value <$> top
  | .topMut f => .value <$> topMut f
  | .clear => do clear; pure .unit
  | .truncate n => do truncate n; pure .unit
  | .iter => do
    let lv ← get
    match (iter lv).drain (len lv + 1) with
    | .ok items => pure (.items items)
    | .error e => throw e

/-! ## The list a `ListVec` holds -/

/-- The nodes hold `l`: every node but the last is full, the last is not empty, and their values
in order are `l`. -/
def Refines (lv : ListVec α N) (l : List α) : Prop :=
  Chunked N (lv.nodes.map ArrayVec.items) ∧ (lv.nodes.map ArrayVec.items).flatten = l

theorem refines_newIn : Refines (newIn : ListVec α N) [] := ⟨chunked_nil, rfl⟩

variable {lv : ListVec α N} {l : List α}

theorem Refines.nil (h : Refines lv l) (hlast : lv.nodes.getLast? = none) : l = [] := by
  rw [← h.2, List.getLast?_eq_none_iff.1 hlast]
  rfl

theorem Refines.last (h : Refines lv l) {lastNode : ArrayVec α N}
    (hlast : lv.nodes.getLast? = some lastNode) :
    ∃ c x, lastNode.items = c ++ [x] ∧
      lv.nodes.map ArrayVec.items = lv.nodes.dropLast.map ArrayVec.items ++ [c ++ [x]] ∧
      Chunked N (lv.nodes.dropLast.map ArrayVec.items ++ [c ++ [x]]) ∧
      l = (lv.nodes.dropLast.map ArrayVec.items).flatten ++ (c ++ [x]) := by
  obtain ⟨hc, hl⟩ := h
  have hmap : lv.nodes.map ArrayVec.items =
      lv.nodes.dropLast.map ArrayVec.items ++ [lastNode.items] := by
    rw [← List.map_singleton (f := ArrayVec.items), ← List.map_append,
      List.dropLast_append_getLast? lastNode hlast]
  rw [hmap] at hc hl
  have hne := (chunked_append_singleton.1 hc).2
  obtain ⟨c, x, hcx⟩ : ∃ c x, lastNode.items = c ++ [x] :=
    ⟨_, _, (List.dropLast_append_getLast hne).symm⟩
  rw [hcx] at hmap hc hl
  refine ⟨c, x, hcx, hmap, hc, ?_⟩
  rw [← hl, List.flatten_append, List.flatten_singleton]

theorem Refines.len_eq (h : Refines lv l) : len lv = l.length := by
  unfold len
  split
  · next hlast => rw [h.nil hlast]; rfl
  · next lastNode hlast =>
    obtain ⟨c, x, hcx, -, hc, rfl⟩ := h.last hlast
    have hlen := hc.length_flatten
    rw [List.flatten_append, List.flatten_singleton, List.length_map, List.length_dropLast] at hlen
    rw [hcx, hlen]

theorem run_tryPush (hN : 0 < N) (h : Refines lv l) (v : α) :
    ∃ lv', (tryPush v).run lv = .ok true lv' ∧ Refines lv' (l ++ [v]) := by
  have hnew : (ArrayVec.new : ArrayVec α N).push v = some ⟨[v], hN⟩ :=
    dif_pos (show (ArrayVec.new : ArrayVec α N).items.length < N from hN)
  rw [tryPush, run_get_bind]
  split
  · next hlast =>
    obtain rfl := h.nil hlast
    refine ⟨⟨lv.nodes ++ [⟨[v], hN⟩]⟩, by rw [pushNewNode, hnew]; rfl, ?_⟩
    rw [List.getLast?_eq_none_iff.1 hlast]
    exact ⟨chunked_singleton v, rfl⟩
  · next lastNode hlast =>
    obtain ⟨c, x, hcx, hmap, hc, rfl⟩ := h.last hlast
    by_cases hfull : lastNode.isFull
    · -- a full last node: `v` opens a new one
      have hlen : (c ++ [x]).length = N := by rw [← hcx]; simpa [ArrayVec.isFull] using hfull
      refine ⟨⟨lv.nodes ++ [⟨[v], hN⟩]⟩, by rw [if_pos hfull, pushNewNode, hnew]; rfl, ?_⟩
      refine ⟨?_, ?_⟩ <;> simp only [List.map_append, List.map_singleton, hmap]
      · exact hc.push_new hlen v
      · simp
    · have hlt : lastNode.items.length < N := by
        have := lastNode.length_le
        simp [ArrayVec.isFull] at hfull
        omega
      have hle : (lastNode.items ++ [v]).length ≤ N := by simp; omega
      refine ⟨⟨lv.nodes.dropLast ++ [⟨lastNode.items ++ [v], hle⟩]⟩,
        by rw [if_neg hfull, ArrayVec.push, dif_pos hlt]; rfl, ?_⟩
      refine ⟨?_, ?_⟩ <;> simp only [List.map_append, List.map_singleton, hcx]
      · exact hc.push_last v
      · simp

theorem run_pop (hN : 0 < N) (h : Refines lv l) :
    ∃ lv', pop.run lv = .ok l.getLast? lv' ∧ Refines lv' l.dropLast := by
  rw [pop, run_get_bind]
  split
  · next hlast =>
    obtain rfl := h.nil hlast
    exact ⟨lv, rfl, h⟩
  · next lastNode hlast =>
    obtain ⟨c, x, hcx, hmap, hc, rfl⟩ := h.last hlast
    have hle : c.length ≤ N := by have := lastNode.length_le; rw [hcx] at this; simp at this; omega
    simp only [ArrayVec.pop, hcx, ← List.append_assoc, List.getLast?_concat, List.dropLast_concat]
    by_cases hc0 : c = []
    · -- the last node held one value: it goes, and the node before it is full
      subst hc0
      refine ⟨⟨lv.nodes.dropLast⟩, rfl, ?_⟩
      exact ⟨hc.drop_last hN, by simp⟩
    · refine ⟨⟨lv.nodes.dropLast ++ [⟨c, hle⟩]⟩, ?_, ?_⟩
      · rw [if_neg (by simpa using hc0)]
        rfl
      · refine ⟨?_, ?_⟩ <;> simp only [List.map_append, List.map_singleton]
        · exact hc.pop_last hc0
        · simp

theorem run_top (h : Refines lv l) : top.run lv = .ok l.getLast? lv := by
  rw [top, run_get_bind]
  split
  · next hlast =>
    rw [h.nil hlast]
    rfl
  · next lastNode hlast =>
    obtain ⟨c, x, hcx, -, -, rfl⟩ := h.last hlast
    simp only [hcx, ← List.append_assoc, List.getLast?_concat]
    rfl

theorem run_topMut (h : Refines lv l) (f : α → α) :
    ∃ lv', (topMut f).run lv = .ok l.getLast? lv' ∧
      Refines lv' (l.dropLast ++ (l.getLast?.map f).toList) := by
  rw [topMut, run_get_bind]
  split
  · next hlast =>
    obtain rfl := h.nil hlast
    exact ⟨lv, rfl, h⟩
  · next lastNode hlast =>
    obtain ⟨c, x, hcx, -, hc, rfl⟩ := h.last hlast
    simp only [hcx, ← List.append_assoc, List.getLast?_concat, List.dropLast_concat]
    refine ⟨_, rfl, ?_⟩
    refine ⟨?_, ?_⟩ <;> simp only [List.map_append, List.map_singleton, ArrayVec.modifyLast, hcx,
      List.getLast?_concat, List.dropLast_concat, Option.map_some, Option.toList_some]
    · exact chunked_append_singleton.2 ⟨(chunked_append_singleton.1 hc).1, by simp⟩
    · simp

end ListVec

/-! ## The iterator -/

namespace Iter

variable {α : Type} {N : Nat} {it : Iter α N}

/-- What the iterator has still to yield. -/
def rest (it : Iter α N) : List α := it.inner.getD [] ++ (it.outer.map ArrayVec.items).flatten

/-- `ListVecIter`'s invariants: `inner` is `None` only once the nodes are done and is never empty,
no node ahead is empty, and `remaining` counts the values still to come. -/
def Wf (it : Iter α N) : Prop :=
  (it.inner = none → it.outer = []) ∧ it.inner ≠ some [] ∧ (∀ a ∈ it.outer, a.items ≠ []) ∧
    it.remaining = it.rest.length

/-- Each `next` yields the first value still to come, and never reaches `unreachable!`. -/
theorem next_of_wf (hw : it.Wf) :
    ∃ it', it.next = .ok (it.rest.head?, it') ∧ it'.Wf ∧ it'.rest = it.rest.tail := by
  obtain ⟨hnone, hempty, hahead, hcount⟩ := hw
  have hrest : it.rest = it.inner.getD [] ++ (it.outer.map ArrayVec.items).flatten := rfl
  unfold next
  split
  · next hinner =>
    have hrest0 : it.rest = [] := by rw [hrest, hinner, hnone hinner]; rfl
    rw [hrest0]
    exact ⟨it, rfl, ⟨hnone, hempty, hahead, hcount⟩, hrest0⟩
  · next hinner => exact absurd hinner hempty
  · next x xs hinner =>
    rw [hinner] at hrest
    have htail : it.rest.tail = xs ++ (it.outer.map ArrayVec.items).flatten := by rw [hrest]; rfl
    have hlen : it.remaining - 1 = (xs ++ (it.outer.map ArrayVec.items).flatten).length := by
      rw [hcount, hrest]
      simp
    rw [show it.rest.head? = some x by rw [hrest]; rfl]
    by_cases hxs : xs.length = 0
    · -- the current node is done: the next node, if any, becomes the current one
      obtain rfl := List.eq_nil_of_length_eq_zero hxs
      rw [if_pos hxs]
      have hnext : (⟨it.outer.tail, it.outer.head?.map (·.items), it.remaining - 1⟩ : Iter α N).rest =
          (it.outer.map ArrayVec.items).flatten := by
        cases it.outer <;> rfl
      refine ⟨_, rfl, ⟨fun h => ?_, fun h => ?_, fun a ha => hahead a (List.mem_of_mem_tail ha), ?_⟩,
        by rw [hnext, htail]; rfl⟩
      · cases houter : it.outer with
        | nil => rfl
        | cons a as => simp [houter] at h
      · cases houter : it.outer with
        | nil => simp [houter] at h
        | cons a as => exact hahead a (by simp [houter]) (by simpa [houter] using h)
      · rw [hnext]
        exact hlen
    · rw [if_neg hxs]
      refine ⟨_, rfl, ⟨fun h => by simp at h, fun h => ?_, hahead, hlen⟩, by rw [htail]; rfl⟩
      exact hxs (by rw [Option.some.inj h]; rfl)

/-- With more fuel than values to come, draining yields them all, in order. -/
theorem drain_of_wf : ∀ (fuel : Nat) (it : Iter α N), it.Wf → it.rest.length < fuel →
    it.drain fuel = .ok it.rest
  | 0, _, _, h => absurd h (Nat.not_lt_zero _)
  | fuel + 1, it, hw, hlt => by
    obtain ⟨it', hnext, hw', hrest⟩ := next_of_wf hw
    rw [drain, hnext]
    cases hr : it.rest with
    | nil => rfl
    | cons x xs =>
      rw [hr, List.tail_cons] at hrest
      rw [hr, List.length_cons] at hlt
      show (x :: ·) <$> drain fuel it' = _
      rw [drain_of_wf fuel it' hw' (by rw [hrest]; omega), hrest]
      rfl

end Iter

namespace ListVec

variable {α : Type} {N : Nat} {lv : ListVec α N} {l : List α}

theorem wf_iter (hN : 0 < N) (h : Refines lv l) : (iter lv).Wf ∧ (iter lv).rest = l := by
  have hne := h.1.ne_nil hN
  have hlen := h.len_eq
  obtain ⟨-, hl⟩ := h
  unfold iter
  split
  · next hnodes =>
    rw [hnodes] at hl
    subst hl
    exact ⟨⟨fun _ => rfl, by simp, by simp, hlen⟩, rfl⟩
  · next first others hnodes =>
    rw [hnodes, List.map_cons, List.flatten_cons] at hl
    rw [hnodes, List.map_cons] at hne
    refine ⟨⟨by simp, fun h => ?_, fun a ha => hne a.items (List.mem_cons_of_mem _
      (List.mem_map_of_mem ha)), ?_⟩, ?_⟩
    · exact hne first.items List.mem_cons_self (Option.some.inj h)
    · rw [hlen, ← hl]
      rfl
    · rw [← hl]
      rfl

/-- Every call from a `ListVec` that holds `l` hands back what the call on `l` does, and leaves a
`ListVec` that holds the list the call leaves. -/
theorem exec_refines (hN : 0 < N) (op : StackOp α) (h : Refines lv l) :
    ∃ lv', (exec op).run lv = .ok (op.spec l).1 lv' ∧ Refines lv' (op.spec l).2 := by
  cases op with
  | len => exact ⟨lv, by rw [exec, run_get_bind, h.len_eq]; rfl, h⟩
  | tryPush v =>
    obtain ⟨lv', hrun, h'⟩ := run_tryPush hN h v
    exact ⟨lv', by rw [exec, run_map_eq_match, hrun]; rfl, h'⟩
  | push v =>
    obtain ⟨lv', hrun, h'⟩ := run_tryPush hN h v
    have hpush : (push v).run lv = .ok () lv' := by
      rw [push, defaultPush, run_bind_of_ok hrun]
      rfl
    exact ⟨lv', by rw [exec, run_bind_of_ok hpush]; rfl, h'⟩
  | pop =>
    obtain ⟨lv', hrun, h'⟩ := run_pop hN h
    exact ⟨lv', by rw [exec, run_map_eq_match, hrun]; rfl, h'⟩
  | top => exact ⟨lv, by rw [exec, run_map_eq_match, run_top h]; rfl, h⟩
  | topMut f =>
    obtain ⟨lv', hrun, h'⟩ := run_topMut h f
    exact ⟨lv', by rw [exec, run_map_eq_match, hrun]; rfl, h'⟩
  | clear => exact ⟨⟨[]⟩, rfl, refines_newIn⟩
  | truncate n =>
    -- the trait's default body, over `pop`
    obtain ⟨lv', hrun, h'⟩ := run_defaultTruncate (R := Refines) (fun _ _ h => h.len_eq)
      (fun _ _ h _ => run_pop hN h) h n
    exact ⟨lv', by rw [exec, truncate, run_bind_of_ok hrun]; rfl, h'⟩
  | iter =>
    obtain ⟨hw, hrest⟩ := wf_iter hN h
    have hdrain := Iter.drain_of_wf (len lv + 1) (iter lv) hw (by rw [hrest, h.len_eq]; omega)
    exact ⟨lv, by rw [exec, run_get_bind, hdrain, hrest]; rfl, h⟩

/-- Calls one after another, each from the state the one before leaves. -/
def runOps : List (StackOp α) → ListVec α N → List (Except Fault (StackReply α)) × ListVec α N
  | [], lv => ([], lv)
  | op :: ops, lv =>
    match (exec op).run lv with
    | .ok r lv' => (.ok r :: (runOps ops lv').1, (runOps ops lv').2)
    | .error e lv' => (.error e :: (runOps ops lv').1, (runOps ops lv').2)

theorem runOps_refines (hN : 0 < N) : ∀ (ops : List (StackOp α)) {lv : ListVec α N} {l : List α},
    Refines lv l → (runOps ops lv).1 = (specOps ops l).1.map .ok ∧
      Refines (runOps ops lv).2 (specOps ops l).2
  | [], _, _, h => ⟨rfl, h⟩
  | op :: ops, lv, l, h => by
    obtain ⟨lv', hrun, h'⟩ := exec_refines hN op h
    obtain ⟨ih, ih'⟩ := runOps_refines hN ops h'
    unfold runOps specOps
    rw [hrun]
    exact ⟨by dsimp only; rw [ih]; rfl, ih'⟩

example : (runOps [.push 1, .push 2, .push 3, .pop, .iter, .truncate 1, .len]
    (newIn : ListVec Nat 2)).1 =
    [.ok .unit, .ok .unit, .ok .unit, .ok (.value (some 3)), .ok (.items [1, 2]), .ok .unit,
      .ok (.len 1)] := by
  rfl

/-- `ListVec` refines the list stack with unbounded pushes; `Vec` differs on a full `try_push`. -/
theorem list_vec_refines_stack_with_unbounded_push (N : Nat) (hN : 0 < N)
    (ops : List (StackOp α)) :
    (runOps ops (newIn : ListVec α N)).1 = (specOps ops []).1.map .ok ∧
      Chunked N ((runOps ops (newIn : ListVec α N)).2.nodes.map ArrayVec.items) ∧
      ((runOps ops (newIn : ListVec α N)).2.nodes.map ArrayVec.items).flatten =
        (specOps ops []).2 ∧
      (∀ (v : VecStack α) (op : StackOp α), (∀ x, op = .tryPush x → v.items.length < v.capacity) →
        (VecStack.exec op v).1 = (op.spec v.items).1 ∧
          (VecStack.exec op v).2.items = (op.spec v.items).2) ∧
      ∀ (v : VecStack α) (x : α), v.items.length = v.capacity →
        VecStack.exec (.tryPush x) v = (.tryPush false, v) := by
  obtain ⟨hrun, hchunked, hlist⟩ := runOps_refines hN ops refines_newIn
  exact ⟨hrun, hchunked, hlist, fun v op hroom => VecStack.exec_eq_spec op v hroom,
    fun v x hfull => VecStack.exec_tryPush_of_full v hfull x⟩

theorem list_vec_refines_stack_with_unbounded_push_two_calls :
    0 < 2 ∧
      ((runOps [.tryPush (5 : Nat), .pop] (newIn : ListVec Nat 2)).1 =
        (specOps [.tryPush (5 : Nat), .pop] []).1.map .ok ∧
      Chunked 2 ((runOps [.tryPush (5 : Nat), .pop] (newIn : ListVec Nat 2)).2.nodes.map
        ArrayVec.items) ∧
      ((runOps [.tryPush (5 : Nat), .pop] (newIn : ListVec Nat 2)).2.nodes.map
        ArrayVec.items).flatten = (specOps [.tryPush (5 : Nat), .pop] []).2 ∧
      (∀ (v : VecStack Nat) (op : StackOp Nat),
        (∀ x, op = .tryPush x → v.items.length < v.capacity) →
        (VecStack.exec op v).1 = (op.spec v.items).1 ∧
          (VecStack.exec op v).2.items = (op.spec v.items).2) ∧
      ∀ (v : VecStack Nat) (x : Nat), v.items.length = v.capacity →
        VecStack.exec (.tryPush x) v = (.tryPush false, v)) :=
  ⟨by decide, list_vec_refines_stack_with_unbounded_push 2 (by decide) [.tryPush 5, .pop]⟩

/-- From `new_in`, `try_push` succeeds on a `ListVec` and fails on a `Vec`, which has no buffer
yet. -/
theorem try_push_on_new_list_vec_and_vec_differ :
    (runOps [.tryPush (7 : Nat)] (newIn : ListVec Nat 1)).1 = [.ok (.tryPush true)] ∧
      (VecStack.exec (.tryPush (7 : Nat)) VecStack.newIn).1 = .tryPush false :=
  ⟨rfl, rfl⟩

end ListVec

end ZksyncOs.ProofRunning
