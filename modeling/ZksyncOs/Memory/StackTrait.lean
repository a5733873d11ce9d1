import Mathlib
import ZksyncOs.Lib.EStateM

/-!
# The `Stack` trait and its `Vec` implementation

`zk_ee::memory::stack_trait::Stack`: a stack of values with `len`, `try_push`, `push`, `pop`,
`top`, `top_mut`, `clear`, `truncate` and `iter`, two of them with default bodies, and the
implementation on `Vec<T, A>` that the forward system uses.

* `StackOp`, `StackReply` : a call of a method, with what a caller writes through `top_mut`, and
  what it hands back;
* `StackOp.spec` : the calls on the list of values, bottom first, every push accepted;
* `defaultPush`, `defaultTruncate` : the trait's default bodies, over any implementation;
  `run_popMany` : the default `truncate` from a state that holds a list, when `pop` pops it;
* `VecStack`, `VecStack.exec` : the `Vec` implementation, whose `try_push` is
  `push_within_capacity` and fails on a full buffer; `exec_eq_spec` : every other call is the call
  on the list, and `try_push` too while there is room.
-/

namespace ZksyncOs.Memory

open EStateM

/-- How a method ends when it does not return: a panic, or undefined behaviour (an
`unwrap_unchecked` of `None`). -/
inductive Fault where
  | panic
  | undefinedBehavior
deriving DecidableEq, Repr

/-- A call of a `Stack` method. `topMut f` writes `f` of the top through the reference
`top_mut` hands back. -/
inductive StackOp (α : Type) where
  | len
  | tryPush (value : α)
  | push (value : α)
  | pop
  | top
  | topMut (f : α → α)
  | clear
  | truncate (newLen : Nat)
  | iter

/-- What a call hands back: `tryPush true` is `Ok(())`; `value` the top for `pop`, `top` and
`top_mut`; `items` what the iterator yields. -/
inductive StackReply (α : Type) where
  | len (n : Nat)
  | tryPush (ok : Bool)
  | unit
  | value (v : Option α)
  | items (l : List α)
deriving DecidableEq, Repr

variable {α : Type}

/-- The calls on the list of values, bottom first. -/
def StackOp.spec : StackOp α → List α → StackReply α × List α
  | .len, l => (.len l.length, l)
  | .tryPush v, l => (.tryPush true, l ++ [v])
  | .push v, l => (.unit, l ++ [v])
  | .pop, l => (.value l.getLast?, l.dropLast)
  | .top, l => (.value l.getLast?, l)
  | .topMut f, l => (.value l.getLast?, l.dropLast ++ (l.getLast?.map f).toList)
  | .clear, _ => (.unit, [])
  | .truncate n, l => (.unit, l.take n)
  | .iter, l => (.items l, l)

/-- The calls one after another on the list: what each hands back, and the last list. -/
def specOps : List (StackOp α) → List α → List (StackReply α) × List α
  | [], l => ([], l)
  | op :: ops, l => ((op.spec l).1 :: (specOps ops (op.spec l).2).1, (specOps ops (op.spec l).2).2)

theorem length_modifyLast (l : List α) (f : α → α) :
    (l.dropLast ++ (l.getLast?.map f).toList).length = l.length := by
  cases h : l.getLast? with
  | none => rw [List.getLast?_eq_none_iff.1 h]; rfl
  | some a =>
    have hne : l ≠ [] := fun hnil => by simp [hnil] at h
    have := List.length_pos_of_ne_nil hne
    simp
    omega

/-! ## The default methods -/

section Defaults

variable {σ : Type}

/-- The default `push`: `try_push(value).expect("must be able to push")`. -/
def defaultPush (tryPush : α → EStateM Fault σ Bool) (value : α) : EStateM Fault σ Unit := do
  if !(← tryPush value) then throw .panic

/-- The loop of the default `truncate`: `k` times `pop().unwrap_unchecked()`. -/
def popMany (pop : EStateM Fault σ (Option α)) : Nat → EStateM Fault σ Unit
  | 0 => pure ()
  | k + 1 => do
    let some _ ← pop | throw .undefinedBehavior
    popMany pop k

/-- The default `truncate`: pop down to `new_len` values. -/
def defaultTruncate (len : σ → Nat) (pop : EStateM Fault σ (Option α)) (newLen : Nat) :
    EStateM Fault σ Unit := do
  let s ← get
  if newLen < len s then popMany pop (len s - newLen)

variable {R : σ → List α → Prop} {pop : EStateM Fault σ (Option α)}

/-- If `pop` pops the list a state holds, `k` pops drop `k` values. -/
theorem run_popMany
    (hpop : ∀ s l, R s l → l ≠ [] → ∃ s', pop.run s = .ok l.getLast? s' ∧ R s' l.dropLast) :
    ∀ (k : Nat) (s : σ) (l : List α), R s l → k ≤ l.length →
      ∃ s', (popMany pop k).run s = .ok () s' ∧ R s' (l.take (l.length - k))
  | 0, s, l, h, _ => ⟨s, rfl, by rw [Nat.sub_zero, List.take_length]; exact h⟩
  | k + 1, s, l, h, hk => by
    have hl : l ≠ [] := List.ne_nil_of_length_pos (by omega)
    obtain ⟨s', hrun, h'⟩ := hpop s l h hl
    obtain ⟨s'', hrun', h''⟩ := run_popMany hpop k s' l.dropLast h' (by simp; omega)
    refine ⟨s'', ?_, ?_⟩
    · rw [popMany, run_bind_of_ok hrun, List.getLast?_eq_some_getLast hl]
      exact hrun'
    · rwa [List.dropLast_eq_take, List.take_take, List.length_take, Nat.min_eq_left (by omega),
        Nat.min_eq_left (by omega), Nat.sub_sub, Nat.add_comm 1 k] at h''

theorem run_defaultTruncate {len : σ → Nat} (hlen : ∀ s l, R s l → len s = l.length)
    (hpop : ∀ s l, R s l → l ≠ [] → ∃ s', pop.run s = .ok l.getLast? s' ∧ R s' l.dropLast)
    {s : σ} {l : List α} (h : R s l) (newLen : Nat) :
    ∃ s', (defaultTruncate len pop newLen).run s = .ok () s' ∧ R s' (l.take newLen) := by
  rw [defaultTruncate, run_get_bind, hlen s l h]
  by_cases hn : newLen < l.length
  · rw [if_pos hn]
    obtain ⟨s', hrun, h'⟩ := run_popMany hpop (l.length - newLen) s l h (Nat.sub_le _ _)
    refine ⟨s', hrun, ?_⟩
    rwa [Nat.sub_sub_self (Nat.le_of_lt hn)] at h'
  · rw [if_neg hn, List.take_of_length_le (by omega)]
    exact ⟨s, rfl, h⟩

end Defaults

/-! ## `Vec<T, A>` -/

/-- `RawVec::MIN_NON_ZERO_CAP` for elements of 2 to 1024 bytes. -/
def minNonZeroCap : Nat := 4

/-- `RawVec::grow_amortized`: the capacity after growing to hold `required` values. -/
def growAmortized (capacity required : Nat) : Nat := max minNonZeroCap (max (capacity * 2) required)

/-- A `Vec<T, A>`: its values, bottom first, and its capacity, never below their number. -/
structure VecStack (α : Type) where
  items : List α
  capacity : Nat
  length_le : items.length ≤ capacity

namespace VecStack

/-- `Vec::new_in`: empty and unallocated. -/
def newIn : VecStack α := ⟨[], 0, Nat.le_refl _⟩

/-- The methods on a `Vec`. `try_push` is `push_within_capacity`, which fails when the length
reaches the capacity; `push` is `Vec::push`, which grows the buffer then. -/
def exec : StackOp α → VecStack α → StackReply α × VecStack α
  | .len, v => (.len v.items.length, v)
  | .tryPush x, v =>
    if h : v.items.length = v.capacity then (.tryPush false, v)
    else (.tryPush true, ⟨v.items ++ [x], v.capacity, by have := v.length_le; simp; omega⟩)
  | .push x, v =>
    if h : v.items.length = v.capacity then
      (.unit, ⟨v.items ++ [x], growAmortized v.capacity (v.items.length + 1),
        by simp only [List.length_append, List.length_singleton, growAmortized]; omega⟩)
    else (.unit, ⟨v.items ++ [x], v.capacity, by have := v.length_le; simp; omega⟩)
  | .pop, v => (.value v.items.getLast?,
    ⟨v.items.dropLast, v.capacity, by have := v.length_le; simp; omega⟩)
  | .top, v => (.value v.items.getLast?, v)
  | .topMut f, v => (.value v.items.getLast?,
    ⟨v.items.dropLast ++ (v.items.getLast?.map f).toList, v.capacity,
      (length_modifyLast v.items f).symm ▸ v.length_le⟩)
  | .clear, v => (.unit, ⟨[], v.capacity, Nat.zero_le _⟩)
  | .truncate n, v => (.unit, ⟨v.items.take n, v.capacity,
    Nat.le_trans (List.length_take_le' _ _) v.length_le⟩)
  | .iter, v => (.items v.items, v)

/-- Every call on a `Vec` is the call on its values, except a `try_push` on a full buffer. -/
theorem exec_eq_spec (op : StackOp α) (v : VecStack α)
    (hroom : ∀ x, op = .tryPush x → v.items.length < v.capacity) :
    (exec op v).1 = (op.spec v.items).1 ∧ (exec op v).2.items = (op.spec v.items).2 := by
  cases op with
  | tryPush x =>
    have hlt := hroom x rfl
    rw [exec, dif_neg (by omega)]
    exact ⟨rfl, rfl⟩
  | push x =>
    rw [exec]
    split <;> exact ⟨rfl, rfl⟩
  | len | pop | top | topMut | clear | truncate | iter => exact ⟨rfl, rfl⟩

/-- `try_push` on a full `Vec` fails and leaves it alone. -/
theorem exec_tryPush_of_full (v : VecStack α) (h : v.items.length = v.capacity) (x : α) :
    exec (.tryPush x) v = (.tryPush false, v) := by
  rw [exec, dif_pos h]

end VecStack

end ZksyncOs.Memory
