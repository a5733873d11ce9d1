import Mathlib

/-!
# A bounded stack as a list, and the buffers that hold one

The abstract stack of a machine that holds at most `cap` values is a list, bottom first, whose
last element is the top. Each operation either fails, with `overflow` when it would grow a full
stack and `underflow` when it needs more values than there are, or returns the new list:

* `push cap v`, `pop k`: append a value; take the top `k` values, top first;
* `dup cap n`, `swap n`: append a copy of the `n`-th value from the top; exchange the top with the
  value `n` below it;
* `apply k f`: take the top `k` values and push `f` of them, the shape of an instruction that
  writes its result over its operands;
* `pop_reverse`, `push_reverse`, `apply_reverse` : the same operations on the reverse of a list
  that lists the stack top first.

An implementation keeps the list in a buffer of slots with a length: `Backs buffer len l` says
that the slots below `len` hold the list. Its lemmas are the four ways such an implementation
touches the buffer: read a slot below the length, write one below it, write the slot at the
length and grow by one, shrink the length.
-/

namespace ListStack

/-- Why an operation fails. -/
inductive Fault where
  | overflow
  | underflow
deriving DecidableEq, Repr

variable {α : Type}

/-- Append a value; a full stack overflows. -/
def push (cap : Nat) (v : α) (l : List α) : Except Fault (List α) :=
  if l.length < cap then .ok (l ++ [v]) else .error .overflow

/-- The top `k` values, top first, and the values below them. -/
def pop (k : Nat) (l : List α) : Except Fault (List α × List α) :=
  if k ≤ l.length then .ok ((l.drop (l.length - k)).reverse, l.take (l.length - k))
  else .error .underflow

/-- Append a copy of the `n`-th value from the top (`n = 1` is the top). -/
def dup (cap n : Nat) (l : List α) : Except Fault (List α) :=
  if l.length < cap then
    if h : 0 < n ∧ n ≤ l.length then .ok (l ++ [l.get ⟨l.length - n, by omega⟩])
    else .error .underflow
  else .error .overflow

/-- Exchange the top with the value `n` below it. -/
def swap (n : Nat) (l : List α) : Except Fault (List α) :=
  if h : n < l.length then
    let top := l.get ⟨l.length - 1, by omega⟩
    let other := l.get ⟨l.length - 1 - n, by omega⟩
    .ok ((l.set (l.length - 1) other).set (l.length - 1 - n) top)
  else .error .underflow

/-- Take the top `k` values and push `f` of them: the operands, top first, and the new list. -/
def apply (k : Nat) (f : List α → α) (l : List α) : Except Fault (List α × List α) := do
  let (top, rest) ← pop k l
  pure (top, rest ++ [f top])

theorem push_of_lt {cap : Nat} {l : List α} (h : l.length < cap) (v : α) :
    push cap v l = .ok (l ++ [v]) := if_pos h

theorem push_of_not_lt {cap : Nat} {l : List α} (h : ¬ l.length < cap) (v : α) :
    push cap v l = .error .overflow := if_neg h

theorem pop_of_le {k : Nat} {l : List α} (h : k ≤ l.length) :
    pop k l = .ok ((l.drop (l.length - k)).reverse, l.take (l.length - k)) := if_pos h

theorem pop_of_not_le {k : Nat} {l : List α} (h : ¬ k ≤ l.length) : pop k l = .error .underflow :=
  if_neg h

theorem apply_of_le {k : Nat} {l : List α} (h : k ≤ l.length) (f : List α → α) :
    apply k f l = .ok ((l.drop (l.length - k)).reverse,
      l.take (l.length - k) ++ [f (l.drop (l.length - k)).reverse]) := by
  rw [apply, pop_of_le h]
  rfl

theorem apply_of_not_le {k : Nat} {l : List α} (h : ¬ k ≤ l.length) (f : List α → α) :
    apply k f l = .error .underflow := by
  rw [apply, pop_of_not_le h]
  rfl

/-! A machine that lists its stack top first keeps the reverse of the list: the operations on it
are those of the list read from the top. -/

theorem pop_reverse {k : Nat} {l : List α} (h : k ≤ l.length) :
    pop k l.reverse = .ok (l.take k, (l.drop k).reverse) := by
  rw [pop_of_le (by simpa using h), List.length_reverse, List.drop_reverse, List.take_reverse,
    List.reverse_reverse, Nat.sub_sub_self h]

theorem apply_reverse {k : Nat} {l : List α} (h : k ≤ l.length) (f : List α → α) :
    apply k f l.reverse = .ok (l.take k, (f (l.take k) :: l.drop k).reverse) := by
  rw [apply, pop_reverse h, List.reverse_cons]
  rfl

theorem getD_eq_get {l : List α} {i : Nat} (h : i < l.length) (d : α) :
    l.getD i d = l.get ⟨i, h⟩ := by
  rw [List.getD_eq_getElem?_getD, List.getElem?_eq_getElem h]
  rfl

theorem dup_of_le {cap n : Nat} {l : List α} (hl : l.length < cap) (hn : 0 < n)
    (hnl : n ≤ l.length) (d : α) : dup cap n l = .ok (l ++ [l.getD (l.length - n) d]) := by
  rw [dup, if_pos hl, dif_pos ⟨hn, hnl⟩, getD_eq_get (by omega)]

theorem dup_of_lt {cap n : Nat} {l : List α} (hl : l.length < cap) (hnl : l.length < n) :
    dup cap n l = .error .underflow := by
  rw [dup, if_pos hl, dif_neg (by omega)]

theorem dup_of_not_lt {cap : Nat} {l : List α} (hl : ¬ l.length < cap) (n : Nat) :
    dup cap n l = .error .overflow := by
  rw [dup, if_neg hl]

theorem swap_of_lt {n : Nat} {l : List α} (hn : n < l.length) (d : α) :
    swap n l = .ok ((l.set (l.length - 1) (l.getD (l.length - 1 - n) d)).set (l.length - 1 - n)
      (l.getD (l.length - 1) d)) := by
  rw [swap, dif_pos hn, getD_eq_get (by omega), getD_eq_get (by omega)]

theorem swap_of_not_lt {n : Nat} {l : List α} (hn : ¬ n < l.length) :
    swap n l = .error .underflow := by
  rw [swap, dif_neg hn]

theorem take_set_of_succ_eq {l : List α} {m i : Nat} (hi : i + 1 = m) (hm : m ≤ l.length) (v : α) :
    (l.take m).set i v = l.take i ++ [v] := by
  subst hi
  rw [List.take_add_one, List.getElem?_eq_getElem (by omega), Option.toList_some,
    List.set_append_right _ _ (by rw [List.length_take]; omega), List.length_take_of_le (by omega),
    Nat.sub_self]
  rfl

theorem reverse_drop_eq_map_range {l : List α} {k : Nat} (hk : k ≤ l.length) (d : α) :
    (l.drop (l.length - k)).reverse = (List.range k).map fun j => l.getD (l.length - 1 - j) d := by
  apply List.ext_getElem
  · simp
    omega
  · intro j h₁ h₂
    simp only [List.length_reverse, List.length_drop] at h₁
    rw [List.getElem_reverse, List.getElem_drop, List.getElem_map, List.getElem_range,
      List.getD_eq_getElem?_getD, List.getElem?_eq_getElem (by omega), Option.getD_some]
    congr 1
    simp only [List.length_drop]
    omega

theorem reverse_drop_succ {l : List α} {k : Nat} (hk : k + 1 ≤ l.length) (d : α) :
    (l.drop (l.length - (k + 1))).reverse =
      (l.drop (l.length - k)).reverse ++ [l.getD (l.length - (k + 1)) d] := by
  rw [reverse_drop_eq_map_range hk d, reverse_drop_eq_map_range (by omega) d, List.range_succ,
    List.map_append, List.map_singleton, Nat.sub_sub, Nat.add_comm 1 k]

theorem getD_take_of_lt {l : List α} {m i : Nat} (h : i < m) (d : α) :
    (l.take m).getD i d = l.getD i d := by
  rw [List.getD_eq_getElem?_getD, List.getElem?_take_of_lt h, ← List.getD_eq_getElem?_getD]

section Backs

/-- The first `len` slots of `buffer` hold `l`, bottom first. -/
def Backs (buffer : Nat → Option α) (len : Nat) (l : List α) : Prop :=
  len = l.length ∧ ∀ i < len, buffer i = l[i]?

variable {buffer : Nat → Option α} {len : Nat} {l : List α}

theorem backs_empty (buffer : Nat → Option α) : Backs buffer 0 [] :=
  ⟨rfl, fun _ h => absurd h (Nat.not_lt_zero _)⟩

theorem Backs.length_eq (h : Backs buffer len l) : len = l.length := h.1

theorem Backs.get (h : Backs buffer len l) {i : Nat} (hi : i < len) (d : α) :
    buffer i = some (l.getD i d) := by
  rw [h.2 i hi, List.getD_eq_getElem?_getD, List.getElem?_eq_getElem (h.1 ▸ hi)]
  rfl

theorem Backs.write_lt (h : Backs buffer len l) {i : Nat} (hi : i < len) (v : α) :
    Backs (Function.update buffer i (some v)) len (l.set i v) := by
  refine ⟨by simp [h.1], fun j hj => ?_⟩
  rw [List.getElem?_set, Function.update_apply]
  by_cases hij : j = i
  · subst hij
    simp [← h.1, hi]
  · rw [if_neg hij, if_neg (Ne.symm hij), h.2 j hj]

theorem Backs.write_ge (h : Backs buffer len l) {i : Nat} (hi : len ≤ i) (v : Option α) :
    Backs (Function.update buffer i v) len l := by
  refine ⟨h.1, fun j hj => ?_⟩
  rw [Function.update_of_ne (by omega), h.2 j hj]

theorem Backs.write_push (h : Backs buffer len l) (v : α) :
    Backs (Function.update buffer len (some v)) (len + 1) (l ++ [v]) := by
  refine ⟨by simp [h.1], fun j hj => ?_⟩
  rcases Nat.lt_or_ge j len with hj' | hj'
  · rw [Function.update_of_ne (by omega), h.2 j hj', List.getElem?_append_left (h.1 ▸ hj')]
  · have hjl : j = len := by omega
    subst hjl
    rw [Function.update_self, h.1, List.getElem?_concat_length]

theorem Backs.shrink (h : Backs buffer len l) {m : Nat} (hm : m ≤ len) :
    Backs buffer m (l.take m) := by
  refine ⟨by simp [← h.1, hm], fun j hj => ?_⟩
  rw [List.getElem?_take_of_lt hj, h.2 j (by omega)]

end Backs

end ListStack
