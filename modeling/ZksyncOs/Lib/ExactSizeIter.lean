import Mathlib

/-!
# Exact-size iterators and their chains

An iterator is a step function on states with the count its `len` reports. `Yields it s l` says
that from `s` it yields exactly `l`, its `len` telling the count left at every step: the contract
of an exact-size iterator. Lists yield themselves; chaining two iterators, or one and then a list
of others, yields the concatenation, whatever each part's state type.

* `Yields`, `Yields.len_eq`, `Yields.unique` : the contract, and that it fixes what is yielded;
* `ofList`, `yields_ofList` : the iterator of a list or an array;
* `chain`, `yields_chain` : one iterator, then another; a part is dropped once it is exhausted;
* `chainN`, `yields_chainN` : one iterator, then each of a list of others in turn.
-/

namespace ExactSizeIter

/-- An iterator over states `σ`: `next` steps, `len` is the count it reports. -/
structure Iter (σ α : Type) where
  next : σ → Option (α × σ)
  len : σ → Nat

variable {σ τ α : Type}

/-- From `s` the iterator yields exactly `l`, and `len` reports the count left at every step. -/
inductive Yields (it : Iter σ α) : σ → List α → Prop
  | nil {s : σ} : it.next s = none → it.len s = 0 → Yields it s []
  | cons {s s' : σ} {a : α} {l : List α} :
      it.next s = some (a, s') → it.len s = l.length + 1 → Yields it s' l → Yields it s (a :: l)

namespace Yields

variable {it : Iter σ α} {s : σ} {l l' : List α}

theorem len_eq (h : Yields it s l) : it.len s = l.length := by
  cases h with
  | nil _ hlen => exact hlen
  | cons _ hlen _ => exact hlen

/-- An iterator yields one list from a state. -/
theorem unique (h : Yields it s l) (h' : Yields it s l') : l = l' := by
  induction h generalizing l' with
  | nil hnext _ =>
    cases h' with
    | nil _ _ => rfl
    | cons hnext' _ _ => rw [hnext] at hnext'; cases hnext'
  | cons hnext _ _ ih =>
    cases h' with
    | nil hnext' _ => rw [hnext] at hnext'; cases hnext'
    | cons hnext' _ h'' =>
      rw [hnext] at hnext'
      cases hnext'
      rw [ih h'']

end Yields

/-- The iterator of a list, or of an array by value or by reference: the state is what is left. -/
def ofList : Iter (List α) α where
  next := fun
    | [] => none
    | x :: l => some (x, l)
  len := List.length

theorem yields_ofList : ∀ l : List α, Yields ofList l l
  | [] => .nil rfl rfl
  | _ :: l => .cons rfl rfl (yields_ofList l)

/-- `and_then_or_clear(&mut self.a, Iterator::next)`: the first part's next, the part dropped
when it has none. -/
def stepFirst (ia : Iter σ α) (a : Option σ) : Option (α × σ) := a.bind ia.next

/-- `ExactSizeChain`: the first part until it is exhausted, then the second; `len` is the sum of
what the parts still hold. -/
def chain (ia : Iter σ α) (ib : Iter τ α) : Iter (Option σ × Option τ) α where
  next := fun (a, b) =>
    match stepFirst ia a with
    | some (x, a') => some (x, (some a', b))
    | none =>
      match b with
      | none => none
      | some b => (ib.next b).map fun (y, b') => (y, (none, some b'))
  len := fun (a, b) => (a.map ia.len).getD 0 + (b.map ib.len).getD 0

section Chain

variable {ia : Iter σ α} {ib : Iter τ α}

theorem yields_chain_of_first_done {sb : τ} {lb : List α} (hb : Yields ib sb lb) :
    ∀ a : Option σ, stepFirst ia a = none → (a.map ia.len).getD 0 = 0 →
      Yields (chain ia ib) (a, some sb) lb := by
  induction hb with
  | nil hnext hlen =>
    intro a ha hlena
    refine .nil ?_ ?_
    · simp [chain, ha, hnext]
    · simp [chain, hlena, hlen]
  | cons hnext hlen _ ih =>
    intro a ha hlena
    refine .cons ?_ ?_ (ih none rfl rfl)
    · simp [chain, ha, hnext]
    · simp [chain, hlena, hlen]

theorem yields_chain {sa : σ} {sb : τ} {la lb : List α} (ha : Yields ia sa la)
    (hb : Yields ib sb lb) : Yields (chain ia ib) (some sa, some sb) (la ++ lb) := by
  induction ha with
  | nil hnext hlen =>
    exact yields_chain_of_first_done hb (some _) hnext (by simp [hlen])
  | cons hnext hlen _ ih =>
    refine .cons ?_ ?_ ih
    · simp [chain, stepFirst, hnext]
    · simp [chain, hlen, hb.len_eq]
      omega

end Chain

/-- The loop of `ExactSizeChainN::next` over the iterators from `b_idx` on: the first that has a
next element gives it, the exhausted ones before it are dropped. -/
def nextOfList (ib : Iter τ α) : List τ → Option (α × List τ)
  | [] => none
  | b :: bs =>
    match ib.next b with
    | some (y, b') => some (y, b' :: bs)
    | none => nextOfList ib bs

/-- `ExactSizeChainN`: the first part, then each of the others; the state keeps those still to come,
so the `unwrap` of `next` never fails. -/
def chainN (ia : Iter σ α) (ib : Iter τ α) : Iter (Option σ × List τ) α where
  next := fun (a, bs) =>
    match stepFirst ia a with
    | some (x, a') => some (x, (some a', bs))
    | none => (nextOfList ib bs).map fun (y, bs') => (y, (none, bs'))
  len := fun (a, bs) => (a.map ia.len).getD 0 + (bs.map ib.len).sum

section ChainN

variable {ia : Iter σ α} {ib : Iter τ α}

/-- Each of the others yields its list, in turn. -/
inductive YieldsAll (ib : Iter τ α) : List τ → List (List α) → Prop
  | nil : YieldsAll ib [] []
  | cons {b : τ} {bs : List τ} {l : List α} {ls : List (List α)} :
      Yields ib b l → YieldsAll ib bs ls → YieldsAll ib (b :: bs) (l :: ls)

theorem yields_chainN_cons {b : τ} {l : List α} (hb : Yields ib b l) {bs : List τ} {rest : List α}
    (hrest : ∀ a : Option σ, stepFirst ia a = none → (a.map ia.len).getD 0 = 0 →
      Yields (chainN ia ib) (a, bs) rest) :
    ∀ a : Option σ, stepFirst ia a = none → (a.map ia.len).getD 0 = 0 →
      Yields (chainN ia ib) (a, b :: bs) (l ++ rest) := by
  induction hb with
  | nil hnext hlen =>
    intro a ha hlena
    -- an exhausted iterator is skipped: the same next and the same count as without it
    cases hrest a ha hlena with
    | nil hnext' hlen' =>
      refine .nil ?_ ?_
      · simpa [chainN, ha, nextOfList, hnext] using hnext'
      · simpa [chainN, hlen] using hlen'
    | cons hnext' hlen' hy =>
      refine .cons ?_ ?_ hy
      · simpa [chainN, ha, nextOfList, hnext] using hnext'
      · simpa [chainN, hlen] using hlen'
  | cons hnext hlen _ ihb =>
    intro a ha hlena
    have hrestLen := (hrest none rfl rfl).len_eq
    refine .cons ?_ ?_ (ihb none rfl rfl)
    · simp [chainN, ha, nextOfList, hnext]
    · simp only [chainN, Option.map_none, Option.getD_none, Nat.zero_add] at hrestLen
      simp [chainN, hlena, hlen, hrestLen]
      omega

theorem yields_chainN_of_first_done {bs : List τ} {ls : List (List α)} (hbs : YieldsAll ib bs ls) :
    ∀ a : Option σ, stepFirst ia a = none → (a.map ia.len).getD 0 = 0 →
      Yields (chainN ia ib) (a, bs) ls.flatten := by
  induction hbs with
  | nil =>
    intro a ha hlena
    refine .nil ?_ ?_
    · simp [chainN, ha, nextOfList]
    · simp [chainN, hlena]
  | cons hb _ ih => exact yields_chainN_cons hb ih

theorem yields_chainN {sa : σ} {la : List α} {bs : List τ} {ls : List (List α)}
    (ha : Yields ia sa la) (hbs : YieldsAll ib bs ls) :
    Yields (chainN ia ib) (some sa, bs) (la ++ ls.flatten) := by
  have hrest : Yields (chainN ia ib) (none, bs) ls.flatten :=
    yields_chainN_of_first_done hbs none rfl rfl
  induction ha with
  | nil hnext hlen =>
    exact yields_chainN_of_first_done hbs (some _) hnext (by simp [hlen])
  | cons hnext hlen _ ih =>
    refine .cons ?_ ?_ ih
    · simp [chainN, stepFirst, hnext]
    · have hrestLen := hrest.len_eq
      simp only [chainN, Option.map_none, Option.getD_none, Nat.zero_add] at hrestLen
      simp [chainN, hlen, hrestLen]
      omega

end ChainN

end ExactSizeIter
