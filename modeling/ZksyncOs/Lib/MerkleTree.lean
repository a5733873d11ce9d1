import Mathlib

/-!
# Fixed-height Merkle trees, computed level by level in place

A binary tree over the leaves `leaf 0, leaf 1, ...`: `root leaf k i` is the root of the subtree of
height `k` at index `i` of its level, over the leaves `i * 2^k` to `(i + 1) * 2^k - 1`. When every
leaf from `n` on is `pad`, a subtree wholly past `n` has the root `emptyRoot pad k`.

The roots are computed bottom up over one row: at each level entry `i` becomes the parent of
entries `2i` and `2i + 1`, written in place, with the level's empty root for a missing right one.

* `root_of_le` : a subtree past the data is the empty subtree;
* `level`, `getD_level` : a level in place reads only entries it has not overwritten yet;
* `Holds`, `level_holds` : a level takes the roots of height `k` to those of height `k + 1`;
* `levels`, `levels_holds` : after `h` levels the row holds the roots of height `h`, and none of
  them only when there was no data.
-/

namespace MerkleTree

variable {α : Type} (node : α → α → α)

/-- The root of the subtree of height `k` at index `i`. -/
def root (leaf : Nat → α) : Nat → Nat → α
  | 0, i => leaf i
  | k + 1, i => node (root leaf k (2 * i)) (root leaf k (2 * i + 1))

/-- The root of a subtree of height `k` all of whose leaves are `pad`. -/
def emptyRoot (pad : α) : Nat → α
  | 0 => pad
  | k + 1 => node (emptyRoot pad k) (emptyRoot pad k)

variable {node}

theorem root_of_le {leaf : Nat → α} {pad : α} {n : Nat} (hpad : ∀ j, n ≤ j → leaf j = pad) :
    ∀ k i, n ≤ i * 2 ^ k → root node leaf k i = emptyRoot node pad k := by
  intro k
  induction k with
  | zero =>
    intro i h
    rw [root, emptyRoot]
    exact hpad i (by simpa using h)
  | succ k ih =>
    intro i h
    have hleft : n ≤ 2 * i * 2 ^ k := by
      rwa [Nat.pow_succ, Nat.mul_comm (2 ^ k) 2, ← Nat.mul_assoc, Nat.mul_comm i 2] at h
    have hright : n ≤ (2 * i + 1) * 2 ^ k := Nat.le_trans hleft (Nat.mul_le_mul_right _ (Nat.le_succ _))
    rw [root, emptyRoot, ih _ hleft, ih _ hright]

theorem getD_set (l : List α) (i : Nat) (v d : α) (j : Nat) :
    (l.set i v).getD j d = if i = j ∧ j < l.length then v else l.getD j d := by
  simp only [List.getD_eq_getElem?_getD, List.getElem?_set]
  by_cases hij : i = j
  · by_cases hj : j < l.length <;> simp [hij, hj]
  · simp [hij]

variable [Inhabited α]

variable (node) in
/-- Step `i` of a level in place: entry `i` becomes the parent of entries `2i` and `2i + 1`, the
right one `empty` past the first `curr` entries. -/
def pairAt (empty : α) (curr : Nat) (row : List α) (i : Nat) : List α :=
  row.set i (node (row.getD (i * 2) default)
    (if i * 2 + 1 < curr then row.getD (i * 2 + 1) default else empty))

variable (node) in
/-- One level: the steps `0` to `⌈curr / 2⌉ - 1`, in order. -/
def level (empty : α) (curr : Nat) (row : List α) : List α :=
  (List.range ((curr + 1) / 2)).foldl (pairAt node empty curr) row

variable (node) in
/-- `h` levels from level `0`, `empty k` standing for a missing entry at level `k`; the number
`curr` of entries that are not padding halves, rounded up, at each. -/
def levels (empty : Nat → α) (h curr : Nat) (row : List α) : Nat × List α :=
  (List.range h).foldl (fun (acc : Nat × List α) k => ((acc.1 + 1) / 2, level node (empty k) acc.1 acc.2))
    (curr, row)

theorem length_foldl_pairAt (empty : α) (curr : Nat) :
    ∀ (is : List Nat) (row : List α), (is.foldl (pairAt node empty curr) row).length = row.length
  | [], _ => rfl
  | i :: is, row => by rw [List.foldl_cons, length_foldl_pairAt empty curr is, pairAt, List.length_set]

theorem getD_foldl_pairAt (empty : α) (curr : Nat) (row : List α) :
    ∀ j, j ≤ row.length → ∀ i,
      ((List.range j).foldl (pairAt node empty curr) row).getD i default =
        if i < j then node (row.getD (i * 2) default)
          (if i * 2 + 1 < curr then row.getD (i * 2 + 1) default else empty)
        else row.getD i default := by
  intro j
  induction j with
  | zero => intro _ i; simp
  | succ j ih =>
    intro hj i
    have hlen : ((List.range j).foldl (pairAt node empty curr) row).length = row.length :=
      length_foldl_pairAt empty curr _ row
    -- step `j` reads `2j` and `2j + 1`, both at or past `j`, so not yet overwritten
    have hread : ∀ m, j ≤ m →
        ((List.range j).foldl (pairAt node empty curr) row).getD m default = row.getD m default := by
      intro m hm
      rw [ih (by omega), if_neg (by omega)]
    rw [List.range_succ, List.foldl_append, List.foldl_cons, List.foldl_nil, pairAt,
      hread (j * 2) (by omega), hread (j * 2 + 1) (by omega), getD_set, hlen]
    by_cases hij : j = i
    · subst hij
      rw [if_pos ⟨rfl, by omega⟩, if_pos (Nat.lt_succ_self j)]
    · rw [if_neg (fun h => hij h.1), ih (by omega)]
      by_cases hi : i < j
      · rw [if_pos hi, if_pos (show i < j + 1 by omega)]
      · rw [if_neg hi, if_neg (show ¬ i < j + 1 by omega)]

theorem length_level (empty : α) (curr : Nat) (row : List α) :
    (level node empty curr row).length = row.length := by
  rw [level, length_foldl_pairAt]

theorem getD_level (empty : α) {curr : Nat} {row : List α} (hcurr : curr ≤ row.length) {i : Nat}
    (hi : i < (curr + 1) / 2) :
    (level node empty curr row).getD i default =
      node (row.getD (i * 2) default) (if i * 2 + 1 < curr then row.getD (i * 2 + 1) default else empty) := by
  rw [level, getD_foldl_pairAt empty curr row _ (by omega), if_pos hi]

theorem levels_succ (empty : Nat → α) (h curr : Nat) (row : List α) :
    levels node empty (h + 1) curr row =
      (((levels node empty h curr row).1 + 1) / 2,
        level node (empty h) (levels node empty h curr row).1 (levels node empty h curr row).2) := by
  rw [levels, List.range_succ, List.foldl_append, List.foldl_cons, List.foldl_nil]
  rfl

variable (node) in
/-- The first `curr` entries of `row` are the roots of height `k`. -/
def Holds (leaf : Nat → α) (k curr : Nat) (row : List α) : Prop :=
  curr ≤ row.length ∧ ∀ i < curr, row.getD i default = root node leaf k i

section

variable {leaf : Nat → α} {pad : α} {n : Nat} (hpad : ∀ j, n ≤ j → leaf j = pad)
include hpad

/-- A level takes the roots of height `k` to those of height `k + 1`, once the roots past `curr`
are empty. -/
theorem level_holds {k curr : Nat} {row : List α} (hrow : Holds node leaf k curr row)
    (hn : n ≤ curr * 2 ^ k) :
    Holds node leaf (k + 1) ((curr + 1) / 2) (level node (emptyRoot node pad k) curr row) := by
  obtain ⟨hlen, hroots⟩ := hrow
  refine ⟨by rw [length_level]; omega, fun i hi => ?_⟩
  rw [getD_level _ hlen hi, hroots _ (by omega), root, Nat.mul_comm i 2]
  congr 1
  split_ifs with hright
  · exact hroots _ hright
  · exact (root_of_le hpad k _ (Nat.le_trans hn (Nat.mul_le_mul_right _ (by omega)))).symm

/-- After `h` levels the row holds the roots of height `h`, none of them only without data. -/
theorem levels_holds {empty : Nat → α} {row : List α} (hrow : Holds node leaf 0 n row) :
    ∀ h, (∀ k < h, empty k = emptyRoot node pad k) →
      Holds node leaf h (levels node empty h n row).1 (levels node empty h n row).2 ∧
        n ≤ (levels node empty h n row).1 * 2 ^ h ∧ ((levels node empty h n row).1 = 0 ↔ n = 0) := by
  intro h
  induction h with
  | zero => intro _; exact ⟨hrow, by simp [levels], by simp [levels]⟩
  | succ h ih =>
    intro hempty
    obtain ⟨hholds, hn, hzero⟩ := ih fun k hk => hempty k (by omega)
    rw [levels_succ, hempty h (by omega)]
    refine ⟨level_holds hpad hholds hn, ?_, ?_⟩
    · calc n ≤ (levels node empty h n row).1 * 2 ^ h := hn
        _ ≤ ((levels node empty h n row).1 + 1) / 2 * 2 * 2 ^ h :=
          Nat.mul_le_mul_right _ (by omega)
        _ = ((levels node empty h n row).1 + 1) / 2 * 2 ^ (h + 1) := by
          rw [Nat.pow_succ, Nat.mul_assoc, Nat.mul_comm 2]
    · rw [← hzero]
      omega

end

end MerkleTree
