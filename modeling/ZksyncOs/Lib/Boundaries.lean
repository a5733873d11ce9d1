import Mathlib

/-!
# Instruction boundaries of a variable-length encoding

Code whose instruction at position `p` takes `width p ≥ 1` positions. The boundaries are the
positions decoding from `0` starts an instruction at: `0`, and `p + width p` after each boundary
`p` (`IsBoundary`); the `n`-th one is `pos width n`.

* `isBoundary_iff_pos`, `strictMono_pos` : the boundaries are the values of `pos`, strictly
  increasing;
* `exists_boundary_cover` : every position lies in the instruction of some boundary;
* `eq_of_isBoundary` : no boundary lies inside another's instruction past its start;
* `isBoundary_iff_not_inside` : a position is a boundary iff it lies inside no instruction past
  its start;
* `isBoundary_congr` : below a length where two widths agree, they have the same boundaries.
-/

namespace Boundaries

variable (width : Nat → Nat)

/-- The positions decoding from `0` starts an instruction at. -/
inductive IsBoundary : Nat → Prop
  | zero : IsBoundary 0
  | step {p : Nat} : IsBoundary p → IsBoundary (p + width p)

/-- The `n`-th boundary. -/
def pos : Nat → Nat
  | 0 => 0
  | n + 1 => pos n + width (pos n)

/-- `o` lies inside the instruction of a boundary, past its start. -/
def Inside (o : Nat) : Prop := ∃ p, IsBoundary width p ∧ p < o ∧ o < p + width p

variable {width}

theorem isBoundary_iff_pos {p : Nat} : IsBoundary width p ↔ ∃ n, pos width n = p := by
  constructor
  · intro h
    induction h with
    | zero => exact ⟨0, rfl⟩
    | step _ ih =>
      obtain ⟨n, rfl⟩ := ih
      exact ⟨n + 1, rfl⟩
  · rintro ⟨n, rfl⟩
    induction n with
    | zero => exact .zero
    | succ n ih => exact ih.step

section

variable (hw : ∀ p, 0 < width p)
include hw

theorem strictMono_pos : StrictMono (pos width) :=
  strictMono_nat_of_lt_succ fun _ => Nat.lt_add_of_pos_right (hw _)

/-- Every position lies in the instruction of some boundary. -/
theorem exists_boundary_cover (o : Nat) : ∃ p, IsBoundary width p ∧ p ≤ o ∧ o < p + width p := by
  induction o with
  | zero => exact ⟨0, .zero, le_rfl, by have := hw 0; omega⟩
  | succ o ih =>
    obtain ⟨p, hp, hpo, hop⟩ := ih
    by_cases h : o + 1 < p + width p
    · exact ⟨p, hp, by omega, h⟩
    · refine ⟨p + width p, hp.step, by omega, ?_⟩
      have := hw (p + width p)
      omega

/-- A boundary inside the instruction of a boundary is that boundary. -/
theorem eq_of_isBoundary {p q : Nat} (hp : IsBoundary width p) (hq : IsBoundary width q)
    (hpq : p ≤ q) (hqp : q < p + width p) : p = q := by
  obtain ⟨i, rfl⟩ := isBoundary_iff_pos.1 hp
  obtain ⟨j, rfl⟩ := isBoundary_iff_pos.1 hq
  have hmono := strictMono_pos hw
  have hij : i ≤ j := hmono.le_iff_le.1 hpq
  have hji : j < i + 1 := hmono.lt_iff_lt.1 hqp
  rw [show j = i by omega]

theorem isBoundary_iff_not_inside (o : Nat) : IsBoundary width o ↔ ¬ Inside width o := by
  constructor
  · rintro hb ⟨p, hp, hpo, hop⟩
    exact absurd (eq_of_isBoundary hw hp hb hpo.le hop) hpo.ne
  · intro hin
    obtain ⟨p, hp, hpo, hop⟩ := exists_boundary_cover hw o
    rcases Nat.lt_or_eq_of_le hpo with hlt | rfl
    · exact absurd ⟨p, hp, hlt, hop⟩ hin
    · exact hp

end

theorem pos_congr {width' : Nat → Nat} {L : Nat} (hw : ∀ p, 0 < width p)
    (hagree : ∀ p < L, width p = width' p) :
    ∀ n, pos width n < L → pos width' n = pos width n
  | 0, _ => rfl
  | n + 1, h => by
    have hn : pos width n < L := lt_trans (strictMono_pos hw (Nat.lt_succ_self n)) h
    have ih := pos_congr hw hagree n hn
    change pos width' n + width' (pos width' n) = pos width n + width (pos width n)
    rw [ih, hagree _ hn]

theorem isBoundary_congr {width' : Nat → Nat} {L : Nat} (hw : ∀ p, 0 < width p)
    (hw' : ∀ p, 0 < width' p) (hagree : ∀ p < L, width p = width' p) {o : Nat} (ho : o < L) :
    IsBoundary width o ↔ IsBoundary width' o := by
  rw [isBoundary_iff_pos, isBoundary_iff_pos]
  constructor
  · rintro ⟨n, rfl⟩
    exact ⟨n, pos_congr hw hagree n ho⟩
  · rintro ⟨n, rfl⟩
    exact ⟨n, pos_congr hw' (fun p hp => (hagree p hp).symm) n ho⟩

end Boundaries
