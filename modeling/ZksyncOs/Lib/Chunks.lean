import Mathlib

/-!
# Lists kept in chunks

A list kept as a sequence of chunks of capacity `N`, every chunk but the last full and the last
non-empty: the shape of a linked list of fixed-capacity arrays. The list is `cs.flatten`.

* `Chunked N cs` : the shape, stated on `cs = init ++ [last]` by `chunked_append_singleton`;
* `Chunked.push_new`, `Chunked.push_last` : appending a value opens a new chunk after a full last
  one, and grows the last one otherwise;
* `Chunked.pop_last`, `Chunked.drop_last` : removing the last value shrinks the last chunk, and
  drops it once it is empty;
* `Chunked.length_flatten` : the list's length is the last chunk's plus `N` for each one before it.
-/

namespace Chunks

variable {α : Type} {N : Nat}

/-- Every chunk but the last holds `N` values; the last holds at least one. -/
def Chunked (N : Nat) (cs : List (List α)) : Prop :=
  (∀ c ∈ cs.dropLast, c.length = N) ∧ ∀ c ∈ cs.getLast?, c ≠ []

theorem chunked_nil : Chunked N ([] : List (List α)) :=
  ⟨fun _ h => absurd h List.not_mem_nil, fun _ h => absurd h (by simp)⟩

theorem chunked_append_singleton {cs : List (List α)} {c : List α} :
    Chunked N (cs ++ [c]) ↔ (∀ d ∈ cs, d.length = N) ∧ c ≠ [] := by
  simp [Chunked]

theorem chunked_singleton (v : α) : Chunked N [[v]] :=
  show Chunked N ([] ++ [[v]]) from
    chunked_append_singleton.2 ⟨fun _ h => absurd h List.not_mem_nil, List.cons_ne_nil _ _⟩

theorem eq_nil_or_append_singleton {β : Type} (cs : List β) :
    (cs.getLast? = none ∧ cs = []) ∨ ∃ c, cs.getLast? = some c ∧ cs = cs.dropLast ++ [c] := by
  cases h : cs.getLast? with
  | none => exact .inl ⟨rfl, List.getLast?_eq_none_iff.1 h⟩
  | some c => exact .inr ⟨c, rfl, (List.dropLast_append_getLast? c h).symm⟩

section

variable {cs : List (List α)} {c : List α}

/-- A value after a full last chunk opens a new one. -/
theorem Chunked.push_new (h : Chunked N (cs ++ [c])) (hc : c.length = N) (v : α) :
    Chunked N (cs ++ [c] ++ [[v]]) := by
  obtain ⟨hcs, -⟩ := chunked_append_singleton.1 h
  refine chunked_append_singleton.2 ⟨fun d hd => ?_, List.cons_ne_nil _ _⟩
  rcases List.mem_append.1 hd with hd | hd
  · exact hcs d hd
  · rw [List.mem_singleton.1 hd, hc]

/-- A value fits in the last chunk. -/
theorem Chunked.push_last (h : Chunked N (cs ++ [c])) (v : α) : Chunked N (cs ++ [c ++ [v]]) :=
  chunked_append_singleton.2 ⟨(chunked_append_singleton.1 h).1, by simp⟩

/-- Removing the last value of a last chunk that keeps others. -/
theorem Chunked.pop_last {x : α} (h : Chunked N (cs ++ [c ++ [x]])) (hc : c ≠ []) :
    Chunked N (cs ++ [c]) :=
  chunked_append_singleton.2 ⟨(chunked_append_singleton.1 h).1, hc⟩

/-- Removing the only value of the last chunk drops it; the chunk before it is full. -/
theorem Chunked.drop_last (h : Chunked N (cs ++ [c])) (hN : 0 < N) : Chunked N cs := by
  obtain ⟨hcs, -⟩ := chunked_append_singleton.1 h
  rcases eq_nil_or_append_singleton cs with ⟨-, rfl⟩ | ⟨d, -, hd⟩
  · exact chunked_nil
  · rw [hd] at hcs ⊢
    refine chunked_append_singleton.2 ⟨fun e he => hcs e (by simp [he]), ?_⟩
    have hdN := hcs d (by simp)
    intro hnil
    rw [hnil] at hdN
    exact absurd hdN (by simp; omega)

theorem Chunked.length_flatten (h : Chunked N (cs ++ [c])) :
    (cs ++ [c]).flatten.length = c.length + cs.length * N := by
  obtain ⟨hcs, -⟩ := chunked_append_singleton.1 h
  have hsum : (cs.map List.length).sum = cs.length * N := by
    rw [List.map_congr_left hcs, List.map_const', List.sum_replicate_nat]
  rw [List.flatten_append, List.length_append, List.length_flatten, hsum, List.flatten_singleton,
    Nat.add_comm]

theorem Chunked.ne_nil (h : Chunked N cs) (hN : 0 < N) : ∀ d ∈ cs, d ≠ [] := by
  intro d hd
  rcases eq_nil_or_append_singleton cs with ⟨-, rfl⟩ | ⟨e, -, he⟩
  · exact absurd hd List.not_mem_nil
  · rw [he] at h hd
    obtain ⟨hcs, hne⟩ := chunked_append_singleton.1 h
    rcases List.mem_append.1 hd with hd | hd
    · intro hnil
      have := hcs d hd
      rw [hnil] at this
      exact absurd this (by simp; omega)
    · rw [List.mem_singleton.1 hd]
      exact hne

end

end Chunks
