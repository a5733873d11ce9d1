import Mathlib

/-!
# A memory of cells at every address, and the buffers that store a prefix of one

A machine memory holds a cell at every natural address, the default cell until it is written. A
buffer stores its prefix: the memory it stands for holds the buffer's cells, then the default.

* `read m o n`, `write m o src` : the `n` cells from `o`, and the memory with `src` written from
  `o`; `write_of_lt`, `write_of_le`, `write_of_mem` : a write changes only the cells it covers;
* `ofList l d` : the memory a buffer stands for; `ofList_append_replicate` : padding a buffer
  with the default cell does not change it;
* `slice l o n`, `splice l o src` : a buffer's cells from `o`, and the buffer with `src` written
  over it from `o`; `slice_eq_read`, `ofList_splice` : inside the buffer they are the `read` and
  the `write` of the memory it stands for;
* `read_ofList` : a read of a buffer's memory runs past its end into the default cell;
  `zeroPad` : the first `n` cells of a list, padded with the default cell.
-/

namespace FlatMemory

variable {α : Type}

/-- The `n` cells from `o`. -/
def read (m : Nat → α) (o n : Nat) : List α := (List.range n).map fun i => m (o + i)

/-- The memory with `src` written from `o`. -/
def write (m : Nat → α) (o : Nat) (src : List α) : Nat → α := fun a =>
  if o ≤ a then src.getD (a - o) (m a) else m a

/-- The memory a buffer stands for: its cells, then `d`. -/
def ofList (l : List α) (d : α) : Nat → α := fun a => l.getD a d

/-- The cells of a buffer from `o`, at most `n` of them. -/
def slice (l : List α) (o n : Nat) : List α := (l.drop o).take n

/-- The buffer with `src` written over it from `o`. -/
def splice (l : List α) (o : Nat) (src : List α) : List α :=
  l.take o ++ src ++ l.drop (o + src.length)

/-- The first `n` cells of `l`, and `d` after them when `l` is shorter. -/
def zeroPad (l : List α) (d : α) (n : Nat) : List α := (l ++ List.replicate n d).take n

section Read

variable (m : Nat → α) (o n : Nat)

@[simp] theorem length_read : (read m o n).length = n := by simp [read]

@[simp] theorem getElem_read {i : Nat} (hi : i < (read m o n).length) :
    (read m o n)[i] = m (o + i) := by
  simp [read]

end Read

section Write

variable (m : Nat → α) (o : Nat) (src : List α)

theorem write_of_lt {a : Nat} (h : a < o) : write m o src a = m a := by
  simp [write, Nat.not_le.mpr h]

theorem write_of_le {a : Nat} (h : o + src.length ≤ a) : write m o src a = m a := by
  have hge : src.length ≤ a - o := by omega
  simp [write, show o ≤ a by omega, List.getD_eq_getElem?_getD, List.getElem?_eq_none hge]

theorem write_of_mem {a : Nat} (h₁ : o ≤ a) (h₂ : a < o + src.length) :
    write m o src a = src.get ⟨a - o, by omega⟩ := by
  simp [write, h₁, List.getD_eq_getElem?_getD,
    List.getElem?_eq_getElem (show a - o < src.length by omega)]

end Write

section ZeroPad

@[simp] theorem length_zeroPad (l : List α) (d : α) (n : Nat) : (zeroPad l d n).length = n := by
  simp [zeroPad]

end ZeroPad

section Buffer

variable (l : List α) (d : α)

@[simp] theorem ofList_apply (a : Nat) : ofList l d a = l.getD a d := rfl

/-- Padding a buffer with the default cell does not change the memory it stands for. -/
theorem ofList_append_replicate (k : Nat) : ofList (l ++ List.replicate k d) d = ofList l d := by
  funext a
  simp only [ofList_apply, List.getD_eq_getElem?_getD, List.getElem?_append]
  split
  · rfl
  · rw [List.getElem?_replicate]
    split <;> simp [List.getElem?_eq_none (by omega : l.length ≤ a)]

theorem length_splice {o : Nat} {src : List α} (h : o + src.length ≤ l.length) :
    (splice l o src).length = l.length := by
  simp [splice]
  omega

/-- Inside the buffer, `splice` is the `write` of the memory it stands for. -/
theorem ofList_splice {o : Nat} {src : List α} (h : o + src.length ≤ l.length) :
    ofList (splice l o src) d = write (ofList l d) o src := by
  have hmin : min o l.length = o := by omega
  funext a
  simp only [ofList_apply, List.getD_eq_getElem?_getD, splice, List.append_assoc,
    List.getElem?_append, List.length_take, hmin, List.getElem?_take, List.getElem?_drop]
  by_cases h₁ : a < o
  · rw [write_of_lt _ _ _ h₁]
    simp [h₁]
  · by_cases h₂ : a < o + src.length
    · rw [write_of_mem _ _ _ (by omega) h₂]
      simp [h₁, show a - o < src.length by omega]
    · rw [write_of_le _ _ _ (by omega)]
      simp only [h₁, show ¬a - o < src.length by omega, ↓reduceIte, ofList_apply,
        List.getD_eq_getElem?_getD]
      congr 2
      omega

/-- A read of a buffer's memory runs past its end into the default cell. -/
theorem read_ofList (o n : Nat) : read (ofList l d) o n = zeroPad (l.drop o) d n := by
  apply List.ext_getElem (by simp)
  intro i h₁ h₂
  simp only [length_read] at h₁
  simp only [getElem_read, ofList_apply, zeroPad, List.getElem_take, List.getD_eq_getElem?_getD]
  by_cases hi : o + i < l.length
  · rw [List.getElem_append_left (by simp; omega), List.getElem?_eq_getElem hi]
    simp
  · rw [List.getElem_append_right (by simp; omega), List.getElem?_eq_none (by omega)]
    simp

/-- Inside the buffer, `slice` is the `read` of the memory it stands for. -/
theorem slice_eq_read {o n : Nat} (h : o + n ≤ l.length) : slice l o n = read (ofList l d) o n := by
  rw [read_ofList, zeroPad, List.take_append_of_le_length (by simp; omega)]
  rfl

end Buffer

end FlatMemory
