import Mathlib

/-!
# Sorted association lists: a finite map iterated in key order

A `SortedMap K V` is a list of entries whose keys strictly increase. It is the model of an ordered
map (a B-tree map): lookup, insertion that replaces an existing entry, in-place modification of one
entry, and iteration in increasing key order.

* `SortedMap.get?`, `SortedMap.insert`, `SortedMap.modify` and their lookup equations
  (`get?_insert`, `get?_modify`);
* `mem_entries_iff` : an entry is listed iff lookup returns it (keys are unique);
* `entries_modify` : modification rewrites the entries in place, keeping their order;
* `get?_foldl_modify` : modifying a list of keys with an idempotent function modifies each listed
  key once; `isSome_get?_foldl_modify` : it never removes a key.
-/

/-- Entries in strictly increasing key order. -/
structure SortedMap (K V : Type) [LinearOrder K] where
  entries : List (K × V)
  sorted : entries.Pairwise (fun a b => a.1 < b.1)

namespace SortedMap

variable {K V W : Type} [LinearOrder K]

/-- Ordered insertion into an entry list, replacing an entry with the same key. -/
def insertEntry (k : K) (v : V) : List (K × V) → List (K × V)
  | [] => [(k, v)]
  | (k', v') :: l =>
    if k < k' then (k, v) :: (k', v') :: l
    else if k = k' then (k, v) :: l
    else (k', v') :: insertEntry k v l

theorem mem_insertEntry {k : K} {v : V} {a : K × V} :
    ∀ {l : List (K × V)}, a ∈ insertEntry k v l → a = (k, v) ∨ a ∈ l
  | [], h => by simpa [insertEntry] using h
  | (k', v') :: l, h => by
    unfold insertEntry at h
    split_ifs at h
    · simpa using h
    · simp only [List.mem_cons] at h
      rcases h with h | h
      · exact Or.inl h
      · exact Or.inr (List.mem_cons_of_mem _ h)
    · simp only [List.mem_cons] at h
      rcases h with h | h
      · exact Or.inr (by simp [h])
      · rcases mem_insertEntry h with h' | h'
        · exact Or.inl h'
        · exact Or.inr (List.mem_cons_of_mem _ h')

theorem insertEntry_sorted (k : K) (v : V) :
    ∀ {l : List (K × V)}, l.Pairwise (fun a b => a.1 < b.1) →
      (insertEntry k v l).Pairwise (fun a b => a.1 < b.1)
  | [], _ => by simp [insertEntry]
  | (k', v') :: l, h => by
    rw [List.pairwise_cons] at h
    unfold insertEntry
    split_ifs with hlt heq
    · refine List.Pairwise.cons (fun a ha => ?_) (List.pairwise_cons.mpr h)
      rcases List.mem_cons.mp ha with rfl | ha
      · exact hlt
      · exact lt_trans hlt (h.1 a ha)
    · subst heq
      exact List.Pairwise.cons (fun a ha => h.1 a ha) h.2
    · have hgt : k' < k := lt_of_le_of_ne (not_lt.mp hlt) (Ne.symm heq)
      refine List.Pairwise.cons (fun a ha => ?_) (insertEntry_sorted k v h.2)
      rcases mem_insertEntry ha with rfl | ha
      · exact hgt
      · exact h.1 a ha

/-- The empty map. -/
def empty : SortedMap K V := ⟨[], List.Pairwise.nil⟩

/-- Lookup by key. -/
def get? (m : SortedMap K V) (k : K) : Option V := m.entries.lookup k

/-- Insert an entry, replacing the entry with the same key if there is one. -/
def insert (m : SortedMap K V) (k : K) (v : V) : SortedMap K V :=
  ⟨insertEntry k v m.entries, insertEntry_sorted k v m.sorted⟩

/-- Apply `f` to the value stored under `k`, if any; every other entry is unchanged. -/
def modify (m : SortedMap K V) (k : K) (f : V → V) : SortedMap K V :=
  ⟨m.entries.map (fun p => if p.1 = k then (p.1, f p.2) else p),
    List.Pairwise.map _ (fun a b h => by split_ifs <;> exact h) m.sorted⟩

/-- The keys, in increasing order. -/
def keys (m : SortedMap K V) : List K := m.entries.map Prod.fst

/-! ## Lookup equations -/

theorem lookup_cons_ite (k k' : K) (v : V) (l : List (K × V)) :
    ((k, v) :: l).lookup k' = if k' = k then some v else l.lookup k' := by
  by_cases h : k' = k
  · subst h; simp
  · have hb : (k' == k) = false := by simpa using h
    simp only [List.lookup, hb, h, if_false]

theorem lookup_insertEntry (k k' : K) (v : V) :
    ∀ l : List (K × V), (insertEntry k v l).lookup k' = if k' = k then some v else l.lookup k'
  | [] => by simp [insertEntry, lookup_cons_ite]
  | (k'', v'') :: l => by
    have ih := lookup_insertEntry k k' v l
    unfold insertEntry
    by_cases hlt : k < k''
    · simp only [if_pos hlt, lookup_cons_ite]
    · by_cases heq : k = k''
      · subst heq
        by_cases h : k' = k <;> simp [lookup_cons_ite, h]
      · simp only [if_neg hlt, if_neg heq, lookup_cons_ite, ih]
        by_cases h : k' = k
        · subst h
          simp [heq]
        · simp [h]

@[simp] theorem get?_empty (k : K) : (empty : SortedMap K V).get? k = none := rfl

theorem get?_insert (m : SortedMap K V) (k k' : K) (v : V) :
    (m.insert k v).get? k' = if k' = k then some v else m.get? k' :=
  lookup_insertEntry k k' v m.entries

@[simp] theorem get?_insert_self (m : SortedMap K V) (k : K) (v : V) :
    (m.insert k v).get? k = some v := by
  simp [get?_insert]

theorem get?_insert_of_ne (m : SortedMap K V) {k k' : K} (v : V) (h : k' ≠ k) :
    (m.insert k v).get? k' = m.get? k' := by
  simp [get?_insert, h]

theorem lookup_map_modify (k k' : K) (f : V → V) :
    ∀ l : List (K × V), (l.map (fun p => if p.1 = k then (p.1, f p.2) else p)).lookup k' =
      if k' = k then (l.lookup k').map f else l.lookup k'
  | [] => by simp
  | (k'', v'') :: l => by
    have ih := lookup_map_modify k k' f l
    simp only [List.map_cons]
    by_cases h1 : k'' = k
    · subst h1
      simp only [if_true, lookup_cons_ite, ih]
      by_cases h2 : k' = k'' <;> simp [h2]
    · simp only [if_neg h1, lookup_cons_ite, ih]
      by_cases h2 : k' = k
      · subst h2
        simp [Ne.symm h1]
      · simp [h2]

theorem get?_modify (m : SortedMap K V) (k k' : K) (f : V → V) :
    (m.modify k f).get? k' = if k' = k then (m.get? k').map f else m.get? k' :=
  lookup_map_modify k k' f m.entries

@[simp] theorem get?_modify_self (m : SortedMap K V) (k : K) (f : V → V) :
    (m.modify k f).get? k = (m.get? k).map f := by
  simp [get?_modify]

theorem get?_modify_of_ne (m : SortedMap K V) {k k' : K} (f : V → V) (h : k' ≠ k) :
    (m.modify k f).get? k' = m.get? k' := by
  simp [get?_modify, h]

/-! ## Entries and lookup -/

theorem lookup_eq_some_of_mem :
    ∀ {l : List (K × V)}, l.Pairwise (fun a b => a.1 < b.1) → ∀ {k : K} {v : V},
      (k, v) ∈ l → l.lookup k = some v
  | [], _, _, _, h => by simp at h
  | (k', v') :: l, hs, k, v, h => by
    rw [List.pairwise_cons] at hs
    rcases List.mem_cons.mp h with h | h
    · cases h
      simp
    · have hne : k ≠ k' := ne_of_gt (hs.1 (k, v) h)
      rw [lookup_cons_ite, if_neg hne]
      exact lookup_eq_some_of_mem hs.2 h

theorem mem_of_lookup_eq_some {k : K} {v : V} :
    ∀ {l : List (K × V)}, l.lookup k = some v → (k, v) ∈ l
  | [], h => by simp at h
  | (k', v') :: l, h => by
    rw [lookup_cons_ite] at h
    split_ifs at h with hk
    · cases h
      simp [hk]
    · exact List.mem_cons_of_mem _ (mem_of_lookup_eq_some h)

theorem mem_entries_iff (m : SortedMap K V) (k : K) (v : V) :
    (k, v) ∈ m.entries ↔ m.get? k = some v :=
  ⟨lookup_eq_some_of_mem m.sorted, mem_of_lookup_eq_some⟩

theorem entries_modify (m : SortedMap K V) (k : K) (f : V → V) :
    (m.modify k f).entries = m.entries.map (fun p => if p.1 = k then (p.1, f p.2) else p) := rfl

@[simp] theorem keys_modify (m : SortedMap K V) (k : K) (f : V → V) :
    (m.modify k f).keys = m.keys := by
  simp only [keys, entries_modify, List.map_map]
  congr 1
  funext p
  by_cases h : p.1 = k <;> simp [h]

/-! ## Modifying many keys -/

theorem get?_foldl_modify (f : V → V) (hf : ∀ v, f (f v) = f v) (k : K) (l : List (K × W)) :
    ∀ m : SortedMap K V, (l.foldl (fun bt p => bt.modify p.1 f) m).get? k =
      if k ∈ l.map Prod.fst then (m.get? k).map f else m.get? k := by
  induction l with
  | nil => intro m; simp
  | cons p l ih =>
    intro m
    rw [List.foldl_cons, ih, get?_modify]
    by_cases hk : k = p.1
    · have hff : f ∘ f = f := funext hf
      simp [hk, Option.map_map, hff]
    · have hmem : k ∈ (p :: l).map Prod.fst ↔ k ∈ l.map Prod.fst := by
        simp [hk]
      simp only [hk, if_false, hmem]

theorem isSome_get?_foldl_modify (f : V → V) (k : K) (l : List (K × W)) :
    ∀ m : SortedMap K V, ((l.foldl (fun bt p => bt.modify p.1 f) m).get? k).isSome = (m.get? k).isSome := by
  induction l with
  | nil => intro m; rfl
  | cons p l ih =>
    intro m
    rw [List.foldl_cons, ih, get?_modify]
    split_ifs <;> simp

end SortedMap
