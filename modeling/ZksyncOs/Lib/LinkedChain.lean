import Mathlib

/-!
# Singly linked chains in memory

Memory gives the node at each address, or none; a node may link to another address. `Chain link m
p l` says that from `p`, following `link`, the nodes visited are at the addresses `l` and the last
has no link. A chain is finite, so it has no cycle: it visits no address twice (`Chain.nodup`), and
it is the only chain from `p` (`Chain.unique`).

Pointer surgery is stated by the addresses it writes:

* `Chain.frame`, `Chain.frame_link` : a write that misses a chain, or keeps its links, keeps it;
* `Chain.cut` : giving a node of a chain no link ends the chain there;
* `Chain.join` : linking the last node of a chain to another chain joins the two;
* `Chain.suffix`, `Chain.mem_left`, `Chain.link_eq`, `Chain.last_link` : the chain from any of its
  nodes, where it starts, and the links it reads;
* `Chain.length_le` : a chain within the first `n` addresses has at most `n` nodes.
-/

namespace LinkedChain

variable {α : Type} (link : α → Option Nat)

/-- From `p`, following `link` through `m`, the nodes visited are at `l`, the last with no link. -/
inductive Chain (m : Nat → Option α) : Nat → List Nat → Prop
  | last {p : Nat} {a : α} : m p = some a → link a = none → Chain m p [p]
  | cons {p q : Nat} {a : α} {l : List Nat} : m p = some a → link a = some q → Chain m q l →
      Chain m p (p :: l)

namespace Chain

variable {link} {m m' : Nat → Option α} {p q x : Nat} {l l' l₁ l₂ : List Nat}

theorem eq_cons (h : Chain link m p l) : ∃ t, l = p :: t := by
  cases h with
  | last _ _ => exact ⟨[], rfl⟩
  | cons _ _ _ => exact ⟨_, rfl⟩

theorem mem_self (h : Chain link m p l) : p ∈ l := by
  obtain ⟨t, rfl⟩ := h.eq_cons
  exact List.mem_cons_self

theorem cons_inv {y : Nat} {t : List Nat} (h : Chain link m p (y :: t)) (ht : t ≠ []) :
    p = y ∧ ∃ a q, m p = some a ∧ link a = some q ∧ Chain link m q t := by
  cases h with
  | last _ _ => exact absurd rfl ht
  | cons hp hl hq => exact ⟨rfl, _, _, hp, hl, hq⟩

/-- A chain starts in any nonempty prefix of it. -/
theorem mem_left (h : Chain link m p (l₁ ++ l₂)) (hl : l₁ ≠ []) : p ∈ l₁ := by
  obtain ⟨t, ht⟩ := h.eq_cons
  cases l₁ with
  | nil => exact absurd rfl hl
  | cons y l₁ =>
    obtain ⟨rfl, -⟩ := List.cons.inj ht
    exact List.mem_cons_self

theorem isSome_of_mem (h : Chain link m p l) (hx : x ∈ l) : (m x).isSome := by
  induction h with
  | last hp _ =>
    rw [List.mem_singleton.mp hx, hp]
    rfl
  | cons hp _ _ ih =>
    rcases List.mem_cons.mp hx with rfl | hx
    · rw [hp]
      rfl
    · exact ih hx

theorem unique (h : Chain link m p l) (h' : Chain link m p l') : l = l' := by
  induction h generalizing l' with
  | last hp hl =>
    cases h' with
    | last _ _ => rfl
    | cons hp' hl' _ =>
      rw [hp] at hp'
      cases hp'
      rw [hl] at hl'
      cases hl'
  | cons hp hl _ ih =>
    cases h' with
    | last hp' hl' =>
      rw [hp] at hp'
      cases hp'
      rw [hl] at hl'
      cases hl'
    | cons hp' hl' h'' =>
      rw [hp] at hp'
      cases hp'
      rw [hl] at hl'
      cases hl'
      rw [ih h'']

/-- The chain from a node of a chain is the chain's rest from there. -/
theorem suffix (h : Chain link m p (l₁ ++ x :: l₂)) : Chain link m x (x :: l₂) := by
  induction l₁ generalizing p with
  | nil =>
    obtain ⟨t, ht⟩ := h.eq_cons
    cases ht
    exact h
  | cons y l₁ ih =>
    obtain ⟨-, _, _, -, -, hq⟩ := h.cons_inv (by simp)
    exact ih hq

/-- The link of a node that is followed on a chain. -/
theorem link_eq {y : Nat} (h : Chain link m p (l₁ ++ x :: y :: l₂)) :
    ∃ a, m x = some a ∧ link a = some y := by
  obtain ⟨-, a, q, hx, hl, hq⟩ := h.suffix.cons_inv (by simp)
  obtain ⟨t, ht⟩ := hq.eq_cons
  cases ht
  exact ⟨a, hx, hl⟩

/-- The last node of a chain has no link. -/
theorem last_link (h : Chain link m p (l₁ ++ [x])) : ∃ a, m x = some a ∧ link a = none := by
  cases h.suffix with
  | last hx hl => exact ⟨_, hx, hl⟩
  | cons _ _ hq =>
    obtain ⟨t, ht⟩ := hq.eq_cons
    cases ht

/-- A chain visits no address twice: otherwise the chain from that address would be its own
proper suffix. -/
theorem nodup (h : Chain link m p l) : l.Nodup := by
  induction h with
  | last _ _ => exact List.nodup_singleton _
  | @cons p q a l hp hl hq ih =>
    refine List.nodup_cons.mpr ⟨fun hmem => ?_, ih⟩
    obtain ⟨l₁, l₂, rfl⟩ := List.append_of_mem hmem
    have hlong : Chain link m p (p :: (l₁ ++ p :: l₂)) := .cons hp hl hq
    have hlen := congrArg List.length (hlong.unique hq.suffix)
    simp only [List.length_cons, List.length_append] at hlen
    omega

/-- A write that keeps every link on the chain keeps it. -/
theorem frame_link (h : Chain link m p l) (hm : ∀ y ∈ l, (m' y).map link = (m y).map link) :
    Chain link m' p l := by
  -- a node whose link is kept is still there, with the same link
  have hnode : ∀ {y : Nat} {a : α}, y ∈ l → m y = some a → ∃ a', m' y = some a' ∧ link a' = link a :=
    fun {y a} hy ha => by
      have hy := hm y hy
      rw [ha, Option.map_some] at hy
      obtain ⟨a', ha', hl⟩ := Option.map_eq_some_iff.mp hy
      exact ⟨a', ha', hl⟩
  induction h with
  | last hp hl =>
    obtain ⟨a', ha', hl'⟩ := hnode (List.mem_singleton_self _) hp
    exact .last ha' (hl'.trans hl)
  | cons hp hl _ ih =>
    obtain ⟨a', ha', hl'⟩ := hnode List.mem_cons_self hp
    exact .cons ha' (hl'.trans hl) (ih (fun y hy => hm y (List.mem_cons_of_mem _ hy))
      fun hy ha => hnode (List.mem_cons_of_mem _ hy) ha)

/-- A write that misses the chain keeps it. -/
theorem frame (h : Chain link m p l) (hm : ∀ y ∈ l, m' y = m y) : Chain link m' p l :=
  h.frame_link fun y hy => by rw [hm y hy]

/-- Giving a node of the chain no link, and writing nothing before it, ends the chain there. -/
theorem cut {a : α} (h : Chain link m p (l₁ ++ x :: l₂)) (hx : m' x = some a)
    (ha : link a = none) (hm : ∀ y ∈ l₁, m' y = m y) : Chain link m' p (l₁ ++ [x]) := by
  induction l₁ generalizing p with
  | nil =>
    obtain ⟨t, ht⟩ := h.eq_cons
    cases ht
    exact .last hx ha
  | cons y l₁ ih =>
    obtain ⟨rfl, b, q, hp, hl, hq⟩ := h.cons_inv (by simp)
    exact .cons ((hm p List.mem_cons_self).trans hp) hl
      (ih hq fun y hy => hm y (List.mem_cons_of_mem _ hy))

/-- Linking the last node of a chain to another chain, writing nothing else on either, joins
them. -/
theorem join {a : α} (h : Chain link m p (l₁ ++ [x])) (hq : Chain link m q l₂)
    (hx : m' x = some a) (ha : link a = some q) (hm₁ : ∀ y ∈ l₁, m' y = m y)
    (hm₂ : ∀ y ∈ l₂, m' y = m y) : Chain link m' p (l₁ ++ x :: l₂) := by
  induction l₁ generalizing p with
  | nil =>
    obtain ⟨t, ht⟩ := h.eq_cons
    cases ht
    exact .cons hx ha (hq.frame hm₂)
  | cons y l₁ ih =>
    obtain ⟨rfl, b, r, hp, hl, hr⟩ := h.cons_inv (by simp)
    exact .cons ((hm₁ p List.mem_cons_self).trans hp) hl
      (ih hr fun y hy => hm₁ y (List.mem_cons_of_mem _ hy))

/-- A chain within the first `n` addresses has at most `n` nodes. -/
theorem length_le {n : Nat} (h : Chain link m p l) (hl : ∀ y ∈ l, y < n) : l.length ≤ n := by
  have hsub : l.Subperm (List.range n) :=
    List.subperm_of_subset h.nodup fun y hy => List.mem_range.mpr (hl y hy)
  simpa using hsub.length_le

end Chain

end LinkedChain
