/-
**Maps in which the first binding of a key wins.**

A map keeps its bindings in the order in which they came.  A second binding of a key is refused and
leaves the map as it was.  Beside the bindings in their order stands an index by key, so that reading
does not go through all of them.  The index says nothing that the bindings do not say: two maps with
the same bindings in the same order are the same map.

Main definitions:

* `ActionSignatures.FirstMap` — maps;
* `ActionSignatures.FirstMap.entries` — **the bindings** in their order;
* `ActionSignatures.FirstMap.get?`, `ActionSignatures.FirstMap.insert` — reading and binding.

Main results:

* `ActionSignatures.FirstMap.eq_of_entries` — a map is its bindings;
* `ActionSignatures.FirstMap.get?_insert` — a binding that is new is found, others stay;
* `ActionSignatures.FirstMap.entries_insert` — a binding that is new comes last;
* `ActionSignatures.FirstMap.insert_of_contains` — any other is refused.
-/

import Std.Data.ExtTreeMap.Lemmas

set_option relaxedAutoImplicit false
set_option autoImplicit false

namespace ActionSignatures

/-- **A map in which the first binding of a key wins**: its bindings, in the order in which they
came, and an index of them. -/
structure FirstMap (κ : Type) (α : Type) [Ord κ] [Std.TransOrd κ] [DecidableEq κ] where
  rows : Array (κ × α) := #[]
  index : Std.ExtTreeMap κ α := ∅
  nodup : (rows.toList.map (·.1)).Nodup := by simp
  index_eq : ∀ k : κ, index[k]? = rows.toList.lookup k := by simp

namespace FirstMap

variable {κ α : Type} [Ord κ] [Std.TransOrd κ] [DecidableEq κ]

/-- The map without bindings. -/
def empty : FirstMap κ α := {}

instance : Inhabited (FirstMap κ α) := ⟨empty⟩

/-- **The bindings**, in the order in which they came. -/
def entries (m : FirstMap κ α) : List (κ × α) := m.rows.toList

/-- The number of bindings. -/
def size (m : FirstMap κ α) : Nat := m.rows.size

/-- Whether nothing is bound. -/
def isEmpty (m : FirstMap κ α) : Bool := m.rows.isEmpty

/-- What is bound to the keys, in the order of the bindings. -/
def values (m : FirstMap κ α) : List α := m.entries.map (·.2)

/-- What is bound to a key. -/
def get? (m : FirstMap κ α) (k : κ) : Option α := m.index[k]?

/-- Whether a key is bound. -/
def contains (m : FirstMap κ α) (k : κ) : Bool := (m.get? k).isSome

theorem get?_eq (m : FirstMap κ α) (k : κ) : m.get? k = m.entries.lookup k := m.index_eq k

@[simp] theorem entries_empty : (empty : FirstMap κ α).entries = [] := rfl

theorem size_eq (m : FirstMap κ α) : m.size = m.entries.length := rfl

theorem nodup_keys (m : FirstMap κ α) : (m.entries.map (·.1)).Nodup := m.nodup

theorem get?_eq_none_iff {m : FirstMap κ α} {k : κ} :
    m.get? k = none ↔ k ∉ m.entries.map (·.1) := by
  rw [get?_eq, List.lookup_eq_none_iff]
  simp only [List.mem_map, not_exists, not_and]
  constructor
  · intro h p hp e
    simpa [e] using h p hp
  · intro h p hp
    simpa using fun e : k = p.1 => h p hp e.symm

variable [Std.LawfulEqOrd κ]

/-- A map is its bindings: the index does not tell two maps apart. -/
theorem eq_of_entries {m n : FirstMap κ α} (h : m.entries = n.entries) : m = n := by
  obtain ⟨rows, index, _, hm⟩ := m
  obtain ⟨rows', index', _, hn⟩ := n
  have hrows : rows = rows' := Array.toList_inj.1 h
  subst hrows
  have hindex : index = index' := Std.ExtTreeMap.ext_getElem? fun k => (hm k).trans (hn k).symm
  subst hindex
  rfl

theorem lookup_concat {l : List (κ × α)} {k : κ} (h : l.lookup k = none) (a : α) (k' : κ) :
    (l ++ [(k, a)]).lookup k' = if k = k' then some a else l.lookup k' := by
  rw [List.lookup_append]
  by_cases e : k = k'
  · subst e
    simp [h]
  · have hne : (k' == k) = false := by simpa using fun e' : k' = k => e e'.symm
    simp [e, List.lookup_cons, hne]

/-- The map with a key bound, unless it is bound already. -/
def insert (m : FirstMap κ α) (k : κ) (a : α) : FirstMap κ α :=
  if h : m.get? k = none then
    { rows := m.rows.push (k, a)
      index := m.index.insert k a
      nodup := by
        rw [Array.toList_push, List.map_append, List.nodup_append]
        refine ⟨m.nodup, by simp, ?_⟩
        intro x hx y hy e
        have hy : y = k := by simpa using hy
        exact get?_eq_none_iff.1 h (by rw [← hy, ← e]; exact hx)
      index_eq := fun k' => by
        rw [Array.toList_push, lookup_concat ((m.index_eq k).symm.trans h),
          Std.ExtTreeMap.getElem?_insert, m.index_eq k']
        simp only [Std.LawfulEqCmp.compare_eq_iff_eq] }
  else
    m

/-- A binding that is new comes last; another changes nothing. -/
theorem entries_insert (m : FirstMap κ α) (k : κ) (a : α) :
    (m.insert k a).entries = if m.contains k then m.entries else m.entries ++ [(k, a)] := by
  rw [insert, contains]
  split
  · rename_i h
    simp [h, entries]
  · rename_i h
    simp [Option.isSome_iff_ne_none.2 h]

/-- A key that is bound already is not bound again. -/
theorem insert_of_contains {m : FirstMap κ α} {k : κ} (h : m.contains k = true) (a : α) :
    m.insert k a = m :=
  eq_of_entries (by rw [entries_insert, if_pos h])

/-- A binding that is new is found, and all others stay as they are. -/
theorem get?_insert (m : FirstMap κ α) (k : κ) (a : α) (k' : κ) :
    (m.insert k a).get? k' = (m.get? k').or (if k' = k then some a else none) := by
  cases h : m.get? k with
  | some b =>
      rw [insert_of_contains (by simp [contains, h]) a]
      by_cases e : k' = k
      · subst e
        simp [h]
      · simp [e]
  | none =>
      rw [get?_eq, entries_insert, contains, h, Option.isSome_none, if_neg Bool.false_ne_true,
        lookup_concat ((get?_eq m k).symm.trans h), ← get?_eq]
      by_cases e : k = k'
      · subst e
        simp [h]
      · simp [e, Ne.symm e]

end FirstMap

end ActionSignatures
