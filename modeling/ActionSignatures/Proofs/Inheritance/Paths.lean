/-
**Paths of super-type references.**

A super-type reference leads from one declaration of a store to another, unless it is no nominal one,
names nothing that is registered, or names a type that is passed over.  The references of all
declarations together make a graph, which may have cycles and in which one declaration may be reached
in many ways.  This module defines the paths of that graph by their length, and the distance of a
declaration from a root as the length of a shortest path.

Main definitions:

* `ActionSignatures.DeclarationStore.references` — the super-type references of a declaration;
* `ActionSignatures.DeclarationStore.LeadsTo` — **a reference of one declaration leads to another**;
* `ActionSignatures.DeclarationStore.targets` — where the references of a declaration lead, in the
  order of the references;
* `ActionSignatures.DeclarationStore.Path`, `ActionSignatures.DeclarationStore.IsDistance` — paths of
  a length, and **the length of a shortest path**.

Main results:

* `ActionSignatures.DeclarationStore.mem_targets_iff` — the targets are what the references lead to;
* `ActionSignatures.DeclarationStore.transGen_leadsTo_iff` — what is reached in some steps is reached
  by a path of positive length;
* `ActionSignatures.DeclarationStore.Path.exists_isDistance`,
  `ActionSignatures.DeclarationStore.IsDistance.unique` — what a path reaches has one distance;
* `ActionSignatures.DeclarationStore.IsDistance.exists_pred` — a shortest path passes through a
  declaration that is nearer by one.
-/

import ActionSignatures.Proofs.Inheritance.Findings
import Mathlib.Logic.Relation

set_option relaxedAutoImplicit false
set_option autoImplicit false

namespace ActionSignatures

namespace DeclarationStore

/-! ### Where references lead -/

/-- The super-type references of a declaration, the superclass before the interfaces. -/
def references (s : DeclarationStore) (i : DeclId) : List TypeRef :=
  (s.get? i).toList.flatMap (·.supertypes)

/-- **A reference of one declaration leads to another**: it is nominal, the name is registered and not
passed over, and stands for the other declaration. -/
def LeadsTo (s : DeclarationStore) (excludes : String → Bool) (i j : DeclId) : Prop :=
  ∃ d, s.get? i = some d ∧ ∃ t ∈ d.supertypes, ∃ name,
    t.declaredName? = some name ∧ excludes name = false ∧ s.idOf? name = some j

/-- Where a reference leads, unless the name is passed over. -/
def target? (s : DeclarationStore) (excludes : String → Bool) (t : TypeRef) : Option DeclId :=
  (t.declaredName?.filter (!excludes ·)).bind (latestId? · s.declarations.toList)

/-- **Where the references of a declaration lead**, in the order of the references. -/
def targets (s : DeclarationStore) (excludes : String → Bool) (i : DeclId) : List DeclId :=
  match s.get? i with
  | some d => d.supertypes.filterMap (s.target? excludes)
  | none => []

variable {s : DeclarationStore} {excludes : String → Bool}

theorem target?_eq_some_iff {t : TypeRef} {j : DeclId} :
    s.target? excludes t = some j ↔
      ∃ name, t.declaredName? = some name ∧ excludes name = false ∧ s.idOf? name = some j := by
  simp only [target?, Option.bind_eq_some_iff, Option.filter_eq_some_iff, ← idOf?_eq, and_assoc,
    Bool.not_eq_true']

theorem target?_of_excluded {t : TypeRef} (h : t.declaredName?.any excludes = true) :
    s.target? excludes t = none := by
  cases hname : t.declaredName? with
  | none => simp [target?, hname]
  | some name =>
      rw [hname, Option.any_some] at h
      simp [target?, hname, h]

/-- A reference to a name that is not passed over leads to the declaration that the name stands
for. -/
theorem target?_of_not_excluded {t : TypeRef} (h : ¬t.declaredName?.any excludes = true) :
    s.target? excludes t = (s.ancestor? t).map (·.1) := by
  have hid : s.target? excludes t = s.resolveType? t := by
    cases hname : t.declaredName? with
    | none => simp [target?, resolveType?, hname]
    | some name =>
        rw [hname, Option.any_some] at h
        simp [target?, resolveType?, hname, Option.filter, h, ← idOf?_eq]
  rw [hid]
  cases hn : s.ancestor? t with
  | none => rw [ancestor?_eq_none_iff.1 hn, Option.map_none]
  | some a => rw [(ancestor?_eq_some_iff.1 hn).1, Option.map_some]

theorem targets_of_get? {i : DeclId} {d : TypeDeclaration} (h : s.get? i = some d) :
    s.targets excludes i = d.supertypes.filterMap (s.target? excludes) := by
  rw [targets, h]

theorem targets_of_get?_eq_none {i : DeclId} (h : s.get? i = none) :
    s.targets excludes i = [] := by
  rw [targets, h]

/-- The targets of a declaration are what its references lead to. -/
theorem mem_targets_iff {i j : DeclId} : j ∈ s.targets excludes i ↔ s.LeadsTo excludes i j := by
  constructor
  · intro hj
    cases hd : s.get? i with
    | none =>
        rw [targets_of_get?_eq_none hd] at hj
        exact absurd hj List.not_mem_nil
    | some d =>
        rw [targets_of_get? hd] at hj
        obtain ⟨t, ht, htarget⟩ := List.mem_filterMap.1 hj
        exact ⟨d, hd, t, ht, target?_eq_some_iff.1 htarget⟩
  · rintro ⟨d, hd, t, ht, hname⟩
    rw [targets_of_get? hd]
    exact List.mem_filterMap.2 ⟨t, ht, target?_eq_some_iff.2 hname⟩

theorem mem_ids_of_get? {i : DeclId} {d : TypeDeclaration} (h : s.get? i = some d) :
    i ∈ s.ids := by
  rw [get?] at h
  split at h
  · cases h
  · rename_i hpos
    obtain ⟨hlt, _⟩ := Array.getElem?_eq_some_iff.1 h
    have hsize : s.size = s.declarations.size := rfl
    refine List.mem_map.2 ⟨i.index, ?_, rfl⟩
    rw [List.mem_range'_1]
    omega

/-- What holds of all declarations and their targets holds wherever a reference leads. -/
theorem LeadsTo.of_forall_ids {motive : DeclId → DeclId → Prop} {i j : DeclId}
    (h : s.LeadsTo excludes i j)
    (all : ∀ i ∈ s.ids, ∀ j ∈ s.targets excludes i, motive i j) : motive i j := by
  have hj := mem_targets_iff.2 h
  obtain ⟨d, hd, _⟩ := h
  exact all i (mem_ids_of_get? hd) j hj

/-- Where every reference leads to an earlier registration there is no cycle. -/
theorem not_transGen_leadsTo_self (earlier : ∀ i j, s.LeadsTo excludes i j → j.index < i.index)
    (i : DeclId) : ¬Relation.TransGen (s.LeadsTo excludes) i i := by
  have hless : ∀ j, Relation.TransGen (s.LeadsTo excludes) i j → j.index < i.index := by
    intro j hij
    induction hij with
    | single hij => exact earlier i _ hij
    | tail _ hjk ih => exact Nat.lt_trans (earlier _ _ hjk) ih
  exact fun hcycle => absurd (hless i hcycle) (Nat.lt_irrefl _)

/-! ### Paths and distances -/

/-- **A path of references** of a given length from a root to a declaration. -/
inductive Path (s : DeclarationStore) (excludes : String → Bool) (root : DeclId) :
    Nat → DeclId → Prop
  | nil : Path s excludes root 0 root
  | concat {n : Nat} {i j : DeclId} : Path s excludes root n i → s.LeadsTo excludes i j →
      Path s excludes root (n + 1) j

/-- **The distance** of a declaration from a root: the length of a shortest path. -/
structure IsDistance (s : DeclarationStore) (excludes : String → Bool) (root : DeclId) (n : Nat)
    (i : DeclId) : Prop where
  path : s.Path excludes root n i
  least : ∀ m, s.Path excludes root m i → n ≤ m

variable {root : DeclId}

theorem path_succ_iff {n : Nat} {j : DeclId} :
    s.Path excludes root (n + 1) j ↔
      ∃ i, s.Path excludes root n i ∧ s.LeadsTo excludes i j := by
  constructor
  · intro h
    cases h with
    | concat hi hij => exact ⟨_, hi, hij⟩
  · rintro ⟨i, hi, hij⟩
    exact hi.concat hij

/-- What is reached from a root in one or more steps is reached by a path of positive length. -/
theorem transGen_leadsTo_iff {i : DeclId} :
    Relation.TransGen (s.LeadsTo excludes) root i ↔ ∃ n, s.Path excludes root (n + 1) i := by
  constructor
  · intro h
    induction h with
    | single hi => exact ⟨0, Path.nil.concat hi⟩
    | tail _ hij ih =>
        obtain ⟨n, hn⟩ := ih
        exact ⟨n + 1, hn.concat hij⟩
  · rintro ⟨n, h⟩
    -- the last step of the path is the last step of the closure
    induction n generalizing i with
    | zero =>
        obtain ⟨j, hj, hji⟩ := path_succ_iff.1 h
        cases hj
        exact .single hji
    | succ n ih =>
        obtain ⟨j, hj, hji⟩ := path_succ_iff.1 h
        exact (ih hj).tail hji

/-- A path goes on with the steps that its end makes. -/
theorem Path.exists_of_transGen {n : Nat} {i j : DeclId} (h : s.Path excludes root n i)
    (hij : Relation.TransGen (s.LeadsTo excludes) i j) : ∃ m, s.Path excludes root m j := by
  induction hij with
  | single hij => exact ⟨n + 1, h.concat hij⟩
  | tail _ hjk ih =>
      obtain ⟨m, hm⟩ := ih
      exact ⟨m + 1, hm.concat hjk⟩

/-- What a path reaches has a distance, which is at most the length of the path. -/
theorem Path.exists_isDistance {n : Nat} {i : DeclId} (h : s.Path excludes root n i) :
    ∃ m ≤ n, s.IsDistance excludes root m i := by
  induction n using Nat.strongRecOn with
  | ind n ih =>
      by_cases hleast : ∀ m, s.Path excludes root m i → n ≤ m
      · exact ⟨n, Nat.le_refl n, h, hleast⟩
      · obtain ⟨m, hshorter⟩ := not_forall.1 hleast
        obtain ⟨hm, hlt⟩ := Classical.not_imp.1 hshorter
        obtain ⟨k, hk, hdistance⟩ := ih m (by omega) hm
        exact ⟨k, by omega, hdistance⟩

namespace IsDistance

theorem root_self : s.IsDistance excludes root 0 root := ⟨.nil, fun m _ => Nat.zero_le m⟩

/-- A declaration has one distance. -/
theorem unique {m n : Nat} {i : DeclId} (hm : s.IsDistance excludes root m i)
    (hn : s.IsDistance excludes root n i) : m = n :=
  Nat.le_antisymm (hm.least n hn.path) (hn.least m hm.path)

theorem eq_root {i : DeclId} (h : s.IsDistance excludes root 0 i) : i = root := by
  cases h.path
  rfl

/-- A shortest path passes through a declaration that is nearer by one. -/
theorem exists_pred {n : Nat} {j : DeclId} (h : s.IsDistance excludes root (n + 1) j) :
    ∃ i, s.IsDistance excludes root n i ∧ s.LeadsTo excludes i j := by
  obtain ⟨i, hi, hij⟩ := path_succ_iff.1 h.path
  refine ⟨i, ⟨hi, fun m hm => ?_⟩, hij⟩
  have hshort := h.least (m + 1) (hm.concat hij)
  omega

end IsDistance

end DeclarationStore

end ActionSignatures
