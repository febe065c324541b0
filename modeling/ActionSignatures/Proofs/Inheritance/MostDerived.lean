/-
**Which declaration of a prototype wins.**

Of the declarations of a prototype that can be overridden, a context keeps the one that the walk meets
first.  The walk goes by the distance from the root, and a subtype is not always nearer to the root
than its super-type: a root may mention an interface itself that is also a distant ancestor of its
superclass.  The declaration that is kept is therefore a *nearest* one.  This module says exactly when
it is also the most derived one, and gives a hierarchy in which it is not.

Main definitions:

* `ActionSignatures.DeclarationStore.DeclaresConcrete` — a type declares a prototype with a body that
  can be overridden;
* `ActionSignatures.DeclarationStore.IsStrictSubtype` — one type is below another;
* `ActionSignatures.DeclarationStore.MostDerivedWins` — **no subtype of the owner that is kept
  declares the prototype as well**.

Main results:

* `ActionSignatures.DeclarationStore.exists_first_owner` — the owner that is kept is the first
  ancestor to declare the prototype;
* `ActionSignatures.DeclarationStore.IsDistance.lt_of_transGen` — where every reference leads away
  from the root, subtypes are nearer to it;
* `ActionSignatures.DeclarationStore.nearest_declaration_wins` — **the nearest declaration wins**, and
  when it is the most derived one.
-/

import ActionSignatures.Proofs.Inheritance.Classification
import ActionSignatures.Proofs.Inheritance.Levels

set_option relaxedAutoImplicit false
set_option autoImplicit false

namespace ActionSignatures

/-- The first one of its sort among lists put together is in the first list that has one. -/
theorem exists_append_of_find?_flatMap {α β : Type} {f : α → List β} {wanted : β → Bool}
    {l : List α} {x : β} (h : (l.flatMap f).find? wanted = some x) :
    ∃ before a after, l = before ++ a :: after ∧ x ∈ f a ∧ wanted x = true ∧
      ∀ b ∈ before, ∀ y ∈ f b, wanted y = false := by
  induction l with
  | nil => simp at h
  | cons a l ih =>
      rw [List.flatMap_cons, List.find?_append] at h
      cases hfind : (f a).find? wanted with
      | some y =>
          rw [hfind, Option.some_or, Option.some.injEq] at h
          subst h
          exact ⟨[], a, l, rfl, List.mem_of_find?_eq_some hfind, List.find?_some hfind,
            fun b hb => absurd hb List.not_mem_nil⟩
      | none =>
          rw [hfind, Option.none_or] at h
          obtain ⟨before, c, after, rfl, hx, hwanted, hbefore⟩ := ih h
          refine ⟨a :: before, c, after, rfl, hx, hwanted, fun b hb y hy => ?_⟩
          rcases List.mem_cons.1 hb with rfl | hb
          · simpa using List.find?_eq_none.1 hfind y hy
          · exact hbefore b hb y hy

namespace DeclarationStore

/-! ### Declarations of a prototype -/

/-- **A type declares a prototype with a body that can be overridden**: subtypes inherit an operation
of it that is neither abstract nor final and has the prototype, as the root sees it. -/
def DeclaresConcrete (s : DeclarationStore) (rules : WalkRules) (p : Prototype) (name : String) :
    Prop :=
  ∃ op ∈ s.operationsOf rules name,
    op.prototype = p ∧ op.isAbstract = false ∧ op.isFinal = false

/-- One type is a strict subtype of another: references that are not passed over lead from it to the
other in one or more steps. -/
def IsStrictSubtype (s : DeclarationStore) (excludes : String → Bool) (b a : String) : Prop :=
  ∃ i j, s.idOf? b = some i ∧ s.idOf? a = some j ∧ Relation.TransGen (s.LeadsTo excludes) i j

/-- **The most derived declaration of a prototype wins**: where the context of a root keeps an
operation that can be overridden, no other ancestor that declares the prototype so is a strict subtype
of its owner. -/
def MostDerivedWins (s : DeclarationStore) (options : ResolverOptions) (root : DeclId)
    (excluded : List String) (p : Prototype) : Prop :=
  ∀ op, (s.inheritance options root excluded).overridableOperations[p]? = some op →
    ∀ b ∈ (s.inheritance options root excluded).ancestors.toList, b ≠ op.owner →
      s.IsStrictSubtype (options.excludes excluded) b op.owner →
        ¬s.DeclaresConcrete (s.walkRules options root excluded) p b

/-- Every operation of a type is owned by it. -/
theorem owner_of_mem_operationsOf {s : DeclarationStore} {rules : WalkRules} {name : String}
    {op : InheritedOperation} (h : op ∈ s.operationsOf rules name) : op.owner = name := by
  cases hid : s.idOf? name with
  | none => simp [operationsOf, hid] at h
  | some id =>
      obtain ⟨d, hd, hname⟩ := get?_of_idOf? hid
      rw [operationsOf_eq rules hid hd, TypeDeclaration.inheritedOperations] at h
      obtain ⟨declared, _, rfl⟩ := List.mem_map.1 h
      exact hname

section

variable {s : DeclarationStore} {options : ResolverOptions} {root : DeclId}
  {excluded : List String} {p : Prototype} {op : InheritedOperation}

/-- **The owner that is kept is the first ancestor to declare the prototype.** -/
theorem exists_first_owner
    (h : (s.inheritance options root excluded).overridableOperations[p]? = some op) :
    ∃ before after,
      (s.inheritance options root excluded).ancestors.toList = before ++ op.owner :: after ∧
      s.DeclaresConcrete (s.walkRules options root excluded) p op.owner ∧
      ∀ b ∈ before, ¬s.DeclaresConcrete (s.walkRules options root excluded) p b := by
  rw [getElem?_overridableOperations_inheritance] at h
  have hfirst := (List.takeWhile_prefix _).find?_eq_some h
  rw [walkedOperations] at hfirst
  obtain ⟨before, a, after, hsplit, hop, hwanted, hbefore⟩ :=
    exists_append_of_find?_flatMap hfirst
  simp only [Bool.and_eq_true, decide_eq_true_eq, InheritedOperation.isConcrete_eq_true_iff]
    at hwanted
  have howner : op.owner = a := owner_of_mem_operationsOf hop
  rw [howner]
  refine ⟨before, after, hsplit, ⟨op, hop, hwanted⟩, ?_⟩
  rintro b hb ⟨other, hother, hp, hconcrete⟩
  have hnot := hbefore b hb other hother
  rw [decide_eq_true hp, InheritedOperation.isConcrete_eq_true_iff.2 hconcrete] at hnot
  exact absurd hnot (by simp)

/-- The first one of the operations walked is kept if it can be overridden. -/
theorem getElem?_overridableOperations_of_cons {after : List InheritedOperation}
    (h : s.walkedOperations options root excluded = op :: after) (habstract : op.isAbstract = false)
    (hfinal : op.isFinal = false) :
    (s.inheritance options root excluded).overridableOperations[op.prototype]? = some op := by
  rw [getElem?_overridableOperations_inheritance, h]
  simp [habstract, hfinal, InheritedOperation.isConcrete]

/-- Where every reference leads away from the root, whatever is reached in one or more steps is
farther from the root. -/
theorem IsDistance.lt_of_transGen {excludes : String → Bool}
    (away : ∀ i j m n, s.LeadsTo excludes i j → s.IsDistance excludes root m i →
      s.IsDistance excludes root n j → m < n)
    {i j : DeclId} {m n : Nat} (hm : s.IsDistance excludes root m i)
    (h : Relation.TransGen (s.LeadsTo excludes) i j) (hn : s.IsDistance excludes root n j) :
    m < n := by
  induction h generalizing n with
  | single hij => exact away _ _ m n hij hm hn
  | @tail k l _ hkl ih =>
      -- what lies in between has a distance, as the root reaches it through the first declaration
      have hreach : Relation.TransGen (s.LeadsTo excludes) i k := by assumption
      obtain ⟨steps, hk⟩ := hm.path.exists_of_transGen hreach
      obtain ⟨d, _, hd⟩ := hk.exists_isDistance
      have hmd := ih hd
      have hdn := away k l d n hkl hd hn
      omega

/-- **The nearest declaration wins.**  The owner that is kept is the first ancestor to declare the
prototype, and no ancestor behind it is nearer to the root.  So the most derived declaration wins if
and only if none of the ancestors behind the owner is a strict subtype of it that declares the
prototype.  This is the case wherever every reference leads away from the root. -/
theorem nearest_declaration_wins (s : DeclarationStore) (options : ResolverOptions) (root : DeclId)
    (excluded : List String) (p : Prototype) (op : InheritedOperation)
    (htruncated : (s.inheritance options root excluded).truncated = none)
    (hop : (s.inheritance options root excluded).overridableOperations[p]? = some op) :
    let excludes := options.excludes excluded
    let declares := s.DeclaresConcrete (s.walkRules options root excluded) p
    ∃ before after,
      (s.inheritance options root excluded).ancestors.toList = before ++ op.owner :: after ∧
      declares op.owner ∧ (∀ b ∈ before, ¬declares b) ∧
      (∀ b ∈ after, ∃ i j m n, s.idOf? op.owner = some i ∧ s.idOf? b = some j ∧
        s.IsDistance excludes root m i ∧ s.IsDistance excludes root n j ∧ m ≤ n) ∧
      (s.MostDerivedWins options root excluded p ↔
        ∀ b ∈ after, s.IsStrictSubtype excludes b op.owner → ¬declares b) ∧
      ((∀ i j m n, s.LeadsTo excludes i j → s.IsDistance excludes root m i →
          s.IsDistance excludes root n j → m < n) →
        s.MostDerivedWins options root excluded p) := by
  intro excludes declares
  obtain ⟨before, after, hsplit, howner, hbefore⟩ := exists_first_owner hop
  have hcut := (s.truncated_inheritance_eq_none_iff options root excluded).1 htruncated
  have hfarther : ∀ b ∈ after, ∃ i j m n, s.idOf? op.owner = some i ∧ s.idOf? b = some j ∧
      s.IsDistance excludes root m i ∧ s.IsDistance excludes root n j ∧ m ≤ n := by
    have hpairwise := pairwise_isDistance_ancestors hcut
    rw [hsplit, List.pairwise_append, List.pairwise_cons] at hpairwise
    exact hpairwise.2.1.1
  have hne : ∀ b ∈ after, b ≠ op.owner := by
    have hnodup := s.nodup_ancestors options root excluded
    rw [hsplit, List.nodup_append, List.nodup_cons] at hnodup
    intro b hb heq
    exact hnodup.2.1.1 (heq ▸ hb)
  have hwins : s.MostDerivedWins options root excluded p ↔
      ∀ b ∈ after, s.IsStrictSubtype excludes b op.owner → ¬declares b := by
    constructor
    · intro h b hb hsub
      have hmem : b ∈ (s.inheritance options root excluded).ancestors.toList := by
        rw [hsplit]
        exact List.mem_append_right before (List.mem_cons_of_mem op.owner hb)
      exact h op hop b hmem (hne b hb) hsub
    · intro h other hother b hb hother_ne hsub
      obtain rfl : op = other := Option.some.inj (hop.symm.trans hother)
      rw [hsplit, List.mem_append, List.mem_cons] at hb
      rcases hb with hb | rfl | hb
      · exact hbefore b hb
      · exact absurd rfl hother_ne
      · exact h b hb hsub
  refine ⟨before, after, hsplit, howner, hbefore, hfarther, hwins, fun away => hwins.2 ?_⟩
  -- behind the owner nothing is nearer to the root, but a subtype would be
  rintro b hb ⟨i, j, hi, hj, hreach⟩
  obtain ⟨j', i', m, n, hj', hi', hm, hn, hle⟩ := hfarther b hb
  obtain rfl : j = j' := Option.some.inj (hj.symm.trans hj')
  obtain rfl : i = i' := Option.some.inj (hi.symm.trans hi')
  have := hn.lt_of_transGen away hreach hm
  omega

end

/-! ### A chain in which the most derived declaration wins -/

/-- A chain of three classes, of which the two upper ones declare the same operation. -/
def overridingChain : DeclarationStore :=
  .ofList
    [{ name := "Base", operations := [{ name := "run" }] },
      { name := "Middle", superclass := some (.named "Base"), operations := [{ name := "run" }] },
      { name := "Root", superclass := some (.named "Middle") }]

/-- In the chain a reference leads from one class to the one registered before it. -/
theorem succ_eq_of_leadsTo_overridingChain {i j : DeclId}
    (h : overridingChain.LeadsTo (({} : ResolverOptions).excludes []) i j) :
    j.index + 1 = i.index :=
  h.of_forall_ids (motive := fun i j => j.index + 1 = i.index) (by decide)

/-- In the chain the distance from the root is the number of registrations in between. -/
theorem index_add_of_path_overridingChain {n : Nat} {i : DeclId}
    (h : overridingChain.Path (({} : ResolverOptions).excludes []) ⟨3⟩ n i) :
    i.index + n = 3 := by
  induction h with
  | nil => rfl
  | concat _ hij ih =>
      have := succ_eq_of_leadsTo_overridingChain hij
      omega

/-- What the context of the chain's root keeps for the operation is the lower declaration. -/
theorem exists_overridable_overridingChain :
    ∃ op, (overridingChain.inheritance {} ⟨3⟩ []).overridableOperations[
        (⟨"run", .empty⟩ : Prototype)]? = some op ∧ op.owner = "Middle" := by
  have hwalked : overridingChain.walked {} ⟨3⟩ [] =
      [(⟨2⟩,
          { name := "Middle", superclass := some (.named "Base"),
            operations := [{ name := "run" }] }),
        (⟨1⟩, { name := "Base", operations := [{ name := "run" }] })] := by
    decide
  have hops : ∃ op after, overridingChain.walkedOperations {} ⟨3⟩ [] = op :: after ∧
      op.prototype = ⟨"run", .empty⟩ ∧ op.isAbstract = false ∧ op.isFinal = false ∧
      op.owner = "Middle" := by
    rw [walkedOperations_eq, hwalked]
    exact ⟨_, _, rfl, rfl, rfl, rfl, rfl⟩
  obtain ⟨op, after, hops, hp, habstract, hfinal, howner⟩ := hops
  rw [← hp]
  exact ⟨op, getElem?_overridableOperations_of_cons hops habstract hfinal, howner⟩

/-- In the chain every reference leads away from the root, so that the most derived declaration
wins. -/
theorem most_derived_wins_overridingChain :
    ∃ op, (overridingChain.inheritance {} ⟨3⟩ []).truncated = none ∧
      (overridingChain.inheritance {} ⟨3⟩ []).overridableOperations[
        (⟨"run", .empty⟩ : Prototype)]? = some op ∧
      overridingChain.MostDerivedWins {} ⟨3⟩ [] ⟨"run", .empty⟩ := by
  have htruncated : (overridingChain.inheritance {} ⟨3⟩ []).truncated = none := by
    rw [truncated_inheritance_eq_none_iff]
    decide
  obtain ⟨op, hop, _⟩ := exists_overridable_overridingChain
  obtain ⟨_, _, _, _, _, _, _, hwins⟩ :=
    nearest_declaration_wins overridingChain {} ⟨3⟩ [] ⟨"run", .empty⟩ op htruncated hop
  refine ⟨op, htruncated, hop, hwins fun i j m n hij hm hn => ?_⟩
  have := succ_eq_of_leadsTo_overridingChain hij
  have := index_add_of_path_overridingChain hm.path
  have := index_add_of_path_overridingChain hn.path
  omega

/-! ### A shortcut past the most derived declaration -/

/-- A class that mentions an interface itself, which is also a super-type of an interface of its
superclass; both interfaces declare the same operation. -/
def shortcut : DeclarationStore :=
  .ofList
    [{ name := "A", kind := .interfaceType, operations := [{ name := "run" }] },
      { name := "B", kind := .interfaceType, interfaces := [.named "A"],
        operations := [{ name := "run" }] },
      { name := "M", interfaces := [.named "B"] },
      { name := "Root", superclass := some (.named "M"), interfaces := [.named "A"] }]

/-- The ancestors of the root in the order of the walk: the interface that the root mentions comes
before the one that extends it. -/
theorem walked_shortcut : shortcut.walked {} ⟨4⟩ [] =
    [(⟨3⟩, { name := "M", interfaces := [.named "B"] }),
      (⟨1⟩, { name := "A", kind := .interfaceType, operations := [{ name := "run" }] }),
      (⟨2⟩,
        { name := "B", kind := .interfaceType, interfaces := [.named "A"],
          operations := [{ name := "run" }] })] := by
  decide

/-- What the context of the root keeps for the operation is the declaration of the interface that the
root mentions. -/
theorem exists_overridable_shortcut :
    ∃ op, (shortcut.inheritance {} ⟨4⟩ []).overridableOperations[
        (⟨"run", .empty⟩ : Prototype)]? = some op ∧ op.owner = "A" := by
  have hops : ∃ op after, shortcut.walkedOperations {} ⟨4⟩ [] = op :: after ∧
      op.prototype = ⟨"run", .empty⟩ ∧ op.isAbstract = false ∧ op.isFinal = false ∧
      op.owner = "A" := by
    rw [walkedOperations_eq, walked_shortcut]
    exact ⟨_, _, rfl, rfl, rfl, rfl, rfl⟩
  obtain ⟨op, after, hops, hp, habstract, hfinal, howner⟩ := hops
  rw [← hp]
  exact ⟨op, getElem?_overridableOperations_of_cons hops habstract hfinal, howner⟩

/-- The less derived declaration wins where the root mentions its owner itself, although the
super-type relation has no cycle and nothing is cut short or passed over. -/
theorem less_derived_wins_shortcut :
    (∀ i, ¬Relation.TransGen (shortcut.LeadsTo (({} : ResolverOptions).excludes [])) i i) ∧
      (shortcut.inheritance {} ⟨4⟩ []).truncated = none ∧
      ¬shortcut.MostDerivedWins {} ⟨4⟩ [] ⟨"run", .empty⟩ := by
  refine ⟨not_transGen_leadsTo_self fun i j hij => ?_, ?_, fun hwins => ?_⟩
  · exact hij.of_forall_ids (motive := fun i j => j.index < i.index) (by decide)
  · rw [truncated_inheritance_eq_none_iff]
    decide
  · obtain ⟨op, hop, howner⟩ := exists_overridable_shortcut
    have hB : shortcut.idOf? "B" = some ⟨2⟩ := by
      rw [idOf?_eq]
      rfl
    have hA : shortcut.idOf? "A" = some ⟨1⟩ := by
      rw [idOf?_eq]
      rfl
    refine hwins op hop "B" ?_ ?_ ?_ ?_
    · rw [ancestors_inheritance, walked_shortcut]
      simp
    · rw [howner]
      decide
    · rw [howner]
      exact ⟨⟨2⟩, ⟨1⟩, hB, hA, .single (mem_targets_iff.1 (by decide))⟩
    · rw [DeclaresConcrete, operationsOf_eq _ hB (show shortcut.get? ⟨2⟩ = some _ from rfl)]
      exact ⟨_, List.mem_singleton.2 rfl, rfl, rfl, rfl⟩

end DeclarationStore

end ActionSignatures
