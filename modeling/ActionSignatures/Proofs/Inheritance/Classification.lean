/-
**Which operations are final, overridable, or to be implemented.**

The walk from a root meets the operations of the ancestors one after another and enters each into one
of three maps, taking others out again.  This module says what the maps hold in the end, by the
sequence of the operations alone: a prototype is final where some operation with it is final, it is to
be implemented where all operations with it wait for a body, and it is overridable where a concrete
operation with it comes before every final one.

Main definitions:

* `ActionSignatures.DeclarationStore.operationsOf` — the operations that subtypes inherit from the
  declaration of a name;
* `ActionSignatures.DeclarationStore.walkedOperations` — **the operations of the ancestors walked**,
  in the order of the walk.

Main results:

* `ActionSignatures.DeclarationStore.standing_inheritance` — how a prototype stands in the context of
  a root, by the operations walked;
* `ActionSignatures.DeclarationStore.mem_walkedOperations_iff_exists` — which operations are walked;
* `ActionSignatures.DeclarationStore.operations_classified` — **what the three maps hold**;
* `ActionSignatures.DeclarationStore.operation_keys_overlap` — which of the maps have a prototype in
  common, and when.
-/

import ActionSignatures.Proofs.Inheritance.Findings
import ActionSignatures.Proofs.Inheritance.Standing
import Mathlib.Data.List.Basic

set_option relaxedAutoImplicit false
set_option autoImplicit false

namespace ActionSignatures

/-! ### The operations of the ancestors walked -/

/-- The operations that subtypes inherit from a declaration, in the order in which they are
declared, with their types as the root sees them. -/
def TypeDeclaration.inheritedOperations (d : TypeDeclaration) (rules : WalkRules) (id : DeclId) :
    List InheritedOperation :=
  (d.operations.filter rules.inherits).map (.of d id rules.bindings)

/-- Subtypes inherit from a declaration what it declares neither as static nor as private, generated
operations only where they are not left out. -/
theorem TypeDeclaration.mem_inheritedOperations_iff {d : TypeDeclaration} {rules : WalkRules}
    {id : DeclId} {op : InheritedOperation} :
    op ∈ d.inheritedOperations rules id ↔
      ∃ declared ∈ d.operations,
        (declared.isStatic = false ∧ declared.visibility ≠ .owner ∧
          (declared.isSynthetic && rules.options.skipSynthetic) = false) ∧
        .of d id rules.bindings declared = op := by
  simp only [inheritedOperations, List.mem_map, List.mem_filter, and_assoc, WalkRules.inherits,
    ResolverOptions.inherits_eq_true_iff]

namespace DeclarationStore

/-- The operations that subtypes inherit from the declaration that a name stands for. -/
def operationsOf (s : DeclarationStore) (rules : WalkRules) (name : String) :
    List InheritedOperation :=
  match s.idOf? name with
  | some id => (s.get? id).toList.flatMap (·.inheritedOperations rules id)
  | none => []

theorem operationsOf_eq {s : DeclarationStore} (rules : WalkRules) {name : String} {id : DeclId}
    {d : TypeDeclaration} (hid : s.idOf? name = some id) (hd : s.get? id = some d) :
    s.operationsOf rules name = d.inheritedOperations rules id := by
  simp [operationsOf, hid, hd]

/-- **The operations of the ancestors walked** from a root, in the order of the walk, and in that of
their declarations inside one ancestor. -/
def walkedOperations (s : DeclarationStore) (options : ResolverOptions) (root : DeclId)
    (excluded : List String) : List InheritedOperation :=
  (s.inheritance options root excluded).ancestors.toList.flatMap
    (s.operationsOf (s.walkRules options root excluded))

end DeclarationStore

/-! ### What the findings of a walk leave -/

namespace InheritanceContext

theorem standing_recordField (c : InheritanceContext) (owner : TypeDeclaration) (b : TypeBindings)
    (field : Field) (p : Prototype) : (c.recordField owner b field).standing p = c.standing p := by
  rw [recordField_eq]
  rfl

theorem standing_recordConstructor (c : InheritanceContext) (owner : TypeDeclaration)
    (b : TypeBindings) (constructor : Constructor) (p : Prototype) :
    (c.recordConstructor owner b constructor).standing p = c.standing p := by
  rw [recordConstructor_eq]
  rfl

end InheritanceContext

/-- Of the members of a declaration only the operations that are inherited change how a prototype
stands. -/
theorem AncestorWalk.standing_collect (rules : WalkRules) (c : InheritanceContext) (id : DeclId)
    (d : TypeDeclaration) (isRootSuperclass : Bool) (p : Prototype) :
    (collect rules c id d isRootSuperclass).standing p =
      ((d.inheritedOperations rules id).foldl InheritanceContext.recordOperation c).standing p := by
  have hstart : ({ c with ancestors := c.ancestors.push d.name } : InheritanceContext).standing p =
      c.standing p := rfl
  rw [collect_eq,
    foldl_keeps (InheritanceContext.standing · p) fun c _ =>
      InheritanceContext.standing_recordConstructor c ..,
    foldl_keeps (InheritanceContext.standing · p) fun c _ =>
      InheritanceContext.standing_recordField c ..,
    TypeDeclaration.inheritedOperations, ← List.foldl_map, InheritanceContext.standing_foldl,
    InheritanceContext.standing_foldl, hstart]

/-- How a prototype stands when findings have been entered: it depends on the operations of the
ancestors alone. -/
theorem Finding.standing_foldl_enter (rules : WalkRules) (fs : List Finding)
    (c : InheritanceContext) (p : Prototype) :
    (fs.foldl (enter rules) c).standing p =
      (((fs.filterMap ancestor?).flatMap fun a => a.2.inheritedOperations rules a.1).foldl
        InheritanceContext.recordOperation c).standing p := by
  induction fs generalizing c with
  | nil => rfl
  | cons f fs ih =>
      rw [List.foldl_cons, ih]
      cases f with
      | ancestor id d isRootSuperclass =>
          rw [List.filterMap_cons_some (ancestor?_ancestor ..), List.flatMap_cons,
            List.foldl_append, InheritanceContext.standing_foldl,
            InheritanceContext.standing_foldl]
          exact congrArg (List.foldl Standing.after · _)
            (AncestorWalk.standing_collect rules c id d isRootSuperclass p)
      | unresolved e =>
          rw [List.filterMap_cons_none (ancestor?_unresolved e),
            InheritanceContext.standing_foldl, InheritanceContext.standing_foldl]
          rfl

/-- How a prototype stands when nothing but findings has been entered. -/
theorem Finding.standing_foldl_enter_empty (rules : WalkRules) (fs : List Finding)
    (p : Prototype) :
    (fs.foldl (enter rules) {}).standing p =
      Standing.ofList
        (((fs.filterMap ancestor?).flatMap fun a => a.2.inheritedOperations rules a.1).filter
          (·.prototype = p)) := by
  rw [← Standing.foldl_after]
  exact (standing_foldl_enter ..).trans (InheritanceContext.standing_foldl ..)

namespace DeclarationStore

variable (s : DeclarationStore) (options : ResolverOptions) (root : DeclId) (excluded : List String)

/-- The operations walked are those of the ancestors visited, as every name stands for the
declaration that is visited under it. -/
theorem walkedOperations_eq :
    s.walkedOperations options root excluded =
      (s.walked options root excluded).flatMap fun a =>
        a.2.inheritedOperations (s.walkRules options root excluded) a.1 := by
  rw [walkedOperations, ancestors_inheritance, List.flatMap_map]
  refine List.flatMap_congr fun a ha => ?_
  obtain ⟨hid, hd⟩ := s.idOf?_of_mem_walked options root excluded ha
  exact operationsOf_eq _ hid hd

theorem mem_walkedOperations_iff {s : DeclarationStore} {options : ResolverOptions} {root : DeclId}
    {excluded : List String} {op : InheritedOperation} :
    op ∈ s.walkedOperations options root excluded ↔
      ∃ a ∈ s.walked options root excluded,
        op ∈ a.2.inheritedOperations (s.walkRules options root excluded) a.1 := by
  rw [walkedOperations_eq, List.mem_flatMap]

/-- **How a prototype stands in the context of a root**, by the operations walked. -/
theorem standing_inheritance (p : Prototype) :
    (s.inheritance options root excluded).standing p =
      Standing.ofList ((s.walkedOperations options root excluded).filter (·.prototype = p)) := by
  obtain ⟨truncated, hc⟩ := s.exists_inheritance_eq options root excluded
  rw [hc, walkedOperations_eq]
  exact Finding.standing_foldl_enter_empty ..

end DeclarationStore

/-! ### The first ones among all operations -/

/-- Something is found in front of everything that stops the search, if and only if the list splits
there. -/
theorem find?_takeWhile_isSome_iff {α : Type} {wanted stops : α → Bool} {l : List α}
    (apart : ∀ x, wanted x = true → stops x = false) :
    ((l.takeWhile (!stops ·)).find? wanted).isSome = true ↔
      ∃ before x after, l = before ++ x :: after ∧ wanted x = true ∧
        ∀ y ∈ before, stops y = false := by
  rw [List.find?_isSome]
  constructor
  · rintro ⟨x, hx, hwanted⟩
    obtain ⟨before, after, hsplit⟩ := List.append_of_mem hx
    refine ⟨before, x, after ++ l.dropWhile (!stops ·), ?_, hwanted, fun y hy => ?_⟩
    · rw [← List.cons_append, ← List.append_assoc, ← hsplit, List.takeWhile_append_dropWhile]
    · have hmem : y ∈ l.takeWhile (!stops ·) := by
        rw [hsplit]
        exact List.mem_append_left _ hy
      simpa using List.mem_takeWhile_imp hmem
  · rintro ⟨before, x, after, rfl, hwanted, hbefore⟩
    refine ⟨x, ?_, hwanted⟩
    rw [List.takeWhile_append_of_pos fun y hy => by simp [hbefore y hy],
      List.takeWhile_cons_of_pos (by simp [apart x hwanted])]
    simp

namespace Standing

variable (p : Prototype) (ops : List InheritedOperation)

theorem final_ofList_filter :
    (ofList (ops.filter (·.prototype = p))).final =
      ops.find? fun op => op.prototype = p && op.isFinal := by
  simp only [ofList, List.find?_filter, Bool.decide_and, Bool.decide_eq_true]

theorem overridable_ofList_filter :
    (ofList (ops.filter (·.prototype = p))).overridable =
      (ops.takeWhile fun op => !(op.prototype = p && op.isFinal)).find? fun op =>
        op.prototype = p && op.isConcrete := by
  simp only [ofList, List.takeWhile_filter, List.find?_filter, Bool.not_and, Bool.decide_and,
    Bool.decide_eq_true]

theorem toImplement_ofList_filter :
    (ofList (ops.filter (·.prototype = p))).toImplement =
      if ∀ op ∈ ops, op.prototype = p → op.isPending = true then
        ops.find? (·.prototype = p)
      else none := by
  have hall : (ops.filter (·.prototype = p)).all (·.isPending) = true ↔
      ∀ op ∈ ops, op.prototype = p → op.isPending = true := by
    simp only [List.all_eq_true, List.mem_filter, decide_eq_true_eq, and_imp]
  simp only [ofList, List.head?_filter]
  exact if_congr hall rfl rfl

end Standing

namespace DeclarationStore

variable (s : DeclarationStore) (options : ResolverOptions) (root : DeclId) (excluded : List String)
  (p : Prototype)

/-- What the three maps of the context of a root hold for a prototype. -/
theorem getElem?_finalOperations_inheritance :
    (s.inheritance options root excluded).finalOperations[p]? =
      (s.walkedOperations options root excluded).find? fun op =>
        op.prototype = p && op.isFinal :=
  (congrArg Standing.final (s.standing_inheritance options root excluded p)).trans
    (Standing.final_ofList_filter ..)

theorem getElem?_overridableOperations_inheritance :
    (s.inheritance options root excluded).overridableOperations[p]? =
      ((s.walkedOperations options root excluded).takeWhile fun op =>
        !(op.prototype = p && op.isFinal)).find? fun op => op.prototype = p && op.isConcrete :=
  (congrArg Standing.overridable (s.standing_inheritance options root excluded p)).trans
    (Standing.overridable_ofList_filter ..)

theorem getElem?_operationsToImplement_inheritance :
    (s.inheritance options root excluded).operationsToImplement[p]? =
      if ∀ op ∈ s.walkedOperations options root excluded,
          op.prototype = p → op.isPending = true then
        (s.walkedOperations options root excluded).find? (·.prototype = p)
      else none :=
  (congrArg Standing.toImplement (s.standing_inheritance options root excluded p)).trans
    (Standing.toImplement_ofList_filter ..)

/-! Which prototypes are keys of the maps. -/

theorem mem_finalOperations_inheritance_iff :
    p ∈ (s.inheritance options root excluded).finalOperations ↔
      ∃ op ∈ s.walkedOperations options root excluded, op.prototype = p ∧ op.isFinal = true := by
  rw [Std.ExtTreeMap.mem_iff_isSome_getElem?, getElem?_finalOperations_inheritance,
    List.find?_isSome]
  simp only [Bool.and_eq_true, decide_eq_true_eq]

theorem mem_operationsToImplement_inheritance_iff :
    p ∈ (s.inheritance options root excluded).operationsToImplement ↔
      (∃ op ∈ s.walkedOperations options root excluded, op.prototype = p) ∧
        ∀ op ∈ s.walkedOperations options root excluded, op.prototype = p →
          op.isAbstract = true ∧ op.isFinal = false := by
  simp only [← InheritedOperation.isPending_eq_true_iff]
  rw [Std.ExtTreeMap.mem_iff_isSome_getElem?, getElem?_operationsToImplement_inheritance]
  split
  · rename_i hall
    rw [List.find?_isSome, and_iff_left hall]
    simp only [decide_eq_true_eq]
  · rename_i hall
    simp [hall]

theorem mem_overridableOperations_inheritance_iff :
    p ∈ (s.inheritance options root excluded).overridableOperations ↔
      ∃ before op after, s.walkedOperations options root excluded = before ++ op :: after ∧
        op.prototype = p ∧ op.isAbstract = false ∧ op.isFinal = false ∧
        ∀ f ∈ before, f.prototype = p → f.isFinal = false := by
  have apart (op : InheritedOperation) (h : (op.prototype = p && op.isConcrete) = true) :
      (op.prototype = p && op.isFinal) = false := by
    simp only [Bool.and_eq_true] at h
    simp [(InheritedOperation.isConcrete_eq_true_iff.1 h.2).2]
  rw [Std.ExtTreeMap.mem_iff_isSome_getElem?, getElem?_overridableOperations_inheritance,
    find?_takeWhile_isSome_iff apart]
  simp only [Bool.and_eq_true, decide_eq_true_eq, InheritedOperation.isConcrete_eq_true_iff,
    Bool.and_eq_false_imp, and_assoc]

/-- Where a single operation is walked, and it is neither abstract nor final, its prototype is the only
one that is overridable. -/
theorem mem_overridableOperations_of_singleton_iff {s : DeclarationStore}
    {options : ResolverOptions} {root : DeclId} {excluded : List String} {op : InheritedOperation}
    (h : s.walkedOperations options root excluded = [op]) (habstract : op.isAbstract = false)
    (hfinal : op.isFinal = false) {p : Prototype} :
    p ∈ (s.inheritance options root excluded).overridableOperations ↔ p = op.prototype := by
  rw [mem_overridableOperations_inheritance_iff, h]
  constructor
  · rintro ⟨before, f, after, hsplit, hf, _⟩
    have hmem : f ∈ [op] := by
      rw [hsplit]
      simp
    rw [← hf, List.mem_singleton.1 hmem]
  · rintro rfl
    exact ⟨[], op, [], rfl, rfl, habstract, hfinal, by simp⟩

/-! ### The three maps -/

/-- **Which operations are walked**: each ancestor, under the name that the context has for it, hands
down the operations that it declares neither as static nor as private, generated ones only where they
are not left out, with their types as the root sees them. -/
theorem mem_walkedOperations_iff_exists {s : DeclarationStore} {options : ResolverOptions}
    {root : DeclId} {excluded : List String} {op : InheritedOperation} :
    op ∈ s.walkedOperations options root excluded ↔
      ∃ name ∈ (s.inheritance options root excluded).ancestors, ∃ id d,
        s.idOf? name = some id ∧ s.get? id = some d ∧ ∃ declared ∈ d.operations,
          (declared.isStatic = false ∧ declared.visibility ≠ .owner ∧
            (declared.isSynthetic && options.skipSynthetic) = false) ∧
          .of d id (s.typeBindings root) declared = op := by
  simp only [walkedOperations, List.mem_flatMap, Array.mem_toList_iff]
  refine exists_congr fun name => and_congr_right fun _ => ?_
  constructor
  · intro h
    rw [operationsOf] at h
    split at h
    · rename_i id hid
      obtain ⟨d, hd, hop⟩ := List.mem_flatMap.1 h
      exact ⟨id, d, hid, Option.mem_toList.1 hd, TypeDeclaration.mem_inheritedOperations_iff.1 hop⟩
    · exact absurd h List.not_mem_nil
  · rintro ⟨id, d, hid, hd, hop⟩
    rw [operationsOf_eq _ hid hd]
    exact TypeDeclaration.mem_inheritedOperations_iff.2 hop

/-- **What the three maps hold**, by the operations of the ancestors walked.  A prototype is final
where some operation with it is final; it is to be implemented where there are operations with it and
each of them is abstract and not final; it is overridable where an operation with it that is neither
abstract nor final comes before every final one.  The map holds the first operation of its sort. -/
theorem operations_classified (s : DeclarationStore) (options : ResolverOptions) (root : DeclId)
    (excluded : List String) (p : Prototype) :
    let c := s.inheritance options root excluded
    let ops := s.walkedOperations options root excluded
    ((p ∈ c.finalOperations ↔ ∃ op ∈ ops, op.prototype = p ∧ op.isFinal = true) ∧
      ∀ op, c.finalOperations[p]? = some op →
        ops.find? (fun op => op.prototype = p && op.isFinal) = some op) ∧
    ((p ∈ c.operationsToImplement ↔ (∃ op ∈ ops, op.prototype = p) ∧
        ∀ op ∈ ops, op.prototype = p → op.isAbstract = true ∧ op.isFinal = false) ∧
      ∀ op, c.operationsToImplement[p]? = some op →
        ops.find? (fun op => op.prototype = p) = some op) ∧
    ((p ∈ c.overridableOperations ↔ ∃ before op after, ops = before ++ op :: after ∧
        op.prototype = p ∧ op.isAbstract = false ∧ op.isFinal = false ∧
        ∀ f ∈ before, f.prototype = p → f.isFinal = false) ∧
      ∀ op, c.overridableOperations[p]? = some op →
        ops.find? (fun op => op.prototype = p && (!op.isAbstract && !op.isFinal)) = some op) := by
  refine ⟨⟨mem_finalOperations_inheritance_iff .., fun op h => ?_⟩,
    ⟨mem_operationsToImplement_inheritance_iff .., fun op h => ?_⟩,
    ⟨mem_overridableOperations_inheritance_iff .., fun op h => ?_⟩⟩
  · rwa [getElem?_finalOperations_inheritance] at h
  · rw [getElem?_operationsToImplement_inheritance] at h
    split at h
    · exact h
    · cases h
  · rw [getElem?_overridableOperations_inheritance] at h
    exact (List.takeWhile_prefix _).find?_eq_some h

/-- **Which of the three maps have a prototype in common.**  What is to be implemented is neither
final nor overridable.  A prototype is final and overridable at once if and only if an operation with
it that is neither abstract nor final comes before the first final one. -/
theorem operation_keys_overlap (s : DeclarationStore) (options : ResolverOptions) (root : DeclId)
    (excluded : List String) (p : Prototype) :
    let c := s.inheritance options root excluded
    let ops := s.walkedOperations options root excluded
    ¬(p ∈ c.finalOperations ∧ p ∈ c.operationsToImplement) ∧
    ¬(p ∈ c.overridableOperations ∧ p ∈ c.operationsToImplement) ∧
    (p ∈ c.finalOperations ∧ p ∈ c.overridableOperations ↔
      ∃ before op between f after, ops = before ++ op :: (between ++ f :: after) ∧
        op.prototype = p ∧ op.isAbstract = false ∧ op.isFinal = false ∧
        f.prototype = p ∧ f.isFinal = true ∧
        ∀ g ∈ before, g.prototype = p → g.isFinal = false) := by
  simp only [mem_finalOperations_inheritance_iff, mem_operationsToImplement_inheritance_iff,
    mem_overridableOperations_inheritance_iff]
  refine ⟨?_, ?_, ?_⟩
  · rintro ⟨⟨f, hf, hfp, hfinal⟩, _, hall⟩
    exact absurd hfinal (by simp [(hall f hf hfp).2])
  · rintro ⟨⟨before, op, after, hsplit, hp, habstract, _⟩, _, hall⟩
    have hop : op ∈ s.walkedOperations options root excluded := by simp [hsplit]
    exact absurd (hall op hop hp).1 (by simp [habstract])
  · constructor
    · rintro ⟨⟨f, hf, hfp, hfinal⟩, before, op, after, hsplit, hp, habstract, hopen, hbefore⟩
      -- the final operation is neither in front of the other one nor that one itself
      rw [hsplit, List.mem_append, List.mem_cons] at hf
      rcases hf with hf | rfl | hf
      · exact absurd hfinal (by simp [hbefore f hf hfp])
      · exact absurd hfinal (by simp [hopen])
      · obtain ⟨between, rest, rfl⟩ := List.append_of_mem hf
        exact ⟨before, op, between, f, rest, hsplit, hp, habstract, hopen, hfp, hfinal, hbefore⟩
    · rintro ⟨before, op, between, f, after, hsplit, hp, habstract, hopen, hfp, hfinal, hbefore⟩
      exact ⟨⟨f, by simp [hsplit], hfp, hfinal⟩, before, op, _, hsplit, hp, habstract, hopen,
        hbefore⟩

/-- A class that inherits a final operation through its superclass, and one with the same prototype
and a body from an interface. -/
def finalBehindDefault : DeclarationStore :=
  .ofList
    [{ name := "C", operations := [{ name := "run", flags := .final }] },
      { name := "B", superclass := some (.named "C") },
      { name := "I", kind := .interfaceType, operations := [{ name := "run" }] },
      { name := "Root", superclass := some (.named "B"), interfaces := [.named "I"] }]

/-- A prototype can be final and overridable at once: the interface is visited before the class that
declares the final operation. -/
theorem final_and_overridable_finalBehindDefault :
    let c := finalBehindDefault.inheritance {} ⟨4⟩ []
    (⟨"run", .empty⟩ : Prototype) ∈ c.finalOperations ∧
      (⟨"run", .empty⟩ : Prototype) ∈ c.overridableOperations := by
  have hwalked : finalBehindDefault.walked {} ⟨4⟩ [] =
      [(⟨2⟩, { name := "B", superclass := some (.named "C") }),
        (⟨3⟩, { name := "I", kind := .interfaceType, operations := [{ name := "run" }] }),
        (⟨1⟩, { name := "C", operations := [{ name := "run", flags := .final }] })] := by
    decide
  have hops : ∃ op f, finalBehindDefault.walkedOperations {} ⟨4⟩ [] = [op, f] ∧
      op.prototype = ⟨"run", .empty⟩ ∧ op.isAbstract = false ∧ op.isFinal = false ∧
      f.prototype = ⟨"run", .empty⟩ ∧ f.isFinal = true := by
    rw [walkedOperations_eq, hwalked]
    exact ⟨_, _, rfl, rfl, rfl, rfl, rfl, rfl⟩
  obtain ⟨op, f, hops, hp, habstract, hopen, hfp, hfinal⟩ := hops
  constructor
  · rw [mem_finalOperations_inheritance_iff, hops]
    exact ⟨f, by simp, hfp, hfinal⟩
  · rw [mem_overridableOperations_inheritance_iff, hops]
    exact ⟨[], op, [f], rfl, hp, habstract, hopen, by simp⟩

end DeclarationStore

end ActionSignatures
