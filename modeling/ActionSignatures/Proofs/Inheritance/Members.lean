/-
**The members that a context holds.**

A context keeps the first member of a kind that the walk meets under a key: operations by prototype,
fields by name, constructors by parameter types.  So what it holds can be read off the members of the
ancestors in the order of the walk: under each key it is the first of them, and the fields come in the
order in which their names occur first.

Main definitions:

* `ActionSignatures.DeclarationStore.walkedFields` — **the fields of the ancestors walked**, as the
  root sees them;
* `ActionSignatures.DeclarationStore.walkedConstructors` — the constructors that the root may mirror;
* `ActionSignatures.InheritanceContext.Records` — **what a context records** of the findings of a walk.

Main results:

* `ActionSignatures.FirstMap.map_fst_entries_insertAll` — keys come in the order in which they are
  bound first;
* `ActionSignatures.Finding.records_foldl_enter`,
  `ActionSignatures.DeclarationStore.records_inheritance` — **which members leave an entry**;
* `ActionSignatures.DeclarationStore.inheritedFields_inheritance` — **the fields of a context**;
* `ActionSignatures.DeclarationStore.getElem?_constructors_inheritance` — **the constructors of a
  context**;
* `ActionSignatures.DeclarationStore.mem_walkedOperations_of_final`,
  `ActionSignatures.DeclarationStore.mem_walkedOperations_of_overridable`,
  `ActionSignatures.DeclarationStore.mem_walkedOperations_of_toImplement` — the operations of a
  context are among those walked.
-/

import ActionSignatures.Proofs.Inheritance.Classification
import ActionSignatures.Proofs.Inheritance.Levels
import ActionSignatures.Proofs.Substitution.Expansion

set_option relaxedAutoImplicit false
set_option autoImplicit false

namespace ActionSignatures

/-! ### First values -/

namespace FirstMap

variable {κ α : Type} [Ord κ] [Std.TransOrd κ] [DecidableEq κ] [Std.LawfulEqOrd κ]

/-- Binding more keys adds those that are not bound yet, in the order in which they occur first. -/
theorem map_fst_entries_insertAll (m : FirstMap κ α) (l : List (κ × α)) :
    (m.insertAll l).entries.map (·.1) =
      m.entries.map (·.1) ++
        ((l.map (·.1)).filter (· ∉ m.entries.map (·.1))).eraseDups := by
  induction l generalizing m with
  | nil => simp
  | cons e l ih =>
      have hcons : m.insertAll (e :: l) = (m.insert e.1 e.2).insertAll l := rfl
      have hbound : m.contains e.1 = true ↔ e.1 ∈ m.entries.map (·.1) := by
        rw [contains, Option.isSome_iff_ne_none, ne_eq, get?_eq_none_iff, not_not]
      rw [hcons, ih, List.map_cons, eraseDups_filter_notMem_cons, entries_insert]
      by_cases h : m.contains e.1 = true
      · rw [if_pos h, if_pos (hbound.1 h)]
      · have hseen : ∀ k, k ∈ m.entries.map (·.1) ++ [e.1] ↔ k ∈ e.1 :: m.entries.map (·.1) := by
          intro k
          rw [List.mem_append, List.mem_singleton, List.mem_cons, or_comm]
        rw [if_neg h, if_neg (mt hbound.2 h), List.map_append, List.append_assoc]
        simp only [List.map_cons, List.map_nil, List.singleton_append, hseen]

end FirstMap

/-- Looking up a key among values that stand under their keys. -/
theorem lookup_map_keyed {κ α : Type} [DecidableEq κ] (key : α → κ) (l : List α) (k : κ) :
    (l.map fun a => (key a, a)).lookup k = l.find? (key · = k) := by
  induction l with
  | nil => rfl
  | cons a l ih =>
      rw [List.map_cons, List.lookup_cons, List.find?_cons, ih]
      by_cases h : key a = k
      · simp [h]
      · rw [beq_eq_false_iff_ne.2 (Ne.symm h), decide_eq_false h]

/-- A map to which values are added under their keys, unless these are known, holds the first of
them. -/
theorem getElem?_foldl_insertIfNew {κ α : Type} [Ord κ] [Std.TransOrd κ] [Std.LawfulEqOrd κ]
    [DecidableEq κ] (key : α → κ) (l : List α) (m : Std.ExtTreeMap κ α) (k : κ) :
    (l.foldl (fun m a => m.insertIfNew (key a) a) m)[k]? = m[k]?.or (l.find? (key · = k)) := by
  induction l generalizing m with
  | nil => simp
  | cons a l ih =>
      rw [List.foldl_cons, ih, List.find?_cons, getElem?_insertIfNew]
      by_cases h : key a = k
      · rw [if_pos h, decide_eq_true h, Option.or_assoc, Option.some_or]
      · rw [if_neg h, decide_eq_false h]

/-! ### The fields and the constructors of what a walk finds -/

/-- The fields that subtypes inherit from a declaration, in the order in which they are declared. -/
def TypeDeclaration.inheritedFields (d : TypeDeclaration) (b : TypeBindings) :
    List InheritedField :=
  (d.fields.filter (·.visibility.isInheritable)).map (.of d b)

/-- The constructors that a root may mirror when it finds its superclass. -/
def Finding.constructors (b : TypeBindings) : Finding → List MirroredConstructor
  | .ancestor _ d isRootSuperclass => (d.mirroredConstructors isRootSuperclass).map (.of d b)
  | .unresolved _ => []

theorem TypeDeclaration.mem_inheritedFields_iff {d : TypeDeclaration} {b : TypeBindings}
    {f : InheritedField} :
    f ∈ d.inheritedFields b ↔
      ∃ declared ∈ d.fields, declared.visibility ≠ .owner ∧ .of d b declared = f := by
  simp only [inheritedFields, List.mem_map, List.mem_filter, Visibility.isInheritable_eq_true_iff,
    and_assoc]

theorem Finding.mem_constructors_iff {b : TypeBindings} {found : Finding}
    {m : MirroredConstructor} :
    m ∈ found.constructors b ↔
      ∃ id d, found = .ancestor id d true ∧ d.isClass = true ∧
        ∃ declared ∈ d.constructors, declared.visibility ≠ .owner ∧ .of d b declared = m := by
  cases found with
  | ancestor id d isRootSuperclass =>
      rw [constructors, TypeDeclaration.mirroredConstructors]
      cases isRootSuperclass <;> cases hd : d.isClass <;>
        simp [hd, Visibility.isInheritable_eq_true_iff, and_assoc]
  | unresolved e => simp [constructors]

namespace InheritanceContext

theorem inheritedFields_recordOperation (c : InheritanceContext) (op : InheritedOperation) :
    (c.recordOperation op).inheritedFields = c.inheritedFields := by
  rw [recordOperation]
  split_ifs <;> rfl

theorem inheritedFields_recordConstructor (c : InheritanceContext) (owner : TypeDeclaration)
    (b : TypeBindings) (constructor : Constructor) :
    (c.recordConstructor owner b constructor).inheritedFields = c.inheritedFields := by
  rw [recordConstructor_eq]

theorem constructors_recordOperation (c : InheritanceContext) (op : InheritedOperation) :
    (c.recordOperation op).constructors = c.constructors := by
  rw [recordOperation]
  split_ifs <;> rfl

theorem constructors_recordField (c : InheritanceContext) (owner : TypeDeclaration)
    (b : TypeBindings) (field : Field) :
    (c.recordField owner b field).constructors = c.constructors := by
  rw [recordField_eq]

end InheritanceContext

section

variable (rules : WalkRules) (c : InheritanceContext)

/-- Collecting the members of a declaration binds the names of its fields. -/
theorem AncestorWalk.inheritedFields_collect (id : DeclId) (d : TypeDeclaration)
    (isRootSuperclass : Bool) :
    (collect rules c id d isRootSuperclass).inheritedFields =
      c.inheritedFields.insertAll
        ((d.inheritedFields rules.bindings).map fun f => (f.name, f)) := by
  have hfields : ∀ c : InheritanceContext,
      ((d.fields.filter (·.visibility.isInheritable)).foldl
        (fun c field => c.recordField d rules.bindings field) c).inheritedFields =
          c.inheritedFields.insertAll
            ((d.inheritedFields rules.bindings).map fun f => (f.name, f)) := by
    intro c
    rw [FirstMap.insertAll, TypeDeclaration.inheritedFields, List.map_map, List.foldl_map]
    refine (List.foldl_hom InheritanceContext.inheritedFields fun c field => ?_).symm
    rw [InheritanceContext.recordField_eq]
    rfl
  rw [collect_eq,
    foldl_keeps InheritanceContext.inheritedFields fun c _ =>
      InheritanceContext.inheritedFields_recordConstructor c ..,
    hfields,
    foldl_keeps InheritanceContext.inheritedFields fun c _ =>
      InheritanceContext.inheritedFields_recordOperation c ..]

/-- Collecting the members of a declaration adds the constructors that are mirrored. -/
theorem AncestorWalk.constructors_collect (id : DeclId) (d : TypeDeclaration)
    (isRootSuperclass : Bool) :
    (collect rules c id d isRootSuperclass).constructors =
      ((Finding.ancestor id d isRootSuperclass).constructors rules.bindings).foldl
        (fun m c => m.insertIfNew c.prototype.params c) c.constructors := by
  have hconstructors : ∀ c : InheritanceContext,
      ((d.mirroredConstructors isRootSuperclass).foldl
        (fun c constructor => c.recordConstructor d rules.bindings constructor) c).constructors =
          ((Finding.ancestor id d isRootSuperclass).constructors rules.bindings).foldl
            (fun m c => m.insertIfNew c.prototype.params c) c.constructors := by
    intro c
    rw [Finding.constructors, List.foldl_map]
    refine (List.foldl_hom InheritanceContext.constructors fun c constructor => ?_).symm
    rw [InheritanceContext.recordConstructor_eq]
    rfl
  rw [collect_eq, hconstructors,
    foldl_keeps InheritanceContext.constructors fun c _ =>
      InheritanceContext.constructors_recordField c ..,
    foldl_keeps InheritanceContext.constructors fun c _ =>
      InheritanceContext.constructors_recordOperation c ..]

namespace Finding

/-- Entering findings binds the names of the fields of the ancestors, in their order. -/
theorem inheritedFields_foldl_enter (fs : List Finding) :
    (fs.foldl (enter rules) c).inheritedFields =
      c.inheritedFields.insertAll
        (((fs.filterMap ancestor?).flatMap (·.2.inheritedFields rules.bindings)).map
          fun f => (f.name, f)) := by
  induction fs generalizing c with
  | nil => rfl
  | cons f fs ih =>
      rw [List.foldl_cons, ih]
      cases f with
      | ancestor id d isRootSuperclass =>
          rw [List.filterMap_cons_some (ancestor?_ancestor ..), List.flatMap_cons, List.map_append,
            FirstMap.insertAll_append]
          exact congrArg (FirstMap.insertAll · _)
            (AncestorWalk.inheritedFields_collect rules c id d isRootSuperclass)
      | unresolved e =>
          rw [List.filterMap_cons_none (ancestor?_unresolved e)]
          rfl

/-- Entering findings adds the constructors that are mirrored, in their order. -/
theorem constructors_foldl_enter (fs : List Finding) :
    (fs.foldl (enter rules) c).constructors =
      (fs.flatMap (constructors rules.bindings)).foldl
        (fun m c => m.insertIfNew c.prototype.params c) c.constructors := by
  induction fs generalizing c with
  | nil => rfl
  | cons f fs ih =>
      rw [List.foldl_cons, ih, List.flatMap_cons, List.foldl_append]
      cases f with
      | ancestor id d isRootSuperclass =>
          exact congrArg (List.foldl _ · _)
            (AncestorWalk.constructors_collect rules c id d isRootSuperclass)
      | unresolved e => rfl

end Finding

end

/-! ### What a context records -/

/-- **What a context records of findings**, under the options and the bindings of the root: the names
of the ancestors and the references that lead nowhere, and an entry for each operation of an ancestor
that is neither static nor private nor left out as generated, for each field that is not private, and
for each constructor of the superclass of the root, if that is a class, that is not private. -/
structure InheritanceContext.Records (c : InheritanceContext) (options : ResolverOptions)
    (b : TypeBindings) (found : List Finding) : Prop where
  ancestors : c.ancestors.toList = (found.filterMap Finding.ancestor?).map (·.2.name)
  unresolved : c.unresolved.toList = found.filterMap Finding.unresolved?
  operations : ∀ p : Prototype, c.InheritsOperation p ↔
    ∃ a ∈ found.filterMap Finding.ancestor?, ∃ op ∈ a.2.operations,
      (op.isStatic = false ∧ op.visibility ≠ .owner ∧
        (op.isSynthetic && options.skipSynthetic) = false) ∧
      .ofSignature op.name (op.signature.mapTypes b.substitute) = p
  fields : ∀ name : String, c.inheritedFields.contains name = true ↔
    ∃ a ∈ found.filterMap Finding.ancestor?, ∃ field ∈ a.2.fields,
      field.visibility ≠ .owner ∧ field.name = name
  constructors : ∀ k : ParameterTypes, k ∈ c.constructors ↔
    ∃ id d, .ancestor id d true ∈ found ∧ d.isClass = true ∧ ∃ constructor ∈ d.constructors,
      constructor.visibility ≠ .owner ∧
        (constructor.signature.mapTypes b.substitute).parameterTypes = k

namespace Finding

section

variable (rules : WalkRules) (found : List Finding)

/-- What a name is bound to when findings have been entered: the first field of the name. -/
theorem get?_inheritedFields_foldl_enter (name : String) :
    (found.foldl (enter rules) {}).inheritedFields.get? name =
      ((found.filterMap ancestor?).flatMap (·.2.inheritedFields rules.bindings)).find?
        (·.name = name) := by
  rw [inheritedFields_foldl_enter, FirstMap.get?_insertAll, FirstMap.get?_eq,
    FirstMap.entries_empty, List.lookup_nil, Option.none_or]
  exact lookup_map_keyed ..

/-- What stands under parameter types when findings have been entered: the first constructor that
has them. -/
theorem getElem?_constructors_foldl_enter (k : ParameterTypes) :
    (found.foldl (enter rules) {}).constructors[k]? =
      (found.flatMap (constructors rules.bindings)).find? (·.prototype.params = k) := by
  rw [constructors_foldl_enter, getElem?_foldl_insertIfNew, Std.ExtTreeMap.getElem?_empty,
    Option.none_or]

/-- **Entering findings records them.** -/
theorem records_foldl_enter :
    (found.foldl (enter rules) {}).Records rules.options rules.bindings found where
  ancestors := by
    rw [ancestors_foldl_enter]
    rfl
  unresolved := by
    have hunresolved : (found.foldl (enter rules) {}).unresolved =
        #[] ++ (found.filterMap unresolved?).toArray :=
      congrArg Prod.fst (gaps_foldl_enter rules found {})
    rw [hunresolved, Array.empty_append]
  operations p := by
    rw [InheritanceContext.inheritsOperation_iff_of_standing_eq
      (standing_foldl_enter_empty rules found p)]
    simp only [List.mem_flatMap, TypeDeclaration.mem_inheritedOperations_iff]
    constructor
    · rintro ⟨_, ⟨a, ha, op, hop, hinherits, rfl⟩, hp⟩
      exact ⟨a, ha, op, hop, hinherits, hp⟩
    · rintro ⟨a, ha, op, hop, hinherits, hp⟩
      exact ⟨_, ⟨a, ha, op, hop, hinherits, rfl⟩, hp⟩
  fields name := by
    rw [FirstMap.contains, get?_inheritedFields_foldl_enter, List.find?_isSome]
    simp only [List.mem_flatMap, TypeDeclaration.mem_inheritedFields_iff, decide_eq_true_eq]
    constructor
    · rintro ⟨_, ⟨a, ha, field, hfield, hvisible, rfl⟩, hname⟩
      exact ⟨a, ha, field, hfield, hvisible, hname⟩
    · rintro ⟨a, ha, field, hfield, hvisible, hname⟩
      exact ⟨_, ⟨a, ha, field, hfield, hvisible, rfl⟩, hname⟩
  constructors k := by
    rw [Std.ExtTreeMap.mem_iff_isSome_getElem?, getElem?_constructors_foldl_enter,
      List.find?_isSome]
    simp only [List.mem_flatMap, mem_constructors_iff, decide_eq_true_eq]
    constructor
    · rintro ⟨_, ⟨_, hf, id, d, rfl, hd, constructor, hmem, hvisible, rfl⟩, hk⟩
      exact ⟨id, d, hf, hd, constructor, hmem, hvisible, hk⟩
    · rintro ⟨id, d, hf, hd, constructor, hmem, hvisible, hk⟩
      exact ⟨_, ⟨_, hf, id, d, rfl, hd, constructor, hmem, hvisible, rfl⟩, hk⟩

end

end Finding

/-! ### The fields and the constructors of a context -/

namespace DeclarationStore

variable (s : DeclarationStore) (options : ResolverOptions) (root : DeclId) (excluded : List String)

/-- **The fields of the ancestors walked** from a root, in the order of the walk, and in that of their
declarations inside one ancestor; with their types as the root sees them. -/
def walkedFields : List InheritedField :=
  (s.inheritance options root excluded).ancestors.toList.flatMap fun name =>
    (s.lookup? name).toList.flatMap (·.inheritedFields (s.typeBindings root))

/-- The constructors that the root may mirror, in the order in which they are declared. -/
def walkedConstructors : List MirroredConstructor :=
  (s.found options root excluded).flatMap (Finding.constructors (s.typeBindings root))

/-- Every name among the ancestors stands for the declaration that is visited under it. -/
theorem lookup?_of_mem_walked {a : DeclId × TypeDeclaration}
    (h : a ∈ s.walked options root excluded) : s.lookup? a.2.name = some a.2 := by
  obtain ⟨hid, hd⟩ := s.idOf?_of_mem_walked options root excluded h
  exact lookup?_of_idOf? hid hd

/-- Going through the ancestors visited is going through what their names stand for. -/
theorem flatMap_walked {β : Type} (f : TypeDeclaration → List β) :
    ((s.walked options root excluded).flatMap fun a => f a.2) =
      (s.inheritance options root excluded).ancestors.toList.flatMap fun name =>
        (s.lookup? name).toList.flatMap f := by
  rw [ancestors_inheritance, List.flatMap_map]
  refine List.flatMap_congr fun a ha => ?_
  rw [s.lookup?_of_mem_walked options root excluded ha, Option.toList_some,
    List.flatMap_singleton]

/-- The fields walked are those of the ancestors visited. -/
theorem walkedFields_eq :
    s.walkedFields options root excluded =
      (s.walked options root excluded).flatMap (·.2.inheritedFields (s.typeBindings root)) :=
  (s.flatMap_walked options root excluded (·.inheritedFields (s.typeBindings root))).symm

/-- **The fields of a context** are those walked, the first one of a name being kept. -/
theorem inheritedFields_inheritance :
    (s.inheritance options root excluded).inheritedFields =
      FirstMap.empty.insertAll
        ((s.walkedFields options root excluded).map fun f => (f.name, f)) := by
  rw [inheritance_eq_foldl_found, walkedFields_eq]
  exact Finding.inheritedFields_foldl_enter ..

/-- **The constructors of a context** are those that the root may mirror, the first one with given
parameter types being kept. -/
theorem getElem?_constructors_inheritance (k : ParameterTypes) :
    (s.inheritance options root excluded).constructors[k]? =
      (s.walkedConstructors options root excluded).find? (·.prototype.params = k) := by
  rw [inheritance_eq_foldl_found]
  exact Finding.getElem?_constructors_foldl_enter ..

/-- What a name is bound to among the fields of a context: the first field walked of the name. -/
theorem get?_inheritedFields_inheritance (name : String) :
    (s.inheritance options root excluded).inheritedFields.get? name =
      (s.walkedFields options root excluded).find? (·.name = name) := by
  rw [inheritance_eq_foldl_found, walkedFields_eq]
  exact Finding.get?_inheritedFields_foldl_enter ..

/-- **The context of a root records what its walk finds.** -/
theorem records_inheritance :
    (s.inheritance options root excluded).Records options (s.typeBindings root)
      (s.found options root excluded) := by
  have h := Finding.records_foldl_enter (s.walkRules options root excluded)
    (s.found options root excluded)
  rw [inheritance_eq_foldl_found]
  exact { h with }

/-! ### Where the members of a context come from -/

/-- The fields of a context come in the order in which their names occur first among those walked. -/
theorem map_fst_inheritedFields_inheritance :
    (s.inheritance options root excluded).inheritedFields.entries.map (·.1) =
      ((s.walkedFields options root excluded).map (·.name)).eraseDups := by
  rw [inheritedFields_inheritance, FirstMap.map_fst_entries_insertAll, FirstMap.entries_empty,
    List.map_nil, List.nil_append, List.map_map]
  simp [Function.comp_def]

variable {s options root excluded} {p : Prototype} {op : InheritedOperation}

/-- A final operation of a context is among those walked. -/
theorem mem_walkedOperations_of_final
    (h : (s.inheritance options root excluded).finalOperations[p]? = some op) :
    op ∈ s.walkedOperations options root excluded ∧ op.prototype = p ∧ op.isFinal = true := by
  rw [getElem?_finalOperations_inheritance] at h
  exact ⟨List.mem_of_find?_eq_some h, by simpa using List.find?_some h⟩

/-- An overridable operation of a context is among those walked. -/
theorem mem_walkedOperations_of_overridable
    (h : (s.inheritance options root excluded).overridableOperations[p]? = some op) :
    op ∈ s.walkedOperations options root excluded ∧ op.prototype = p ∧
      op.isAbstract = false ∧ op.isFinal = false := by
  rw [getElem?_overridableOperations_inheritance] at h
  refine ⟨(List.takeWhile_prefix _).subset (List.mem_of_find?_eq_some h), ?_⟩
  simpa [InheritedOperation.isConcrete] using List.find?_some h

/-- An operation to implement of a context is among those walked. -/
theorem mem_walkedOperations_of_toImplement
    (h : (s.inheritance options root excluded).operationsToImplement[p]? = some op) :
    op ∈ s.walkedOperations options root excluded ∧ op.prototype = p ∧
      op.isAbstract = true ∧ op.isFinal = false := by
  rw [getElem?_operationsToImplement_inheritance] at h
  split at h
  · rename_i hall
    have hmem := List.mem_of_find?_eq_some h
    have hp : op.prototype = p := by simpa using List.find?_some h
    exact ⟨hmem, hp, InheritedOperation.isPending_eq_true_iff.1 (hall op hmem hp)⟩
  · cases h

/-- A field of a context is among those walked. -/
theorem mem_walkedFields_of_get? {name : String} {f : InheritedField}
    (h : (s.inheritance options root excluded).inheritedFields.get? name = some f) :
    f ∈ s.walkedFields options root excluded ∧ f.name = name := by
  rw [get?_inheritedFields_inheritance] at h
  exact ⟨List.mem_of_find?_eq_some h, by simpa using List.find?_some h⟩

/-- A constructor of a context is among those that the root may mirror. -/
theorem mem_walkedConstructors_of_getElem? {k : ParameterTypes} {m : MirroredConstructor}
    (h : (s.inheritance options root excluded).constructors[k]? = some m) :
    m ∈ s.walkedConstructors options root excluded ∧ m.prototype.params = k := by
  rw [getElem?_constructors_inheritance] at h
  exact ⟨List.mem_of_find?_eq_some h, by simpa using List.find?_some h⟩

/-- A field walked is one that subtypes inherit from an ancestor visited. -/
theorem mem_walkedFields_iff {f : InheritedField} :
    f ∈ s.walkedFields options root excluded ↔
      ∃ a ∈ s.walked options root excluded, ∃ declared ∈ a.2.fields,
        declared.visibility ≠ .owner ∧ .of a.2 (s.typeBindings root) declared = f := by
  simp only [walkedFields_eq, List.mem_flatMap, TypeDeclaration.mem_inheritedFields_iff]

/-- A constructor that the root may mirror is one that subtypes inherit from an ancestor visited. -/
theorem exists_of_mem_walkedConstructors {m : MirroredConstructor}
    (h : m ∈ s.walkedConstructors options root excluded) :
    ∃ a ∈ s.walked options root excluded, ∃ declared ∈ a.2.constructors,
      declared.visibility ≠ .owner ∧ .of a.2 (s.typeBindings root) declared = m := by
  obtain ⟨f, hf, hm⟩ := List.mem_flatMap.1 h
  obtain ⟨id, d, rfl, -, declared, hmem, hvisible, hm⟩ := Finding.mem_constructors_iff.1 hm
  exact ⟨(id, d), List.mem_filterMap.2 ⟨_, hf, rfl⟩, declared, hmem, hvisible, hm⟩

end DeclarationStore

end ActionSignatures
