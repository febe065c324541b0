/-
**Well-formed contexts.**

The maps of a context are filled one member at a time, and an operation that is recorded may take
another one away.  Whatever the hierarchy, every entry stands under its own key, has a signature that
passes the check of signatures although its types have been substituted into, and names an owner that
the walk has visited.  Nothing gets lost either: an operation is taken out of one map only where its
prototype goes into another, so every prototype that an ancestor hands down stays known.

Main definitions:

* `ActionSignatures.InheritanceContext.Admits` — what is required of the data of an inherited
  operation or constructor;
* `ActionSignatures.InheritanceContext.WellFormed` — **well-formed contexts**.

Main results:

* `ActionSignatures.DeclarationStore.admits_of_mem_walkedOperations`,
  `ActionSignatures.DeclarationStore.admits_of_mem_walkedConstructors` — whatever a walk meets may
  stand in its context;
* `ActionSignatures.DeclarationStore.wellFormed_inheritance` — contexts are well-formed;
* `ActionSignatures.DeclarationStore.context_wellFormed` — contexts are well-formed, and **no prototype
  gets lost**.
-/

import ActionSignatures.Proofs.Inheritance.Members

set_option relaxedAutoImplicit false
set_option autoImplicit false

namespace ActionSignatures

/-! ### Well-formed contexts -/

namespace InheritanceContext

/-- **What may stand in a context**: the prototype has the parameter types of the signature, the
signature passes the check of signatures, subtypes see the member, and its owner is an ancestor. -/
structure Admits (c : InheritanceContext) (prototype : Prototype) (signature : Signature)
    (visibility : Visibility) (owner : String) : Prop where
  params : prototype.params = signature.parameterTypes
  valid : Signature.ofParams signature.params = .ok signature
  inheritable : visibility ≠ .owner
  owner : owner ∈ c.ancestors

/-- The operation that a context holds under a prototype has it, and may stand in the context. -/
structure AdmitsOperation (c : InheritanceContext) (p : Prototype) (op : InheritedOperation) :
    Prop where
  prototype : op.prototype = p
  admits : c.Admits op.prototype op.signature op.visibility op.owner

/-- **A well-formed context**: every entry stands under its own key, in the map where its modifiers
belong. -/
structure WellFormed (c : InheritanceContext) : Prop where
  final : ∀ (p : Prototype) (op : InheritedOperation), c.finalOperations[p]? = some op →
    c.AdmitsOperation p op ∧ op.isFinal = true
  overridable : ∀ (p : Prototype) (op : InheritedOperation),
    c.overridableOperations[p]? = some op →
    c.AdmitsOperation p op ∧ op.isAbstract = false ∧ op.isFinal = false
  toImplement : ∀ (p : Prototype) (op : InheritedOperation),
    c.operationsToImplement[p]? = some op →
    c.AdmitsOperation p op ∧ op.isAbstract = true ∧ op.isFinal = false
  constructors : ∀ (k : ParameterTypes) (m : MirroredConstructor), c.constructors[k]? = some m →
    m.prototype = ⟨constructorName, k⟩ ∧ c.Admits m.prototype m.signature m.visibility m.owner
  fields : ∀ (name : String) (f : InheritedField), c.inheritedFields.get? name = some f →
    f.name = name ∧ f.owner ∈ c.ancestors

end InheritanceContext

namespace DeclarationStore

variable {s : DeclarationStore} {options : ResolverOptions} {root : DeclId} {excluded : List String}

/-! ### Every entry is a member of an ancestor -/

/-- The ancestors of a context are the names of the declarations visited. -/
theorem mem_ancestors_inheritance_iff {name : String} :
    name ∈ (s.inheritance options root excluded).ancestors ↔
      ∃ a ∈ s.walked options root excluded, a.2.name = name := by
  rw [← Array.mem_toList_iff, ancestors_inheritance, List.mem_map]

/-- The operations that a walk meets may stand in its context. -/
theorem admits_of_mem_walkedOperations {op : InheritedOperation}
    (h : op ∈ s.walkedOperations options root excluded) :
    (s.inheritance options root excluded).Admits op.prototype op.signature op.visibility
      op.owner := by
  obtain ⟨name, hname, id, d, hid, hd, declared, -, ⟨-, hvisible, -⟩, rfl⟩ :=
    mem_walkedOperations_iff_exists.1 h
  obtain ⟨_, hd', rfl⟩ := get?_of_idOf? hid
  obtain rfl := Option.some.inj (hd.symm.trans hd')
  exact
    { params := rfl
      valid := Signature.ofParams_params _
      inheritable := hvisible
      owner := hname }

/-- The constructors that a walk meets may stand in its context. -/
theorem admits_of_mem_walkedConstructors {m : MirroredConstructor}
    (h : m ∈ s.walkedConstructors options root excluded) :
    m.prototype.name = constructorName ∧
      (s.inheritance options root excluded).Admits m.prototype m.signature m.visibility
        m.owner := by
  obtain ⟨a, ha, declared, -, hvisible, rfl⟩ := exists_of_mem_walkedConstructors h
  exact ⟨rfl,
    { params := rfl
      valid := Signature.ofParams_params _
      inheritable := hvisible
      owner := mem_ancestors_inheritance_iff.2 ⟨a, ha, rfl⟩ }⟩

/-- The owners of the fields that a walk meets are ancestors. -/
theorem owner_mem_ancestors_of_mem_walkedFields {f : InheritedField}
    (h : f ∈ s.walkedFields options root excluded) :
    f.owner ∈ (s.inheritance options root excluded).ancestors := by
  obtain ⟨a, ha, declared, -, -, rfl⟩ := mem_walkedFields_iff.1 h
  exact mem_ancestors_inheritance_iff.2 ⟨a, ha, rfl⟩

/-- **Contexts are well-formed**, as each entry is one of the members that the walk meets. -/
theorem wellFormed_inheritance (s : DeclarationStore) (options : ResolverOptions) (root : DeclId)
    (excluded : List String) : (s.inheritance options root excluded).WellFormed where
  final := by
    intro p op h
    obtain ⟨hmem, hp, hfinal⟩ := mem_walkedOperations_of_final h
    exact ⟨⟨hp, admits_of_mem_walkedOperations hmem⟩, hfinal⟩
  overridable := by
    intro p op h
    obtain ⟨hmem, hp, hflags⟩ := mem_walkedOperations_of_overridable h
    exact ⟨⟨hp, admits_of_mem_walkedOperations hmem⟩, hflags⟩
  toImplement := by
    intro p op h
    obtain ⟨hmem, hp, hflags⟩ := mem_walkedOperations_of_toImplement h
    exact ⟨⟨hp, admits_of_mem_walkedOperations hmem⟩, hflags⟩
  constructors := by
    intro k m h
    obtain ⟨hmem, hk⟩ := mem_walkedConstructors_of_getElem? h
    obtain ⟨hname, hadmits⟩ := admits_of_mem_walkedConstructors hmem
    refine ⟨?_, hadmits⟩
    rw [← hname, ← hk]
  fields := by
    intro name f h
    obtain ⟨hmem, hname⟩ := mem_walkedFields_of_get? h
    exact ⟨hname, owner_mem_ancestors_of_mem_walkedFields hmem⟩

/-! ### Nothing gets lost -/

/-- **Contexts are well-formed, and lose nothing.**  Each entry stands under its own key and in the map
where its modifiers belong, with a valid signature, visible to subtypes, and owned by an ancestor.
Each operation of an ancestor that is neither static nor private nor passed over as generated has its
prototype, with the types that the root sees, in one of the three maps.  The inherited fields are
those that the ancestors do not keep to themselves: in the order in which their names occur first,
each with the owner and the type of that first occurrence. -/
theorem context_wellFormed (s : DeclarationStore) (options : ResolverOptions) (root : DeclId)
    (excluded : List String) :
    let c := s.inheritance options root excluded
    let b := s.typeBindings root
    let fields := s.walkedFields options root excluded
    c.WellFormed ∧
    (∀ name ∈ c.ancestors, ∃ d, s.lookup? name = some d ∧
      ∀ op ∈ d.operations, op.isStatic = false → op.visibility ≠ .owner →
        (op.isSynthetic && options.skipSynthetic) = false →
        c.InheritsOperation (.ofSignature op.name (op.signature.mapTypes b.substitute))) ∧
    c.inheritedFields.entries.map (·.1) = (fields.map (·.name)).eraseDups ∧
    ∀ name, c.inheritedFields.get? name = fields.find? (·.name = name) := by
  intro c b fields
  refine ⟨s.wellFormed_inheritance options root excluded, ?_,
    s.map_fst_inheritedFields_inheritance options root excluded,
    s.get?_inheritedFields_inheritance options root excluded⟩
  intro name hname
  obtain ⟨a, ha, rfl⟩ := mem_ancestors_inheritance_iff.1 hname
  refine ⟨a.2, s.lookup?_of_mem_walked options root excluded ha, ?_⟩
  intro op hop hstatic hvisible hsynthetic
  exact ((s.records_inheritance options root excluded).operations _).2
    ⟨a, ha, op, hop, ⟨hstatic, hvisible, hsynthetic⟩, rfl⟩

end DeclarationStore

end ActionSignatures
