/-
**The types in a context.**

The members of an ancestor come to the root with their types substituted into.  In a well-scoped
store the type parameters of ancestors should be gone by then.  The walk for the bindings takes its
own way, however: it also goes through what the walk for the members passes over, and counts what it
takes off its queue against the limit.  A type parameter of an ancestor remains exactly where it is
not bound.  None remains where nothing is passed over, or where the walk for the bindings expands
all that can be reached; but an excluded declaration can use up the limit, and then the context is
not marked.

Main definitions:

* `ActionSignatures.InheritanceContext.TypesSatisfy` — **what holds of all types in a context**;
* `ActionSignatures.DeclarationStore.crowded` — a hierarchy in which an excluded declaration has
  many super-type references.

Main results:

* `ActionSignatures.DeclarationStore.typesSatisfy_inheritance` — the types in a context are those of
  the members of ancestors, substituted into;
* `ActionSignatures.DeclarationStore.context_closed` — **which type parameters remain in a
  context**;
* `ActionSignatures.DeclarationStore.not_closed_crowded` — an excluded declaration that leaves a
  type parameter of an ancestor in the context.
-/

import ActionSignatures.Proofs.Inheritance.Exclusion
import ActionSignatures.Proofs.Inheritance.Trail
import ActionSignatures.Proofs.Substitution.Scope

set_option relaxedAutoImplicit false
set_option autoImplicit false

namespace ActionSignatures

/-! ### The types of inherited members -/

/-- The types of the parameters, the result and the exceptions of an inherited operation. -/
def InheritedOperation.types (op : InheritedOperation) : List TypeRef :=
  op.signature.params.map (·.type) ++ op.returnType :: op.exceptions

/-- The types of the parameters and the exceptions of a mirrored constructor. -/
def MirroredConstructor.types (c : MirroredConstructor) : List TypeRef :=
  c.signature.params.map (·.type) ++ c.exceptions

theorem Signature.map_type_mapTypes (s : Signature) (f : TypeRef → TypeRef) :
    (s.mapTypes f).params.map (·.type) = (s.params.map (·.type)).map f := by
  rw [mapTypes, List.map_map, List.map_map]
  rfl

/-- The types of an inherited operation are those that it is declared with, substituted into. -/
theorem InheritedOperation.types_of (owner : TypeDeclaration) (id : DeclId) (b : TypeBindings)
    (op : Operation) : (of owner id b op).types = op.types.map b.substitute := by
  rw [types, Operation.types, List.map_append, List.map_cons]
  exact congrArg (· ++ _) (Signature.map_type_mapTypes op.signature b.substitute)

/-- The types of a mirrored constructor are those that it is declared with, substituted into. -/
theorem MirroredConstructor.types_of (owner : TypeDeclaration) (b : TypeBindings)
    (c : Constructor) : (of owner b c).types = c.types.map b.substitute := by
  rw [types, Constructor.types, List.map_append]
  exact congrArg (· ++ _) (Signature.map_type_mapTypes c.signature b.substitute)

/-! ### What holds of all types in a context -/

/-- A property holds of all types of the operations in a map. -/
def OperationMap.TypesSatisfy (m : OperationMap) (P : TypeRef → Prop) : Prop :=
  ∀ (p : Prototype) (op : InheritedOperation), m[p]? = some op → ∀ t ∈ op.types, P t

namespace InheritanceContext

/-- **A property holds of all types in a context**: of parameters, results and exceptions of
operations, of fields, and of parameters and exceptions of constructors. -/
structure TypesSatisfy (c : InheritanceContext) (P : TypeRef → Prop) : Prop where
  final : OperationMap.TypesSatisfy c.finalOperations P
  overridable : OperationMap.TypesSatisfy c.overridableOperations P
  toImplement : OperationMap.TypesSatisfy c.operationsToImplement P
  fields : ∀ (name : String) (f : InheritedField),
    c.inheritedFields.get? name = some f → P f.type
  constructors : ∀ (p : ParameterTypes) (m : MirroredConstructor),
    c.constructors[p]? = some m → ∀ t ∈ m.types, P t

variable {P Q : TypeRef → Prop} {c : InheritanceContext}

theorem TypesSatisfy.imp (h : c.TypesSatisfy P) (himp : ∀ t, P t → Q t) : c.TypesSatisfy Q where
  final p op hop t ht := himp t (h.final p op hop t ht)
  overridable p op hop t ht := himp t (h.overridable p op hop t ht)
  toImplement p op hop t ht := himp t (h.toImplement p op hop t ht)
  fields name f hf := himp f.type (h.fields name f hf)
  constructors p m hm t ht := himp t (h.constructors p m hm t ht)

end InheritanceContext

/-! ### Which type parameters remain -/

namespace DeclarationStore

variable {s : DeclarationStore} {options : ResolverOptions} {root : DeclId} {excluded : List String}

/-- **The types in a context** are those of the members of ancestors, substituted into. -/
theorem typesSatisfy_inheritance {P : TypeRef → Prop}
    (h : ∀ a ∈ s.walked options root excluded, ∀ t ∈ a.2.memberTypes,
      P ((s.typeBindings root).substitute t)) :
    (s.inheritance options root excluded).TypesSatisfy P := by
  simp only [TypeDeclaration.memberTypes, List.forall_mem_append, List.forall_mem_flatMap,
    List.forall_mem_map] at h
  have hoperations : ∀ op ∈ s.walkedOperations options root excluded, ∀ t ∈ op.types, P t := by
    intro op hop
    obtain ⟨a, ha, hop⟩ := mem_walkedOperations_iff.1 hop
    obtain ⟨declared, hdeclared, -, rfl⟩ := TypeDeclaration.mem_inheritedOperations_iff.1 hop
    rw [InheritedOperation.types_of]
    exact List.forall_mem_map.2 ((h a ha).1 declared hdeclared)
  constructor
  · intro p op hop
    exact hoperations op (mem_walkedOperations_of_final hop).1
  · intro p op hop
    exact hoperations op (mem_walkedOperations_of_overridable hop).1
  · intro p op hop
    exact hoperations op (mem_walkedOperations_of_toImplement hop).1
  · intro name f hf
    obtain ⟨a, ha, declared, hdeclared, -, rfl⟩ :=
      mem_walkedFields_iff.1 (mem_walkedFields_of_get? hf).1
    exact (h a ha).2.1 declared hdeclared
  · intro k m hm
    obtain ⟨a, ha, declared, hdeclared, -, rfl⟩ :=
      exists_of_mem_walkedConstructors (mem_walkedConstructors_of_getElem? hm).1
    rw [MirroredConstructor.types_of]
    exact List.forall_mem_map.2 ((h a ha).2.2 declared hdeclared)

/-- Where the root of the class hierarchy is not registered, a reference that is followed under some
exclusions is followed by the walk for the bindings. -/
theorem LeadsTo.isObject (hobject : s.idOf? WellKnown.object = none) {excludes : String → Bool}
    {i j : DeclId} (h : s.LeadsTo excludes i j) : s.LeadsTo WellKnown.isObject i j := by
  obtain ⟨d, hd, t, ht, name, hname, _, hid⟩ := h
  refine ⟨d, hd, t, ht, name, hname, isObject_eq_false_iff.2 ?_, hid⟩
  rintro rfl
  rw [hobject] at hid
  cases hid

/-- Where the walk for the bindings expands all that can be reached, every ancestor that is visited
has its type parameters bound. -/
theorem ExpandsAll.isBound_of_mem_walked (h : s.ExpandsAll root)
    (hcut : s.isCut options root excluded = false) (hobject : s.idOf? WellKnown.object = none)
    (hsupplies : s.SuppliesArguments) {i : DeclId} {d : TypeDeclaration}
    (ha : (i, d) ∈ s.walked options root excluded) {k : TypeParamKey} (hk : k ∈ d.paramKeys) :
    (s.typeBindings root).get? k ≠ none := by
  obtain ⟨hd, _, hreach⟩ := (mem_walked_iff hcut).1 ha
  obtain ⟨j, hj, hlead⟩ := Relation.TransGen.tail'_iff.1 hreach
  have hexpanded : j ∈ s.expanded root :=
    h j (Relation.ReflTransGen.mono (fun _ _ hstep => hstep.isObject hobject) _ _ hj)
  exact isBound_of_leadsTo hobject hsupplies hexpanded (hlead.isObject hobject) hd hk

/-- The name of the root is not among the ancestors. -/
theorem name_notMem_ancestors (hnames : (s.declarations.toList.map (·.name)).Nodup)
    {r : TypeDeclaration} (hr : s.get? root = some r) :
    r.name ∉ (s.inheritance options root excluded).ancestors := by
  rw [← Array.mem_toList_iff, ancestors_inheritance]
  intro hmem
  obtain ⟨a, ha, hname⟩ := List.mem_map.1 hmem
  have hid := (s.idOf?_of_mem_walked options root excluded ha).1
  rw [hname, idOf?_of_get? hnames hr] at hid
  exact ne_root_of_mem_walked ha (Option.some.inj hid).symm

/-- **Which type parameters remain in a context** of a well-scoped store: those of the root, and
those of ancestors that are not bound.  Where nothing is passed over, or the walk for the bindings
expands all that can be reached, those of the root only. -/
theorem context_closed (s : DeclarationStore) (options : ResolverOptions) (root : DeclId)
    (excluded : List String) (hs : s.WellScoped)
    (htruncated : (s.inheritance options root excluded).truncated = none) :
    let c := s.inheritance options root excluded
    let belongsToRoot := fun k : TypeParamKey =>
      k.owner ∉ c.ancestors ∧ ∃ r, s.get? root = some r ∧ k ∈ r.paramKeys
    (c.TypesSatisfy fun t => ∀ k ∈ t.paramKeys, belongsToRoot k ∨
      k.owner ∈ c.ancestors ∧ (s.typeBindings root).get? k = none) ∧
    ((∀ name, options.excludes excluded name = false) ∨ s.ExpandsAll root →
      c.TypesSatisfy fun t => ∀ k ∈ t.paramKeys, belongsToRoot k) := by
  intro c belongsToRoot
  have hremains : ∀ a ∈ s.walked options root excluded, ∀ t ∈ a.2.memberTypes,
      ∀ k ∈ ((s.typeBindings root).substitute t).paramKeys,
        belongsToRoot k ∨ k ∈ a.2.paramKeys ∧ (s.typeBindings root).get? k = none := by
    intro a ha t ht k hk
    have hdeclared := mem_declarations_of_get? (s.idOf?_of_mem_walked options root excluded ha).2
    refine (hs.of_mem_paramKeys_substitute (hs.members a.2 hdeclared t ht) hk).imp_left ?_
    rintro ⟨r, hr, hkr⟩
    refine ⟨?_, r, hr, hkr⟩
    rw [TypeDeclaration.owner_of_mem_paramKeys hkr]
    exact name_notMem_ancestors hs.names hr
  refine ⟨typesSatisfy_inheritance fun a ha t ht k hk => ?_, fun hcovered =>
    typesSatisfy_inheritance fun a ha t ht k hk => ?_⟩
  · refine (hremains a ha t ht k hk).imp_right fun hown => ⟨?_, hown.2⟩
    rw [TypeDeclaration.owner_of_mem_paramKeys hown.1, ← Array.mem_toList_iff,
      ancestors_inheritance]
    exact List.mem_map_of_mem ha
  · refine (hremains a ha t ht k hk).resolve_right fun hown => ?_
    rcases hcovered with hopen | hall
    · exact isBound_of_mem_walked hopen hs.object hs.supplies ha hown.1 hown.2
    · have hcut := (s.truncated_inheritance_eq_none_iff options root excluded).1 htruncated
      exact hall.isBound_of_mem_walked hcut hs.object hs.supplies ha hown.1 hown.2

/-! ### An excluded declaration with many references -/

/-- A root with two interfaces, of which the second leads to a generic one in two steps.  The first
one refers to another interface, over and over. -/
def crowdedDeclarations (n : Nat) : List TypeDeclaration :=
  [genericSink,
    { name := "Z", kind := .interfaceType,
      interfaces := [.generic "G" [.named "java.lang.String"]] },
    { name := "Y", kind := .interfaceType, interfaces := [.named "Z"] },
    { name := "W", kind := .interfaceType },
    { name := "X", kind := .interfaceType, interfaces := .replicate n (.named "W") },
    { name := "Root", interfaces := [.named "X", .named "Y"] }]

/-- The store of these declarations. -/
def crowded (n : Nat) : DeclarationStore := .ofList (crowdedDeclarations n)

/-- The super-type references of these declarations, each with the name of the declaration that
mentions it. -/
def crowdedReferences : List (String × TypeRef) :=
  [("Z", .generic "G" [.named "java.lang.String"]), ("Y", .named "Z"), ("X", .named "W"),
    ("Root", .named "X"), ("Root", .named "Y")]

section

variable (n : Nat)

theorem mem_crowdedReferences {d : TypeDeclaration} (hd : d ∈ (crowded n).declarations)
    {t : TypeRef} (ht : t ∈ d.supertypes) : (d.name, t) ∈ crowdedReferences := by
  have hlist : d ∈ crowdedDeclarations n := Array.mem_toList_iff.2 hd
  simp only [crowdedDeclarations, List.mem_cons, List.not_mem_nil, or_false] at hlist
  rcases hlist with rfl | rfl | rfl | rfl | rfl | rfl <;>
    simp_all [TypeDeclaration.supertypes, genericSink, crowdedReferences]

/-- Every reference leads to an earlier declaration, to which it supplies its arguments, and
mentions no type parameter. -/
theorem earlier_of_mem_crowdedReferences {r : String × TypeRef} (hr : r ∈ crowdedReferences) :
    ∃ i j e, (crowded n).idOf? r.1 = some i ∧ (crowded n).ancestor? r.2 = some (j, e) ∧
      j.index < i.index ∧ r.2.arguments.length = e.typeParams.length ∧
      ∀ arg ∈ r.2.arguments, arg.paramKeys = [] := by
  simp only [idOf?_eq]
  simp only [crowdedReferences, List.mem_cons, List.not_mem_nil, or_false] at hr
  rcases hr with rfl | rfl | rfl | rfl | rfl <;>
    exact ⟨_, _, _, rfl, rfl, by simp, rfl, by decide⟩

theorem nodup_names_crowded : ((crowded n).declarations.toList.map (·.name)).Nodup := by
  have hnames : (crowded n).declarations.toList.map (·.name) = ["G", "Z", "Y", "W", "X", "Root"] :=
    rfl
  rw [hnames]
  decide

/-- The hierarchy is well scoped, however often the first interface refers to another one. -/
theorem wellScoped_crowded : (crowded n).WellScoped where
  names := nodup_names_crowded n
  object := by
    rw [idOf?_eq]
    rfl
  acyclic := by
    refine not_transGen_leadsTo_self ?_
    rintro i j ⟨d, hd, t, ht, name, hname, _, hid⟩
    obtain ⟨i', j', e, hi, htarget, hless, _, _⟩ := earlier_of_mem_crowdedReferences n
      (mem_crowdedReferences n (mem_declarations_of_get? hd) ht)
    have hj := (ancestor?_eq_some_iff.1 htarget).1
    rw [resolveType?, hname, Option.bind_some, hid, Option.some_inj] at hj
    rw [idOf?_of_get? (nodup_names_crowded n) hd, Option.some_inj] at hi
    rw [hi, hj]
    exact hless
  supplies d hd t ht a ha := by
    obtain ⟨_, j, e, _, htarget, _, hlength, _⟩ :=
      earlier_of_mem_crowdedReferences n (mem_crowdedReferences n hd ht)
    obtain rfl := Option.some.inj (htarget.symm.trans ha)
    exact hlength
  extensions d hd t ht _ arg harg k hk := by
    obtain ⟨_, _, _, _, _, _, _, hclosed⟩ :=
      earlier_of_mem_crowdedReferences n (mem_crowdedReferences n hd ht)
    rw [hclosed arg harg] at hk
    cases hk
  members d hd := by
    have hlist : d ∈ crowdedDeclarations n := Array.mem_toList_iff.2 hd
    simp only [crowdedDeclarations, List.mem_cons, List.not_mem_nil, or_false] at hlist
    rcases hlist with rfl | rfl | rfl | rfl | rfl | rfl
    · decide
    all_goals simp [TypeDeclaration.memberTypes]

/-- What is in the queue over and over, and has been expanded, uses up the limit. -/
theorem expansions_replicate_append {s : DeclarationStore} {w : DeclId} {before : List DeclId}
    (hw : w ∈ before) {limit n : Nat} (h : limit ≤ n) (queue : List DeclId) :
    s.expansions limit before (.replicate n w ++ queue) = [] := by
  induction limit generalizing n with
  | zero => rfl
  | succ limit ih =>
      obtain ⟨m, rfl⟩ : ∃ m, n = m + 1 := ⟨n - 1, by omega⟩
      rw [List.replicate_succ, List.cons_append, expansions, if_pos hw]
      exact ih (by omega)

variable {n}

/-- The declaration that leads to the generic one is not expanded, if the first interface has enough
references. -/
theorem expanded_crowded (h : Limits.maxAncestorEdges ≤ n + 3) :
    (crowded n).expanded ⟨6⟩ = [⟨6⟩, ⟨5⟩, ⟨3⟩, ⟨4⟩] := by
  obtain ⟨m, rfl⟩ : ∃ m, n = m + 1 := ⟨n - 1, by simp only [Limits.maxAncestorEdges] at h; omega⟩
  have hstart : (crowded (m + 1)).expanded ⟨6⟩ =
      ⟨6⟩ :: ⟨5⟩ :: ⟨3⟩ :: (crowded (m + 1)).expansions (Limits.maxAncestorEdges - 3)
        [⟨3⟩, ⟨5⟩, ⟨6⟩] ((crowded (m + 1)).targets WellKnown.isObject ⟨5⟩ ++ [⟨2⟩]) := rfl
  have htargets : (crowded (m + 1)).targets WellKnown.isObject ⟨5⟩ = .replicate (m + 1) ⟨4⟩ := by
    have hx : (crowded (m + 1)).get? ⟨5⟩ =
        some { name := "X", kind := .interfaceType,
               interfaces := .replicate (m + 1) (.named "W") } := rfl
    have hw : (crowded (m + 1)).target? WellKnown.isObject (.named "W") = some ⟨4⟩ := rfl
    rw [targets_of_get? hx]
    exact List.filterMap_replicate_of_some hw
  have hnone : (crowded (m + 1)).targets WellKnown.isObject ⟨4⟩ = [] := rfl
  have hfirst : (⟨4⟩ : DeclId) ∉ [⟨3⟩, ⟨5⟩, ⟨6⟩] := by decide
  have hroom : Limits.maxAncestorEdges - 3 = Limits.maxAncestorEdges - 4 + 1 := rfl
  rw [hstart, htargets, List.replicate_succ, List.cons_append, hroom, expansions, if_neg hfirst,
    hnone, List.append_nil, expansions_replicate_append List.mem_cons_self (by omega)]

/-- So the type parameter of the generic one is not bound. -/
theorem get?_typeBindings_crowded (h : Limits.maxAncestorEdges ≤ n + 3) :
    ((crowded n).typeBindings ⟨6⟩).get? ⟨"G", "T"⟩ = none := by
  by_contra hbound
  obtain ⟨u, hu⟩ := Option.ne_none_iff_exists'.1 hbound
  obtain ⟨i, hi, d, hd, _, j, e, ⟨d', hd', t, ht, name, hname, _, hid⟩, he, hk⟩ :=
    (wellScoped_crowded n).exists_extension hu
  obtain rfl : d = d' := Option.some.inj (hd.symm.trans hd')
  obtain ⟨c, hc, rfl⟩ := get?_of_idOf? hid
  obtain rfl : c = e := Option.some.inj (hc.symm.trans he)
  rw [← TypeDeclaration.owner_of_mem_paramKeys hk] at hname
  have hreference := mem_crowdedReferences n (mem_declarations_of_get? hd) ht
  have hz : ∀ r ∈ crowdedReferences, r.2.declaredName? = some "G" → r.1 = "Z" := by decide
  have hdname : d.name = "Z" := hz _ hreference hname
  have hself := idOf?_of_get? (nodup_names_crowded n) hd
  rw [hdname, idOf?_eq] at hself
  have hsecond : latestId? "Z" (crowded n).declarations.toList = some ⟨2⟩ := rfl
  rw [expanded_crowded h, ← Option.some.inj (hsecond.symm.trans hself)] at hi
  exact absurd hi (by decide)

theorem truncated_crowded (n : Nat) : ((crowded n).inheritance {} ⟨6⟩ ["X"]).truncated = none := by
  rw [truncated_inheritance_eq_none_iff]
  rfl

/-- The walk passes over the first interface and visits the generic one. -/
theorem ancestors_crowded (n : Nat) :
    ((crowded n).inheritance {} ⟨6⟩ ["X"]).ancestors.toList = ["Y", "Z", "G"] := by
  rw [ancestors_inheritance]
  rfl

/-- The root inherits the operation of the generic one, with the type that is left of its parameter.
-/
theorem exists_overridable_crowded (n : Nat) :
    ∃ (p : Prototype) (op : InheritedOperation),
      ((crowded n).inheritance {} ⟨6⟩ ["X"]).overridableOperations[p]? = some op ∧
      ((crowded n).typeBindings ⟨6⟩).substitute (.param "G" "T" none) ∈ op.types := by
  have hwalked : (crowded n).walked {} ⟨6⟩ ["X"] =
      [(⟨3⟩, { name := "Y", kind := .interfaceType, interfaces := [.named "Z"] }),
        (⟨2⟩, { name := "Z", kind := .interfaceType,
                interfaces := [.generic "G" [.named "java.lang.String"]] }),
        (⟨1⟩, genericSink)] := rfl
  have hops : ∃ op, (crowded n).walkedOperations {} ⟨6⟩ ["X"] = [op] ∧ op.isAbstract = false ∧
      op.isFinal = false ∧
      ((crowded n).typeBindings ⟨6⟩).substitute (.param "G" "T" none) ∈ op.types := by
    rw [walkedOperations_eq, hwalked]
    exact ⟨_, rfl, rfl, rfl, List.mem_cons_self⟩
  obtain ⟨op, hops, habstract, hfinal, htypes⟩ := hops
  refine ⟨op.prototype, op, ?_, htypes⟩
  rw [getElem?_overridableOperations_inheritance, hops]
  simp [InheritedOperation.isConcrete, habstract, hfinal]

end

/-- **An excluded declaration can leave a type parameter of an ancestor in the context**, which is
not marked: the walk for the bindings goes through the references of the excluded declaration, and
takes the last identifier that it may before the declaration that leads to the generic one comes up.
-/
theorem not_closed_crowded :
    let s := crowded Limits.maxAncestorEdges
    let c := s.inheritance {} ⟨6⟩ ["X"]
    s.WellScoped ∧ c.truncated = none ∧ "G" ∈ c.ancestors ∧
      ¬c.TypesSatisfy fun t => ∀ k ∈ t.paramKeys, k.owner ∉ c.ancestors := by
  intro s c
  have hancestor : "G" ∈ c.ancestors := by
    rw [← Array.mem_toList_iff, ancestors_crowded]
    decide
  refine ⟨wellScoped_crowded _, truncated_crowded _, hancestor, fun hclosed => ?_⟩
  obtain ⟨p, op, hop, htypes⟩ := exists_overridable_crowded Limits.maxAncestorEdges
  have hunbound := get?_typeBindings_crowded (Nat.le_add_right Limits.maxAncestorEdges 3)
  rw [TypeBindings.substitute_of_next?_eq_none hunbound] at htypes
  exact hclosed.overridable p op hop _ htypes ⟨"G", "T"⟩ List.mem_cons_self hancestor

/-- With few references the type parameter is bound, and none remains. -/
theorem context_closed_crowded :
    let s := crowded 3
    let c := s.inheritance {} ⟨6⟩ ["X"]
    s.WellScoped ∧ c.truncated = none ∧ s.ExpandsAll ⟨6⟩ ∧
      c.TypesSatisfy fun t => ∀ k ∈ t.paramKeys, k.owner ∉ c.ancestors := by
  intro s c
  have hall : s.ExpandsAll ⟨6⟩ := expandsAll_of_length_lt (by decide)
  refine ⟨wellScoped_crowded 3, truncated_crowded 3, hall, ?_⟩
  obtain ⟨_, hclosed⟩ :=
    context_closed s {} ⟨6⟩ ["X"] (wellScoped_crowded 3) (truncated_crowded 3)
  exact (hclosed (.inr hall)).imp fun t ht k hk => (ht k hk).1

end DeclarationStore

end ActionSignatures
