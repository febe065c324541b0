/-
**The order of declarations.**

Registering declarations in another order gives them other identifiers, and another order of the
interfaces, operations and fields of a declaration makes the walk take references, and meet members,
in another order.  Under each name the two stores hold the same declaration, up to that order.  So a
path of references in one of them is a path in the other, through declarations of the same names: what
can be reached has the same names, and with it the ancestors, the length of the walk, and whatever is
noted or collected as a set.  Only which member is met first may change.

Main definitions:

* `ActionSignatures.TypeDeclaration.IsReordering`, `ActionSignatures.DeclarationStore.IsReordering` —
  **the same in another order**;
* `ActionSignatures.DeclarationStore.MatchedBy` — a store that holds, under each name, what another
  one holds, up to the order;
* `ActionSignatures.DeclarationStore.HasPlainSupertypes` — no super-type reference is generic.

Main results:

* `ActionSignatures.DeclarationStore.IsReordering.matchedBy` — where names are different, a name
  stands for the same in a store in another order;
* `ActionSignatures.DeclarationStore.MatchedBy.exists_transGen_leadsTo` — **a path through one store
  is a path through the other**;
* `ActionSignatures.DeclarationStore.MatchedBy.exists_mem_walked` — what one walk visits, a walk that
  is not cut short visits in the other store;
* `ActionSignatures.DeclarationStore.MatchedBy.enqueued_subperm` — and takes no more references;
* `ActionSignatures.DeclarationStore.order_does_not_matter` — **what a context says about prototypes
  and names does not depend on the order**.
-/

import ActionSignatures.Proofs.Inheritance.Members
import ActionSignatures.Proofs.Inheritance.Narrowing
import ActionSignatures.Proofs.Substitution.Scope

set_option relaxedAutoImplicit false
set_option autoImplicit false

namespace ActionSignatures

/-! ### A declaration in another order -/

/-- **A declaration with its interfaces, operations and fields in another order.** -/
structure TypeDeclaration.IsReordering (d e : TypeDeclaration) : Prop where
  name : d.name = e.name
  kind : d.kind = e.kind
  typeParams : d.typeParams = e.typeParams
  superclass : d.superclass = e.superclass
  constructors : d.constructors = e.constructors
  interfaces : d.interfaces.Perm e.interfaces
  operations : d.operations.Perm e.operations
  fields : d.fields.Perm e.fields

namespace TypeDeclaration.IsReordering

variable {d e : TypeDeclaration}

theorem symm (h : d.IsReordering e) : e.IsReordering d where
  name := h.name.symm
  kind := h.kind.symm
  typeParams := h.typeParams.symm
  superclass := h.superclass.symm
  constructors := h.constructors.symm
  interfaces := h.interfaces.symm
  operations := h.operations.symm
  fields := h.fields.symm

theorem supertypes (h : d.IsReordering e) : d.supertypes.Perm e.supertypes := by
  rw [TypeDeclaration.supertypes, TypeDeclaration.supertypes, h.superclass]
  exact h.interfaces.append_left _

theorem edges (h : d.IsReordering e) (isRoot : Bool) : (d.edges isRoot).Perm (e.edges isRoot) := by
  rw [TypeDeclaration.edges, TypeDeclaration.edges, isClass, isClass, h.name, h.kind, h.superclass]
  exact (h.interfaces.map _).append_left _

theorem ownedFields (h : d.IsReordering e) : d.ownedFields.Perm e.ownedFields := by
  rw [TypeDeclaration.ownedFields, TypeDeclaration.ownedFields, h.name]
  exact (h.fields.filter _).map _

/-- The operations that subtypes inherit have the same prototypes and modifiers. -/
theorem exists_mem_inheritedOperations (h : d.IsReordering e) {rules : WalkRules} {i : DeclId}
    {op : InheritedOperation} (hop : op ∈ d.inheritedOperations rules i) (j : DeclId) :
    ∃ op' ∈ e.inheritedOperations rules j, op'.prototype = op.prototype ∧
      op'.isAbstract = op.isAbstract ∧ op'.isFinal = op.isFinal := by
  obtain ⟨declared, hdeclared, rfl⟩ := List.mem_map.1 hop
  have hmem := (h.operations.filter rules.inherits).subset hdeclared
  exact ⟨.of e j rules.bindings declared, List.mem_map_of_mem hmem, rfl, rfl, rfl⟩

end TypeDeclaration.IsReordering

namespace DeclarationStore

/-! ### A store in another order -/

/-- **A store with its declarations in another order**, and each of them in another order. -/
def IsReordering (s t : DeclarationStore) : Prop :=
  ∃ ds, s.declarations.toList.Perm ds ∧
    List.Forall₂ TypeDeclaration.IsReordering ds t.declarations.toList

/-- **A store that holds, under each name, what another one holds**, in another order. -/
def MatchedBy (s t : DeclarationStore) : Prop :=
  ∀ name d, s.lookup? name = some d → ∃ e, t.lookup? name = some e ∧ d.IsReordering e

/-- No super-type reference of a store is generic. -/
def HasPlainSupertypes (s : DeclarationStore) : Prop :=
  ∀ d ∈ s.declarations, ∀ reference ∈ d.supertypes, BindingWalk.argumentsOf reference = none

/-- Where all declarations have different names, each name stands for the declaration that has it. -/
theorem lookup?_eq_some_iff {s : DeclarationStore}
    (hnames : (s.declarations.toList.map (·.name)).Nodup) {name : String} {d : TypeDeclaration} :
    s.lookup? name = some d ↔ d ∈ s.declarations ∧ d.name = name := by
  constructor
  · intro h
    obtain ⟨i, hi, hd⟩ := Option.bind_eq_some_iff.1 h
    obtain ⟨e, he, hname⟩ := get?_of_idOf? hi
    obtain rfl := Option.some.inj (he.symm.trans hd)
    exact ⟨mem_declarations_of_get? hd, hname⟩
  · rintro ⟨hd, rfl⟩
    obtain ⟨n, hn⟩ := Array.mem_iff_getElem?.1 hd
    have hget : s.get? ⟨n + 1⟩ = some d := hn
    exact lookup?_of_idOf? (idOf?_of_get? hnames hget) hget

namespace IsReordering

variable {s t : DeclarationStore}

theorem symm (h : s.IsReordering t) : t.IsReordering s := by
  obtain ⟨ds, hperm, hds⟩ := h
  obtain ⟨es, hes, hperm'⟩ := List.perm_comp_forall₂ hperm hds
  refine ⟨es, hperm'.symm, ?_⟩
  exact (List.Forall₂.imp (fun _ _ hde => hde.symm) hes).flip

theorem map_name_perm (h : s.IsReordering t) :
    (s.declarations.toList.map (·.name)).Perm (t.declarations.toList.map (·.name)) := by
  obtain ⟨ds, hperm, hds⟩ := h
  have hnames : ds.map (·.name) = t.declarations.toList.map (·.name) := by
    rw [← List.forall₂_eq_eq_eq, List.forall₂_map_left_iff, List.forall₂_map_right_iff]
    exact List.Forall₂.imp (fun _ _ hde => hde.name) hds
  rw [← hnames]
  exact hperm.map _

/-- Each declaration of a store has its counterpart in a store in another order. -/
theorem exists_mem_declarations (h : s.IsReordering t) {d : TypeDeclaration}
    (hd : d ∈ s.declarations) : ∃ e ∈ t.declarations, d.IsReordering e := by
  obtain ⟨ds, hperm, hds⟩ := h
  obtain ⟨n, hn⟩ := List.mem_iff_getElem?.1 (hperm.subset (Array.mem_toList_iff.2 hd))
  obtain ⟨e, he, hde⟩ := exists_getElem?_of_forall₂ hds hn
  exact ⟨e, Array.mem_toList_iff.1 (List.mem_of_getElem? he), hde⟩

/-- **Where names are different, a name stands for the same** in a store in another order. -/
theorem matchedBy (h : s.IsReordering t) (hs : (s.declarations.toList.map (·.name)).Nodup) :
    s.MatchedBy t := by
  intro name d hd
  have ht : (t.declarations.toList.map (·.name)).Nodup := h.map_name_perm.nodup_iff.1 hs
  obtain ⟨hmem, rfl⟩ := (lookup?_eq_some_iff hs).1 hd
  obtain ⟨e, he, hde⟩ := h.exists_mem_declarations hmem
  exact ⟨e, (lookup?_eq_some_iff ht).2 ⟨he, hde.name.symm⟩, hde⟩

theorem hasPlainSupertypes (h : s.IsReordering t) (hs : s.HasPlainSupertypes) :
    t.HasPlainSupertypes := by
  intro e he reference hreference
  obtain ⟨d, hd, hed⟩ := h.symm.exists_mem_declarations he
  exact hs d hd reference (hed.supertypes.subset hreference)

end IsReordering

/-- Without generic super-type references no type parameter is bound. -/
theorem HasPlainSupertypes.typeBindings_eq {s : DeclarationStore} (h : s.HasPlainSupertypes)
    (root : DeclId) : s.typeBindings root = .empty := by
  have hpoint : ∀ reference, BindingWalk.argumentsOf reference = none →
      s.pointBindings reference = [] := by
    intro reference hplain
    refine List.flatMap_eq_nil_iff.2 fun d _ => ?_
    rw [TypeDeclaration.argumentBindings, hplain]
  have hrequested : s.requestedBindings root = [] := by
    refine List.flatMap_eq_nil_iff.2 fun i _ => ?_
    refine List.flatMap_eq_nil_iff.2 fun d hd => ?_
    have hmem := mem_declarations_of_get? (Option.mem_toList.1 hd)
    exact List.flatMap_eq_nil_iff.2 fun reference hreference =>
      hpoint reference (h d hmem reference hreference)
  rw [DeclarationStore.typeBindings_eq, hrequested, FirstMap.insertAll_nil]

/-! ### The walk through a store in another order -/

/-- Two identifiers, each in its store, of one name. -/
def SameName (s t : DeclarationStore) (i j : DeclId) : Prop :=
  ∃ name, s.idOf? name = some i ∧ t.idOf? name = some j

namespace MatchedBy

section

variable {s t : DeclarationStore} (h : s.MatchedBy t) {excludes : String → Bool}
include h

/-- A registered name is registered in the other store. -/
theorem exists_idOf? {name : String} {i : DeclId} (hi : s.idOf? name = some i) :
    ∃ j, t.idOf? name = some j := by
  obtain ⟨d, hd, -⟩ := get?_of_idOf? hi
  obtain ⟨e, he, -⟩ := h name d (lookup?_of_idOf? hi hd)
  obtain ⟨j, hj, -⟩ := Option.bind_eq_some_iff.1 he
  exact ⟨j, hj⟩

/-- Declarations of one name are the same up to the order. -/
theorem exists_get? {i j : DeclId} (hij : SameName s t i j) {d : TypeDeclaration}
    (hd : s.get? i = some d) : ∃ e, t.get? j = some e ∧ d.IsReordering e := by
  obtain ⟨name, hi, hj⟩ := hij
  obtain ⟨e, he, hde⟩ := h name d (lookup?_of_idOf? hi hd)
  rw [lookup?, hj, Option.bind_some] at he
  exact ⟨e, he, hde⟩

/-- A reference leads to a declaration of the same name in the other store. -/
theorem exists_leadsTo {i j k : DeclId} (hij : SameName s t i j) (hik : s.LeadsTo excludes i k) :
    ∃ l, SameName s t k l ∧ t.LeadsTo excludes j l := by
  obtain ⟨d, hd, reference, hreference, name, hname, hkept, hk⟩ := hik
  obtain ⟨e, he, hde⟩ := h.exists_get? hij hd
  obtain ⟨l, hl⟩ := h.exists_idOf? hk
  exact ⟨l, ⟨name, hk, hl⟩, e, he, reference, hde.supertypes.subset hreference, name, hname, hkept,
    hl⟩

/-- **A path through one store is a path through the other**, through the same names. -/
theorem exists_transGen_leadsTo {i j k : DeclId} (hij : SameName s t i j)
    (hik : Relation.TransGen (s.LeadsTo excludes) i k) :
    ∃ l, SameName s t k l ∧ Relation.TransGen (t.LeadsTo excludes) j l := by
  induction hik with
  | single hik =>
      obtain ⟨l, hkl, hjl⟩ := h.exists_leadsTo hij hik
      exact ⟨l, hkl, .single hjl⟩
  | tail _ hlast ih =>
      obtain ⟨l, hkl, hjl⟩ := ih
      obtain ⟨m, hm, hlm⟩ := h.exists_leadsTo hkl hlast
      exact ⟨m, hm, hjl.tail hlm⟩

end

section

variable {s t : DeclarationStore} (h : s.MatchedBy t) {options : ResolverOptions} {name : String}
  {root root' : DeclId} {excluded : List String} (hroot : s.idOf? name = some root)
  (hroot' : t.idOf? name = some root') (hcut : t.isCut options root' excluded = false)
include h hroot hroot' hcut

/-- **What the walk visits in one store, a walk that is not cut short visits in the other**, whether
or not the first one is cut short. -/
theorem exists_mem_walked {a : DeclId × TypeDeclaration}
    (ha : a ∈ s.walked options root excluded) :
    ∃ a' ∈ t.walked options root' excluded, a.2.IsReordering a'.2 := by
  obtain ⟨hid, hd⟩ := s.idOf?_of_mem_walked options root excluded ha
  obtain ⟨j, haj, hreach⟩ :=
    h.exists_transGen_leadsTo ⟨name, hroot, hroot'⟩ (transGen_leadsTo_of_mem_walked ha)
  obtain ⟨e, he, hde⟩ := h.exists_get? haj hd
  refine ⟨(j, e), (mem_walked_iff hcut).2 ⟨he, ?_, hreach⟩, hde⟩
  -- the roots have one name, so what is not the root here is not the root there
  rintro rfl
  obtain ⟨d', hd', hname⟩ := get?_of_idOf? hroot'
  obtain rfl := Option.some.inj (hd'.symm.trans he)
  rw [hde.name, hname, hroot] at hid
  exact ne_root_of_mem_walked ha (Option.some.inj hid).symm

theorem ancestors_subset :
    (s.inheritance options root excluded).ancestors.toList ⊆
      (t.inheritance options root' excluded).ancestors.toList := by
  rw [ancestors_inheritance, ancestors_inheritance]
  intro ancestor hancestor
  obtain ⟨a, ha, rfl⟩ := List.mem_map.1 hancestor
  obtain ⟨a', ha', hreordering⟩ := h.exists_mem_walked hroot hroot' hcut ha
  exact List.mem_map.2 ⟨a', ha', hreordering.name.symm⟩

/-- The operations that one walk meets have the prototypes and modifiers of some that the other one
meets, if the bindings are the same. -/
theorem exists_mem_walkedOperations (hbindings : s.typeBindings root = t.typeBindings root')
    {op : InheritedOperation} (hop : op ∈ s.walkedOperations options root excluded) :
    ∃ op' ∈ t.walkedOperations options root' excluded, op'.prototype = op.prototype ∧
      op'.isAbstract = op.isAbstract ∧ op'.isFinal = op.isFinal := by
  have hrules : s.walkRules options root excluded = t.walkRules options root' excluded := by
    rw [walkRules, walkRules, hbindings]
  obtain ⟨a, ha, hop⟩ := mem_walkedOperations_iff.1 hop
  obtain ⟨a', ha', hreordering⟩ := h.exists_mem_walked hroot hroot' hcut ha
  rw [hrules] at hop
  obtain ⟨op', hop', hsame⟩ := hreordering.exists_mem_inheritedOperations hop a'.1
  exact ⟨op', mem_walkedOperations_iff.2 ⟨a', ha', hop'⟩, hsame⟩

/-- A final prototype of one context is final in the other one. -/
theorem mem_finalOperations (hbindings : s.typeBindings root = t.typeBindings root')
    {p : Prototype} (hp : p ∈ (s.inheritance options root excluded).finalOperations) :
    p ∈ (t.inheritance options root' excluded).finalOperations := by
  rw [mem_finalOperations_inheritance_iff] at hp ⊢
  obtain ⟨op, hop, rfl, hfinal⟩ := hp
  obtain ⟨op', hop', hp', -, hfinal'⟩ :=
    h.exists_mem_walkedOperations hroot hroot' hcut hbindings hop
  exact ⟨op', hop', hp', hfinal'.trans hfinal⟩

/-- A field that one context has is a field of the other one. -/
theorem contains_inheritedFields {field : String}
    (hfield : (s.inheritance options root excluded).inheritedFields.contains field = true) :
    (t.inheritance options root' excluded).inheritedFields.contains field = true := by
  rw [contains_inheritedFields_inheritance_iff] at hfield ⊢
  obtain ⟨a, ha, hmem⟩ := hfield
  obtain ⟨a', ha', hreordering⟩ := h.exists_mem_walked hroot hroot' hcut ha
  exact ⟨a', ha', (hreordering.ownedFields.map _).subset hmem⟩

/-- **The walk takes no more references** than a walk through the other store that is not cut
short. -/
theorem enqueued_subperm :
    (s.enqueued options root excluded).Subperm (t.enqueued options root' excluded) := by
  obtain ⟨d, hd, -⟩ := get?_of_idOf? hroot
  obtain ⟨e, he, hde⟩ := h.exists_get? ⟨name, hroot, hroot'⟩ hd
  have hedges : ∀ ancestor ∈ (s.inheritance options root excluded).ancestors.toList,
      ((s.lookup? ancestor).toList.flatMap (·.edges false)).Perm
        ((t.lookup? ancestor).toList.flatMap (·.edges false)) := by
    intro ancestor hancestor
    rw [ancestors_inheritance] at hancestor
    obtain ⟨a, ha, rfl⟩ := List.mem_map.1 hancestor
    have hlookup := s.lookup?_of_mem_walked options root excluded ha
    obtain ⟨b, hb, hab⟩ := h a.2.name a.2 hlookup
    rw [hlookup, hb, Option.toList_some, Option.toList_some, List.flatMap_singleton,
      List.flatMap_singleton]
    exact hab.edges false
  obtain ⟨names, hperm, hsub⟩ :=
    List.subperm_of_subset (s.nodup_ancestors options root excluded)
      (h.ancestors_subset hroot hroot' hcut)
  rw [enqueued, enqueued, hd, he, s.flatMap_walked options root excluded (·.edges false),
    t.flatMap_walked options root' excluded (·.edges false)]
  refine List.Subperm.append ?_ ?_
  · simpa using (hde.edges true).subperm
  · refine (List.Perm.flatMap_left _ hedges).subperm.trans ?_
    exact ⟨_, hperm.flatMap_right _, hsub.flatMap _⟩

theorem isCut_eq_false : s.isCut options root excluded = false := by
  have hlength := (h.enqueued_subperm hroot hroot' hcut).length_le
  rw [isCut_eq_false_iff] at hcut ⊢
  exact hlength.trans hcut

end

end MatchedBy

/-! ### Two stores that match each other -/

section

variable {s t : DeclarationStore} (h : s.MatchedBy t) (h' : t.MatchedBy s)
include h h'

/-- The same references lead nowhere. -/
theorem unresolvedIn_eq_of_matchedBy (excludes : String → Bool) (edges : List AncestorEdge) :
    s.unresolvedIn excludes edges = t.unresolvedIn excludes edges := by
  have hnone : ∀ reference : TypeRef,
      (s.ancestor? reference).isNone = (t.ancestor? reference).isNone := by
    intro reference
    rw [Bool.eq_iff_iff, Option.isNone_iff_eq_none, Option.isNone_iff_eq_none,
      ancestor?_eq_none_iff, ancestor?_eq_none_iff, resolveType?, resolveType?]
    cases reference.declaredName? with
    | none => rfl
    | some name =>
        rw [Option.bind_some, Option.bind_some, ← not_iff_not, ← ne_eq, ← ne_eq,
          Option.ne_none_iff_exists', Option.ne_none_iff_exists']
        constructor
        · rintro ⟨i, hi⟩
          exact h.exists_idOf? hi
        · rintro ⟨j, hj⟩
          exact h'.exists_idOf? hj
  simp only [unresolvedIn, hnone]

variable {options : ResolverOptions} {name : String} {root root' : DeclId}
  {excluded : List String} (hroot : s.idOf? name = some root) (hroot' : t.idOf? name = some root')
  (hcut : s.isCut options root excluded = false)
include hroot hroot' hcut

/-- A prototype that is to be implemented in one context is to be implemented in the other one: no
operation there has modifiers that none here has. -/
theorem mem_operationsToImplement_of_matchedBy
    (hbindings : s.typeBindings root = t.typeBindings root') {p : Prototype}
    (hp : p ∈ (s.inheritance options root excluded).operationsToImplement) :
    p ∈ (t.inheritance options root' excluded).operationsToImplement := by
  have hcut' := h'.isCut_eq_false hroot' hroot hcut
  rw [mem_operationsToImplement_inheritance_iff] at hp ⊢
  obtain ⟨⟨op, hop, rfl⟩, hall⟩ := hp
  obtain ⟨op', hop', hp', -⟩ := h.exists_mem_walkedOperations hroot hroot' hcut' hbindings hop
  refine ⟨⟨op', hop', hp'⟩, ?_⟩
  intro other hother hsame
  obtain ⟨here, hhere, hp, habstract, hfinal⟩ :=
    h'.exists_mem_walkedOperations hroot' hroot hcut hbindings.symm hother
  rw [← habstract, ← hfinal]
  exact hall here hhere (hp.trans hsame)

end

/-- **The order does not matter.**  Of two stores one has the declarations of the other one in another
order, and the interfaces, operations and fields of each of them; the names are different, and no
super-type reference is generic.  Then the walks from two roots of one name are cut short together.  If
they are not, the contexts have the same ancestors, note the same references as unresolved, each as
often and for the same declaration, and have the same final operations, operations to implement and
inherited fields, as far as prototypes and names go. -/
theorem order_does_not_matter (s t : DeclarationStore) (options : ResolverOptions) (name : String)
    (root root' : DeclId) (excluded : List String)
    (hnames : (s.declarations.toList.map (·.name)).Nodup) (hplain : s.HasPlainSupertypes)
    (horder : s.IsReordering t) (hroot : s.idOf? name = some root)
    (hroot' : t.idOf? name = some root') :
    let c := s.inheritance options root excluded
    let c' := t.inheritance options root' excluded
    (c.truncated = none ↔ c'.truncated = none) ∧
    (c.truncated = none →
      c.ancestors.toList.Perm c'.ancestors.toList ∧
      c.unresolved.toList.Perm c'.unresolved.toList ∧
      (∀ p, p ∈ c.finalOperations ↔ p ∈ c'.finalOperations) ∧
      (∀ p, p ∈ c.operationsToImplement ↔ p ∈ c'.operationsToImplement) ∧
      ∀ field, c.inheritedFields.contains field = true ↔
        c'.inheritedFields.contains field = true) := by
  intro c c'
  have h : s.MatchedBy t := horder.matchedBy hnames
  have h' : t.MatchedBy s := horder.symm.matchedBy (horder.map_name_perm.nodup_iff.1 hnames)
  have hbindings : s.typeBindings root = t.typeBindings root' := by
    rw [hplain.typeBindings_eq, (horder.hasPlainSupertypes hplain).typeBindings_eq]
  rw [truncated_inheritance_eq_none_iff, truncated_inheritance_eq_none_iff]
  refine ⟨⟨h'.isCut_eq_false hroot' hroot, h.isCut_eq_false hroot hroot'⟩, ?_⟩
  intro hcut
  have hcut' := h'.isCut_eq_false hroot' hroot hcut
  refine ⟨?_, ?_, ?_, ?_, ?_⟩
  · rw [List.perm_ext_iff_of_nodup (s.nodup_ancestors options root excluded)
      (t.nodup_ancestors options root' excluded)]
    exact fun ancestor => ⟨fun hmem => h.ancestors_subset hroot hroot' hcut' hmem,
      fun hmem => h'.ancestors_subset hroot' hroot hcut hmem⟩
  · have henqueued := (h.enqueued_subperm hroot hroot' hcut').antisymm
      (h'.enqueued_subperm hroot' hroot hcut)
    rw [s.unresolved_inheritance options root excluded hcut,
      t.unresolved_inheritance options root' excluded hcut', unresolvedIn_eq_of_matchedBy h h']
    exact (henqueued.filter _).map _
  · exact fun p => ⟨h.mem_finalOperations hroot hroot' hcut' hbindings,
      h'.mem_finalOperations hroot' hroot hcut hbindings.symm⟩
  · exact fun p => ⟨mem_operationsToImplement_of_matchedBy h h' hroot hroot' hcut hbindings,
      mem_operationsToImplement_of_matchedBy h' h hroot' hroot hcut' hbindings.symm⟩
  · exact fun field => ⟨h.contains_inheritedFields hroot hroot' hcut',
      h'.contains_inheritedFields hroot' hroot hcut⟩

/-- A class below two interfaces with one super-interface in common, and a reference that leads
nowhere. -/
def inOneOrder : DeclarationStore :=
  .ofList
    [{ name := "Runnable", kind := .interfaceType,
       operations := [{ name := "run", flags := .abstract }, { name := "stop", flags := .abstract }] },
      { name := "Left", kind := .interfaceType,
        interfaces := [.named "Runnable", .named "Missing"],
        fields := [{ name := "x", type := .primitive .int }] },
      { name := "Right", kind := .interfaceType, interfaces := [.named "Runnable"],
        operations := [{ name := "run" }] },
      { name := "Root", interfaces := [.named "Left", .named "Right"] }]

/-- The same declarations in the opposite order. -/
def inOppositeOrder : DeclarationStore :=
  .ofList
    [{ name := "Root", interfaces := [.named "Right", .named "Left"] },
      { name := "Right", kind := .interfaceType, interfaces := [.named "Runnable"],
        operations := [{ name := "run" }] },
      { name := "Left", kind := .interfaceType,
        interfaces := [.named "Missing", .named "Runnable"],
        fields := [{ name := "x", type := .primitive .int }] },
      { name := "Runnable", kind := .interfaceType,
        operations :=
          [{ name := "stop", flags := .abstract }, { name := "run", flags := .abstract }] }]

theorem isReordering_inOneOrder : inOneOrder.IsReordering inOppositeOrder := by
  refine ⟨inOneOrder.declarations.toList.reverse, (List.reverse_perm _).symm, ?_⟩
  refine .cons ?_ (.cons ?_ (.cons ?_ (.cons ?_ .nil)))
  all_goals
    exact
      { name := rfl
        kind := rfl
        typeParams := rfl
        superclass := rfl
        constructors := rfl
        interfaces := by decide
        operations := by decide
        fields := by decide }

/-- What is to be implemented does not depend on which interface is met first. -/
theorem order_does_not_matter_inOneOrder :
    let c := inOneOrder.inheritance {} ⟨4⟩ []
    let c' := inOppositeOrder.inheritance {} ⟨1⟩ []
    let stop : Prototype := ⟨"stop", .empty⟩
    inOneOrder.IsReordering inOppositeOrder ∧ c.truncated = none ∧ c'.truncated = none ∧
      c.ancestors.toList.Perm c'.ancestors.toList ∧
      c.unresolved.toList.Perm c'.unresolved.toList ∧
      stop ∈ c'.operationsToImplement := by
  intro c c' stop
  have hnames : (inOneOrder.declarations.toList.map (·.name)).Nodup := by decide
  have hplain : inOneOrder.HasPlainSupertypes := by
    rw [HasPlainSupertypes]
    decide
  have hroot : inOneOrder.idOf? "Root" = some ⟨4⟩ := by
    rw [idOf?_eq]
    decide
  have hroot' : inOppositeOrder.idOf? "Root" = some ⟨1⟩ := by
    rw [idOf?_eq]
    decide
  have htruncated : c.truncated = none := by
    rw [truncated_inheritance_eq_none_iff]
    decide
  obtain ⟨hcut, hsame⟩ := order_does_not_matter inOneOrder inOppositeOrder {} "Root" ⟨4⟩ ⟨1⟩ []
    hnames hplain isReordering_inOneOrder hroot hroot'
  obtain ⟨hancestors, hunresolved, -, himplement, -⟩ := hsame htruncated
  have hstop : stop ∈ c.operationsToImplement := by
    rw [mem_operationsToImplement_inheritance_iff, walkedOperations_eq]
    decide
  exact ⟨isReordering_inOneOrder, htruncated, hcut.1 htruncated, hancestors, hunresolved,
    (himplement stop).1 hstop⟩

end DeclarationStore

end ActionSignatures
