/-
**Members that nobody inherits.**

Private and static operations, private fields and constructors, and generated operations, where the
options leave these out, are not inherited.  Nor does a type inherit from itself, even if its
hierarchy is cyclic and leads back to it.  This module takes all such members away from a store and
keeps the *view* that is left for a root: its own declaration without any member, and every other one
with the members that are inherited.  Two stores with the same view give the root the same context,
whatever else they declare: the walks through them find the same, declaration by declaration, up to
members that are not looked at.

Main definitions:

* `ActionSignatures.TypeDeclaration.inheritable`, `ActionSignatures.TypeDeclaration.bare` — a
  declaration with the members that are inherited, and one without members;
* `ActionSignatures.DeclarationStore.view` — **what a store shows to a root**.

Main results:

* `ActionSignatures.Finding.enter_inheritable` — entering an ancestor looks at inherited members
  only;
* `ActionSignatures.DeclarationStore.findings_inheritable_eq` — **walks through stores with the same
  view find the same**, up to members that are not inherited;
* `ActionSignatures.DeclarationStore.context_depends_on_view` — **members that nobody inherits do not
  influence a context**.
-/

import ActionSignatures.Proofs.Inheritance.Exclusion

set_option relaxedAutoImplicit false
set_option autoImplicit false

namespace ActionSignatures

/-! ### What subtypes see of a declaration -/

namespace TypeDeclaration

/-- A declaration with those of its members that subtypes inherit. -/
def inheritable (d : TypeDeclaration) (options : ResolverOptions) : TypeDeclaration :=
  { d with
    operations := d.operations.filter options.inherits
    fields := d.fields.filter (·.visibility.isInheritable)
    constructors := d.constructors.filter (·.visibility.isInheritable) }

/-- A declaration without its members. -/
def bare (d : TypeDeclaration) : TypeDeclaration :=
  { d with operations := [], fields := [], constructors := [] }

variable (d : TypeDeclaration) (options : ResolverOptions)

@[simp] theorem name_inheritable : (d.inheritable options).name = d.name := rfl

@[simp] theorem edges_inheritable (isRoot : Bool) :
    (d.inheritable options).edges isRoot = d.edges isRoot := rfl

@[simp] theorem header_inheritable : (d.inheritable options).header = d.header := rfl

@[simp] theorem name_bare : d.bare.name = d.name := rfl

@[simp] theorem edges_bare (isRoot : Bool) : d.bare.edges isRoot = d.edges isRoot := rfl

@[simp] theorem header_bare : d.bare.header = d.header := rfl

/-- The constructors that are mirrored are among those that are inherited. -/
@[simp] theorem mirroredConstructors_inheritable (isRootSuperclass : Bool) :
    (d.inheritable options).mirroredConstructors isRootSuperclass =
      d.mirroredConstructors isRootSuperclass := by
  have hclass : (d.inheritable options).isClass = d.isClass := rfl
  rw [mirroredConstructors, mirroredConstructors, hclass]
  split
  · exact (List.filter_filter ..).trans (by simp only [Bool.and_self])
  · rfl

end TypeDeclaration

/-- Collecting members looks at those that are inherited only. -/
theorem AncestorWalk.collect_inheritable (rules : WalkRules) (c : InheritanceContext) (id : DeclId)
    (d : TypeDeclaration) (isRootSuperclass : Bool) :
    collect rules c id (d.inheritable rules.options) isRootSuperclass =
      collect rules c id d isRootSuperclass := by
  have hoperations : (d.inheritable rules.options).operations.filter rules.inherits =
      d.operations.filter rules.inherits :=
    (List.filter_filter ..).trans
      (List.filter_congr fun op _ => Bool.and_self (rules.options.inherits op))
  have hfields : (d.inheritable rules.options).fields.filter (·.visibility.isInheritable) =
      d.fields.filter (·.visibility.isInheritable) :=
    (List.filter_filter ..).trans (by simp only [Bool.and_self])
  rw [collect_eq, collect_eq, TypeDeclaration.mirroredConstructors_inheritable, hoperations,
    hfields]
  rfl

namespace Finding

/-- A finding with those members of an ancestor that are inherited. -/
def inheritable (options : ResolverOptions) : Finding → Finding
  | .ancestor id d isRootSuperclass => .ancestor id (d.inheritable options) isRootSuperclass
  | .unresolved e => .unresolved e

/-- **Entering an ancestor looks at inherited members only.** -/
theorem enter_inheritable (rules : WalkRules) (c : InheritanceContext) (f : Finding) :
    enter rules c (f.inheritable rules.options) = enter rules c f := by
  cases f with
  | ancestor id d isRootSuperclass => exact AncestorWalk.collect_inheritable ..
  | unresolved e => rfl

/-- Findings that differ only in members that are not inherited leave the same context. -/
theorem foldl_enter_eq {rules : WalkRules} {fs gs : List Finding}
    (h : fs.map (inheritable rules.options) = gs.map (inheritable rules.options))
    (c : InheritanceContext) : fs.foldl (enter rules) c = gs.foldl (enter rules) c := by
  have hview : ∀ fs : List Finding,
      fs.foldl (enter rules) c = (fs.map (inheritable rules.options)).foldl (enter rules) c := by
    intro fs
    rw [List.foldl_map]
    exact List.foldl_ext _ _ c fun c f _ => (enter_inheritable rules c f).symm
  rw [hview fs, hview gs, h]

end Finding

/-! ### What a store shows to a root -/

namespace DeclarationStore

/-- **What a store shows to a root** under an identifier: the declaration of the root without its
members, and any other one with those that subtypes inherit. -/
def view (s : DeclarationStore) (options : ResolverOptions) (root i : DeclId) :
    Option TypeDeclaration :=
  (s.get? i).map fun d => if i = root then d.bare else d.inheritable options

variable {s t : DeclarationStore} {options : ResolverOptions} {root i : DeclId}

/-- What holds of a declaration without members and of one with inherited members alike can be read
off the view. -/
theorem map_get?_of_view_eq {α : Type} (f : TypeDeclaration → α)
    (hbare : ∀ d, f d.bare = f d) (hinheritable : ∀ d, f (d.inheritable options) = f d)
    (h : s.view options root i = t.view options root i) :
    (s.get? i).map f = (t.get? i).map f := by
  have hview : ∀ r : DeclarationStore, (r.get? i).map f = (r.view options root i).map f := by
    intro r
    rw [view, Option.map_map]
    refine congrArg (Option.map · (r.get? i)) (funext fun d => ?_)
    rw [Function.comp_apply]
    split
    · exact (hbare d).symm
    · exact (hinheritable d).symm
  rw [hview s, hview t, h]

theorem header?_eq_of_view_eq (h : s.view options root i = t.view options root i) :
    s.header? i = t.header? i :=
  map_get?_of_view_eq TypeDeclaration.header (·.header_bare) (·.header_inheritable options) h

/-- The same identifiers have declarations, which are the same up to members that are not inherited,
apart from that of the root. -/
theorem exists_get?_of_view_eq (h : s.view options root i = t.view options root i)
    {d : TypeDeclaration} (hd : s.get? i = some d) :
    ∃ e, t.get? i = some e ∧ (i ≠ root → d.inheritable options = e.inheritable options) := by
  rw [view, view, hd, Option.map_some, eq_comm, Option.map_eq_some_iff] at h
  obtain ⟨e, he, hsame⟩ := h
  refine ⟨e, he, fun hi => ?_⟩
  rw [if_neg hi, if_neg hi] at hsame
  exact hsame.symm

/-- The identifier of a name depends on the names that are registered. -/
theorem idOf?_congr (h : ∀ i, s.nameOf? i = t.nameOf? i) (name : String) :
    s.idOf? name = t.idOf? name := by
  have hplace : ∀ (r : DeclarationStore) (n : Nat),
      (r.declarations.toList.map (·.name))[n]? = r.nameOf? ⟨n + 1⟩ := by
    intro r n
    rw [List.getElem?_map, nameOf?, get?, if_neg (Nat.succ_ne_zero n), Array.getElem?_toList]
    rfl
  rw [idOf?_eq, idOf?_eq]
  refine latestId?_congr (List.ext_getElem? fun n => ?_) name
  rw [hplace s, hplace t, h]

section

variable (h : ∀ i, s.view options root i = t.view options root i)
include h

theorem idOf?_eq_of_view_eq (name : String) : s.idOf? name = t.idOf? name :=
  idOf?_congr (fun i => map_get?_of_view_eq (·.name) (·.name_bare) (·.name_inheritable options)
    (h i)) name

theorem resolveType?_eq_of_view_eq : s.resolveType? = t.resolveType? := by
  funext reference
  rw [resolveType?, resolveType?, funext (idOf?_eq_of_view_eq h)]

/-- A reference leads to the same identifier in both stores, and to the same declaration up to members
that are not inherited, unless it leads to the root. -/
theorem exists_ancestor?_of_view_eq {reference : TypeRef} {id : DeclId} {d : TypeDeclaration}
    (hn : s.ancestor? reference = some (id, d)) :
    ∃ e, t.ancestor? reference = some (id, e) ∧
      (id ≠ root → d.inheritable options = e.inheritable options) := by
  obtain ⟨hresolve, hd⟩ := ancestor?_eq_some_iff.1 hn
  obtain ⟨e, he, hsame⟩ := exists_get?_of_view_eq (h id) hd
  rw [resolveType?_eq_of_view_eq h] at hresolve
  exact ⟨e, ancestor?_eq_some_iff.2 ⟨hresolve, he⟩, hsame⟩

/-- **Walks through stores with the same view find the same**, up to members that are not inherited,
once the root has been visited: a cycle that leads back to it ends there. -/
theorem findings_inheritable_eq (excludes : String → Bool) (left : Nat) {visited : List DeclId}
    (hroot : root ∈ visited) (edges : List AncestorEdge) :
    (s.findings excludes left visited edges).1.map (Finding.inheritable options) =
        (t.findings excludes left visited edges).1.map (Finding.inheritable options) ∧
      (s.findings excludes left visited edges).2 = (t.findings excludes left visited edges).2 := by
  induction left generalizing visited edges with
  | zero => cases edges <;> exact ⟨rfl, rfl⟩
  | succ left ih =>
      cases edges with
      | nil => exact ⟨rfl, rfl⟩
      | cons e edges =>
          by_cases hx : e.reference.declaredName?.any excludes = true
          · rw [findings_cons_of_excluded hx, findings_cons_of_excluded hx]
            exact ih hroot edges
          cases hn : s.ancestor? e.reference with
          | none =>
              have hn' := ancestor?_eq_none_iff.1 hn
              rw [resolveType?_eq_of_view_eq h, ← ancestor?_eq_none_iff] at hn'
              rw [findings_cons_of_unresolved hx hn, findings_cons_of_unresolved hx hn']
              obtain ⟨hlater, hcut⟩ := ih hroot edges
              exact ⟨congrArg (List.cons _) hlater, hcut⟩
          | some target =>
              obtain ⟨id, d⟩ := target
              obtain ⟨d', hn', hsame⟩ := exists_ancestor?_of_view_eq h hn
              by_cases hv : id ∈ visited
              · rw [findings_cons_of_mem hx hn hv, findings_cons_of_mem hx hn' hv]
                exact ih hroot edges
              · -- the root has been visited, so that this is another declaration
                have hinheritable := hsame fun hid => hv (hid ▸ hroot)
                have hedges : d.edges false = d'.edges false :=
                  congrArg (·.edges false) hinheritable
                rw [findings_cons_of_notMem hx hn hv, findings_cons_of_notMem hx hn' hv, ← hedges]
                obtain ⟨hlater, hcut⟩ :=
                  ih (List.mem_cons_of_mem id hroot) (edges ++ d.edges false)
                refine ⟨?_, hcut⟩
                rw [List.map_cons, List.map_cons, hlater, Finding.inheritable, hinheritable]
                rfl

/-- The walks from the root find the same, up to members that are not inherited, and end in the same
way. -/
theorem found_inheritable_eq (excluded : List String)
    (hrules : s.walkRules options root excluded = t.walkRules options root excluded) :
    (s.found options root excluded).map (Finding.inheritable options) =
        (t.found options root excluded).map (Finding.inheritable options) ∧
      s.isCut options root excluded = t.isCut options root excluded := by
  have hedges := map_get?_of_view_eq (·.edges true) (·.edges_bare true)
    (·.edges_inheritable options true) (h root)
  rw [found, found, isCut, isCut, hrules]
  cases hd : s.get? root with
  | none =>
      rw [hd, Option.map_none, eq_comm, Option.map_eq_none_iff] at hedges
      rw [hedges]
      exact ⟨rfl, rfl⟩
  | some d =>
      rw [hd, Option.map_some, eq_comm, Option.map_eq_some_iff] at hedges
      obtain ⟨e, he, hsame⟩ := hedges
      simp only [he, hsame]
      exact findings_inheritable_eq h _ _ (List.mem_singleton_self root) _

end

/-- **Members that nobody inherits do not influence a context.**  Two stores with the same view for a
root give the same context to it, whatever is excluded. -/
theorem context_depends_on_view (s t : DeclarationStore) (options : ResolverOptions) (root : DeclId)
    (excluded : List String) (h : ∀ i, s.view options root i = t.view options root i) :
    s.inheritance options root excluded = t.inheritance options root excluded := by
  have hbindings : s.typeBindings root = t.typeBindings root :=
    typeBindings_congr (idOf?_eq_of_view_eq h) fun i _ => header?_eq_of_view_eq (h i)
  have hrules : s.walkRules options root excluded = t.walkRules options root excluded := by
    rw [walkRules, walkRules, hbindings]
  obtain ⟨hfound, hcut⟩ := found_inheritable_eq h excluded hrules
  have hleft : (s.found options root excluded).foldl
        (Finding.enter (t.walkRules options root excluded)) {} =
      (t.found options root excluded).foldl
        (Finding.enter (t.walkRules options root excluded)) {} :=
    Finding.foldl_enter_eq hfound {}
  have hmark := map_get?_of_view_eq (fun d => (⟨d.name, Limits.maxAncestorEdges⟩ : TruncatedWalk))
    (fun _ => rfl) (fun _ => rfl) (h root)
  rw [inheritance_eq_foldl_found, inheritance_eq_foldl_found, hrules, hleft, hcut, hmark]

/-- A class and its superclass, which leads back to it.  What the class declares is left open, and so
is what the superclass declares beside one operation. -/
def selfReaching (own further : List Operation) : DeclarationStore :=
  .ofList
    [{ name := "Base", interfaces := [.named "Root"], operations := { name := "run" } :: further },
      { name := "Root", superclass := some (.named "Base"), operations := own }]

/-- A class whose hierarchy leads back to it does not inherit what it declares itself, although it
would be final, nor what its superclass keeps for itself. -/
theorem context_selfReaching :
    let s := selfReaching [] []
    let t := selfReaching [{ name := "run", flags := .final }]
      [{ name := "help", visibility := .owner }, { name := "run", flags := .static },
        { name := "stop", flags := .synthetic }]
    (∀ i, s.view {} ⟨2⟩ i = t.view {} ⟨2⟩ i) ∧
      s.inheritance {} ⟨2⟩ [] = t.inheritance {} ⟨2⟩ [] := by
  intro s t
  have hview : ∀ i, s.view {} ⟨2⟩ i = t.view {} ⟨2⟩ i := by
    rintro ⟨i⟩
    match i with
    | 0 => rfl
    | 1 => decide
    | 2 => rfl
    | i + 3 => rfl
  exact ⟨hview, context_depends_on_view s t {} ⟨2⟩ [] hview⟩

end DeclarationStore

end ActionSignatures
