/-
**What excluded declarations decide.**

An ancestor of an excluded name is passed over by the walk that collects members, together with
everything above it.  The walk that collects the bindings of type parameters does not look at the
excluded names: it follows the references of an excluded declaration as well, and the arguments found
there come before those that are found later.  This module compares two stores that differ only in
declarations of excluded names.  What the walk visits, and what it says about references that it could
not follow, is always the same; the whole context is the same wherever the bindings substitute the
same types, and there is a hierarchy in which they do not.

Main definitions:

* `ActionSignatures.InheritanceContext.fieldOwners` — the inherited fields with their owners;
* `ActionSignatures.DeclarationStore.DiffersOnlyAt` — **stores that differ only in declarations of
  some names**.

Main results:

* `ActionSignatures.DeclarationStore.fieldOwners_inheritance` — the first field of a name is
  inherited;
* `ActionSignatures.Finding.enter_congr` — what is entered depends on the substitution, not on the
  bindings;
* `ActionSignatures.DeclarationStore.DiffersOnlyAt.findings_eq` — **the walk finds the same**;
* `ActionSignatures.DeclarationStore.excluded_decide_only_bindings` — excluded declarations act on a
  context **through the bindings alone**.
-/

import ActionSignatures.Proofs.Inheritance.Members
import Mathlib.Data.List.Forall2

set_option relaxedAutoImplicit false
set_option autoImplicit false

namespace ActionSignatures

/-! ### The owners of inherited fields -/

/-- Entries with one more at the end, unless its name has an entry already. -/
def keepFirst (l : List (String × String)) (e : String × String) : List (String × String) :=
  if e.1 ∈ l.map (·.1) then l else l ++ [e]

/-- The fields that subtypes inherit from a declaration, with the name of the declaration. -/
def TypeDeclaration.ownedFields (d : TypeDeclaration) : List (String × String) :=
  (d.fields.filter (·.visibility.isInheritable)).map fun field => (field.name, d.name)

namespace InheritanceContext

/-- The names of the inherited fields with the names of their owners, in the order in which they were
found. -/
def fieldOwners (c : InheritanceContext) : List (String × String) :=
  c.inheritedFields.entries.map fun e => (e.1, e.2.owner)

end InheritanceContext

/-- The names and the owners of the fields that subtypes inherit do not depend on the bindings. -/
theorem TypeDeclaration.map_owner_inheritedFields (d : TypeDeclaration) (b : TypeBindings) :
    (d.inheritedFields b).map (fun f => (f.name, f.owner)) = d.ownedFields := by
  rw [inheritedFields, ownedFields, List.map_map]
  rfl

/-- Binding more names keeps the first field of each. -/
theorem FirstMap.map_owner_entries_insertAll (m : FirstMap String InheritedField)
    (fields : List InheritedField) :
    (m.insertAll (fields.map fun f => (f.name, f))).entries.map (fun e => (e.1, e.2.owner)) =
      (fields.map fun f => (f.name, f.owner)).foldl keepFirst
        (m.entries.map fun e => (e.1, e.2.owner)) := by
  induction fields generalizing m with
  | nil => rfl
  | cons f fields ih =>
      have hcons : m.insertAll ((f :: fields).map fun f => (f.name, f)) =
          (m.insert f.name f).insertAll (fields.map fun f => (f.name, f)) := rfl
      have hbound : m.contains f.name = true ↔
          f.name ∈ (m.entries.map fun e => (e.1, e.2.owner)).map (·.1) := by
        rw [contains, Option.isSome_iff_ne_none, ne_eq, get?_eq_none_iff, not_not, List.map_map]
        rfl
      rw [hcons, ih, List.map_cons, List.foldl_cons, keepFirst, entries_insert]
      by_cases h : m.contains f.name = true
      · rw [if_pos h, if_pos (hbound.1 h)]
      · rw [if_neg h, if_neg (mt hbound.2 h), List.map_append]
        rfl

/-- **The inherited fields** are those of the ancestors walked, the first one of a name. -/
theorem DeclarationStore.fieldOwners_inheritance (s : DeclarationStore) (options : ResolverOptions)
    (root : DeclId) (excluded : List String) :
    (s.inheritance options root excluded).fieldOwners =
      ((s.walked options root excluded).flatMap (·.2.ownedFields)).foldl keepFirst [] := by
  rw [InheritanceContext.fieldOwners, inheritedFields_inheritance,
    FirstMap.map_owner_entries_insertAll, walkedFields_eq, List.map_flatMap]
  simp only [TypeDeclaration.map_owner_inheritedFields, FirstMap.entries_empty, List.map_nil]

/-! ### What is entered depends on the substitution -/

section

variable {b b' : TypeBindings} (h : b.substitute = b'.substitute)
include h

theorem InheritedOperation.of_congr (owner : TypeDeclaration) (id : DeclId) (op : Operation) :
    InheritedOperation.of owner id b op = .of owner id b' op := by
  simp only [InheritedOperation.of, h]

theorem InheritanceContext.recordField_congr (c : InheritanceContext) (owner : TypeDeclaration)
    (field : Field) : c.recordField owner b field = c.recordField owner b' field := by
  rw [recordField_eq, recordField_eq, InheritedField.of, InheritedField.of, h]

theorem InheritanceContext.recordConstructor_congr (c : InheritanceContext)
    (owner : TypeDeclaration) (constructor : Constructor) :
    c.recordConstructor owner b constructor = c.recordConstructor owner b' constructor := by
  simp only [recordConstructor_eq, MirroredConstructor.of, MirroredConstructor.withSignature, h]

/-- **What is entered depends on what the bindings substitute**, not on the bindings themselves. -/
theorem Finding.enter_congr (options : ResolverOptions) (excluded : List String)
    (c : InheritanceContext) (f : Finding) :
    enter ⟨options, excluded, b⟩ c f = enter ⟨options, excluded, b'⟩ c f := by
  have hinherits : WalkRules.inherits ⟨options, excluded, b⟩ =
      WalkRules.inherits ⟨options, excluded, b'⟩ := rfl
  cases f with
  | ancestor id d isRootSuperclass =>
      simp only [enter, AncestorWalk.collect, hinherits, InheritedOperation.of_congr h,
        InheritanceContext.recordField_congr h, InheritanceContext.recordConstructor_congr h]
  | unresolved e => rfl

end

/-! ### Stores that differ only in declarations of some names -/

/-- Two declarations have the same name, and are the same unless the name is one of some. -/
def TypeDeclaration.SameUnless (names : String → Bool) (d e : TypeDeclaration) : Prop :=
  d.name = e.name ∧ (names d.name = false → d = e)

/-- Related lists have related elements in the same places. -/
theorem rel_getElem?_of_forall₂ {α β : Type} {R : α → β → Prop} {l : List α} {l' : List β}
    (h : List.Forall₂ R l l') (n : Nat) : Option.Rel R l[n]? l'[n]? := by
  induction h generalizing n with
  | nil => exact .none
  | cons hd _ ih =>
      cases n with
      | zero => exact .some hd
      | succ n => exact ih n

theorem exists_getElem?_of_forall₂ {α β : Type} {R : α → β → Prop} {l : List α} {l' : List β}
    (h : List.Forall₂ R l l') {n : Nat} {a : α} (ha : l[n]? = some a) :
    ∃ b, l'[n]? = some b ∧ R a b := by
  have hrel := rel_getElem?_of_forall₂ h n
  rw [ha] at hrel
  generalize l'[n]? = found at hrel
  cases hrel with
  | some hab => exact ⟨_, rfl, hab⟩

/-- The identifier of a name depends on the names alone. -/
theorem latestId?_congr {ds es : List TypeDeclaration} (h : ds.map (·.name) = es.map (·.name))
    (name : String) : latestId? name ds = latestId? name es := by
  have hnames : ∀ ds : List TypeDeclaration, latestId? name ds =
      ((ds.map (·.name)).zipIdx 1).foldl
        (fun found d => if d.1 = name then some ⟨d.2⟩ else found) none := by
    intro ds
    simp only [latestId?, List.zipIdx_map, List.foldl_map]
    rfl
  rw [hnames ds, hnames es, h]

namespace DeclarationStore

/-- **Two stores differ only in declarations of some names**: they register the same names in the same
order, and the same declaration wherever the name is none of them. -/
def DiffersOnlyAt (s t : DeclarationStore) (names : String → Bool) : Prop :=
  List.Forall₂ (TypeDeclaration.SameUnless names) s.declarations.toList t.declarations.toList

/-- Where the headers of all declarations are the same, so is the header with each identifier. -/
theorem header?_congr {s t : DeclarationStore}
    (h : s.declarations.toList.map (·.header) = t.declarations.toList.map (·.header)) (i : DeclId) :
    s.header? i = t.header? i := by
  have hplace : ∀ r : DeclarationStore, r.header? i =
      if i.index = 0 then none else (r.declarations.toList.map (·.header))[i.index - 1]? := by
    intro r
    rw [header?, get?]
    split
    · rfl
    · rw [List.getElem?_map, Array.getElem?_toList]
  rw [hplace s, hplace t, h]

namespace DiffersOnlyAt

variable {s t : DeclarationStore} {names : String → Bool}

theorem rel_get? (h : s.DiffersOnlyAt t names) (i : DeclId) :
    Option.Rel (TypeDeclaration.SameUnless names) (s.get? i) (t.get? i) := by
  rw [get?, get?]
  split
  · exact .none
  · rw [← Array.getElem?_toList, ← Array.getElem?_toList]
    exact rel_getElem?_of_forall₂ h (i.index - 1)

/-- Every name stands for the same identifier. -/
theorem idOf?_eq (h : s.DiffersOnlyAt t names) (name : String) : s.idOf? name = t.idOf? name := by
  rw [DeclarationStore.idOf?_eq, DeclarationStore.idOf?_eq]
  refine latestId?_congr ?_ name
  rw [← List.forall₂_eq_eq_eq, List.forall₂_map_left_iff, List.forall₂_map_right_iff]
  exact List.Forall₂.imp (fun _ _ hsame => hsame.1) h

/-- The same is declared under an identifier whose name is none of the names. -/
theorem get?_eq (h : s.DiffersOnlyAt t names) {i : DeclId}
    (hi : ∀ d, s.get? i = some d → names d.name = false) : s.get? i = t.get? i := by
  have hrel := h.rel_get? i
  generalize t.get? i = found at hrel
  cases hd : s.get? i with
  | none =>
      rw [hd] at hrel
      cases hrel
      rfl
  | some d =>
      rw [hd] at hrel
      cases hrel with
      | some hsame => exact congrArg some (hsame.2 (hi d hd))

/-- A reference leads to the same declaration if the name that it mentions is none of the names. -/
theorem ancestor?_eq (h : s.DiffersOnlyAt t names) {reference : TypeRef}
    (hx : ¬reference.declaredName?.any names = true) :
    s.ancestor? reference = t.ancestor? reference := by
  have hresolve : s.resolveType? reference = t.resolveType? reference := by
    rw [resolveType?, resolveType?, funext h.idOf?_eq]
  cases hs : s.ancestor? reference with
  | none => rw [eq_comm, ancestor?_eq_none_iff, ← hresolve, ← ancestor?_eq_none_iff, hs]
  | some a =>
      obtain ⟨i, d⟩ := a
      obtain ⟨hi, hd⟩ := ancestor?_eq_some_iff.1 hs
      -- a declaration that is reached has the name that the reference mentions
      have hname : names d.name = false := by
        rw [(declaredName?_of_ancestor? hs).1, Option.any_some, Bool.not_eq_true] at hx
        exact hx
      have hget : s.get? i = t.get? i := by
        refine h.get?_eq fun e he => ?_
        obtain rfl : d = e := Option.some.inj (hd.symm.trans he)
        exact hname
      rw [eq_comm, ancestor?_eq_some_iff, ← hresolve, ← hget]
      exact ⟨hi, hd⟩

/-- **The walk finds the same** where the names are passed over. -/
theorem findings_eq (h : s.DiffersOnlyAt t names) (left : Nat) (visited : List DeclId)
    (edges : List AncestorEdge) :
    s.findings names left visited edges = t.findings names left visited edges := by
  induction left generalizing visited edges with
  | zero => cases edges <;> rfl
  | succ left ih =>
      cases edges with
      | nil => rfl
      | cons e edges =>
          rw [findings, findings]
          by_cases hx : e.reference.declaredName?.any names = true
          · rw [if_pos hx, if_pos hx]
            exact ih visited edges
          · rw [if_neg hx, if_neg hx, ← h.ancestor?_eq hx]
            simp only [ih]

section

variable {options : ResolverOptions} {root : DeclId} {excluded : List String}
  (h : s.DiffersOnlyAt t (options.excludes excluded))
  (hroot : ∀ d, s.get? root = some d → options.excludes excluded d.name = false)
include h hroot

theorem found_eq : s.found options root excluded = t.found options root excluded := by
  rw [found, found, ← h.get?_eq hroot]
  cases s.get? root with
  | none => rfl
  | some d => exact congrArg Prod.fst (h.findings_eq _ _ _)

theorem isCut_eq : s.isCut options root excluded = t.isCut options root excluded := by
  rw [isCut, isCut, ← h.get?_eq hroot]
  cases s.get? root with
  | none => rfl
  | some d => exact congrArg Prod.snd (h.findings_eq _ _ _)

theorem walked_eq : s.walked options root excluded = t.walked options root excluded := by
  rw [walked, walked, h.found_eq hroot]

/-- The same is said about the references that were not followed. -/
theorem gaps_inheritance_eq :
    (s.inheritance options root excluded).gaps = (t.inheritance options root excluded).gaps := by
  rw [gaps_inheritance, gaps_inheritance, h.found_eq hroot, h.isCut_eq hroot, h.get?_eq hroot]

/-- The contexts are the same where the bindings substitute the same. -/
theorem inheritance_eq
    (hsubstitute : (s.typeBindings root).substitute = (t.typeBindings root).substitute) :
    s.inheritance options root excluded = t.inheritance options root excluded := by
  have henter : Finding.enter (s.walkRules options root excluded) =
      Finding.enter (t.walkRules options root excluded) :=
    funext fun c => funext (Finding.enter_congr hsubstitute options excluded c)
  rw [inheritance_eq_foldl_found, inheritance_eq_foldl_found, h.found_eq hroot, h.isCut_eq hroot,
    h.get?_eq hroot, henter]

end

end DiffersOnlyAt

/-- **Excluded declarations act on a context through the bindings alone.**  For two stores that differ
only in declarations of excluded names, and a root that is none of them, the ancestors, the names and
owners of the inherited fields, and what is said about references that were not followed are the same.
The whole contexts are the same if the bindings of the root substitute the same types; this is the
case if the declarations that can be reached from the root have the same super-type references and the
same names of type parameters, whatever their members are. -/
theorem excluded_decide_only_bindings (s t : DeclarationStore) (options : ResolverOptions)
    (root : DeclId) (excluded : List String)
    (hdiffer : s.DiffersOnlyAt t (options.excludes excluded))
    (hroot : ∀ d, s.get? root = some d → options.excludes excluded d.name = false) :
    let c := s.inheritance options root excluded
    let c' := t.inheritance options root excluded
    (c.ancestors = c'.ancestors ∧ c.fieldOwners = c'.fieldOwners ∧ c.unresolved = c'.unresolved ∧
      c.truncated = c'.truncated) ∧
    ((s.typeBindings root).substitute = (t.typeBindings root).substitute → c = c') ∧
    ((∀ i, Relation.ReflTransGen (s.LeadsTo WellKnown.isObject) root i →
      s.header? i = t.header? i) → c = c') := by
  intro c c'
  have hgaps : c.gaps = c'.gaps := hdiffer.gaps_inheritance_eq hroot
  have hancestors : c.ancestors = c'.ancestors := by
    rw [← Array.toList_inj, ancestors_inheritance, ancestors_inheritance, hdiffer.walked_eq hroot]
  have hfields : c.fieldOwners = c'.fieldOwners := by
    rw [fieldOwners_inheritance, fieldOwners_inheritance, hdiffer.walked_eq hroot]
  refine ⟨⟨hancestors, hfields, congrArg Prod.fst hgaps, congrArg Prod.snd hgaps⟩,
    hdiffer.inheritance_eq hroot, fun hheaders => ?_⟩
  exact hdiffer.inheritance_eq hroot
    (congrArg TypeBindings.substitute (typeBindings_congr hdiffer.idOf?_eq hheaders))

/-! ### An ancestor reached around an excluded one and through it -/

/-- An interface with a type parameter, and an operation that takes an argument of that type. -/
def genericSink : TypeDeclaration :=
  { name := "G", kind := .interfaceType, typeParams := [{ name := "T" }],
    operations :=
      [{ name := "put",
         signature := ⟨[{ name := "x", type := .param "G" "T" none }], by simp [VariadicLast]⟩ }] }

/-- A root with two interfaces.  The second one instantiates the generic interface; what the first one
extends and declares is left open. -/
def twoInterfaces (interfaces : List TypeRef) (operations : List Operation) : DeclarationStore :=
  .ofList
    [genericSink,
      { name := "X", kind := .interfaceType, interfaces, operations },
      { name := "Y", kind := .interfaceType,
        interfaces := [.generic "G" [.named "java.lang.String"]] },
      { name := "Root", interfaces := [.named "X", .named "Y"] }]

/-- The prototype of the operation where the type parameter is bound to a type. -/
def putPrototype (argument : String) : Prototype := ⟨"put", .of [argument] false⟩

section

variable (interfaces interfaces' : List TypeRef) (operations operations' : List Operation)

/-- Where the first interface is excluded, what it extends and declares is a difference in excluded
declarations only. -/
theorem differsOnlyAt_twoInterfaces :
    (twoInterfaces interfaces operations).DiffersOnlyAt (twoInterfaces interfaces' operations')
      (({} : ResolverOptions).excludes ["X"]) := by
  have hsame : ∀ d : TypeDeclaration,
      TypeDeclaration.SameUnless (({} : ResolverOptions).excludes ["X"]) d d :=
    fun d => ⟨rfl, fun _ => rfl⟩
  have hexcluded : ({} : ResolverOptions).excludes ["X"] "X" ≠ false := by decide
  exact .cons (hsame _) (.cons ⟨rfl, fun h => absurd h hexcluded⟩
    (.cons (hsame _) (.cons (hsame _) .nil)))

theorem not_excluded_root_twoInterfaces (d : TypeDeclaration)
    (hd : (twoInterfaces interfaces operations).get? ⟨4⟩ = some d) :
    ({} : ResolverOptions).excludes ["X"] d.name = false := by
  have hroot : (twoInterfaces interfaces operations).get? ⟨4⟩ =
      some { name := "Root", interfaces := [.named "X", .named "Y"] } := rfl
  obtain rfl := Option.some.inj (hroot.symm.trans hd)
  decide

variable {interfaces operations}

/-- The operation that the root inherits past the first interface has the parameter type that the
type parameter is bound to. -/
theorem mem_overridableOperations_twoInterfaces_iff (argument : String)
    (h : ((twoInterfaces interfaces operations).requestedBindings ⟨4⟩).lookup ⟨"G", "T"⟩ =
      some (.named argument))
    (p : Prototype) :
    p ∈ ((twoInterfaces interfaces operations).inheritance {} ⟨4⟩ ["X"]).overridableOperations ↔
      p = putPrototype argument := by
  have hwalked : (twoInterfaces interfaces operations).walked {} ⟨4⟩ ["X"] =
      [(⟨3⟩,
          { name := "Y", kind := .interfaceType,
            interfaces := [.generic "G" [.named "java.lang.String"]] }),
        (⟨1⟩, genericSink)] := rfl
  rw [← get?_typeBindings] at h
  have hops : ∃ op, (twoInterfaces interfaces operations).walkedOperations {} ⟨4⟩ ["X"] = [op] ∧
      op.prototype = putPrototype argument ∧ op.isAbstract = false ∧ op.isFinal = false := by
    rw [walkedOperations_eq, hwalked]
    refine ⟨_, rfl, congrArg (Prototype.mk "put") (ParameterTypes.ext ?_ rfl), rfl, rfl⟩
    exact congrArg (fun t => [TypeRef.erasure t]) (TypeBindings.substitute_param_of_named h none)
  obtain ⟨op, hops, hp, habstract, hfinal⟩ := hops
  rw [mem_overridableOperations_of_singleton_iff hops habstract hfinal, hp]

end

/-- What the excluded interface declares makes no difference where it extends the same. -/
theorem excluded_members_ignored_twoInterfaces :
    let s := twoInterfaces [.generic "G" [.named "java.lang.Integer"]] []
    let t := twoInterfaces [.generic "G" [.named "java.lang.Integer"]] [{ name := "run" }]
    s.DiffersOnlyAt t (({} : ResolverOptions).excludes ["X"]) ∧
      s.inheritance {} ⟨4⟩ ["X"] = t.inheritance {} ⟨4⟩ ["X"] := by
  intro s t
  have hdiffer : s.DiffersOnlyAt t (({} : ResolverOptions).excludes ["X"]) :=
    differsOnlyAt_twoInterfaces ..
  have hheaders :
      s.declarations.toList.map (·.header) = t.declarations.toList.map (·.header) := rfl
  obtain ⟨_, _, hsame⟩ := excluded_decide_only_bindings s t {} ⟨4⟩ ["X"] hdiffer
    (not_excluded_root_twoInterfaces _ _)
  exact ⟨hdiffer, hsame fun i _ => header?_congr hheaders i⟩

/-- The arguments that an excluded interface supplies come before those that are found around it, so
that the root inherits another operation. -/
theorem excluded_arguments_substituted_twoInterfaces :
    let s := twoInterfaces [.generic "G" [.named "java.lang.Integer"]] []
    let t := twoInterfaces [] []
    s.DiffersOnlyAt t (({} : ResolverOptions).excludes ["X"]) ∧
      (∀ d, s.get? ⟨4⟩ = some d → ({} : ResolverOptions).excludes ["X"] d.name = false) ∧
      putPrototype "java.lang.Integer" ∈ (s.inheritance {} ⟨4⟩ ["X"]).overridableOperations ∧
      putPrototype "java.lang.Integer" ∉ (t.inheritance {} ⟨4⟩ ["X"]).overridableOperations ∧
      s.inheritance {} ⟨4⟩ ["X"] ≠ t.inheritance {} ⟨4⟩ ["X"] := by
  intro s t
  have hs : putPrototype "java.lang.Integer" ∈
      (s.inheritance {} ⟨4⟩ ["X"]).overridableOperations :=
    (mem_overridableOperations_twoInterfaces_iff "java.lang.Integer" (by decide) _).2 rfl
  have ht : putPrototype "java.lang.Integer" ∉
      (t.inheritance {} ⟨4⟩ ["X"]).overridableOperations := by
    intro h
    have hput := (mem_overridableOperations_twoInterfaces_iff "java.lang.String" (by decide) _).1 h
    exact absurd hput (by decide)
  refine ⟨differsOnlyAt_twoInterfaces .., not_excluded_root_twoInterfaces _ _, hs, ht, ?_⟩
  intro heq
  rw [heq] at hs
  exact ht hs

end DeclarationStore

end ActionSignatures
