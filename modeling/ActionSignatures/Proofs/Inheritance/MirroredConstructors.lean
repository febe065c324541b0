/-
**Whose constructors a root mirrors.**

The reference of a root to its superclass carries a mark in the queue, and the constructors of a
declaration are collected where it is visited through the marked reference.  The set of what has
been visited is shared with all other references, so the mark is worth something only because the
marked reference is taken first, before anything but the root has been visited.  References that are
put into the queue later carry no mark.  So whatever the hierarchy looks like, the constructors of a
context are those of the direct superclass, which then is the first ancestor; and where the
reference to it is not followed, or leads to no class, there are none.

Main definitions:

* `ActionSignatures.Finding.isMarked` — an ancestor that is visited through a marked reference;
* `ActionSignatures.DeclarationStore.DirectSuperclass` — **the class that a root extends** and
  mirrors.

Main results:

* `ActionSignatures.DeclarationStore.isMarked_of_mem_findings` — a walk without marked references
  finds nothing through one;
* `ActionSignatures.DeclarationStore.DirectSuperclass.exists_found_eq` — **the direct superclass is
  found first**, and nothing else through a marked reference;
* `ActionSignatures.DeclarationStore.directSuperclass_of_mem_found` — a class that is found through
  the marked reference is the direct superclass;
* `ActionSignatures.DeclarationStore.constructors_of_direct_superclass` — **the constructors of a
  context**.
-/

import ActionSignatures.Proofs.Inheritance.Members

set_option relaxedAutoImplicit false
set_option autoImplicit false

namespace ActionSignatures

/-! ### Marked references -/

namespace TypeDeclaration

/-- The references of a declaration with a superclass. -/
theorem edges_of_superclass {d : TypeDeclaration} {t : TypeRef} (h : d.superclass = some t)
    (isRoot : Bool) :
    d.edges isRoot =
      ⟨t, d.name, isRoot && d.isClass⟩ :: d.interfaces.map (⟨·, d.name, false⟩) := by
  rw [edges, h]
  rfl

/-- The references to interfaces are not marked. -/
theorem isRootSuperclass_of_mem_interfaces {d : TypeDeclaration} {e : AncestorEdge}
    (he : e ∈ d.interfaces.map fun t => ⟨t, d.name, false⟩) : e.isRootSuperclass = false := by
  obtain ⟨t, -, rfl⟩ := List.mem_map.1 he
  rfl

/-- The references of a declaration that is not the root are not marked. -/
theorem isRootSuperclass_of_mem_edges {d : TypeDeclaration} {e : AncestorEdge}
    (he : e ∈ d.edges false) : e.isRootSuperclass = false := by
  obtain he | he := List.mem_append.1 he
  · obtain ⟨t, -, rfl⟩ := List.mem_map.1 he
    rfl
  · exact isRootSuperclass_of_mem_interfaces he

end TypeDeclaration

/-- Whether a finding is an ancestor that is visited through a marked reference. -/
def Finding.isMarked : Finding → Bool
  | .ancestor _ _ isRootSuperclass => isRootSuperclass
  | .unresolved _ => false

/-- Only what is found through a marked reference has constructors to mirror. -/
theorem Finding.constructors_eq_nil {f : Finding} (h : f.isMarked = false) (b : TypeBindings) :
    f.constructors b = [] := by
  cases f with
  | ancestor id d isRootSuperclass =>
      cases h
      rfl
  | unresolved e => rfl

namespace DeclarationStore

variable {s : DeclarationStore} {excludes : String → Bool}

/-- **A walk without marked references finds nothing through one**, as what it visits adds no marked
reference to the queue. -/
theorem isMarked_of_mem_findings {left : Nat} {visited : List DeclId} {edges : List AncestorEdge}
    (h : ∀ e ∈ edges, e.isRootSuperclass = false) {f : Finding}
    (hf : f ∈ (s.findings excludes left visited edges).1) : f.isMarked = false := by
  fun_induction s.findings excludes left visited edges with
  | case1 => exact absurd hf List.not_mem_nil
  | case2 => exact absurd hf List.not_mem_nil
  | case3 left visited e edges hx ih =>
      exact ih (fun e' he' => h e' (List.mem_cons_of_mem _ he')) hf
  | case4 left visited e edges hx hn rest ih =>
      rcases List.mem_cons.1 hf with rfl | htail
      · rfl
      · exact ih (fun e' he' => h e' (List.mem_cons_of_mem _ he')) htail
  | case5 left visited e edges hx id d hn hv ih =>
      exact ih (fun e' he' => h e' (List.mem_cons_of_mem _ he')) hf
  | case6 left visited e edges hx id d hn hv rest ih =>
      rcases List.mem_cons.1 hf with rfl | htail
      · exact h e (List.mem_cons_self ..)
      · refine ih (fun e' he' => ?_) htail
        obtain hold | hnew := List.mem_append.1 he'
        · exact h e' (List.mem_cons_of_mem _ hold)
        · exact TypeDeclaration.isRootSuperclass_of_mem_edges hnew

/-- If only the first reference of a walk may be marked, what the walk finds through a marked
reference is what that one leads to. -/
theorem exists_ancestor?_of_isMarked {left : Nat} {visited : List DeclId} {e : AncestorEdge}
    {edges : List AncestorEdge} (h : ∀ e ∈ edges, e.isRootSuperclass = false) {f : Finding}
    (hf : f ∈ (s.findings excludes left visited (e :: edges)).1) (hmark : f.isMarked = true) :
    e.isRootSuperclass = true ∧ ¬e.reference.declaredName?.any excludes = true ∧
      ∃ id d, s.ancestor? e.reference = some (id, d) ∧ id ∉ visited ∧ f = .ancestor id d true := by
  -- nothing of this kind is found behind the first reference, whatever that one leads to
  have hlater : ∀ {left : Nat} {visited : List DeclId} {further : List AncestorEdge},
      (∀ e ∈ further, e.isRootSuperclass = false) →
        f ∉ (s.findings excludes left visited (edges ++ further)).1 := by
    intro left visited further hfurther hmem
    rw [isMarked_of_mem_findings (fun e he => (List.mem_append.1 he).elim (h e) (hfurther e)) hmem]
      at hmark
    cases hmark
  have hrest : ∀ {left : Nat} {visited : List DeclId},
      f ∉ (s.findings excludes left visited edges).1 := by
    intro left visited
    simpa using @hlater left visited [] nofun
  cases left with
  | zero => exact absurd hf List.not_mem_nil
  | succ left =>
      by_cases hx : e.reference.declaredName?.any excludes = true
      · rw [findings_cons_of_excluded hx] at hf
        exact absurd hf hrest
      · cases hn : s.ancestor? e.reference with
        | none =>
            rw [findings_cons_of_unresolved hx hn] at hf
            rcases List.mem_cons.1 hf with rfl | htail
            · cases hmark
            · exact absurd htail hrest
        | some target =>
            obtain ⟨id, d⟩ := target
            by_cases hv : id ∈ visited
            · rw [findings_cons_of_mem hx hn hv] at hf
              exact absurd hf hrest
            · rw [findings_cons_of_notMem hx hn hv] at hf
              rcases List.mem_cons.1 hf with rfl | htail
              · have hmark : e.isRootSuperclass = true := hmark
                exact ⟨hmark, hx, id, d, rfl, hv, by rw [hmark]⟩
              · exact absurd htail
                  (hlater fun _ => TypeDeclaration.isRootSuperclass_of_mem_edges)

/-! ### The direct superclass -/

/-- **The class that a root extends**: the root is a class, its reference to a superclass mentions a
name that is not passed over and stands for another declaration, and that declares a class. -/
structure DirectSuperclass (s : DeclarationStore) (excludes : String → Bool) (root id : DeclId)
    (d : TypeDeclaration) : Prop where
  mentioned : ∃ r t name, s.get? root = some r ∧ r.isClass = true ∧ r.superclass = some t ∧
    t.declaredName? = some name ∧ excludes name = false ∧ s.idOf? name = some id
  declared : s.get? id = some d
  isClass : d.isClass = true
  ne_root : id ≠ root

section

variable {options : ResolverOptions} {root : DeclId} {excluded : List String} {id : DeclId}
  {d : TypeDeclaration}

theorem found_of_get? {r : TypeDeclaration} (h : s.get? root = some r) :
    s.found options root excluded =
      (s.findings (options.excludes excluded) Limits.maxAncestorEdges [root] (r.edges true)).1 := by
  rw [found, h]
  rfl

/-- **The direct superclass is found first**, through the marked reference; nothing else is found
through it. -/
theorem DirectSuperclass.exists_found_eq
    (h : s.DirectSuperclass (options.excludes excluded) root id d) :
    ∃ rest, s.found options root excluded = .ancestor id d true :: rest ∧
      ∀ f ∈ rest, f.isMarked = false := by
  obtain ⟨r, t, name, hr, hclass, hsuper, hname, hkept, hid⟩ := h.mentioned
  have hx : ¬t.declaredName?.any (options.excludes excluded) = true := by
    rw [hname, Option.any_some, hkept]
    exact Bool.false_ne_true
  have ht : s.ancestor? t = some (id, d) := by
    refine ancestor?_eq_some_iff.2 ⟨?_, h.declared⟩
    rw [resolveType?, hname, Option.bind_some, hid]
  have hnew : id ∉ [root] := by simpa using h.ne_root
  -- the limit allows at least the one reference
  obtain ⟨left, hleft⟩ : ∃ left, Limits.maxAncestorEdges = left + 1 := ⟨99999, rfl⟩
  rw [found_of_get? hr, TypeDeclaration.edges_of_superclass hsuper, hleft,
    findings_cons_of_notMem (e := ⟨t, r.name, true && r.isClass⟩) hx ht hnew]
  refine ⟨_, by rw [hclass, Bool.true_and], fun f hf => ?_⟩
  exact isMarked_of_mem_findings (fun e he => (List.mem_append.1 he).elim
    TypeDeclaration.isRootSuperclass_of_mem_interfaces
    TypeDeclaration.isRootSuperclass_of_mem_edges) hf

/-- A class that is found through the marked reference is the direct superclass. -/
theorem directSuperclass_of_mem_found
    (h : .ancestor id d true ∈ s.found options root excluded) (hclass : d.isClass = true) :
    s.DirectSuperclass (options.excludes excluded) root id d := by
  cases hr : s.get? root with
  | none =>
      rw [found, hr] at h
      exact absurd h List.not_mem_nil
  | some r =>
      rw [found_of_get? hr] at h
      cases hsuper : r.superclass with
      | none =>
          rw [TypeDeclaration.edges, hsuper] at h
          cases isMarked_of_mem_findings
            (fun _ => TypeDeclaration.isRootSuperclass_of_mem_interfaces) h
      | some t =>
          rw [TypeDeclaration.edges_of_superclass hsuper] at h
          obtain ⟨hmark, hx, i, c, ht, hnew, heq⟩ := exists_ancestor?_of_isMarked
            (fun _ => TypeDeclaration.isRootSuperclass_of_mem_interfaces) h rfl
          cases heq
          obtain ⟨hname, hid⟩ := declaredName?_of_ancestor? ht
          refine ⟨⟨r, t, d.name, hr, by simpa using hmark, hsuper, hname, ?_, hid⟩,
            (ancestor?_eq_some_iff.1 ht).2, hclass, by simpa using hnew⟩
          simpa [hname] using hx

/-! ### The constructors of a context -/

/-- The root mirrors the constructors of its direct superclass, in the order in which they are
declared. -/
theorem DirectSuperclass.walkedConstructors_eq
    (h : s.DirectSuperclass (options.excludes excluded) root id d) :
    s.walkedConstructors options root excluded =
      (d.constructors.filter (·.visibility.isInheritable)).map (.of d (s.typeBindings root)) := by
  obtain ⟨rest, hfound, hrest⟩ := h.exists_found_eq
  have hnone : rest.flatMap (Finding.constructors (s.typeBindings root)) = [] :=
    List.flatMap_eq_nil_iff.2 fun f hf => Finding.constructors_eq_nil (hrest f hf) _
  rw [walkedConstructors, hfound, List.flatMap_cons, hnone, List.append_nil, Finding.constructors,
    TypeDeclaration.mirroredConstructors, h.isClass]
  rfl

/-- Without a direct superclass the root mirrors nothing. -/
theorem walkedConstructors_eq_nil
    (h : ¬∃ id d, s.DirectSuperclass (options.excludes excluded) root id d) :
    s.walkedConstructors options root excluded = [] := by
  refine List.flatMap_eq_nil_iff.2 fun f hf => ?_
  cases f with
  | unresolved e => rfl
  | ancestor id d isRootSuperclass =>
      have hnone : (isRootSuperclass && d.isClass) = false := by
        by_contra hboth
        obtain ⟨rfl, hclass⟩ : isRootSuperclass = true ∧ d.isClass = true := by simpa using hboth
        exact h ⟨id, d, directSuperclass_of_mem_found hf hclass⟩
      rw [Finding.constructors, TypeDeclaration.mirroredConstructors, hnone]
      rfl

end

/-- **The constructors of a context are those of the direct superclass.**  Where the root has one,
the keys are the parameter types that the constructors of that class have for the root, private ones
left aside; each key holds the first of the constructors with these parameter types; and the class
is the first ancestor.  In every other case there are no constructors.  All this holds for any
hierarchy, and also where the walk is cut short. -/
theorem constructors_of_direct_superclass (s : DeclarationStore) (options : ResolverOptions)
    (root : DeclId) (excluded : List String) :
    let c := s.inheritance options root excluded
    let b := s.typeBindings root
    let types (m : Constructor) := (m.signature.mapTypes b.substitute).parameterTypes
    (∀ id d, s.DirectSuperclass (options.excludes excluded) root id d →
      (∀ k, k ∈ c.constructors ↔
        ∃ m ∈ d.constructors, m.visibility ≠ .owner ∧ types m = k) ∧
      (∀ k, c.constructors[k]? =
        ((d.constructors.filter (·.visibility ≠ .owner)).find? (types · = k)).map (.of d b)) ∧
      c.ancestors[0]? = some d.name) ∧
    ((¬∃ id d, s.DirectSuperclass (options.excludes excluded) root id d) → c.constructors = ∅) := by
  intro c b types
  refine ⟨fun id d h => ?_, fun h => ?_⟩
  · have hget : ∀ k, c.constructors[k]? =
        ((d.constructors.filter (·.visibility ≠ .owner)).find? (types · = k)).map (.of d b) := by
      intro k
      rw [getElem?_constructors_inheritance, h.walkedConstructors_eq, List.find?_map]
      rfl
    refine ⟨fun k => ?_, hget, ?_⟩
    · rw [Std.ExtTreeMap.mem_iff_isSome_getElem?, hget, Option.isSome_map, List.find?_isSome]
      simp [and_assoc]
    · obtain ⟨rest, hfound, -⟩ := h.exists_found_eq
      rw [← Array.getElem?_toList, ancestors_inheritance, walked, hfound]
      rfl
  · refine Std.ExtTreeMap.ext_getElem? fun k => ?_
    rw [getElem?_constructors_inheritance, walkedConstructors_eq_nil h]
    simp

/-- A constructor with one parameter. -/
def oneParameter (type : TypeRef) (visibility : Visibility) : Constructor where
  signature := ⟨[{ name := "content", type }], nofun, trivial⟩
  visibility

/-- A generic class with a constructor for its type parameter, one for texts, and a private one. -/
def wrapper : TypeDeclaration where
  name := "Wrapper"
  typeParams := [{ name := "T" }]
  interfaces := [.named "Root"]
  constructors :=
    [oneParameter (.param "Wrapper" "T" none) .everyone,
      oneParameter (.named "java.lang.String") .subtypes,
      oneParameter (.named "java.lang.Integer") .owner]

/-- A class that extends the generic class and also mentions it as an interface; another interface
leads to the generic class once more, and the generic class leads back to the root. -/
def wrappedTexts : DeclarationStore :=
  .ofList
    [wrapper,
      { name := "Content", kind := .interfaceType,
        interfaces := [.generic "Wrapper" [.named "java.lang.Integer"]] },
      { name := "Root", superclass := some (.generic "Wrapper" [.named "java.lang.String"]),
        interfaces := [.named "Content", .named "Wrapper"] }]

/-- For the root both constructors take a text, and the one that is declared first is mirrored. -/
theorem constructors_wrappedTexts :
    let c := wrappedTexts.inheritance {} ⟨3⟩ []
    let text := ParameterTypes.of ["java.lang.String"] false
    wrappedTexts.DirectSuperclass (({} : ResolverOptions).excludes []) ⟨3⟩ ⟨1⟩ wrapper ∧
      (∀ k, k ∈ c.constructors ↔ k = text) ∧
      (c.constructors[text]?).map (·.visibility) = some .everyone ∧
      c.ancestors[0]? = some "Wrapper" := by
  intro c text
  have hid : wrappedTexts.idOf? "Wrapper" = some ⟨1⟩ := by
    rw [idOf?_eq]
    decide
  have hsuper : wrappedTexts.DirectSuperclass (({} : ResolverOptions).excludes []) ⟨3⟩ ⟨1⟩
      wrapper :=
    ⟨⟨_, _, "Wrapper", rfl, rfl, rfl, rfl, rfl, hid⟩, rfl, rfl, by decide⟩
  have hbound : (wrappedTexts.typeBindings ⟨3⟩).get? ⟨"Wrapper", "T"⟩ =
      some (.named "java.lang.String") := by
    rw [get?_typeBindings]
    rfl
  have htypes : ∀ {type : TypeRef} {visibility : Visibility},
      (wrappedTexts.typeBindings ⟨3⟩).substitute type = .named "java.lang.String" →
        ((oneParameter type visibility).signature.mapTypes
          (wrappedTexts.typeBindings ⟨3⟩).substitute).parameterTypes = text := by
    intro type visibility htext
    refine ParameterTypes.ext ?_ rfl
    change [((wrappedTexts.typeBindings ⟨3⟩).substitute type).erasure] = ["java.lang.String"]
    rw [htext]
    rfl
  have hfirst := @htypes _ .everyone (TypeBindings.substitute_param_of_named hbound none)
  have hsecond := @htypes _ .subtypes
    (TypeBindings.substitute_named (wrappedTexts.typeBindings ⟨3⟩) "java.lang.String")
  obtain ⟨hkeys, hget, hancestor⟩ :=
    (constructors_of_direct_superclass wrappedTexts {} ⟨3⟩ []).1 ⟨1⟩ wrapper hsuper
  refine ⟨hsuper, fun k => ?_, ?_, hancestor⟩
  · rw [hkeys]
    constructor
    · rintro ⟨m, hm, hvisible, rfl⟩
      rcases List.mem_cons.1 hm with rfl | hm
      · exact hfirst
      · rcases List.mem_cons.1 hm with rfl | hm
        · exact hsecond
        · rw [List.mem_singleton.1 hm] at hvisible
          exact absurd rfl hvisible
    · rintro rfl
      exact ⟨_, List.mem_cons_self .., nofun, hfirst⟩
  · rw [hget, wrapper, List.filter_cons_of_pos (by decide),
      List.find?_cons_of_pos (by simpa using hfirst)]
    rfl

end DeclarationStore

end ActionSignatures
