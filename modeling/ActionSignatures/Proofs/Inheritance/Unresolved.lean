/-
**What becomes of every super-type reference.**

A walk looks at the references of its root and at those of every ancestor that it visits.  A
reference to an excluded name is passed over on purpose.  Any other one leads to the root, to an
ancestor, or nowhere, and one that leads nowhere is noted with the declaration that mentions it.
This module shows that nothing else happens to a reference of a walk that is not cut short: the notes
are exactly the references that lead nowhere, as often as they are mentioned and in the order of the
levels, so that a context without notes is one whose references have all been followed.

Main definitions:

* `ActionSignatures.DeclarationStore.LeadsNowhere` — **which references lead nowhere**;
* `ActionSignatures.DeclarationStore.lookedAt` — the declarations whose references a walk looks at;
* `ActionSignatures.DeclarationStore.unresolvedReferences` — the references of a declaration that lead
  nowhere;
* `ActionSignatures.DeclarationStore.IsFollowed` — a reference leads to the root or to an ancestor.

Main results:

* `ActionSignatures.DeclarationStore.resolveType?_eq_none_iff` — a store resolves all references but
  those that lead nowhere;
* `ActionSignatures.DeclarationStore.exists_levels_lookedAt` — the declarations looked at, by levels;
* `ActionSignatures.DeclarationStore.isFollowed_of_resolveType?` — **what leads somewhere is
  followed**;
* `ActionSignatures.DeclarationStore.unresolved_accounts_for_references` — **no reference is dropped
  silently**.
-/

import ActionSignatures.Proofs.Inheritance.Extent
import ActionSignatures.Proofs.Inheritance.Members
import ActionSignatures.Proofs.Substitution.Scope

set_option relaxedAutoImplicit false
set_option autoImplicit false

namespace ActionSignatures

namespace DeclarationStore

/-! ### References that lead nowhere -/

/-- **A reference leads nowhere**: it is one to a type parameter or to an array, or nothing is
registered under the name that it mentions. -/
inductive LeadsNowhere (s : DeclarationStore) : TypeRef → Prop
  | param (owner name : String) (bound : Option TypeRef) : LeadsNowhere s (.param owner name bound)
  | array (element : TypeRef) : LeadsNowhere s (.array element)
  | unknown {t : TypeRef} {name : String} (mentions : t.declaredName? = some name)
      (unregistered : ∀ d ∈ s.declarations, d.name ≠ name) : LeadsNowhere s t

/-- Every reference mentions a name, unless it is one to a type parameter or to an array. -/
theorem leadsNowhere_of_declaredName?_eq_none (s : DeclarationStore) {t : TypeRef}
    (h : t.declaredName? = none) : s.LeadsNowhere t := by
  cases t with
  | named name => cases h
  | param owner name bound => exact .param owner name bound
  | array element => exact .array element
  | generic base args => cases h

/-- A name stands for nothing if and only if nothing is registered under it. -/
theorem idOf?_eq_none_iff {s : DeclarationStore} {name : String} :
    s.idOf? name = none ↔ ∀ d ∈ s.declarations, d.name ≠ name := by
  constructor
  · rintro hnone d hd rfl
    rw [idOf?_eq] at hnone
    exact latestId?_ne_none (Array.mem_toList_iff.2 hd) hnone
  · intro h
    cases hid : s.idOf? name with
    | none => rfl
    | some id =>
        obtain ⟨d, hd, hname⟩ := get?_of_idOf? hid
        exact absurd hname (h d (mem_declarations_of_get? hd))

/-- **A store resolves all references but those that lead nowhere.** -/
theorem resolveType?_eq_none_iff {s : DeclarationStore} {t : TypeRef} :
    s.resolveType? t = none ↔ s.LeadsNowhere t := by
  constructor
  · intro h
    cases hname : t.declaredName? with
    | none => exact s.leadsNowhere_of_declaredName?_eq_none hname
    | some name =>
        rw [resolveType?, hname, Option.bind_some] at h
        exact .unknown hname (idOf?_eq_none_iff.1 h)
  · intro h
    cases h with
    | param owner name bound => rfl
    | array element => rfl
    | unknown mentions unregistered =>
        rw [resolveType?, mentions, Option.bind_some]
        exact idOf?_eq_none_iff.2 unregistered

/-- **The references of a declaration that lead nowhere**, apart from those that are passed over, each
with the name of the declaration. -/
def unresolvedReferences (s : DeclarationStore) (excludes : String → Bool) (d : TypeDeclaration) :
    List UnresolvedAncestor :=
  (d.supertypes.filter fun t =>
    !t.declaredName?.any excludes && (s.resolveType? t).isNone).map fun t => ⟨t, d.name⟩

section

variable {s : DeclarationStore} {excludes : String → Bool}

theorem mem_unresolvedReferences_iff {d : TypeDeclaration} {u : UnresolvedAncestor} :
    u ∈ s.unresolvedReferences excludes d ↔
      u.referencedBy = d.name ∧ u.reference ∈ d.supertypes ∧
        ¬u.reference.declaredName?.any excludes = true ∧ s.LeadsNowhere u.reference := by
  rw [unresolvedReferences, List.mem_map]
  simp only [List.mem_filter, Bool.and_eq_true, Bool.not_eq_true', Option.isNone_iff_eq_none,
    resolveType?_eq_none_iff, ← Bool.not_eq_true]
  constructor
  · rintro ⟨t, ⟨ht, hkept, hnowhere⟩, rfl⟩
    exact ⟨rfl, ht, hkept, hnowhere⟩
  · rintro ⟨hby, ht, hkept, hnowhere⟩
    exact ⟨u.reference, ⟨ht, hkept, hnowhere⟩, by rw [← hby]⟩

/-! The queue of a walk holds references with the names of the declarations that mention them. -/

theorem unresolvedIn_append (edges later : List AncestorEdge) :
    s.unresolvedIn excludes (edges ++ later) =
      s.unresolvedIn excludes edges ++ s.unresolvedIn excludes later := by
  rw [unresolvedIn, List.filter_append, List.map_append]
  rfl

theorem unresolvedIn_edges (d : TypeDeclaration) (isRoot : Bool) :
    s.unresolvedIn excludes (d.edges isRoot) = s.unresolvedReferences excludes d := by
  have hnamed : ∀ e ∈ d.edges isRoot, e.referencedBy = d.name := by
    intro e he
    rw [TypeDeclaration.edges, List.mem_append, List.mem_map, List.mem_map] at he
    obtain ⟨t, -, rfl⟩ | ⟨t, -, rfl⟩ := he <;> rfl
  have hnone : ∀ t, (s.ancestor? t).isNone = (s.resolveType? t).isNone := by
    intro t
    rw [Bool.eq_iff_iff, Option.isNone_iff_eq_none, Option.isNone_iff_eq_none,
      ancestor?_eq_none_iff]
  rw [unresolvedReferences, ← map_reference_edges d isRoot, List.filter_map, List.map_map,
    unresolvedIn]
  simp only [hnone, Function.comp_def]
  refine List.map_congr_left fun e he => ?_
  rw [hnamed e (List.mem_of_mem_filter he)]

theorem unresolvedIn_flatMap {α : Type} (edges : α → List AncestorEdge) (l : List α) :
    s.unresolvedIn excludes (l.flatMap edges) =
      l.flatMap fun a => s.unresolvedIn excludes (edges a) := by
  induction l with
  | nil => rfl
  | cons a l ih => rw [List.flatMap_cons, unresolvedIn_append, ih, List.flatMap_cons]

end

/-! ### The declarations that a walk looks at -/

section

variable (s : DeclarationStore) (options : ResolverOptions) (root : DeclId) (excluded : List String)

/-- **The declarations whose references a walk looks at**: the root, and what the names among the
ancestors stand for, in the order of the walk. -/
def lookedAt : List TypeDeclaration :=
  (s.get? root).toList ++
    (s.inheritance options root excluded).ancestors.toList.filterMap s.lookup?

/-- **A reference is followed**: it leads to the root, or to the declaration that a name among the
ancestors stands for. -/
def IsFollowed (t : TypeRef) : Prop :=
  ∃ i, s.resolveType? t = some i ∧
    (i = root ∨ ∃ d, s.get? i = some d ∧ s.idOf? d.name = some i ∧
      d.name ∈ (s.inheritance options root excluded).ancestors.toList)

theorem lookedAt_eq :
    s.lookedAt options root excluded =
      (s.get? root).toList ++ (s.walked options root excluded).map (·.2) := by
  rw [lookedAt, ancestors_inheritance, List.filterMap_map, ← List.filterMap_eq_map]
  refine congrArg _ (List.filterMap_congr fun a ha => ?_)
  exact s.lookup?_of_mem_walked options root excluded ha

variable {s options root excluded}

/-- A walk looks at the declaration of its root and at those that it visits. -/
theorem exists_of_mem_lookedAt {d : TypeDeclaration} (h : d ∈ s.lookedAt options root excluded) :
    ∃ i, s.get? i = some d ∧ (i = root ∨ (i, d) ∈ s.walked options root excluded) := by
  rw [lookedAt_eq, List.mem_append, Option.mem_toList, List.mem_map] at h
  rcases h with hroot | ⟨⟨i, e⟩, ha, rfl⟩
  · exact ⟨root, hroot, .inl rfl⟩
  · exact ⟨i, (s.idOf?_of_mem_walked options root excluded ha).2, .inr ha⟩

/-- **The declarations that a walk looks at, level by level**: those on the levels of the root, of
which from some level on there are none. -/
theorem exists_levels_lookedAt (h : s.isCut options root excluded = false) :
    ∃ N, s.lookedAt options root excluded =
        ((List.range N).flatMap (s.level (options.excludes excluded) root)).filterMap s.get? ∧
      ∀ n, N ≤ n → s.level (options.excludes excluded) root n = [] := by
  obtain ⟨N, hN, hempty⟩ := s.exists_levels_walked options root excluded h
  have hids : (s.walked options root excluded).map (·.2) =
      ((s.walked options root excluded).map (·.1)).filterMap s.get? := by
    rw [List.filterMap_map, ← List.filterMap_eq_map]
    refine List.filterMap_congr fun a ha => ?_
    exact (s.idOf?_of_mem_walked options root excluded ha).2.symm
  refine ⟨N + 1, ?_, fun n hn => ?_⟩
  · rw [lookedAt_eq, hids, hN, List.range_succ_eq_map, List.flatMap_cons, List.flatMap_map,
      List.filterMap_append, level_zero]
    refine congrArg (· ++ _) ?_
    cases hd : s.get? root with
    | none => simp [hd]
    | some d => simp [hd]
  · obtain ⟨n, rfl⟩ : ∃ m, n = m + 1 := ⟨n - 1, by omega⟩
    exact hempty n (by omega)

/-- **What leads somewhere is followed**, unless it is passed over. -/
theorem isFollowed_of_resolveType? (h : s.isCut options root excluded = false)
    {d : TypeDeclaration} (hd : d ∈ s.lookedAt options root excluded) {t : TypeRef}
    (ht : t ∈ d.supertypes) (hkept : ¬t.declaredName?.any (options.excludes excluded) = true)
    {j : DeclId} (hj : s.resolveType? t = some j) : s.IsFollowed options root excluded t := by
  obtain ⟨i, hi, hplace⟩ := exists_of_mem_lookedAt hd
  obtain ⟨name, hname, hid⟩ := Option.bind_eq_some_iff.1 hj
  rw [hname, Option.any_some, Bool.not_eq_true] at hkept
  have hstep : s.LeadsTo (options.excludes excluded) i j := ⟨d, hi, t, ht, name, hname, hkept, hid⟩
  refine ⟨j, hj, ?_⟩
  by_cases hroot : j = root
  · exact .inl hroot
  · obtain ⟨e, he, rfl⟩ := get?_of_idOf? hid
    have hreach : Relation.TransGen (s.LeadsTo (options.excludes excluded)) root j := by
      rcases hplace with rfl | hwalked
      · exact .single hstep
      · exact (transGen_leadsTo_of_mem_walked hwalked).tail hstep
    have hmem : (j, e) ∈ s.walked options root excluded :=
      (mem_walked_iff h).2 ⟨he, hroot, hreach⟩
    refine .inr ⟨e, he, hid, ?_⟩
    rw [ancestors_inheritance]
    exact List.mem_map_of_mem hmem

theorem IsFollowed.not_leadsNowhere {t : TypeRef} (h : s.IsFollowed options root excluded t) :
    ¬s.LeadsNowhere t := by
  obtain ⟨i, hi, -⟩ := h
  rw [← resolveType?_eq_none_iff, hi]
  exact Option.some_ne_none i

/-- **What a walk notes** are the references that lead nowhere of the declarations that it looks at,
in their order. -/
theorem unresolved_eq_flatMap_lookedAt (h : s.isCut options root excluded = false) :
    (s.inheritance options root excluded).unresolved.toList =
      (s.lookedAt options root excluded).flatMap
        (s.unresolvedReferences (options.excludes excluded)) := by
  rw [s.unresolved_inheritance options root excluded h, enqueued, unresolvedIn_append,
    unresolvedIn_flatMap, unresolvedIn_flatMap, lookedAt_eq, List.flatMap_append, List.flatMap_map]
  simp only [unresolvedIn_edges]

end

/-! ### The account of a walk -/

/-- **No reference is dropped silently.**  The references noted as unresolved by a walk that is not
cut short are those of the root and of the ancestors that lead nowhere and are not passed over: in the
order of the levels and of the references of each declaration, as often as they are mentioned, and
with the name of the declaration that mentions them.  Any other reference that is not passed over is
followed.  So a context is complete if and only if every reference that is not passed over is
followed. -/
theorem unresolved_accounts_for_references (s : DeclarationStore) (options : ResolverOptions)
    (root : DeclId) (excluded : List String)
    (h : (s.inheritance options root excluded).truncated = none) :
    let c := s.inheritance options root excluded
    let excludes := options.excludes excluded
    let lookedAt := (s.get? root).toList ++ c.ancestors.toList.filterMap s.lookup?
    (∃ N, lookedAt = ((List.range N).flatMap (s.level excludes root)).filterMap s.get? ∧
      ∀ n, N ≤ n → s.level excludes root n = []) ∧
    c.unresolved.toList = lookedAt.flatMap (fun d =>
      (d.supertypes.filter fun t =>
        !t.declaredName?.any excludes && (s.resolveType? t).isNone).map fun t => ⟨t, d.name⟩) ∧
    (∀ t, s.resolveType? t = none ↔ s.LeadsNowhere t) ∧
    (∀ d ∈ lookedAt, ∀ t ∈ d.supertypes, ¬t.declaredName?.any excludes = true →
      (s.LeadsNowhere t ∧ ⟨t, d.name⟩ ∈ c.unresolved.toList ∧
          ¬s.IsFollowed options root excluded t) ∨
        (¬s.LeadsNowhere t ∧ s.IsFollowed options root excluded t)) ∧
    (c.isComplete = true ↔
      ∀ d ∈ lookedAt, ∀ t ∈ d.supertypes, ¬t.declaredName?.any excludes = true →
        s.IsFollowed options root excluded t) := by
  intro c excludes lookedAt
  have hcut := (s.truncated_inheritance_eq_none_iff options root excluded).1 h
  have hnotes : c.unresolved.toList = lookedAt.flatMap (s.unresolvedReferences excludes) :=
    unresolved_eq_flatMap_lookedAt hcut
  have hnoted : ∀ d ∈ lookedAt, ∀ t ∈ d.supertypes, ¬t.declaredName?.any excludes = true →
      s.LeadsNowhere t → ⟨t, d.name⟩ ∈ c.unresolved.toList := by
    intro d hd t ht hkept hnowhere
    rw [hnotes, List.mem_flatMap]
    exact ⟨d, hd, mem_unresolvedReferences_iff.2 ⟨rfl, ht, hkept, hnowhere⟩⟩
  have hfollowed : ∀ d ∈ lookedAt, ∀ t ∈ d.supertypes, ¬t.declaredName?.any excludes = true →
      ¬s.LeadsNowhere t → s.IsFollowed options root excluded t := by
    intro d hd t ht hkept hsomewhere
    rw [← resolveType?_eq_none_iff] at hsomewhere
    obtain ⟨j, hj⟩ := Option.ne_none_iff_exists'.1 hsomewhere
    exact isFollowed_of_resolveType? hcut hd ht hkept hj
  refine ⟨exists_levels_lookedAt hcut, hnotes, fun t => resolveType?_eq_none_iff, ?_, ?_⟩
  · intro d hd t ht hkept
    by_cases hnowhere : s.LeadsNowhere t
    · exact .inl ⟨hnowhere, hnoted d hd t ht hkept hnowhere, fun hf => hf.not_leadsNowhere hnowhere⟩
    · exact .inr ⟨hnowhere, hfollowed d hd t ht hkept hnowhere⟩
  · have hcomplete : c.isComplete = true ↔ c.unresolved.toList = [] := by
      rw [InheritanceContext.isComplete, h]
      simp
    rw [hcomplete]
    constructor
    · intro hempty d hd t ht hkept
      refine hfollowed d hd t ht hkept fun hnowhere => ?_
      have hmem := hnoted d hd t ht hkept hnowhere
      rw [hempty] at hmem
      exact List.not_mem_nil hmem
    · intro hall
      rw [hnotes, List.flatMap_eq_nil_iff]
      refine fun d hd => List.eq_nil_iff_forall_not_mem.2 fun u hu => ?_
      obtain ⟨-, ht, hkept, hnowhere⟩ := mem_unresolvedReferences_iff.1 hu
      exact (hall d hd u.reference ht hkept).not_leadsNowhere hnowhere

/-- Two classes that extend each other.  Their other references are to a missing interface, one of
them twice over, to a type parameter, to an array, and to an interface that is passed over. -/
def partlyKnown : DeclarationStore :=
  .ofList
    [{ name := "Base", superclass := some (.generic "Root" []),
       interfaces := [.named "Missing", .param "Base" "T" (some (.named "Root")), .named "Missing"] },
      { name := "Root", superclass := some (.named "Base"),
        interfaces := [.named "Hidden", .array (.named "Base"), .named "Missing"] }]

/-- What leads nowhere is noted for the root first, and as often as it is mentioned; the reference back
to the root and the one that is passed over are not. -/
theorem unresolved_partlyKnown :
    let c := partlyKnown.inheritance {} ⟨2⟩ ["Hidden"]
    c.truncated = none ∧ c.isComplete = false ∧
      c.unresolved.toList =
        [⟨.array (.named "Base"), "Root"⟩, ⟨.named "Missing", "Root"⟩, ⟨.named "Missing", "Base"⟩,
          ⟨.param "Base" "T" (some (.named "Root")), "Base"⟩, ⟨.named "Missing", "Base"⟩] := by
  intro c
  have htruncated : c.truncated = none := by
    rw [truncated_inheritance_eq_none_iff]
    decide
  obtain ⟨-, hnotes, -, -, hcomplete⟩ :=
    unresolved_accounts_for_references partlyKnown {} ⟨2⟩ ["Hidden"] htruncated
  have hwalked : (partlyKnown.walked {} ⟨2⟩ ["Hidden"]).map (·.2) =
      [{ name := "Base", superclass := some (.generic "Root" []),
         interfaces :=
           [.named "Missing", .param "Base" "T" (some (.named "Root")), .named "Missing"] }] := by
    decide
  have hlookedAt := partlyKnown.lookedAt_eq {} ⟨2⟩ ["Hidden"]
  rw [lookedAt, hwalked] at hlookedAt
  rw [hlookedAt] at hnotes hcomplete
  simp only [resolveType?, idOf?_eq] at hnotes
  refine ⟨htruncated, ?_, hnotes.trans (by decide)⟩
  rw [← Bool.not_eq_true, hcomplete]
  intro hall
  have hfollowed := hall _ List.mem_cons_self (.named "Missing") (by decide) (by decide)
  exact hfollowed.not_leadsNowhere (.unknown rfl (by decide))

end DeclarationStore

end ActionSignatures
