/-
**More exclusions.**

A walk that passes over more names reaches less.  It may visit what is left in another order, as a
declaration can be nearer to the root along a reference that is now passed over.  This module compares
two walks from one root over one store, the second of which passes over every name that the first
passes over.  It never takes more references, so it is not cut short where the first one is not.  What
it finds is found by the first one as well, with the same types, as the bindings do not depend on the
names passed over.  Only that a prototype is to be implemented can be new: the operation that settled
it may be out of reach.

Main results:

* `ActionSignatures.DeclarationStore.LeadsTo.anti` — passing over more names, fewer references lead
  somewhere;
* `ActionSignatures.DeclarationStore.inheritsOperation_inheritance_iff`,
  `ActionSignatures.DeclarationStore.contains_inheritedFields_inheritance_iff` — **which prototypes and
  which fields are inherited**;
* `ActionSignatures.DeclarationStore.walked_subset` — the second walk visits part of what the first
  one visits;
* `ActionSignatures.DeclarationStore.enqueued_subperm` — it takes part of the references, each no more
  often;
* `ActionSignatures.DeclarationStore.more_exclusions_only_remove` — **more exclusions only remove**.
-/

import ActionSignatures.Proofs.Inheritance.Exclusion
import ActionSignatures.Proofs.Inheritance.Extent
import Mathlib.Data.List.Flatten
import Mathlib.Data.List.Perm.Subperm

set_option relaxedAutoImplicit false
set_option autoImplicit false

namespace ActionSignatures

/-! ### What is inherited at all -/

namespace DeclarationStore

section

variable {s : DeclarationStore} {options : ResolverOptions} {root : DeclId} {excluded : List String}

/-- **Which prototypes are inherited**: those of the operations walked, as each of these stands in one
way or another. -/
theorem inheritsOperation_inheritance_iff {p : Prototype} :
    (s.inheritance options root excluded).InheritsOperation p ↔
      ∃ op ∈ s.walkedOperations options root excluded, op.prototype = p :=
  InheritanceContext.inheritsOperation_iff_of_standing_eq (s.standing_inheritance ..)

/-- **Which fields are inherited**: one of a name that some ancestor declares for its subtypes. -/
theorem contains_inheritedFields_inheritance_iff {name : String} :
    (s.inheritance options root excluded).inheritedFields.contains name = true ↔
      ∃ a ∈ s.walked options root excluded, name ∈ a.2.ownedFields.map (·.1) := by
  refine ((s.records_inheritance options root excluded).fields name).trans
    (exists_congr fun a => and_congr_right fun _ => ?_)
  simp only [TypeDeclaration.ownedFields, List.map_map, List.mem_map, List.mem_filter,
    Function.comp_apply, Visibility.isInheritable_eq_true_iff, and_assoc]

end

/-! ### Passing over more names -/

/-- With more names excluded, more are passed over. -/
theorem excludes_of_subset (options : ResolverOptions) {excluded excluded' : List String}
    (h : excluded ⊆ excluded') {name : String} (hname : options.excludes excluded name = true) :
    options.excludes excluded' name = true := by
  rw [ResolverOptions.excludes, Bool.or_eq_true, List.contains_iff_mem] at hname ⊢
  exact hname.imp_right (@h name)

section

variable {s : DeclarationStore}

/-- Passing over more names, fewer references lead somewhere. -/
theorem LeadsTo.anti {excludes excludes' : String → Bool}
    (hmore : ∀ name, excludes name = true → excludes' name = true) {i j : DeclId}
    (h : s.LeadsTo excludes' i j) : s.LeadsTo excludes i j := by
  obtain ⟨d, hd, t, ht, name, hname, hkept, hid⟩ := h
  refine ⟨d, hd, t, ht, name, hname, ?_, hid⟩
  by_contra hexcluded
  rw [hmore name (by simpa using hexcluded)] at hkept
  cases hkept

/-- Passing over more names, fewer references are noted. -/
theorem unresolvedIn_sublist {excludes excludes' : String → Bool}
    (hmore : ∀ name, excludes name = true → excludes' name = true) (edges : List AncestorEdge) :
    (s.unresolvedIn excludes' edges).Sublist (s.unresolvedIn excludes edges) := by
  refine (List.monotone_filter_right edges fun e he => ?_).map _
  rw [Bool.and_eq_true, Bool.not_eq_true', Option.any_eq_false] at he ⊢
  refine ⟨fun name hname => ?_, he.2⟩
  by_contra hexcluded
  exact absurd (hmore name (by simpa using hexcluded)) (by simp [he.1 name hname])

end

section

variable {s : DeclarationStore} {options options' : ResolverOptions} {root : DeclId}
  {excluded excluded' : List String}
  (hmore : ∀ name, options.excludes excluded name = true → options'.excludes excluded' name = true)
include hmore

/-- **The second walk visits part of what the first one visits**, if that one is not cut short. -/
theorem walked_subset (h : s.isCut options root excluded = false) :
    s.walked options' root excluded' ⊆ s.walked options root excluded := by
  intro a ha
  have hd := (s.idOf?_of_mem_walked options' root excluded' ha).2
  have hreach := Relation.TransGen.mono (fun _ _ => LeadsTo.anti hmore) root a.1
    (transGen_leadsTo_of_mem_walked ha)
  exact (mem_walked_iff h).2 ⟨hd, ne_root_of_mem_walked ha, hreach⟩

/-- **The second walk takes part of the references** that the first one takes, each no more often. -/
theorem enqueued_subperm (h : s.isCut options root excluded = false) :
    (s.enqueued options' root excluded').Subperm (s.enqueued options root excluded) := by
  have hnodup : (s.walked options' root excluded').Nodup :=
    (s.nodup_walked options' root excluded').of_map _
  obtain ⟨visited, hperm, hsub⟩ := List.subperm_of_subset hnodup (walked_subset hmore h)
  refine (List.Subperm.refl _).append ?_
  exact ⟨_, hperm.flatMap_right _, hsub.flatMap _⟩

/-- The second walk is not cut short if the first one is not. -/
theorem isCut_eq_false_of_more (h : s.isCut options root excluded = false) :
    s.isCut options' root excluded' = false := by
  have hlength := (enqueued_subperm hmore h).length_le
  rw [isCut_eq_false_iff] at h ⊢
  exact hlength.trans h

/-- The second walk notes part of what the first one notes, each no more often. -/
theorem unresolved_inheritance_subperm (h : s.isCut options root excluded = false) :
    (s.inheritance options' root excluded').unresolved.toList.Subperm
      (s.inheritance options root excluded).unresolved.toList := by
  rw [s.unresolved_inheritance options root excluded h,
    s.unresolved_inheritance options' root excluded' (isCut_eq_false_of_more hmore h)]
  obtain ⟨edges, hperm, hsub⟩ := enqueued_subperm hmore h
  refine (unresolvedIn_sublist hmore _).subperm.trans ?_
  exact ⟨_, (hperm.filter _).map _, (hsub.filter _).map _⟩

variable (hskip : options'.skipSynthetic = options.skipSynthetic)
include hskip

/-- The operations of the second walk are among those of the first one, with the same types. -/
theorem walkedOperations_subset (h : s.isCut options root excluded = false) :
    s.walkedOperations options' root excluded' ⊆ s.walkedOperations options root excluded := by
  intro op hop
  obtain ⟨a, ha, hop⟩ := mem_walkedOperations_iff.1 hop
  refine mem_walkedOperations_iff.2 ⟨a, walked_subset hmore h ha, ?_⟩
  have hinherits : (s.walkRules options' root excluded').inherits =
      (s.walkRules options root excluded).inherits := by
    funext op
    simp only [WalkRules.inherits, ResolverOptions.inherits, walkRules, hskip]
  rw [TypeDeclaration.inheritedOperations, hinherits] at hop
  exact hop

end

/-- **More exclusions only remove.**  Of two walks from a root over one store the second passes over
every name that the first one passes over.  If the first one is not cut short, neither is the second;
its ancestors, final operations and inherited fields are among those of the first one, and so are the
references that it notes, each no more often; a prototype that it finds in some way is found by the
first one in some way.  A prototype that is to be implemented only where more is passed over is final
or overridable where less is. -/
theorem more_exclusions_only_remove (s : DeclarationStore) (options options' : ResolverOptions)
    (root : DeclId) (excluded excluded' : List String)
    (hskip : options'.skipSynthetic = options.skipSynthetic)
    (hmore : ∀ name, options.excludes excluded name = true →
      options'.excludes excluded' name = true)
    (h : (s.inheritance options root excluded).truncated = none) :
    let c := s.inheritance options root excluded
    let c' := s.inheritance options' root excluded'
    c'.truncated = none ∧
    c'.ancestors.toList ⊆ c.ancestors.toList ∧
    (∀ p ∈ c'.finalOperations, p ∈ c.finalOperations) ∧
    (∀ name, c'.inheritedFields.contains name = true →
      c.inheritedFields.contains name = true) ∧
    (∀ p, c'.InheritsOperation p → c.InheritsOperation p) ∧
    c'.unresolved.toList.Subperm c.unresolved.toList ∧
    (∀ p ∈ c'.operationsToImplement, p ∉ c.operationsToImplement →
      p ∈ c.finalOperations ∨ p ∈ c.overridableOperations) := by
  intro c c'
  have hcut := (s.truncated_inheritance_eq_none_iff options root excluded).1 h
  have hwalked := walked_subset hmore hcut
  have hoperations := walkedOperations_subset hmore hskip hcut
  have hinherits : ∀ p, c'.InheritsOperation p → c.InheritsOperation p := by
    intro p hp
    obtain ⟨op, hop, heq⟩ := inheritsOperation_inheritance_iff.1 hp
    exact inheritsOperation_inheritance_iff.2 ⟨op, hoperations hop, heq⟩
  refine ⟨?_, ?_, fun p hp => ?_, fun name hname => ?_, hinherits,
    unresolved_inheritance_subperm hmore hcut, fun p hp hnew => ?_⟩
  · rw [truncated_inheritance_eq_none_iff]
    exact isCut_eq_false_of_more hmore hcut
  · rw [ancestors_inheritance, ancestors_inheritance]
    exact List.map_subset _ hwalked
  · rw [mem_finalOperations_inheritance_iff] at hp ⊢
    obtain ⟨op, hop, heq⟩ := hp
    exact ⟨op, hoperations hop, heq⟩
  · rw [contains_inheritedFields_inheritance_iff] at hname ⊢
    obtain ⟨a, ha, hfield⟩ := hname
    exact ⟨a, hwalked ha, hfield⟩
  · obtain hfinal | hoverridable | himplement := hinherits p (Or.inr (Or.inr hp))
    · exact Or.inl hfinal
    · exact Or.inr hoverridable
    · exact absurd himplement hnew

/-- A class that inherits an operation from an interface, which its superclass implements. -/
def implementedAbove : DeclarationStore :=
  .ofList
    [{ name := "Base", operations := [{ name := "run" }],
       interfaces := [.named "Missing"] },
      { name := "Runnable", kind := .interfaceType,
        operations := [{ name := "run", flags := .abstract }] },
      { name := "Root", superclass := some (.named "Base"), interfaces := [.named "Runnable"] }]

/-- Where the superclass is passed over, the operation that it implements is to be implemented. -/
theorem more_exclusions_implementedAbove :
    let c := implementedAbove.inheritance {} ⟨3⟩ []
    let c' := implementedAbove.inheritance {} ⟨3⟩ ["Base"]
    let run : Prototype := ⟨"run", .empty⟩
    (∀ name, ({} : ResolverOptions).excludes [] name = true →
      ({} : ResolverOptions).excludes ["Base"] name = true) ∧
    c.truncated = none ∧ c'.truncated = none ∧
    c'.unresolved.toList.Subperm c.unresolved.toList ∧
    run ∈ c'.operationsToImplement ∧
    (run ∈ c.finalOperations ∨ run ∈ c.overridableOperations) := by
  intro c c' run
  have hmore : ∀ name, ({} : ResolverOptions).excludes [] name = true →
      ({} : ResolverOptions).excludes ["Base"] name = true := fun _ =>
    excludes_of_subset {} (List.nil_subset _)
  have htruncated : c.truncated = none := by
    rw [truncated_inheritance_eq_none_iff]
    decide
  obtain ⟨hshort, -, -, -, -, hunresolved, hsettled⟩ :=
    more_exclusions_only_remove implementedAbove {} {} ⟨3⟩ [] ["Base"] rfl hmore htruncated
  have hops : ∃ op op', implementedAbove.walkedOperations {} ⟨3⟩ [] = [op, op'] ∧
      op.prototype = run ∧ op.isAbstract = false := by
    rw [walkedOperations_eq]
    exact ⟨_, _, rfl, rfl, rfl⟩
  have hops' : ∃ op, implementedAbove.walkedOperations {} ⟨3⟩ ["Base"] = [op] ∧
      op.prototype = run ∧ op.isAbstract = true ∧ op.isFinal = false := by
    rw [walkedOperations_eq]
    exact ⟨_, rfl, rfl, rfl, rfl⟩
  obtain ⟨op, op', hops, hp, hconcrete⟩ := hops
  obtain ⟨only, hops', hp', hpending⟩ := hops'
  have himplement : run ∈ c'.operationsToImplement := by
    rw [mem_operationsToImplement_inheritance_iff, hops']
    exact ⟨⟨only, by simp, hp'⟩, by simpa using fun _ => hpending⟩
  have hnew : run ∉ c.operationsToImplement := by
    rw [mem_operationsToImplement_inheritance_iff, hops]
    rintro ⟨-, hall⟩
    exact absurd (hall op (by simp) hp).1 (by simp [hconcrete])
  exact ⟨hmore, htruncated, hshort, hunresolved, himplement, hsettled run himplement hnew⟩

end DeclarationStore

end ActionSignatures
