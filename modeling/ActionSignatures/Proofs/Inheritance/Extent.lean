/-
**How far a walk goes.**

A walk takes references off its queue in the order in which it has put them there: first those of the
root, and then those of the ancestors, in the order in which these are visited.  What a walk says
about itself can be read off that list.  The walk is cut short if and only if the list is longer than
the limit, and the references that it notes are those of the list that lead nowhere.  Both depend on
the ancestors, not on the order of the queue, so that walks over different ancestors can be compared.

Main definitions:

* `ActionSignatures.DeclarationStore.enqueued` — **the references that the walk from a root puts into
  its queue**;
* `ActionSignatures.DeclarationStore.unresolvedIn` — those of some references that lead nowhere.

Main results:

* `ActionSignatures.DeclarationStore.isCut_eq_true_iff` — **when a walk is cut short**;
* `ActionSignatures.DeclarationStore.unresolved_inheritance` — what a walk notes as unresolved;
* `ActionSignatures.DeclarationStore.transGen_leadsTo_of_mem_walked` — what a walk visits can be
  reached from the root, even if the walk is cut short.
-/

import ActionSignatures.Proofs.Inheritance.Levels

set_option relaxedAutoImplicit false
set_option autoImplicit false

namespace ActionSignatures

/-! ### The references of what is found -/

/-- The references that a walk puts into its queue for the ancestors that it finds. -/
def Finding.enqueued (fs : List Finding) : List AncestorEdge :=
  (fs.filterMap ancestor?).flatMap (·.2.edges false)

namespace Finding

@[simp] theorem enqueued_nil : enqueued [] = [] := rfl

@[simp] theorem enqueued_ancestor (id : DeclId) (d : TypeDeclaration) (isRootSuperclass : Bool)
    (fs : List Finding) :
    enqueued (.ancestor id d isRootSuperclass :: fs) = d.edges false ++ enqueued fs := rfl

@[simp] theorem enqueued_unresolved (e : AncestorEdge) (fs : List Finding) :
    enqueued (.unresolved e :: fs) = enqueued fs := rfl

end Finding

namespace DeclarationStore

variable {s : DeclarationStore} {excludes : String → Bool}

/-- **A walk is cut short** if and only if there are more references than the limit allows: those in
its queue at the start and those of the ancestors that it finds. -/
theorem findings_snd_eq_true_iff (left : Nat) (visited : List DeclId) (edges : List AncestorEdge) :
    (s.findings excludes left visited edges).2 = true ↔
      left < (edges ++ Finding.enqueued (s.findings excludes left visited edges).1).length := by
  fun_induction s.findings excludes left visited edges with
  | case1 => simp
  | case2 => simp
  | case3 left visited e edges hx ih =>
      rw [List.cons_append, List.length_cons, Nat.succ_lt_succ_iff]
      exact ih
  | case4 left visited e edges hx hn rest ih =>
      rw [List.cons_append, List.length_cons, Nat.succ_lt_succ_iff]
      exact ih
  | case5 left visited e edges hx id d hn hv ih =>
      rw [List.cons_append, List.length_cons, Nat.succ_lt_succ_iff]
      exact ih
  | case6 left visited e edges hx id d hn hv rest ih =>
      rw [List.cons_append, List.length_cons, Nat.succ_lt_succ_iff, Finding.enqueued_ancestor,
        ← List.append_assoc]
      exact ih

/-! ### References that lead nowhere -/

/-- Those of some references that lead nowhere, apart from the ones that are passed over. -/
def unresolvedIn (s : DeclarationStore) (excludes : String → Bool) (edges : List AncestorEdge) :
    List UnresolvedAncestor :=
  (edges.filter fun e =>
    !e.reference.declaredName?.any excludes && (s.ancestor? e.reference).isNone).map
      fun e => ⟨e.reference, e.referencedBy⟩

theorem unresolvedIn_cons_of_excluded {e : AncestorEdge}
    (hx : e.reference.declaredName?.any excludes = true) (edges : List AncestorEdge) :
    s.unresolvedIn excludes (e :: edges) = s.unresolvedIn excludes edges := by
  rw [unresolvedIn, List.filter_cons_of_neg (by simp [hx])]
  rfl

theorem unresolvedIn_cons_of_unresolved {e : AncestorEdge}
    (hx : ¬e.reference.declaredName?.any excludes = true) (hn : s.ancestor? e.reference = none)
    (edges : List AncestorEdge) :
    s.unresolvedIn excludes (e :: edges) =
      ⟨e.reference, e.referencedBy⟩ :: s.unresolvedIn excludes edges := by
  rw [unresolvedIn, List.filter_cons_of_pos (by simp [hx, hn])]
  rfl

theorem unresolvedIn_cons_of_ancestor {e : AncestorEdge} {a : DeclId × TypeDeclaration}
    (hn : s.ancestor? e.reference = some a) (edges : List AncestorEdge) :
    s.unresolvedIn excludes (e :: edges) = s.unresolvedIn excludes edges := by
  rw [unresolvedIn, List.filter_cons_of_neg (by simp [hn])]
  rfl

/-- **A walk that is not cut short notes what leads nowhere** among all references that it puts into
its queue, in their order. -/
theorem filterMap_unresolved?_findings {left : Nat} {visited : List DeclId}
    {edges : List AncestorEdge} (h : (s.findings excludes left visited edges).2 = false) :
    (s.findings excludes left visited edges).1.filterMap Finding.unresolved? =
      s.unresolvedIn excludes
        (edges ++ Finding.enqueued (s.findings excludes left visited edges).1) := by
  fun_induction s.findings excludes left visited edges with
  | case1 => rfl
  | case2 => cases h
  | case3 left visited e edges hx ih =>
      rw [List.cons_append, unresolvedIn_cons_of_excluded hx]
      exact ih h
  | case4 left visited e edges hx hn rest ih =>
      rw [List.cons_append, unresolvedIn_cons_of_unresolved hx hn]
      exact congrArg (List.cons _) (ih h)
  | case5 left visited e edges hx id d hn hv ih =>
      rw [List.cons_append, unresolvedIn_cons_of_ancestor hn]
      exact ih h
  | case6 left visited e edges hx id d hn hv rest ih =>
      rw [List.cons_append, unresolvedIn_cons_of_ancestor hn, Finding.enqueued_ancestor,
        ← List.append_assoc]
      exact ih h

/-! ### What is found can be reached -/

/-- Whatever a walk finds can be reached from where the references in its queue lead. -/
theorem exists_reflTransGen_of_mem_ids_findings {left : Nat} {visited : List DeclId}
    {edges : List AncestorEdge} {i : DeclId}
    (h : i ∈ Finding.ids (s.findings excludes left visited edges).1) :
    ∃ j ∈ s.edgeTargets excludes edges, Relation.ReflTransGen (s.LeadsTo excludes) j i := by
  -- what the later references lead to is among what all of them lead to
  have later : ∀ (e : AncestorEdge) (edges : List AncestorEdge),
      (∃ j ∈ s.edgeTargets excludes edges, Relation.ReflTransGen (s.LeadsTo excludes) j i) →
      ∃ j ∈ s.edgeTargets excludes (e :: edges),
        Relation.ReflTransGen (s.LeadsTo excludes) j i := by
    rintro e edges ⟨j, hj, hji⟩
    exact ⟨j, ((List.sublist_cons_self e edges).filterMap _).subset hj, hji⟩
  fun_induction s.findings excludes left visited edges with
  | case1 => exact absurd h List.not_mem_nil
  | case2 => exact absurd h List.not_mem_nil
  | case3 left visited e edges hx ih => exact later e edges (ih h)
  | case4 left visited e edges hx hn rest ih => exact later e edges (ih h)
  | case5 left visited e edges hx id d hn hv ih => exact later e edges (ih h)
  | case6 left visited e edges hx id d hn hv rest ih =>
      have htarget : s.target? excludes e.reference = some id := by
        rw [target?_of_not_excluded hx, hn, Option.map_some]
      have hid : id ∈ s.edgeTargets excludes (e :: edges) := by
        rw [edgeTargets_cons_of_eq_some htarget]
        exact List.mem_cons_self
      rw [Finding.ids_ancestor, List.mem_cons] at h
      obtain rfl | h := h
      · exact ⟨i, hid, .refl⟩
      · obtain ⟨j, hj, hji⟩ := ih h
        rw [edgeTargets_append, List.mem_append, edgeTargets_edges (ancestor?_eq_some_iff.1 hn).2]
          at hj
        obtain hj | hj := hj
        · exact later e edges ⟨j, hj, hji⟩
        · exact ⟨id, hid, .head (mem_targets_iff.1 hj) hji⟩

/-! ### The walk from a root -/

section

variable (s : DeclarationStore) (options : ResolverOptions) (root : DeclId) (excluded : List String)

/-- **The references that the walk from a root puts into its queue**: those of the root, and those of
the ancestors in the order of the walk. -/
def enqueued : List AncestorEdge :=
  (s.get? root).toList.flatMap (·.edges true) ++
    (s.walked options root excluded).flatMap (·.2.edges false)

theorem enqueued_eq {d : TypeDeclaration} (h : s.get? root = some d) :
    s.enqueued options root excluded =
      d.edges true ++ Finding.enqueued (s.findings (options.excludes excluded)
        Limits.maxAncestorEdges [root] (d.edges true)).1 := by
  rw [enqueued, h, Option.toList_some, List.flatMap_singleton, walked, found, h]
  rfl

/-- **The walk from a root is cut short** if and only if it puts more references into its queue than
the limit allows. -/
theorem isCut_eq_true_iff :
    s.isCut options root excluded = true ↔
      Limits.maxAncestorEdges < (s.enqueued options root excluded).length := by
  cases hd : s.get? root with
  | none =>
      rw [isCut, enqueued, walked, found, hd]
      simp
  | some d =>
      rw [s.enqueued_eq options root excluded hd, isCut, hd]
      exact findings_snd_eq_true_iff ..

theorem isCut_eq_false_iff :
    s.isCut options root excluded = false ↔
      (s.enqueued options root excluded).length ≤ Limits.maxAncestorEdges := by
  rw [← Bool.not_eq_true, isCut_eq_true_iff, Nat.not_lt]

/-- **The references noted as unresolved**, where the walk is not cut short, are those that lead
nowhere among all that it puts into its queue. -/
theorem unresolved_inheritance (h : s.isCut options root excluded = false) :
    (s.inheritance options root excluded).unresolved.toList =
      s.unresolvedIn (options.excludes excluded) (s.enqueued options root excluded) := by
  have hgaps := congrArg Prod.fst (s.gaps_inheritance options root excluded)
  simp only [InheritanceContext.gaps] at hgaps
  rw [hgaps]
  cases hd : s.get? root with
  | none =>
      rw [enqueued, walked, found, hd]
      rfl
  | some d =>
      rw [isCut, hd] at h
      rw [s.enqueued_eq options root excluded hd, found, hd]
      exact filterMap_unresolved?_findings h

variable {s options root excluded}

/-- What the walk from a root visits can be reached from the root. -/
theorem transGen_leadsTo_of_mem_walked {a : DeclId × TypeDeclaration}
    (h : a ∈ s.walked options root excluded) :
    Relation.TransGen (s.LeadsTo (options.excludes excluded)) root a.1 := by
  cases hd : s.get? root with
  | none =>
      rw [walked, found, hd] at h
      exact absurd h List.not_mem_nil
  | some d =>
      rw [walked, found, hd] at h
      obtain ⟨j, hj, hja⟩ := exists_reflTransGen_of_mem_ids_findings (List.mem_map_of_mem h)
      rw [edgeTargets_edges hd] at hj
      exact .head' (mem_targets_iff.1 hj) hja

end

end DeclarationStore

end ActionSignatures
