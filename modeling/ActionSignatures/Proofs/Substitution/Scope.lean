/-
**Scopes of type parameters.**

The type parameters that a declaration mentions should be its own: in the types of its members, and
in the arguments at its extension points.  In an acyclic hierarchy of such declarations the bindings
of a root lead from the type parameters of one declaration to those of a declaration that extends
it, and so they are acyclic.  They come to an end at the root, or at a declaration of which the walk
for the bindings has seen no extension point.

Main definitions:

* `ActionSignatures.DeclarationStore.WellScoped` — **stores in which every declaration mentions its
  own type parameters only**;
* `ActionSignatures.DeclarationStore.expanded` — the declarations that the walk for the bindings
  expands;
* `ActionSignatures.DeclarationStore.ExpandsAll` — it expands everything that can be reached.

Main results:

* `ActionSignatures.DeclarationStore.WellScoped.isAcyclic_typeBindings` — **the bindings are
  acyclic**;
* `ActionSignatures.DeclarationStore.isBound_of_leadsTo` — what an expanded declaration extends has
  its type parameters bound;
* `ActionSignatures.DeclarationStore.WellScoped.exists_extension` — what is bound leads to the type
  parameters of an expanded declaration;
* `ActionSignatures.DeclarationStore.WellScoped.of_mem_paramKeys_substitute` — **what remains after
  substitution** belongs to the root, or is not bound;
* `ActionSignatures.DeclarationStore.expandsAll_of_length_lt` — a hierarchy with few references is
  expanded as a whole.
-/

import ActionSignatures.Proofs.Substitution.Acyclic
import ActionSignatures.Proofs.Substitution.ExtensionPoint

set_option relaxedAutoImplicit false
set_option autoImplicit false

namespace ActionSignatures

/-! ### The types of members -/

/-- The types of the parameters, the result and the exceptions of an operation. -/
def Operation.types (op : Operation) : List TypeRef :=
  op.signature.params.map (·.type) ++ op.returnType :: op.exceptions

/-- The types of the parameters and the exceptions of a constructor. -/
def Constructor.types (c : Constructor) : List TypeRef :=
  c.signature.params.map (·.type) ++ c.exceptions

/-- **The types of the members** of a declaration. -/
def TypeDeclaration.memberTypes (d : TypeDeclaration) : List TypeRef :=
  d.operations.flatMap (·.types) ++ (d.fields.map (·.type) ++ d.constructors.flatMap (·.types))

/-! ### Names that stand for one declaration -/

/-- A name of a declaration has an identifier. -/
theorem latestId?_ne_none {d : TypeDeclaration} {ds : List TypeDeclaration} (h : d ∈ ds) :
    latestId? d.name ds ≠ none := by
  induction ds using List.reverseRecOn with
  | nil => cases h
  | append_singleton ds e ih =>
      rw [latestId?_concat]
      rcases List.mem_append.1 h with h | h
      · split
        · simp
        · exact ih h
      · rw [List.mem_singleton.1 h, if_pos rfl]
        simp

namespace DeclarationStore

variable {s : DeclarationStore} {i j root : DeclId} {d : TypeDeclaration} {k : TypeParamKey}

theorem getElem?_of_get? (h : s.get? i = some d) :
    i.index ≠ 0 ∧ s.declarations.toList[i.index - 1]? = some d := by
  rw [get?] at h
  split at h
  · cases h
  · rename_i hpos
    exact ⟨hpos, by rw [Array.getElem?_toList, h]⟩

/-- Where all declarations have different names, a name stands for its declaration. -/
theorem idOf?_of_get? (hnames : (s.declarations.toList.map (·.name)).Nodup)
    (h : s.get? i = some d) : s.idOf? d.name = some i := by
  obtain ⟨hi, hd⟩ := getElem?_of_get? h
  obtain ⟨j, hj⟩ := Option.ne_none_iff_exists'.1 (latestId?_ne_none (List.mem_of_getElem? hd))
  obtain ⟨hpos, e, he, hname⟩ := getElem?_of_latestId? hj
  have hlt : i.index - 1 < (s.declarations.toList.map (·.name)).length := by
    rw [List.length_map]
    exact (List.getElem?_eq_some_iff.1 hd).1
  have hsame : i.index - 1 = j.index - 1 := by
    refine (List.getElem?_inj hlt hnames).1 ?_
    rw [List.getElem?_map, List.getElem?_map, hd, he, Option.map_some, Option.map_some, hname]
  have hindex : i = j := DeclId.index_inj.1 (by omega)
  rw [idOf?_eq, hj, hindex]

/-! ### What the walk for the bindings expands -/

/-- **The declarations that the walk for the bindings of a root expands.** -/
def expanded (s : DeclarationStore) (root : DeclId) : List DeclId :=
  s.expansions Limits.maxAncestorEdges [] [root]

/-- What is expanded was in the queue, or a reference of something expanded leads to it. -/
theorem mem_queue_or_leadsTo_of_mem_expansions (limit : Nat) {before queue : List DeclId}
    (h : i ∈ s.expansions limit before queue) :
    i ∈ queue ∨ ∃ j ∈ s.expansions limit before queue, s.LeadsTo WellKnown.isObject j i := by
  induction limit generalizing before queue with
  | zero => exact absurd h List.not_mem_nil
  | succ limit ih =>
      cases queue with
      | nil => exact absurd h List.not_mem_nil
      | cons q queue =>
          rw [expansions] at h ⊢
          by_cases hq : q ∈ before
          · rw [if_pos hq] at h ⊢
            exact (ih h).imp_left (List.mem_cons_of_mem q)
          · rw [if_neg hq] at h ⊢
            rcases List.mem_cons.1 h with rfl | h
            · exact .inl List.mem_cons_self
            · rcases ih h with hqueue | ⟨j, hj, hlead⟩
              · rcases List.mem_append.1 hqueue with hold | hnew
                · exact .inl (List.mem_cons_of_mem q hold)
                · exact .inr ⟨q, List.mem_cons_self, mem_targets_iff.1 hnew⟩
              · exact .inr ⟨j, List.mem_cons_of_mem q hj, hlead⟩

/-- What is expanded is the root, or a reference of something expanded leads to it. -/
theorem eq_root_or_leadsTo_of_mem_expanded (h : i ∈ s.expanded root) :
    i = root ∨ ∃ j ∈ s.expanded root, s.LeadsTo WellKnown.isObject j i :=
  (mem_queue_or_leadsTo_of_mem_expansions _ h).imp_left List.mem_singleton.1

/-! ### What is bound -/

theorem mem_requestedBindings_iff {u : TypeRef} :
    (k, u) ∈ s.requestedBindings root ↔
      ∃ i ∈ s.expanded root, ∃ d, s.get? i = some d ∧ ∃ t ∈ d.supertypes,
        (k, u) ∈ s.pointBindings t := by
  simp only [requestedBindings, List.mem_flatMap, bindingsOf, Option.mem_toList, expanded]

/-- A reference that leads to a declaration binds its type parameters to the arguments. -/
theorem mem_pointBindings_iff (hobject : s.idOf? WellKnown.object = none) {t u : TypeRef} :
    (k, u) ∈ s.pointBindings t ↔
      ∃ j e, s.ancestor? t = some (j, e) ∧ (k, u) ∈ e.paramKeys.zip t.arguments := by
  have hlead := target?_isObject hobject t
  cases hn : s.ancestor? t with
  | none =>
      rw [hn, Option.map_none] at hlead
      rw [pointBindings_of_target?_eq_none hlead]
      simp
  | some a =>
      obtain ⟨j, e⟩ := a
      rw [hn, Option.map_some] at hlead
      rw [pointBindings_of_target? hlead (ancestor?_eq_some_iff.1 hn).2,
        TypeDeclaration.argumentBindings_eq]
      simp

/-- **What an expanded declaration extends has its type parameters bound.** -/
theorem isBound_of_leadsTo (hobject : s.idOf? WellKnown.object = none)
    (hsupplies : s.SuppliesArguments) (hj : j ∈ s.expanded root)
    (hlead : s.LeadsTo WellKnown.isObject j i) (hd : s.get? i = some d) (hk : k ∈ d.paramKeys) :
    (s.typeBindings root).get? k ≠ none := by
  obtain ⟨e, he, t, ht, name, hname, _, hid⟩ := hlead
  have htarget : s.ancestor? t = some (i, d) := by
    rw [ancestor?_eq_some_iff, resolveType?, hname]
    exact ⟨hid, hd⟩
  have hlength := hsupplies e (mem_declarations_of_get? he) t ht (i, d) htarget
  obtain ⟨u, hu⟩ := TypeDeclaration.exists_lookup_zip_paramKeys hlength hk
  have hmem : (k, u) ∈ s.requestedBindings root :=
    mem_requestedBindings_iff.2 ⟨j, hj, e, he, t, ht,
      (mem_pointBindings_iff hobject).2 ⟨i, d, htarget, mem_of_lookup hu⟩⟩
  rw [get?_typeBindings]
  intro hnone
  simpa using List.lookup_eq_none_iff.1 hnone _ hmem

/-! ### Well-scoped stores -/

/-- **A store is well scoped** where its declarations have different names, none that of the root of
the class hierarchy, no declaration is above itself, every extension point supplies its arguments,
and a declaration mentions its own type parameters only: at its extension points and in the types of
its members, outside the bounds of type parameters. -/
structure WellScoped (s : DeclarationStore) : Prop where
  names : (s.declarations.toList.map (·.name)).Nodup
  object : s.idOf? WellKnown.object = none
  acyclic : ∀ i, ¬Relation.TransGen (s.LeadsTo fun _ => false) i i
  supplies : s.SuppliesArguments
  extensions : ∀ d ∈ s.declarations, ∀ t ∈ d.supertypes, (s.ancestor? t).isSome →
    ∀ arg ∈ t.arguments, ∀ k ∈ arg.paramKeys, k ∈ d.paramKeys
  members : ∀ d ∈ s.declarations, ∀ t ∈ d.memberTypes, ∀ k ∈ t.paramKeys, k ∈ d.paramKeys

namespace WellScoped

/-- **What is bound** was bound when an expanded declaration extended the one that declares it, and
is bound to a type that mentions type parameters of the former. -/
theorem exists_extension (hs : s.WellScoped) {u : TypeRef}
    (h : (s.typeBindings root).get? k = some u) :
    ∃ i ∈ s.expanded root, ∃ d, s.get? i = some d ∧ (∀ l ∈ u.paramKeys, l ∈ d.paramKeys) ∧
      ∃ j e, s.LeadsTo (fun _ => false) i j ∧ s.get? j = some e ∧ k ∈ e.paramKeys := by
  rw [get?_typeBindings] at h
  obtain ⟨i, hi, d, hd, t, ht, hpair⟩ := mem_requestedBindings_iff.1 (mem_of_lookup h)
  obtain ⟨j, e, htarget, hpair⟩ := (mem_pointBindings_iff hs.object).1 hpair
  obtain ⟨hk, hu⟩ := List.of_mem_zip hpair
  obtain ⟨hname, hid⟩ := declaredName?_of_ancestor? htarget
  have hscope := hs.extensions d (mem_declarations_of_get? hd) t ht (by simp [htarget]) u hu
  exact ⟨i, hi, d, hd, hscope, j, e, ⟨d, hd, t, ht, e.name, hname, rfl, hid⟩,
    (ancestor?_eq_some_iff.1 htarget).2, hk⟩

/-- A type parameter belongs to one declaration. -/
theorem idOf?_owner (hs : s.WellScoped) (hd : s.get? i = some d) (hk : k ∈ d.paramKeys) :
    s.idOf? k.owner = some i := by
  rw [TypeDeclaration.owner_of_mem_paramKeys hk]
  exact idOf?_of_get? hs.names hd

/-- Dependencies between type parameters go against the references between their declarations. -/
theorem exists_leadsTo_of_dependsOn (hs : s.WellScoped) {l : TypeParamKey}
    (h : Relation.TransGen (s.typeBindings root).DependsOn k l) :
    ∃ i j, s.idOf? l.owner = some i ∧ s.idOf? k.owner = some j ∧
      Relation.TransGen (s.LeadsTo fun _ => false) i j := by
  have hstep : ∀ {k l : TypeParamKey}, (s.typeBindings root).DependsOn k l →
      ∃ i j, s.idOf? l.owner = some i ∧ s.idOf? k.owner = some j ∧
        s.LeadsTo (fun _ => false) i j := by
    rintro k l ⟨u, hu, hl⟩
    obtain ⟨i, _, d, hd, hscope, j, e, hlead, he, hk⟩ := hs.exists_extension hu
    exact ⟨i, j, hs.idOf?_owner hd (hscope l hl), hs.idOf?_owner he hk, hlead⟩
  induction h with
  | single hkl =>
      obtain ⟨i, j, hi, hj, hlead⟩ := hstep hkl
      exact ⟨i, j, hi, hj, .single hlead⟩
  | tail _ hlm ih =>
      obtain ⟨i, j, hi, hj, hpath⟩ := ih
      obtain ⟨m, i', hm, hi', hlead⟩ := hstep hlm
      obtain rfl := Option.some.inj (hi.symm.trans hi')
      exact ⟨m, j, hm, hj, .head hlead hpath⟩

/-- **The bindings of a root are acyclic**, as the hierarchy is. -/
theorem isAcyclic_typeBindings (hs : s.WellScoped) (root : DeclId) :
    (s.typeBindings root).IsAcyclic := by
  intro k hcycle
  obtain ⟨i, j, hi, hj, hpath⟩ := hs.exists_leadsTo_of_dependsOn hcycle
  obtain rfl := Option.some.inj (hi.symm.trans hj)
  exact hs.acyclic i hpath

/-- **What remains after substitution** into a type that a declaration may mention is a type
parameter of the root, or one of the declaration itself that is not bound. -/
theorem of_mem_paramKeys_substitute (hs : s.WellScoped) {t : TypeRef}
    (ht : ∀ k ∈ t.paramKeys, k ∈ d.paramKeys)
    (hk : k ∈ ((s.typeBindings root).substitute t).paramKeys) :
    (∃ r, s.get? root = some r ∧ k ∈ r.paramKeys) ∨
      (k ∈ d.paramKeys ∧ (s.typeBindings root).get? k = none) := by
  obtain ⟨hunbound, l, hl, hreach⟩ :=
    (hs.isAcyclic_typeBindings root).of_mem_paramKeys_substitute hk
  rcases Relation.ReflTransGen.cases_tail hreach with rfl | ⟨m, _, u, hu, hmk⟩
  · exact .inr ⟨ht _ hl, hunbound⟩
  · -- the declaration that was expanded is the root, or has its own type parameters bound
    obtain ⟨i, hi, e, he, hscope, _⟩ := hs.exists_extension hu
    rcases eq_root_or_leadsTo_of_mem_expanded hi with rfl | ⟨j, hj, hlead⟩
    · exact .inl ⟨e, he, hscope k hmk⟩
    · exact absurd hunbound
        (isBound_of_leadsTo hs.object hs.supplies hj hlead he (hscope k hmk))

end WellScoped

/-! ### Expanding everything -/

/-- **The walk for the bindings expands everything** that can be reached from the root. -/
def ExpandsAll (s : DeclarationStore) (root : DeclId) : Prop :=
  ∀ i, Relation.ReflTransGen (s.LeadsTo WellKnown.isObject) root i → i ∈ s.expanded root

/-- What the references lead to of the declarations that have not been expanded. -/
def openReferences (s : DeclarationStore) (before : List DeclId) : List DeclId :=
  (s.ids.filter (· ∉ before)).flatMap (s.targets WellKnown.isObject)

theorem nodup_ids (s : DeclarationStore) : s.ids.Nodup :=
  List.Nodup.map (fun _ _ h => congrArg DeclId.index h) List.nodup_range'

/-- Expanding a declaration takes it out of those that have not been expanded. -/
theorem filter_notMem_cons (s : DeclarationStore) (i : DeclId) (before : List DeclId) :
    s.ids.filter (· ∉ i :: before) = (s.ids.filter (· ∉ before)).erase i := by
  rw [(s.nodup_ids.filter _).erase_eq_filter, List.filter_filter]
  refine List.filter_congr fun j _ => ?_
  rw [bne, Bool.beq_eq_decide_eq, ← decide_not, ← Bool.decide_and]
  simp only [List.mem_cons, not_or]

/-- Expanding a declaration takes what its references lead to out of the open references. -/
theorem openReferences_perm (s : DeclarationStore) {i : DeclId} {before : List DeclId}
    (hi : i ∉ before) :
    List.Perm (s.openReferences before)
      (s.targets WellKnown.isObject i ++ s.openReferences (i :: before)) := by
  rw [openReferences, openReferences, filter_notMem_cons]
  by_cases hmem : i ∈ s.ids
  · have hopen : i ∈ s.ids.filter (· ∉ before) :=
      List.mem_filter.2 ⟨hmem, decide_eq_true hi⟩
    rw [← List.flatMap_cons]
    exact (List.perm_cons_erase hopen).flatMap_right _
  · -- what is not registered has no references
    have hnone : s.get? i = none := by
      by_contra hne
      obtain ⟨d, hd⟩ := Option.ne_none_iff_exists'.1 hne
      exact hmem (mem_ids_of_get? hd)
    rw [targets_of_get?_eq_none hnone, List.nil_append,
      List.erase_of_not_mem fun hopen => hmem (List.mem_filter.1 hopen).1]

/-- With room for what is in the queue and for all open references, everything in the queue is
expanded, and so is everything that a reference of something expanded leads to. -/
theorem mem_expansions_of_length_le {limit : Nat} {before queue : List DeclId}
    (h : queue.length + (s.openReferences before).length ≤ limit) :
    (∀ i ∈ queue, i ∈ before ∨ i ∈ s.expansions limit before queue) ∧
      ∀ i ∈ s.expansions limit before queue, ∀ j, s.LeadsTo WellKnown.isObject i j →
        j ∈ before ∨ j ∈ s.expansions limit before queue := by
  induction limit generalizing before queue with
  | zero =>
      obtain rfl : queue = [] := List.eq_nil_of_length_eq_zero (by omega)
      simp [expansions]
  | succ limit ih =>
      cases queue with
      | nil => simp [expansions]
      | cons q queue =>
          rw [List.length_cons] at h
          rw [expansions]
          by_cases hq : q ∈ before
          · rw [if_pos hq]
            obtain ⟨hqueue, hclosed⟩ :=
              ih (show queue.length + (s.openReferences before).length ≤ limit by omega)
            exact ⟨List.forall_mem_cons.2 ⟨.inl hq, hqueue⟩, hclosed⟩
          · rw [if_neg hq]
            have hopen := (s.openReferences_perm hq).length_eq
            have hroom : (queue ++ s.targets WellKnown.isObject q).length +
                (s.openReferences (q :: before)).length ≤ limit := by
              rw [List.length_append] at hopen ⊢
              omega
            obtain ⟨hqueue, hclosed⟩ := ih hroom
            -- what counted as expanded before the step is the declaration itself or older
            have hmove : ∀ {j : DeclId} {later : List DeclId}, j ∈ q :: before ∨ j ∈ later →
                j ∈ before ∨ j ∈ q :: later := by
              intro j later hj
              simp only [List.mem_cons] at hj ⊢
              tauto
            refine ⟨fun i hi => ?_, fun i hi j hij => ?_⟩
            · rcases List.mem_cons.1 hi with rfl | hi
              · exact .inr List.mem_cons_self
              · exact hmove (hqueue i (List.mem_append_left _ hi))
            · rcases List.mem_cons.1 hi with rfl | hi
              · exact hmove (hqueue j (List.mem_append_right _ (mem_targets_iff.2 hij)))
              · exact hmove (hclosed i hi j hij)

/-- **A hierarchy with few references is expanded as a whole**: the walk for the bindings has room
for the root and for every reference that leads somewhere. -/
theorem expandsAll_of_length_lt
    (h : (s.ids.flatMap (s.targets WellKnown.isObject)).length < Limits.maxAncestorEdges) :
    s.ExpandsAll root := by
  have hroom : [root].length + (s.openReferences []).length ≤ Limits.maxAncestorEdges := by
    have hall : s.ids.filter (· ∉ ([] : List DeclId)) = s.ids := List.filter_eq_self.2 (by simp)
    rw [openReferences, hall, List.length_singleton]
    omega
  obtain ⟨hqueue, hclosed⟩ := mem_expansions_of_length_le hroom
  intro i hi
  induction hi with
  | refl => exact (hqueue root (List.mem_singleton_self root)).resolve_left List.not_mem_nil
  | tail _ hij ih => exact (hclosed _ ih _ hij).resolve_left List.not_mem_nil

end DeclarationStore

end ActionSignatures
