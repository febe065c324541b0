/-
**The bindings of a root, as a list.**

The walk for the bindings of a root keeps a map, a set and a queue.  Over a store it comes down to
two lists: the declarations that are expanded, one after another, and the bindings that their
extension points ask for.  This module defines both by recursion and proves that the bindings of a
root are those of the list, the first one of a key winning.  It follows that the bindings depend
only on what can be reached from the root, and there only on the names of type parameters and the
super-type references.

Main definitions:

* `ActionSignatures.FirstMap.insertAll` — a map with more bindings;
* `ActionSignatures.TypeDeclaration.argumentBindings` — the bindings of one extension point;
* `ActionSignatures.DeclarationStore.expansions`, `ActionSignatures.DeclarationStore.leftover` —
  **the declarations that are expanded**, and what is left in the queue;
* `ActionSignatures.DeclarationStore.requestedBindings` — **the bindings that are asked for**, in
  their order;
* `ActionSignatures.TypeDeclaration.header` — what the walk looks at in a declaration.

Main results:

* `ActionSignatures.BindingWalk.exists_run_eq` — a walk expands the list, binds what it asks for, and
  leaves the rest of its queue;
* `ActionSignatures.DeclarationStore.typeBindings_eq`,
  `ActionSignatures.DeclarationStore.get?_typeBindings` — **the bindings of a root**;
* `ActionSignatures.DeclarationStore.typeBindings_congr` — stores that agree on the headers of what
  can be reached have the same bindings.
-/

import ActionSignatures.Proofs.Inheritance.Paths
import Mathlib.Data.List.Basic

set_option relaxedAutoImplicit false
set_option autoImplicit false

namespace ActionSignatures

/-! ### Binding many keys -/

namespace FirstMap

variable {κ α : Type} [Ord κ] [Std.TransOrd κ] [DecidableEq κ] [Std.LawfulEqOrd κ]

/-- The map with more bindings, as far as their keys are not bound already. -/
def insertAll (m : FirstMap κ α) (l : List (κ × α)) : FirstMap κ α :=
  l.foldl (fun m e => m.insert e.1 e.2) m

@[simp] theorem insertAll_nil (m : FirstMap κ α) : m.insertAll [] = m := rfl

theorem insertAll_append (m : FirstMap κ α) (l l' : List (κ × α)) :
    m.insertAll (l ++ l') = (m.insertAll l).insertAll l' :=
  List.foldl_append

/-- What is bound stays, and the first one of more bindings counts. -/
theorem get?_insertAll (m : FirstMap κ α) (l : List (κ × α)) (k : κ) :
    (m.insertAll l).get? k = (m.get? k).or (l.lookup k) := by
  induction l generalizing m with
  | nil => simp
  | cons e l ih =>
      have hcons : m.insertAll (e :: l) = (m.insert e.1 e.2).insertAll l := rfl
      rw [hcons, ih, get?_insert, Option.or_assoc]
      by_cases h : k = e.1
      · rw [if_pos h, List.lookup_cons, beq_iff_eq.2 h, Option.some_or]
      · rw [if_neg h, List.lookup_cons, beq_eq_false_iff_ne.2 h, Option.none_or]

end FirstMap

/-! ### Extension points -/

/-- Whether a name is that of the root of the class hierarchy, the only one that the walk for the
bindings passes over. -/
def WellKnown.isObject (name : String) : Bool := name == object

namespace TypeDeclaration

/-- **The bindings that a reference to a declaration asks for**: its type parameters are bound to
the arguments of the reference, if there are any. -/
def argumentBindings (d : TypeDeclaration) (reference : TypeRef) :
    List (TypeParamKey × TypeRef) :=
  match BindingWalk.argumentsOf reference with
  | some args => ((d.typeParams.map (·.name)).zip args).map fun p => (⟨d.name, p.1⟩, p.2)
  | none => []

/-- What the walk for the bindings looks at in a declaration: its name, the names of its type
parameters, and its super-type references. -/
def header (d : TypeDeclaration) : String × List String × List TypeRef :=
  (d.name, d.typeParams.map (·.name), d.supertypes)

end TypeDeclaration

theorem TypeBindings.bindArguments_eq (b : TypeBindings) {d : TypeDeclaration} {reference : TypeRef}
    {args : List TypeRef} (h : BindingWalk.argumentsOf reference = some args) :
    b.bindArguments d args = b.insertAll (d.argumentBindings reference) := by
  simp only [bindArguments, FirstMap.insertAll, TypeDeclaration.argumentBindings, h,
    List.zip_map_left, List.map_map, List.foldl_map]
  rfl

namespace DeclarationStore

/-- The bindings that a reference asks for: none where it is not followed. -/
def pointBindings (s : DeclarationStore) (reference : TypeRef) : List (TypeParamKey × TypeRef) :=
  ((s.target? WellKnown.isObject reference).bind s.get?).toList.flatMap
    (·.argumentBindings reference)

/-- The bindings that the references of a declaration ask for. -/
def bindingsOf (s : DeclarationStore) (i : DeclId) : List (TypeParamKey × TypeRef) :=
  (s.get? i).toList.flatMap fun d => d.supertypes.flatMap s.pointBindings

/-- **The declarations that the walk for the bindings expands**, when it has expanded some and has
some in its queue, and takes at most as many off the queue as a limit says. -/
def expansions (s : DeclarationStore) : Nat → List DeclId → List DeclId → List DeclId
  | 0, _, _ => []
  | _ + 1, _, [] => []
  | limit + 1, expanded, i :: queue =>
      if i ∈ expanded then
        s.expansions limit expanded queue
      else
        i :: s.expansions limit (i :: expanded) (queue ++ s.targets WellKnown.isObject i)

/-- What is left in the queue of that walk when it stops. -/
def leftover (s : DeclarationStore) : Nat → List DeclId → List DeclId → List DeclId
  | 0, _, queue => queue
  | _ + 1, _, [] => []
  | limit + 1, expanded, i :: queue =>
      if i ∈ expanded then
        s.leftover limit expanded queue
      else
        s.leftover limit (i :: expanded) (queue ++ s.targets WellKnown.isObject i)

/-- **The bindings that the walk from a root asks for**, in their order. -/
def requestedBindings (s : DeclarationStore) (root : DeclId) : List (TypeParamKey × TypeRef) :=
  (s.expansions Limits.maxAncestorEdges [] [root]).flatMap s.bindingsOf

variable {s : DeclarationStore}

theorem bindingsOf_of_get? {i : DeclId} {d : TypeDeclaration} (h : s.get? i = some d) :
    s.bindingsOf i = d.supertypes.flatMap s.pointBindings := by
  rw [bindingsOf, h, Option.toList_some, List.flatMap_singleton]

theorem bindingsOf_of_get?_eq_none {i : DeclId} (h : s.get? i = none) : s.bindingsOf i = [] := by
  rw [bindingsOf, h]
  rfl

theorem pointBindings_of_target?_eq_none {reference : TypeRef}
    (h : s.target? WellKnown.isObject reference = none) : s.pointBindings reference = [] := by
  rw [pointBindings, h]
  rfl

theorem pointBindings_of_target? {reference : TypeRef} {i : DeclId} {d : TypeDeclaration}
    (h : s.target? WellKnown.isObject reference = some i) (hd : s.get? i = some d) :
    s.pointBindings reference = d.argumentBindings reference := by
  rw [pointBindings, h, Option.bind_some, hd, Option.toList_some, List.flatMap_singleton]

end DeclarationStore

/-! ### A walk expands the list -/

namespace BindingWalk

open DeclarationStore

variable {s : DeclarationStore}

/-- The queue and the set of a walk hold the given identifiers, and the set has room for those in
the queue. -/
structure Holds (w : BindingWalk) (expanded queue : List DeclId) : Prop where
  room : ∀ i ∈ queue, i.index < w.expanded.length
  queue : w.queue.toList = queue
  expanded : ∀ i : DeclId, w.expanded.contains i.index = true ↔ i ∈ expanded

theorem start_holds (s : DeclarationStore) (root : DeclId) :
    (start s.graph root).Holds [] [root] where
  room i hi := by
    obtain rfl := List.mem_singleton.1 hi
    rw [start, IdSet.length_ofLength]
    omega
  queue := by simp [start]
  expanded i := by simp [start]

/-! What following a reference does, by where the reference leads. -/

theorem declaredName?_eq_object_iff {reference : TypeRef} :
    reference.declaredName? = some WellKnown.object ↔
      reference.declaredName?.any WellKnown.isObject = true := by
  cases reference.declaredName? with
  | none => simp
  | some name => simp [WellKnown.isObject]

theorem follow_of_target?_eq_none {reference : TypeRef}
    (h : s.target? WellKnown.isObject reference = none) (w : BindingWalk) :
    follow s.graph w reference = pure w := by
  rw [follow]
  split
  · rfl
  · rename_i hx
    rw [declaredName?_eq_object_iff] at hx
    rw [target?_of_not_excluded hx, Option.map_eq_none_iff, ancestor?_eq_none_iff] at h
    simp only [graph, h, pure_bind]

theorem follow_of_target? {reference : TypeRef} {i : DeclId}
    (h : s.target? WellKnown.isObject reference = some i) (w : BindingWalk) :
    follow s.graph w reference = pure (w.reach s.graph reference i) := by
  have hx : ¬reference.declaredName?.any WellKnown.isObject = true := by
    intro hx
    rw [target?_of_excluded hx] at h
    cases h
  obtain ⟨name, hname, _, hid⟩ := target?_eq_some_iff.1 h
  have hresolve : s.resolveType? reference = some i := by
    rw [resolveType?, hname, Option.bind_some, hid]
  rw [follow, if_neg (mt declaredName?_eq_object_iff.1 hx)]
  simp only [graph, hresolve, pure_bind]

/-- Reaching a declaration puts it into the queue, and binds what the reference asks for. -/
theorem Holds.reach {w : BindingWalk} {expanded queue : List DeclId} (h : w.Holds expanded queue)
    (reference : TypeRef) {i : DeclId} {d : TypeDeclaration} (hd : s.get? i = some d) :
    (w.reach s.graph reference i).Holds expanded (queue ++ [i]) ∧
      (w.reach s.graph reference i).bindings =
        w.bindings.insertAll (d.argumentBindings reference) := by
  refine ⟨⟨fun j hj => ?_, by simp [BindingWalk.reach, h.queue], fun j => ?_⟩, ?_⟩
  · rw [BindingWalk.reach, IdSet.length_grow]
    rcases List.mem_append.1 hj with hj | hj
    · have := h.room j hj
      omega
    · obtain rfl := List.mem_singleton.1 hj
      omega
  · rw [BindingWalk.reach, IdSet.contains_grow, h.expanded j]
  · have hgraph : s.graph.declaration? i = some d := hd
    simp only [BindingWalk.reach, hgraph]
    cases hargs : argumentsOf reference with
    | some args => exact TypeBindings.bindArguments_eq w.bindings hargs
    | none => rw [TypeDeclaration.argumentBindings, hargs, FirstMap.insertAll_nil]

/-- Following references one after another puts their targets into the queue, and binds what they
ask for. -/
theorem Holds.exists_foldlM_follow {w : BindingWalk} {expanded queue : List DeclId}
    (h : w.Holds expanded queue) (references : List TypeRef) :
    ∃ w', references.foldlM (follow s.graph) w = pure w' ∧
      w'.Holds expanded (queue ++ references.filterMap (s.target? WellKnown.isObject)) ∧
      w'.bindings = w.bindings.insertAll (references.flatMap s.pointBindings) := by
  induction references generalizing w queue with
  | nil =>
      refine ⟨w, rfl, ?_, rfl⟩
      rw [List.filterMap_nil, List.append_nil]
      exact h
  | cons reference references ih =>
      rw [List.foldlM_cons, List.flatMap_cons, FirstMap.insertAll_append]
      cases htarget : s.target? WellKnown.isObject reference with
      | none =>
          rw [follow_of_target?_eq_none htarget, pure_bind, List.filterMap_cons_none htarget,
            pointBindings_of_target?_eq_none htarget, FirstMap.insertAll_nil]
          exact ih h
      | some i =>
          obtain ⟨_, _, _, hid⟩ := target?_eq_some_iff.1 htarget
          obtain ⟨d, hd, _⟩ := get?_of_idOf? hid
          obtain ⟨hholds, hbindings⟩ := h.reach reference hd
          rw [follow_of_target? htarget, pure_bind, List.filterMap_cons_some htarget,
            pointBindings_of_target? htarget hd, ← hbindings, List.append_cons]
          exact ih hholds

theorem expand_of_mem {w : BindingWalk} {expanded queue : List DeclId} (h : w.Holds expanded queue)
    {i : DeclId} (hi : i ∈ expanded) : expand s.graph w i = pure w := by
  rw [expand, if_pos ((h.expanded i).2 hi)]

/-- Expanding a declaration for the first time puts its targets into the queue, and binds what its
references ask for. -/
theorem Holds.exists_expand {w : BindingWalk} {expanded queue : List DeclId}
    (h : w.Holds expanded queue) {i : DeclId} (hroom : i.index < w.expanded.length)
    (hi : i ∉ expanded) :
    ∃ w', expand s.graph w i = pure w' ∧
      w'.Holds (i :: expanded) (queue ++ s.targets WellKnown.isObject i) ∧
      w'.bindings = w.bindings.insertAll (s.bindingsOf i) := by
  -- the declaration counts as expanded before its references are followed
  have hmarked : ({ w with expanded := w.expanded.insert i.index } : BindingWalk).Holds
      (i :: expanded) queue := by
    refine ⟨fun j hj => ?_, h.queue, fun j => ?_⟩
    · rw [IdSet.length_insert]
      exact h.room j hj
    · rw [IdSet.contains_insert hroom, Bool.or_eq_true, h.expanded j, beq_iff_eq,
        DeclId.index_inj, List.mem_cons, eq_comm]
  rw [expand, if_neg (mt (h.expanded i).1 hi)]
  cases hd : s.get? i with
  | none =>
      have hgraph : s.graph.declaration? i = none := hd
      rw [hgraph, targets_of_get?_eq_none hd, bindingsOf_of_get?_eq_none hd, List.append_nil]
      exact ⟨_, rfl, hmarked, rfl⟩
  | some d =>
      have hgraph : s.graph.declaration? i = some d := hd
      rw [hgraph, targets_of_get? hd, bindingsOf_of_get? hd]
      exact hmarked.exists_foldlM_follow d.supertypes

/-- **A walk expands the declarations of the list** and binds what they ask for. -/
theorem exists_run_eq (s : DeclarationStore) (limit : Nat) {w : BindingWalk}
    {expanded queue : List DeclId} (h : w.Holds expanded queue) :
    ∃ w', run s.graph limit w = pure w' ∧
      w'.bindings =
        w.bindings.insertAll ((s.expansions limit expanded queue).flatMap s.bindingsOf) ∧
      w'.queue.toList = s.leftover limit expanded queue := by
  induction limit generalizing w expanded queue with
  | zero => exact ⟨w, rfl, rfl, h.queue⟩
  | succ limit ih =>
      rw [run]
      cases hq : w.queue.dequeue? with
      | none =>
          have hnil : queue = [] := h.queue.symm.trans (Queue.dequeue?_eq_none_iff.1 hq)
          rw [hnil]
          exact ⟨w, rfl, rfl, h.queue.trans hnil⟩
      | some taken =>
          obtain ⟨i, rest⟩ := taken
          have hcons : queue = i :: rest.toList := h.queue.symm.trans (Queue.toList_of_dequeue? hq)
          rw [hcons] at h ⊢
          -- what is left of the queue still fits into the set
          have hrest : ({ w with queue := rest } : BindingWalk).Holds expanded rest.toList :=
            ⟨fun j hj => h.room j (List.mem_cons_of_mem i hj), rfl, h.expanded⟩
          rw [expansions, leftover]
          by_cases hi : i ∈ expanded
          · rw [if_pos hi, if_pos hi]
            simp only [expand_of_mem hrest hi, pure_bind]
            exact ih hrest
          · obtain ⟨w', hexpand, hholds, hbindings⟩ :=
              hrest.exists_expand (s := s) (h.room i List.mem_cons_self) hi
            rw [if_neg hi, if_neg hi, List.flatMap_cons, FirstMap.insertAll_append, ← hbindings]
            simp only [hexpand, pure_bind]
            exact ih hholds

end BindingWalk

/-! ### The bindings of a root -/

namespace DeclarationStore

/-- **The bindings of a root** are those that the walk asks for, the first one of a key winning. -/
theorem typeBindings_eq (s : DeclarationStore) (root : DeclId) :
    s.typeBindings root = FirstMap.empty.insertAll (s.requestedBindings root) := by
  obtain ⟨w, hrun, hbindings, -⟩ :=
    BindingWalk.exists_run_eq s Limits.maxAncestorEdges (BindingWalk.start_holds s root)
  rw [typeBindings, AncestorGraph.typeBindings, hrun, requestedBindings]
  exact hbindings

/-- What a type parameter is bound to: what the first binding of it that is asked for says. -/
theorem get?_typeBindings (s : DeclarationStore) (root : DeclId) (k : TypeParamKey) :
    (s.typeBindings root).get? k = (s.requestedBindings root).lookup k := by
  rw [typeBindings_eq, FirstMap.get?_insertAll, FirstMap.get?_eq, FirstMap.entries_empty,
    List.lookup_nil, Option.none_or]

/-! ### What the bindings depend on -/

/-- The header of the declaration with an identifier. -/
def header? (s : DeclarationStore) (i : DeclId) : Option (String × List String × List TypeRef) :=
  (s.get? i).map (·.header)

variable {s t : DeclarationStore} {root : DeclId}

theorem target?_congr (hid : ∀ name, s.idOf? name = t.idOf? name) (excludes : String → Bool)
    (reference : TypeRef) : s.target? excludes reference = t.target? excludes reference := by
  simp only [target?, ← idOf?_eq, hid]

/-- Where the references of a declaration lead depends on its header. -/
theorem targets_congr (hid : ∀ name, s.idOf? name = t.idOf? name) {i : DeclId}
    (h : s.header? i = t.header? i) (excludes : String → Bool) :
    s.targets excludes i = t.targets excludes i := by
  have hreferences : ∀ r : DeclarationStore, r.targets excludes i =
      (r.header? i).toList.flatMap fun header => header.2.2.filterMap (r.target? excludes) := by
    intro r
    rw [targets, header?]
    cases r.get? i with
    | none => rfl
    | some d => simp [TypeDeclaration.header]
  have htarget : s.target? excludes = t.target? excludes := funext (target?_congr hid excludes)
  rw [hreferences s, hreferences t, h, htarget]

/-- What a reference asks for depends on the header of the declaration that it leads to. -/
theorem pointBindings_congr (hid : ∀ name, s.idOf? name = t.idOf? name) {reference : TypeRef}
    (h : ∀ i, s.target? WellKnown.isObject reference = some i → s.header? i = t.header? i) :
    s.pointBindings reference = t.pointBindings reference := by
  rw [pointBindings, pointBindings, ← target?_congr hid]
  cases htarget : s.target? WellKnown.isObject reference with
  | none => rfl
  | some i =>
      have hi := h i htarget
      rw [header?, header?] at hi
      rw [Option.bind_some, Option.bind_some]
      cases hs : s.get? i with
      | none =>
          rw [hs, Option.map_none, eq_comm, Option.map_eq_none_iff] at hi
          rw [hi]
      | some d =>
          rw [hs, Option.map_some, eq_comm, Option.map_eq_some_iff] at hi
          obtain ⟨e, he, hheader⟩ := hi
          obtain ⟨hname, hparams, _⟩ : e.name = d.name ∧
              e.typeParams.map (·.name) = d.typeParams.map (·.name) ∧
              e.supertypes = d.supertypes := by
            simpa [TypeDeclaration.header] using hheader
          simp only [he, Option.toList_some, List.flatMap_singleton,
            TypeDeclaration.argumentBindings, hname, hparams]

/-- What the references of a declaration ask for depends on its header and on those of the
declarations that they lead to. -/
theorem bindingsOf_congr (hid : ∀ name, s.idOf? name = t.idOf? name) {i : DeclId}
    (h : s.header? i = t.header? i)
    (htargets : ∀ j, s.LeadsTo WellKnown.isObject i j → s.header? j = t.header? j) :
    s.bindingsOf i = t.bindingsOf i := by
  cases hs : s.get? i with
  | none =>
      rw [header?, header?, hs, Option.map_none, eq_comm, Option.map_eq_none_iff] at h
      rw [bindingsOf_of_get?_eq_none hs, bindingsOf_of_get?_eq_none h]
  | some d =>
      rw [header?, header?, hs, Option.map_some, eq_comm, Option.map_eq_some_iff] at h
      obtain ⟨e, he, hheader⟩ := h
      have hreferences : e.supertypes = d.supertypes := congrArg (·.2.2) hheader
      rw [bindingsOf_of_get? hs, bindingsOf_of_get? he, hreferences]
      refine List.flatMap_congr fun reference hreference => ?_
      refine pointBindings_congr hid fun j hj => htargets j ?_
      exact ⟨d, hs, reference, hreference, target?_eq_some_iff.1 hj⟩

/-- What is expanded can be reached from the root, and depends on the headers of what can be
reached. -/
theorem expansions_congr (hid : ∀ name, s.idOf? name = t.idOf? name)
    (h : ∀ i, Relation.ReflTransGen (s.LeadsTo WellKnown.isObject) root i →
      s.header? i = t.header? i)
    (limit : Nat) (expanded : List DeclId) {queue : List DeclId}
    (hqueue : ∀ i ∈ queue, Relation.ReflTransGen (s.LeadsTo WellKnown.isObject) root i) :
    s.expansions limit expanded queue = t.expansions limit expanded queue ∧
      ∀ i ∈ s.expansions limit expanded queue,
        Relation.ReflTransGen (s.LeadsTo WellKnown.isObject) root i := by
  -- all of the queue can be reached, so the headers of what is expanded next agree
  induction limit generalizing expanded queue with
  | zero => exact ⟨rfl, fun i hi => absurd hi List.not_mem_nil⟩
  | succ limit ih =>
      cases queue with
      | nil => exact ⟨rfl, fun i hi => absurd hi List.not_mem_nil⟩
      | cons i queue =>
          have hi := hqueue i List.mem_cons_self
          have hrest : ∀ j ∈ queue, Relation.ReflTransGen (s.LeadsTo WellKnown.isObject) root j :=
            fun j hj => hqueue j (List.mem_cons_of_mem i hj)
          rw [expansions, expansions]
          by_cases hmem : i ∈ expanded
          · rw [if_pos hmem, if_pos hmem]
            exact ih expanded hrest
          · rw [if_neg hmem, if_neg hmem, ← targets_congr hid (h i hi)]
            have hlater : ∀ j ∈ queue ++ s.targets WellKnown.isObject i,
                Relation.ReflTransGen (s.LeadsTo WellKnown.isObject) root j := by
              intro j hj
              rcases List.mem_append.1 hj with hj | hj
              · exact hrest j hj
              · exact hi.tail (mem_targets_iff.1 hj)
            obtain ⟨heq, hreach⟩ := ih (i :: expanded) hlater
            refine ⟨congrArg (i :: ·) heq, fun j hj => ?_⟩
            rcases List.mem_cons.1 hj with rfl | hj
            · exact hi
            · exact hreach j hj

/-- **Stores that agree on the headers of what can be reached from a root have the same bindings for
it.**  What is not reached, the members of declarations and the bounds of type parameters do not
count. -/
theorem typeBindings_congr (hid : ∀ name, s.idOf? name = t.idOf? name)
    (h : ∀ i, Relation.ReflTransGen (s.LeadsTo WellKnown.isObject) root i →
      s.header? i = t.header? i) :
    s.typeBindings root = t.typeBindings root := by
  have hroot : ∀ i ∈ [root], Relation.ReflTransGen (s.LeadsTo WellKnown.isObject) root i := by
    intro i hi
    obtain rfl := List.mem_singleton.1 hi
    exact .refl
  obtain ⟨heq, hreach⟩ := expansions_congr hid h Limits.maxAncestorEdges [] hroot
  have hrequested : s.requestedBindings root = t.requestedBindings root := by
    rw [requestedBindings, requestedBindings, ← heq]
    refine List.flatMap_congr fun i hi => ?_
    exact bindingsOf_congr hid (h i (hreach i hi)) fun j hij => h j ((hreach i hi).tail hij)
  rw [typeBindings_eq, typeBindings_eq, hrequested]

end DeclarationStore

end ActionSignatures
