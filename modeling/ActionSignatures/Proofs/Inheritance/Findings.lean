/-
**The findings of a walk over a store.**

A walk keeps the references to follow in a queue and the identifiers that it has visited in a set
with a length, and threads the state of the graph through every step.  Over a store nothing of this
is needed: what the walk finds is a list, computed by recursion from the list of the references and
the list of the identifiers visited.  This module defines the list of findings and proves that the
context of a root is what is left when its findings are entered one after another.

Main definitions:

* `ActionSignatures.DeclarationStore.ancestor?` — the declaration that a reference leads to;
* `ActionSignatures.Finding` — an ancestor visited, or a reference that leads nowhere;
* `ActionSignatures.DeclarationStore.findings` — **what a walk finds**;
* `ActionSignatures.DeclarationStore.found`, `ActionSignatures.DeclarationStore.walked` — what the
  walk from a root finds, and the ancestors among it.

Main results:

* `ActionSignatures.DeclarationStore.get?_of_idOf?` — a name stands for a declaration of that name;
* `ActionSignatures.AncestorWalk.run_eq` — **a walk enters its findings**, in their order;
* `ActionSignatures.DeclarationStore.inheritance_of_get?`,
  `ActionSignatures.DeclarationStore.inheritance_eq_foldl_found` — so does the resolution of a root;
* `ActionSignatures.DeclarationStore.ancestors_inheritance` — the ancestors of a context are those
  that the walk visits;
* `ActionSignatures.DeclarationStore.gaps_inheritance` — the references noted as unresolved are those
  that the walk found to lead nowhere, and a context is marked where its walk is cut short.
-/

import ActionSignatures.Inheritance.Walk
import Mathlib.Data.List.Induction

set_option relaxedAutoImplicit false
set_option autoImplicit false

namespace ActionSignatures

/-! ### Where references lead -/

theorem DeclId.index_inj {i j : DeclId} : i.index = j.index ↔ i = j := by
  cases i
  cases j
  simp

/-- The identifier of a name is the place of a declaration of that name. -/
theorem getElem?_of_latestId? {name : String} {id : DeclId} {ds : List TypeDeclaration}
    (h : latestId? name ds = some id) :
    id.index ≠ 0 ∧ ∃ d, ds[id.index - 1]? = some d ∧ d.name = name := by
  induction ds using List.reverseRecOn with
  | nil => simp [latestId?] at h
  | append_singleton ds d ih =>
      rw [latestId?_concat] at h
      split at h
      · rename_i hname
        cases h
        exact ⟨by simp, d, by simp, hname⟩
      · obtain ⟨hpos, e, he, hname⟩ := ih h
        have hlt : id.index - 1 < ds.length := (List.getElem?_eq_some_iff.1 he).1
        exact ⟨hpos, e, by rw [List.getElem?_append_left hlt, he], hname⟩

namespace DeclarationStore

/-- A name stands for a declaration of that name. -/
theorem get?_of_idOf? {s : DeclarationStore} {name : String} {id : DeclId}
    (h : s.idOf? name = some id) : ∃ d, s.get? id = some d ∧ d.name = name := by
  rw [idOf?_eq] at h
  obtain ⟨hpos, d, hd, hname⟩ := getElem?_of_latestId? h
  exact ⟨d, by rw [get?, if_neg hpos, ← Array.getElem?_toList, hd], hname⟩

theorem lookup?_of_idOf? {s : DeclarationStore} {name : String} {id : DeclId} {d : TypeDeclaration}
    (hid : s.idOf? name = some id) (hd : s.get? id = some d) : s.lookup? name = some d := by
  rw [lookup?, hid, Option.bind_some, hd]

/-- **The declaration that a reference leads to**: the last one of the name that it mentions. -/
def ancestor? (s : DeclarationStore) (t : TypeRef) : Option (DeclId × TypeDeclaration) := do
  let name ← t.declaredName?
  let id ← latestId? name s.declarations.toList
  let d ← s.get? id
  return (id, d)

theorem ancestor?_eq_some_iff {s : DeclarationStore} {t : TypeRef} {id : DeclId}
    {d : TypeDeclaration} :
    s.ancestor? t = some (id, d) ↔ s.resolveType? t = some id ∧ s.get? id = some d := by
  simp only [ancestor?, resolveType?, Option.bind_eq_bind, Option.bind_eq_some_iff, ← idOf?_eq,
    Option.pure_def, Option.some.injEq, Prod.mk.injEq]
  constructor
  · rintro ⟨name, hname, _, hid, _, hd, rfl, rfl⟩
    exact ⟨⟨name, hname, hid⟩, hd⟩
  · rintro ⟨⟨name, hname, hid⟩, hd⟩
    exact ⟨name, hname, id, hid, d, hd, rfl, rfl⟩

/-- In a store every identifier that a reference leads to has a declaration, under the name that the
reference mentions. -/
theorem declaredName?_of_ancestor? {s : DeclarationStore} {t : TypeRef} {id : DeclId}
    {d : TypeDeclaration} (h : s.ancestor? t = some (id, d)) :
    t.declaredName? = some d.name ∧ s.idOf? d.name = some id := by
  obtain ⟨ht, hd⟩ := ancestor?_eq_some_iff.1 h
  obtain ⟨name, hname, hid⟩ := Option.bind_eq_some_iff.1 ht
  obtain ⟨e, he, rfl⟩ := get?_of_idOf? hid
  obtain rfl : e = d := Option.some.inj (he.symm.trans hd)
  exact ⟨hname, hid⟩

theorem ancestor?_eq_none_iff {s : DeclarationStore} {t : TypeRef} :
    s.ancestor? t = none ↔ s.resolveType? t = none := by
  constructor
  · intro h
    by_contra hne
    obtain ⟨id, hid⟩ := Option.ne_none_iff_exists'.1 hne
    obtain ⟨_, _, hname⟩ := Option.bind_eq_some_iff.1 hid
    obtain ⟨d, hd, _⟩ := get?_of_idOf? hname
    simp [ancestor?_eq_some_iff.2 ⟨hid, hd⟩] at h
  · intro h
    by_contra hne
    obtain ⟨⟨id, d⟩, hd⟩ := Option.ne_none_iff_exists'.1 hne
    simp [(ancestor?_eq_some_iff.1 hd).1] at h

end DeclarationStore

/-! ### Findings -/

/-- **What a walk finds** when it follows a reference: an ancestor that it visits for the first time,
or that the reference leads nowhere. -/
inductive Finding where
  | ancestor (id : DeclId) (d : TypeDeclaration) (isRootSuperclass : Bool)
  | unresolved (e : AncestorEdge)

namespace Finding

/-- The context with a finding entered. -/
def enter (rules : WalkRules) (c : InheritanceContext) : Finding → InheritanceContext
  | .ancestor id d isRootSuperclass => AncestorWalk.collect rules c id d isRootSuperclass
  | .unresolved e => c.note e

/-- The ancestor that a finding is. -/
def ancestor? : Finding → Option (DeclId × TypeDeclaration)
  | .ancestor id d _ => some (id, d)
  | .unresolved _ => none

@[simp] theorem ancestor?_ancestor (id : DeclId) (d : TypeDeclaration) (isRootSuperclass : Bool) :
    (ancestor id d isRootSuperclass).ancestor? = some (id, d) := rfl

@[simp] theorem ancestor?_unresolved (e : AncestorEdge) : (unresolved e).ancestor? = none := rfl

/-- The reference that leads nowhere, where a finding is one. -/
def unresolved? : Finding → Option UnresolvedAncestor
  | .ancestor .. => none
  | .unresolved e => some ⟨e.reference, e.referencedBy⟩

end Finding

namespace DeclarationStore

/-- **What a walk finds** that has visited some identifiers and has some references left to follow,
at most as many as a limit says; and whether the limit cuts it short. -/
def findings (s : DeclarationStore) (excludes : String → Bool) :
    Nat → List DeclId → List AncestorEdge → List Finding × Bool
  | _, _, [] => ([], false)
  | 0, _, _ :: _ => ([], true)
  | left + 1, visited, e :: edges =>
      if e.reference.declaredName?.any excludes then
        s.findings excludes left visited edges
      else
        match s.ancestor? e.reference with
        | none =>
            let rest := s.findings excludes left visited edges
            (.unresolved e :: rest.1, rest.2)
        | some (id, d) =>
            if id ∈ visited then
              s.findings excludes left visited edges
            else
              let rest := s.findings excludes left (id :: visited) (edges ++ d.edges false)
              (.ancestor id d e.isRootSuperclass :: rest.1, rest.2)

/-- Every ancestor found is the declaration that its name stands for. -/
theorem idOf?_of_mem_findings {s : DeclarationStore} {excludes : String → Bool} {left : Nat}
    {visited : List DeclId} {edges : List AncestorEdge} {id : DeclId} {d : TypeDeclaration}
    {isRootSuperclass : Bool}
    (h : .ancestor id d isRootSuperclass ∈ (s.findings excludes left visited edges).1) :
    s.idOf? d.name = some id ∧ s.get? id = some d := by
  fun_induction s.findings excludes left visited edges with
  | case1 => exact absurd h List.not_mem_nil
  | case2 => exact absurd h List.not_mem_nil
  | case3 left visited e edges hx ih => exact ih h
  | case4 left visited e edges hx hn rest ih => exact ih (by simpa using h)
  | case5 left visited e edges hx i t hn hv ih => exact ih h
  | case6 left visited e edges hx i t hn hv rest ih =>
      rcases List.mem_cons.1 h with hhead | htail
      · cases hhead
        exact ⟨(declaredName?_of_ancestor? hn).2, (ancestor?_eq_some_iff.1 hn).2⟩
      · exact ih htail

end DeclarationStore

/-! ### A walk enters its findings -/

namespace AncestorWalk

variable {s : DeclarationStore} {rules : WalkRules}

/-- The queue and the visited set of a walk hold the given references and identifiers. -/
structure Holds (w : AncestorWalk) (visited : List DeclId) (edges : List AncestorEdge) : Prop where
  queue : w.queue.toList = edges
  visited : ∀ id : DeclId, w.visited.contains id.index = true ↔ id ∈ visited

theorem Holds.contains_eq {w : AncestorWalk} {visited : List DeclId} {edges : List AncestorEdge}
    (h : w.Holds visited edges) (id : DeclId) :
    w.visited.contains id.index = decide (id ∈ visited) :=
  Bool.eq_iff_iff.2 ((h.visited id).trans decide_eq_true_iff.symm)

theorem start_holds (idBound : Nat) (root : DeclId) (d : TypeDeclaration) :
    (start idBound root d).Holds [root] (d.edges true) where
  queue := by simp [start]
  visited id := by
    have hroom : root.index < (IdSet.ofLength (max idBound (root.index + 1))).length := by
      rw [IdSet.length_ofLength]
      omega
    rw [start, IdSet.contains_insert hroom, IdSet.contains_ofLength, Bool.or_false, beq_iff_eq,
      DeclId.index_inj, List.mem_singleton, eq_comm]

/-- Visiting an identifier for the first time adds it to the visited ones, and the references of its
declaration to the queue. -/
theorem Holds.visit_of_notMem {w : AncestorWalk} {visited : List DeclId}
    {edges : List AncestorEdge} (h : w.Holds visited edges) (rules : WalkRules) {id : DeclId}
    {d : TypeDeclaration} (hd : s.get? id = some d) (hnew : id ∉ visited) (e : AncestorEdge) :
    (w.visit rules s.get? e id).Holds (id :: visited) (edges ++ d.edges false) ∧
      (w.visit rules s.get? e id).context =
        Finding.enter rules w.context (.ancestor id d e.isRootSuperclass) := by
  have hroom : id.index < (w.visited.grow (id.index + 1)).length := by
    rw [IdSet.length_grow]
    omega
  simp only [visit, IdSet.contains_grow, h.contains_eq, hnew, decide_false, Bool.false_eq_true,
    if_false, hd]
  refine ⟨⟨by simp [h.queue], fun i => ?_⟩, rfl⟩
  rw [IdSet.contains_insert hroom, IdSet.contains_grow, Bool.or_eq_true, h.visited i, beq_iff_eq,
    DeclId.index_inj, List.mem_cons, eq_comm]

/-- Visiting an identifier again changes nothing that counts. -/
theorem Holds.visit_of_mem {w : AncestorWalk} {visited : List DeclId}
    {edges : List AncestorEdge} (h : w.Holds visited edges) (s : DeclarationStore)
    (rules : WalkRules) {id : DeclId} (hold : id ∈ visited) (e : AncestorEdge) :
    (w.visit rules s.get? e id).Holds visited edges ∧
      (w.visit rules s.get? e id).context = w.context := by
  simp only [visit, IdSet.contains_grow, h.contains_eq, hold, decide_true, if_true]
  exact ⟨⟨h.queue, fun i => by rw [IdSet.contains_grow, h.visited i]⟩, trivial⟩

theorem Holds.eq_nil_of_dequeue? {w : AncestorWalk} {visited : List DeclId}
    {edges : List AncestorEdge} (h : w.Holds visited edges) (hq : w.queue.dequeue? = none) :
    edges = [] :=
  h.queue.symm.trans (Queue.dequeue?_eq_none_iff.1 hq)

theorem Holds.eq_cons_of_dequeue? {w : AncestorWalk} {visited : List DeclId}
    {edges : List AncestorEdge} (h : w.Holds visited edges)
    {taken : AncestorEdge × Queue AncestorEdge} (hq : w.queue.dequeue? = some taken) :
    edges = taken.1 :: taken.2.toList :=
  h.queue.symm.trans (Queue.toList_of_dequeue? hq)

/-! Over a store a step is one of three actions, none of which has an effect on the graph. -/

theorem step_of_excluded {e : AncestorEdge}
    (hx : e.reference.declaredName?.any rules.excludes = true) (w : AncestorWalk) :
    step s.graph rules w e = pure w := by
  rw [step, if_pos hx]

theorem step_of_unresolved {e : AncestorEdge}
    (hx : ¬e.reference.declaredName?.any rules.excludes = true)
    (hn : s.ancestor? e.reference = none) (w : AncestorWalk) :
    step s.graph rules w e = pure (w.note e) := by
  simp only [step, if_neg hx, DeclarationStore.graph, DeclarationStore.ancestor?_eq_none_iff.1 hn,
    pure_bind]

theorem step_of_ancestor {e : AncestorEdge}
    (hx : ¬e.reference.declaredName?.any rules.excludes = true) {id : DeclId}
    {d : TypeDeclaration} (hn : s.ancestor? e.reference = some (id, d)) (w : AncestorWalk) :
    step s.graph rules w e = pure (w.visit rules s.get? e id) := by
  simp only [step, if_neg hx, DeclarationStore.graph,
    (DeclarationStore.ancestor?_eq_some_iff.1 hn).1, pure_bind]

theorem run_of_empty {left : Nat} {w : AncestorWalk} (hq : w.queue.dequeue? = none) :
    run s.graph rules left w = pure (w.context, false) := by
  unfold run
  rw [hq]

theorem run_zero_of_some {w : AncestorWalk} {taken : AncestorEdge × Queue AncestorEdge}
    (hq : w.queue.dequeue? = some taken) : run s.graph rules 0 w = pure (w.context, true) := by
  unfold run
  rw [hq]

theorem run_succ_of_some {left : Nat} {w : AncestorWalk} {e : AncestorEdge}
    {rest : Queue AncestorEdge} (hq : w.queue.dequeue? = some (e, rest)) :
    run s.graph rules (left + 1) w =
      step s.graph rules { w with queue := rest } e >>= run s.graph rules left := by
  conv_lhs => unfold run
  rw [hq]

/-- **A walk enters its findings**, in their order, into the context that it has. -/
theorem run_eq (s : DeclarationStore) (rules : WalkRules) (left : Nat) {w : AncestorWalk}
    {visited : List DeclId} {edges : List AncestorEdge} (h : w.Holds visited edges) :
    run s.graph rules left w =
      pure ((s.findings rules.excludes left visited edges).1.foldl (Finding.enter rules) w.context,
        (s.findings rules.excludes left visited edges).2) := by
  induction left generalizing w visited edges with
  | zero =>
      cases hq : w.queue.dequeue? with
      | none =>
          rw [run_of_empty hq, h.eq_nil_of_dequeue? hq]
          rfl
      | some taken =>
          rw [run_zero_of_some hq, h.eq_cons_of_dequeue? hq]
          rfl
  | succ left ih =>
      cases hq : w.queue.dequeue? with
      | none =>
          rw [run_of_empty hq, h.eq_nil_of_dequeue? hq]
          rfl
      | some taken =>
          obtain ⟨e, rest⟩ := taken
          rw [run_succ_of_some hq, h.eq_cons_of_dequeue? hq]
          -- what is left of the queue holds the references behind the one taken
          have hrest : ({ w with queue := rest } : AncestorWalk).Holds visited rest.toList :=
            ⟨rfl, h.visited⟩
          simp only [DeclarationStore.findings]
          by_cases hx : e.reference.declaredName?.any rules.excludes = true
          · rw [step_of_excluded hx, pure_bind, if_pos hx, ih hrest]
          · cases hn : s.ancestor? e.reference with
            | none =>
                rw [step_of_unresolved hx hn, pure_bind, if_neg hx]
                exact ih ⟨rfl, h.visited⟩
            | some target =>
                obtain ⟨id, d⟩ := target
                rw [step_of_ancestor hx hn, pure_bind, if_neg hx]
                by_cases hv : id ∈ visited
                · obtain ⟨hh, hc⟩ := hrest.visit_of_mem s rules hv e
                  simp only [if_pos hv]
                  rw [ih hh, hc]
                · have hd := (DeclarationStore.ancestor?_eq_some_iff.1 hn).2
                  obtain ⟨hh, hc⟩ := hrest.visit_of_notMem rules hd hv e
                  simp only [if_neg hv, List.foldl_cons]
                  rw [ih hh, hc]

end AncestorWalk

/-! ### The ancestors of a context -/

/-- A fold keeps what its steps keep. -/
theorem foldl_keeps {α β γ : Type} {f : α → β → α} (g : α → γ) (keeps : ∀ a b, g (f a b) = g a)
    (l : List β) (a : α) : g (l.foldl f a) = g a := by
  induction l generalizing a with
  | nil => rfl
  | cons b l ih => rw [List.foldl_cons, ih, keeps]

namespace InheritanceContext

theorem ancestors_recordOperation (c : InheritanceContext) (op : InheritedOperation) :
    (c.recordOperation op).ancestors = c.ancestors := by
  rw [recordOperation]
  split_ifs <;> rfl

theorem ancestors_recordField (c : InheritanceContext) (owner : TypeDeclaration) (b : TypeBindings)
    (field : Field) : (c.recordField owner b field).ancestors = c.ancestors := by
  rw [recordField_eq]

theorem ancestors_recordConstructor (c : InheritanceContext) (owner : TypeDeclaration)
    (b : TypeBindings) (constructor : Constructor) :
    (c.recordConstructor owner b constructor).ancestors = c.ancestors := by
  rw [recordConstructor_eq]

end InheritanceContext

/-- The constructors that a root mirrors when it visits a declaration. -/
def TypeDeclaration.mirroredConstructors (d : TypeDeclaration) (isRootSuperclass : Bool) :
    List Constructor :=
  if isRootSuperclass && d.isClass then d.constructors.filter (·.visibility.isInheritable) else []

/-- Collecting the members of a declaration is recording them one after another. -/
theorem AncestorWalk.collect_eq (rules : WalkRules) (c : InheritanceContext) (id : DeclId)
    (d : TypeDeclaration) (isRootSuperclass : Bool) :
    collect rules c id d isRootSuperclass =
      (d.mirroredConstructors isRootSuperclass).foldl
        (fun c constructor => c.recordConstructor d rules.bindings constructor)
        ((d.fields.filter (·.visibility.isInheritable)).foldl
          (fun c field => c.recordField d rules.bindings field)
          ((d.operations.filter rules.inherits).foldl
            (fun c op => c.recordOperation (.of d id rules.bindings op))
            { c with ancestors := c.ancestors.push d.name })) := by
  rw [collect, TypeDeclaration.mirroredConstructors]
  split <;> rfl

/-- Collecting the members of a declaration adds its name to the ancestors. -/
theorem AncestorWalk.ancestors_collect (rules : WalkRules) (c : InheritanceContext) (id : DeclId)
    (d : TypeDeclaration) (isRootSuperclass : Bool) :
    (collect rules c id d isRootSuperclass).ancestors = c.ancestors.push d.name := by
  rw [collect_eq,
    foldl_keeps InheritanceContext.ancestors fun c _ =>
      InheritanceContext.ancestors_recordConstructor c ..,
    foldl_keeps InheritanceContext.ancestors fun c _ =>
      InheritanceContext.ancestors_recordField c ..,
    foldl_keeps InheritanceContext.ancestors fun c _ =>
      InheritanceContext.ancestors_recordOperation c ..]

/-- The ancestors of a context are the names of the ancestors found, in their order. -/
theorem Finding.ancestors_foldl_enter (rules : WalkRules) (fs : List Finding)
    (c : InheritanceContext) :
    (fs.foldl (enter rules) c).ancestors.toList =
      c.ancestors.toList ++ (fs.filterMap ancestor?).map (·.2.name) := by
  induction fs generalizing c with
  | nil => simp
  | cons f fs ih =>
      rw [List.foldl_cons, ih]
      cases f with
      | ancestor id d isRootSuperclass =>
          simp [enter, ancestor?, AncestorWalk.ancestors_collect]
      | unresolved e => simp [enter, InheritanceContext.note, ancestor?, List.filterMap_cons]

/-! ### What a context says about the references that were not followed -/

/-- What the walk could not follow: the references that lead nowhere, and the limit. -/
def InheritanceContext.gaps (c : InheritanceContext) :
    Array UnresolvedAncestor × Option TruncatedWalk :=
  (c.unresolved, c.truncated)

namespace InheritanceContext

theorem gaps_recordOperation (c : InheritanceContext) (op : InheritedOperation) :
    (c.recordOperation op).gaps = c.gaps := by
  rw [recordOperation]
  split_ifs <;> rfl

theorem gaps_recordField (c : InheritanceContext) (owner : TypeDeclaration) (b : TypeBindings)
    (field : Field) : (c.recordField owner b field).gaps = c.gaps := by
  rw [recordField_eq]
  rfl

theorem gaps_recordConstructor (c : InheritanceContext) (owner : TypeDeclaration)
    (b : TypeBindings) (constructor : Constructor) :
    (c.recordConstructor owner b constructor).gaps = c.gaps := by
  rw [recordConstructor_eq]
  rfl

end InheritanceContext

/-- Collecting the members of a declaration leaves the gaps alone. -/
theorem AncestorWalk.gaps_collect (rules : WalkRules) (c : InheritanceContext) (id : DeclId)
    (d : TypeDeclaration) (isRootSuperclass : Bool) :
    (collect rules c id d isRootSuperclass).gaps = c.gaps := by
  have hstart : ({ c with ancestors := c.ancestors.push d.name } : InheritanceContext).gaps =
      c.gaps := rfl
  rw [collect_eq,
    foldl_keeps InheritanceContext.gaps fun c _ =>
      InheritanceContext.gaps_recordConstructor c ..,
    foldl_keeps InheritanceContext.gaps fun c _ => InheritanceContext.gaps_recordField c ..,
    foldl_keeps InheritanceContext.gaps fun c _ => InheritanceContext.gaps_recordOperation c ..,
    hstart]

/-- The gaps of a context are the references found to lead nowhere, in their order. -/
theorem Finding.gaps_foldl_enter (rules : WalkRules) (fs : List Finding)
    (c : InheritanceContext) :
    (fs.foldl (enter rules) c).gaps =
      (c.unresolved ++ (fs.filterMap unresolved?).toArray, c.truncated) := by
  induction fs generalizing c with
  | nil => simp [InheritanceContext.gaps]
  | cons f fs ih =>
      rw [List.foldl_cons, ih]
      cases f with
      | ancestor id d isRootSuperclass =>
          have hgaps := AncestorWalk.gaps_collect rules c id d isRootSuperclass
          obtain ⟨hunresolved, htruncated⟩ := Prod.ext_iff.1 hgaps
          simp only [InheritanceContext.gaps] at hunresolved htruncated
          simp only [enter, unresolved?, List.filterMap_cons, hunresolved, htruncated]
      | unresolved e => simp [enter, InheritanceContext.note, unresolved?]

theorem Finding.truncated_foldl_enter (rules : WalkRules) (fs : List Finding)
    (c : InheritanceContext) : (fs.foldl (enter rules) c).truncated = c.truncated :=
  congrArg Prod.snd (gaps_foldl_enter rules fs c)

theorem InheritanceContext.eq_of_truncated {c : InheritanceContext} {t : Option TruncatedWalk}
    (h : c.truncated = t) : c = { c with truncated := t } := by
  rw [← h]

/-! ### The walk from a root -/

namespace DeclarationStore

variable (s : DeclarationStore) (options : ResolverOptions) (root : DeclId) (excluded : List String)

/-- Everything that decides what the walk from a root keeps. -/
def walkRules : WalkRules where
  options
  excluded
  bindings := s.typeBindings root

/-- **What the walk from a root finds**; nothing, where the root has no declaration. -/
def found : List Finding :=
  match s.get? root with
  | some d =>
      (s.findings (s.walkRules options root excluded).excludes Limits.maxAncestorEdges [root]
        (d.edges true)).1
  | none => []

/-- Whether the walk from a root is cut short by the limit. -/
def isCut : Bool :=
  match s.get? root with
  | some d =>
      (s.findings (s.walkRules options root excluded).excludes Limits.maxAncestorEdges [root]
        (d.edges true)).2
  | none => false

/-- **The ancestors that the walk from a root visits**, in their order. -/
def walked : List (DeclId × TypeDeclaration) :=
  (s.found options root excluded).filterMap Finding.ancestor?

/-- Every ancestor that is visited is the declaration that its name stands for. -/
theorem idOf?_of_mem_walked {a : DeclId × TypeDeclaration}
    (h : a ∈ s.walked options root excluded) :
    s.idOf? a.2.name = some a.1 ∧ s.get? a.1 = some a.2 := by
  obtain ⟨f, hf, hfa⟩ := List.mem_filterMap.1 h
  cases f with
  | ancestor id d isRootSuperclass =>
      cases hfa
      rw [found] at hf
      split at hf
      · exact idOf?_of_mem_findings hf
      · simp at hf
  | unresolved e => simp [Finding.ancestor?] at hfa

/-- Collecting bindings has no effect on a store. -/
theorem typeBindings_eq_pure : s.graph.typeBindings root = pure (s.typeBindings root) :=
  funext fun _ => rfl

/-- A root without a declaration inherits nothing. -/
theorem inheritance_of_get?_eq_none (h : s.get? root = none) :
    s.inheritance options root excluded = {} := by
  have hroot : s.graph.declaration? root = none := h
  simp only [inheritance, AncestorGraph.inheritance, hroot]
  rfl

/-- **The context of a root** is what is left when the findings of its walk are entered; a walk that
is cut short is marked. -/
theorem inheritance_of_get? {d : TypeDeclaration} (h : s.get? root = some d) :
    s.inheritance options root excluded =
      let rules := s.walkRules options root excluded
      let walk := s.findings rules.excludes Limits.maxAncestorEdges [root] (d.edges true)
      let c := walk.1.foldl (Finding.enter rules) {}
      if walk.2 then { c with truncated := some ⟨d.name, Limits.maxAncestorEdges⟩ } else c := by
  have hroot : s.graph.declaration? root = some d := h
  have hrun := AncestorWalk.run_eq s (s.walkRules options root excluded) Limits.maxAncestorEdges
    (AncestorWalk.start_holds s.graph.idBound root d)
  simp only [inheritance, AncestorGraph.inheritance, hroot, typeBindings_eq_pure s, pure_bind]
  rw [walkRules] at hrun
  rw [hrun, pure_bind, walkRules]
  dsimp only
  split <;> rfl

/-- **The context of a root, by what its walk finds**: the findings are entered one after another, and
a walk that is cut short is marked. -/
theorem inheritance_eq_foldl_found :
    s.inheritance options root excluded =
      { (s.found options root excluded).foldl
          (Finding.enter (s.walkRules options root excluded)) {} with
        truncated :=
          if s.isCut options root excluded then
            (s.get? root).map fun d => ⟨d.name, Limits.maxAncestorEdges⟩
          else none } := by
  cases h : s.get? root with
  | none =>
      rw [s.inheritance_of_get?_eq_none options root excluded h, found, isCut, h]
      rfl
  | some d =>
      rw [s.inheritance_of_get? options root excluded h, found, isCut, h]
      dsimp only
      split
      · rfl
      · -- entering findings marks nothing
        have hunmarked := Finding.truncated_foldl_enter (s.walkRules options root excluded)
          (s.findings (s.walkRules options root excluded).excludes Limits.maxAncestorEdges [root]
            (d.edges true)).1 {}
        exact InheritanceContext.eq_of_truncated hunmarked

/-- Whether a walk is cut short does not touch what its findings left. -/
theorem exists_inheritance_eq :
    ∃ truncated, s.inheritance options root excluded =
      { (s.found options root excluded).foldl
          (Finding.enter (s.walkRules options root excluded)) {} with truncated } :=
  ⟨_, s.inheritance_eq_foldl_found options root excluded⟩

/-- The ancestors of the context of a root are the names of those visited. -/
theorem ancestors_inheritance :
    (s.inheritance options root excluded).ancestors.toList =
      (s.walked options root excluded).map (·.2.name) := by
  obtain ⟨truncated, hc⟩ := s.exists_inheritance_eq options root excluded
  rw [hc]
  exact Finding.ancestors_foldl_enter ..

/-- What the context of a root says about the references that were not followed. -/
theorem gaps_inheritance :
    (s.inheritance options root excluded).gaps =
      (((s.found options root excluded).filterMap Finding.unresolved?).toArray,
        if s.isCut options root excluded then
          (s.get? root).map fun d => ⟨d.name, Limits.maxAncestorEdges⟩
        else none) := by
  have hunresolved := congrArg Prod.fst (Finding.gaps_foldl_enter
    (s.walkRules options root excluded) (s.found options root excluded) {})
  simp only [InheritanceContext.gaps, Array.empty_append] at hunresolved
  rw [inheritance_eq_foldl_found]
  exact Prod.ext hunresolved rfl

/-- A context is marked as cut short if and only if the walk was. -/
theorem truncated_inheritance_eq_none_iff :
    (s.inheritance options root excluded).truncated = none ↔
      s.isCut options root excluded = false := by
  have htruncated := congrArg Prod.snd (s.gaps_inheritance options root excluded)
  simp only [InheritanceContext.gaps] at htruncated
  rw [htruncated, isCut]
  cases s.get? root with
  | none => simp
  | some d => simp

end DeclarationStore

end ActionSignatures
