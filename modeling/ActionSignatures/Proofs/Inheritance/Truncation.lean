/-
**The limit of a walk.**

A graph may hand out new identifiers forever, so the walk over it counts the references that it takes
off its queue: those that it passes over, that lead nowhere, or that lead to what it has visited count
as well.  The references that a walk takes, each with the walk after it, form one sequence, of which a
smaller limit sees a shorter part.  This module proves that a context is what the references up to the
limit have left, and that it is marked exactly if there is one more to take.  Over a store this is a
matter of counting: the references of everything that can be reached from the root are all that a
walk can take.

Main definitions:

* `ActionSignatures.AncestorGraph.Finds` — what a reference of a graph leads to;
* `ActionSignatures.AncestorGraph.firstWalk`, `ActionSignatures.AncestorGraph.firstSteps` — the walk
  from a root at its beginning, and **the first references that it takes**;
* `ActionSignatures.DeclarationStore.reachable` — what can be reached from a root, the root included.

Main results:

* `ActionSignatures.AncestorWalk.take_trailFrom` — **a smaller limit sees a shorter part** of one
  sequence;
* `ActionSignatures.AncestorWalk.queue_trailEnd_eq_nil_iff` — a walk runs out of references where one
  more step changes nothing;
* `ActionSignatures.AncestorWalk.exists_entered_trailEnd` — taking references enters what they lead
  to;
* `ActionSignatures.AncestorGraph.run_inheritance` — a context is what the references up to the limit
  have left;
* `ActionSignatures.DeclarationStore.length_enqueued_le`,
  `ActionSignatures.DeclarationStore.le_length_enqueued` — the references of what can be reached;
* `ActionSignatures.AncestorGraph.records_firstSteps` — **which members** the first references leave
  in the context;
* `ActionSignatures.walk_bounded` — **the limit bounds every walk**.
-/

import ActionSignatures.Proofs.Inheritance.Extent
import ActionSignatures.Proofs.Inheritance.Members
import ActionSignatures.Proofs.Inheritance.Trail
import ActionSignatures.Proofs.Substitution.Scope
import Mathlib.Data.List.Flatten
import Mathlib.Data.List.Perm.Subperm

set_option relaxedAutoImplicit false
set_option autoImplicit false

namespace ActionSignatures

/-! ### What a reference leads to -/

/-- **What a reference of a graph leads to**, if it is not passed over: a declaration, under the
identifier that some state of the graph gives for the reference, or nothing at all. -/
inductive AncestorGraph.Finds {σ : Type} (graph : AncestorGraph σ) (excludes : String → Bool)
    (e : AncestorEdge) : Finding → Prop
  | ancestor {id : DeclId} {d : TypeDeclaration} {state state' : σ}
      (kept : e.reference.declaredName?.any excludes = false)
      (leads : (graph.resolveType? e.reference).run state = (some id, state'))
      (declared : graph.declaration? id = some d) :
      Finds graph excludes e (.ancestor id d e.isRootSuperclass)
  | unresolved {target : Option DeclId} {state state' : σ}
      (kept : e.reference.declaredName?.any excludes = false)
      (leads : (graph.resolveType? e.reference).run state = (target, state'))
      (nowhere : target.bind graph.declaration? = none) :
      Finds graph excludes e (.unresolved e)

/-! ### Trails from a state of the graph -/

namespace AncestorWalk

section

variable {σ : Type} (graph : AncestorGraph σ) (rules : WalkRules)

/-- The trail of a walk, where following references starts from a state of the graph. -/
def trailFrom (left : Nat) (w : AncestorWalk) (state : σ) : List (AncestorEdge × AncestorWalk) :=
  ((trail graph rules left w).run state).1

theorem trailFrom_zero (w : AncestorWalk) (state : σ) : trailFrom graph rules 0 w state = [] := by
  rw [trailFrom, trail_zero]
  rfl

theorem trailFrom_of_empty {w : AncestorWalk} (hq : w.queue.dequeue? = none) (left : Nat)
    (state : σ) : trailFrom graph rules left w state = [] := by
  rw [trailFrom, trail_of_empty graph rules hq]
  rfl

/-- A walk with a reference in its queue takes it, and goes on from there. -/
theorem exists_trailFrom_succ {w : AncestorWalk} {e : AncestorEdge} {rest : Queue AncestorEdge}
    (hq : w.queue.dequeue? = some (e, rest)) (state : σ) :
    ∃ w' state', (step graph rules { w with queue := rest } e).run state = (w', state') ∧
      ∀ left, trailFrom graph rules (left + 1) w state =
        (e, w') :: trailFrom graph rules left w' state' := by
  refine ⟨_, _, rfl, fun left => ?_⟩
  rw [trailFrom, trail_succ graph rules hq]
  rfl

/-- A walk takes at most as many references as it may. -/
theorem length_trailFrom_le (left : Nat) (w : AncestorWalk) (state : σ) :
    (trailFrom graph rules left w state).length ≤ left := by
  induction left generalizing w state with
  | zero => rw [trailFrom_zero, List.length_nil]
  | succ left ih =>
      cases hq : w.queue.dequeue? with
      | none =>
          rw [trailFrom_of_empty graph rules hq]
          exact Nat.zero_le _
      | some taken =>
          obtain ⟨w', state', -, htrail⟩ := exists_trailFrom_succ graph rules hq state
          rw [htrail, List.length_cons]
          exact Nat.succ_le_succ (ih w' state')

/-- **A smaller limit sees a shorter part** of the references that a walk takes, and the same walk
after each of them. -/
theorem take_trailFrom {m n : Nat} (h : m ≤ n) (w : AncestorWalk) (state : σ) :
    (trailFrom graph rules n w state).take m = trailFrom graph rules m w state := by
  induction m generalizing n w state with
  | zero => rw [List.take_zero, trailFrom_zero]
  | succ m ih =>
      obtain ⟨n, rfl⟩ : ∃ k, n = k + 1 := ⟨n - 1, by omega⟩
      cases hq : w.queue.dequeue? with
      | none =>
          rw [trailFrom_of_empty graph rules hq, trailFrom_of_empty graph rules hq, List.take_nil]
      | some taken =>
          obtain ⟨w', state', -, htrail⟩ := exists_trailFrom_succ graph rules hq state
          rw [htrail, htrail, List.take_succ_cons, ih (Nat.le_of_succ_le_succ h)]

/-- **A walk has run out of references** if and only if it takes no more of them when it may. -/
theorem queue_trailEnd_eq_nil_iff (left : Nat) (w : AncestorWalk) (state : σ) :
    (trailEnd w (trailFrom graph rules left w state)).queue.toList = [] ↔
      (trailFrom graph rules (left + 1) w state).length ≤ left := by
  induction left generalizing w state with
  | zero =>
      rw [trailFrom_zero, trailEnd, List.foldl_nil, ← Queue.dequeue?_eq_none_iff]
      cases hq : w.queue.dequeue? with
      | none => simp [trailFrom_of_empty graph rules hq]
      | some taken =>
          obtain ⟨w', state', -, htrail⟩ := exists_trailFrom_succ graph rules hq state
          simp [htrail]
  | succ left ih =>
      cases hq : w.queue.dequeue? with
      | none =>
          have hempty := Queue.dequeue?_eq_none_iff.1 hq
          simp [trailFrom_of_empty graph rules hq, trailEnd, hempty]
      | some taken =>
          obtain ⟨w', state', -, htrail⟩ := exists_trailFrom_succ graph rules hq state
          rw [htrail left, htrail (left + 1), List.length_cons, Nat.succ_le_succ_iff]
          exact ih w' state'

/-- What visiting an identifier does to the context: nothing where it has been visited before,
otherwise its declaration is entered, or that there is none. -/
theorem context_visit (declaration? : DeclId → Option TypeDeclaration) (w : AncestorWalk)
    (e : AncestorEdge) (id : DeclId) :
    (w.visit rules declaration? e id).context = w.context ∨
      (∃ d, declaration? id = some d ∧ (w.visit rules declaration? e id).context =
        Finding.enter rules w.context (.ancestor id d e.isRootSuperclass)) ∨
      declaration? id = none ∧ (w.visit rules declaration? e id).context =
        Finding.enter rules w.context (.unresolved e) := by
  rw [visit]
  dsimp only
  split
  · exact .inl rfl
  · cases declaration? id with
    | some d => exact .inr (.inl ⟨d, rfl, rfl⟩)
    | none => exact .inr (.inr ⟨rfl, rfl⟩)

/-- **A step enters at most one finding** in the context, one that its reference leads to. -/
theorem exists_entered_step (w : AncestorWalk) (e : AncestorEdge) (state : σ) :
    ∃ entered : Option Finding, (∀ f ∈ entered, graph.Finds rules.excludes e f) ∧
      ((step graph rules w e).run state).1.context =
        entered.toList.foldl (Finding.enter rules) w.context := by
  rw [step]
  split
  · exact ⟨none, by simp, rfl⟩
  · rename_i hexcluded
    have hkept : e.reference.declaredName?.any rules.excludes = false := by
      simpa using hexcluded
    rw [StateT.run_bind]
    obtain ⟨⟨target, state'⟩, hleads⟩ : ∃ r, (graph.resolveType? e.reference).run state = r :=
      ⟨_, rfl⟩
    rw [hleads]
    cases target with
    | none =>
        refine ⟨some (.unresolved e), ?_, rfl⟩
        rintro _ ⟨⟩
        exact .unresolved hkept hleads rfl
    | some id =>
        obtain hcontext | ⟨d, hd, hcontext⟩ | ⟨hd, hcontext⟩ :=
          context_visit rules graph.declaration? w e id
        · exact ⟨none, by simp, hcontext⟩
        · refine ⟨some (.ancestor id d e.isRootSuperclass), ?_, hcontext⟩
          rintro _ ⟨⟩
          exact .ancestor hkept hleads hd
        · refine ⟨some (.unresolved e), ?_, hcontext⟩
          rintro _ ⟨⟩
          exact .unresolved hkept hleads hd

/-- **Taking references enters what they lead to**, in their order. -/
theorem exists_entered_trailEnd (left : Nat) (w : AncestorWalk) (state : σ) :
    ∃ found : List Finding,
      List.SublistForall₂ (fun f e => graph.Finds rules.excludes e f) found
        ((trailFrom graph rules left w state).map (·.1)) ∧
      (trailEnd w (trailFrom graph rules left w state)).context =
        found.foldl (Finding.enter rules) w.context := by
  induction left generalizing w state with
  | zero => exact ⟨[], .nil, by rw [trailFrom_zero]; rfl⟩
  | succ left ih =>
      cases hq : w.queue.dequeue? with
      | none => exact ⟨[], .nil, by rw [trailFrom_of_empty graph rules hq]; rfl⟩
      | some taken =>
          obtain ⟨e, rest⟩ := taken
          obtain ⟨w', state', hstep, htrail⟩ := exists_trailFrom_succ graph rules hq state
          obtain ⟨entered, hentered, hcontext⟩ :=
            exists_entered_step graph rules { w with queue := rest } e state
          obtain ⟨found, hfound, hend⟩ := ih w' state'
          rw [hstep] at hcontext
          rw [htrail, List.map_cons]
          cases entered with
          | none => exact ⟨found, .cons_right hfound, hend.trans (by rw [hcontext]; rfl)⟩
          | some f =>
              exact ⟨f :: found, .cons (hentered f rfl) hfound, hend.trans (by rw [hcontext]; rfl)⟩

/-- Taking references does not mark a context, however many there are. -/
theorem truncated_trailEnd (left : Nat) (w : AncestorWalk) (state : σ) :
    (trailEnd w (trailFrom graph rules left w state)).context.truncated = w.context.truncated := by
  obtain ⟨found, -, hend⟩ := exists_entered_trailEnd graph rules left w state
  rw [hend, Finding.truncated_foldl_enter]

end

end AncestorWalk

/-! ### The walk from a root of a graph -/

/-- What comes after a computation goes on from its result and its state. -/
theorem run_bind_of_run_eq {σ α β : Type} {m : StateM σ α} {state state' : σ} {a : α}
    (h : m.run state = (a, state')) (f : α → StateM σ β) :
    (m >>= f).run state = (f a).run state' := by
  rw [StateT.run_bind, h]
  rfl

namespace AncestorGraph

variable {σ : Type} (graph : AncestorGraph σ) (options : ResolverOptions) (root : DeclId)
  (excluded : List String)

/-- The walk from a root at its beginning; from a root without a declaration there is nothing to
follow. -/
def firstWalk : AncestorWalk :=
  match graph.declaration? root with
  | some d => .start graph.idBound root d
  | none => ⟨{}, .ofLength 0, .ofList []⟩

/-- **The first references that the walk from a root takes**, at most a given number of them, in their
order, each with the walk as it is after the step. -/
def firstSteps (n : Nat) : StateM σ (List (AncestorEdge × AncestorWalk)) := do
  match graph.declaration? root with
  | some _ =>
      let bindings ← graph.typeBindings root
      AncestorWalk.trail graph { options, excluded, bindings } n (graph.firstWalk root)
  | none => return []

/-- From a root without a declaration no reference is taken. -/
theorem run_firstSteps_of_declaration?_eq_none {root : DeclId}
    (hd : graph.declaration? root = none) (state : σ) (n : Nat) :
    (graph.firstSteps options root excluded n).run state = ([], state) := by
  rw [firstSteps, hd]
  rfl

section

variable {graph root} {d : TypeDeclaration} (hd : graph.declaration? root = some d)
  {state state' : σ} {b : TypeBindings} (hb : (graph.typeBindings root).run state = (b, state'))
include hd

theorem firstWalk_of_declaration? : graph.firstWalk root = .start graph.idBound root d := by
  rw [firstWalk, hd]

include hb

/-- The walk from a root starts where its bindings have been collected. -/
theorem run_firstSteps_of_declaration? (n : Nat) :
    (graph.firstSteps options root excluded n).run state =
      (AncestorWalk.trail graph ⟨options, excluded, b⟩ n (graph.firstWalk root)).run state' := by
  rw [firstSteps, hd]
  exact run_bind_of_run_eq hb _

/-- What is left where the walk ends is the context, and it is marked where the walk is cut short. -/
theorem run_inheritance_of_declaration? {c : InheritanceContext} {isCut : Bool} {after : σ}
    (hrun : (AncestorWalk.run graph ⟨options, excluded, b⟩ Limits.maxAncestorEdges
      (graph.firstWalk root)).run state' = ((c, isCut), after)) :
    (graph.inheritance options root excluded).run state =
      (if isCut then { c with truncated := some ⟨d.name, Limits.maxAncestorEdges⟩ } else c,
        after) := by
  rw [firstWalk_of_declaration? hd] at hrun
  simp only [inheritance, hd, run_bind_of_run_eq hb, run_bind_of_run_eq hrun]
  cases isCut <;> rfl

end

/-- Everything that decides what the walk from a root keeps that starts in a state of the graph. -/
def walkRules (state : σ) : WalkRules where
  options
  excluded
  bindings := ((graph.typeBindings root).run state).1

/-- The first references that a walk takes are a trail from one state of the graph, whatever their
number. -/
theorem exists_firstSteps_eq (state : σ) :
    ∃ state', ∀ n, ((graph.firstSteps options root excluded n).run state).1 =
      AncestorWalk.trailFrom graph (graph.walkRules options root excluded state) n
        (graph.firstWalk root) state' := by
  cases hd : graph.declaration? root with
  | none =>
      refine ⟨state, fun n => ?_⟩
      have hempty : (graph.firstWalk root).queue.dequeue? = none := by
        rw [firstWalk, hd]
        rfl
      rw [AncestorWalk.trailFrom_of_empty graph _ hempty,
        graph.run_firstSteps_of_declaration?_eq_none options excluded hd]
  | some d =>
      refine ⟨((graph.typeBindings root).run state).2, fun n => ?_⟩
      rw [run_firstSteps_of_declaration? options excluded hd rfl n]
      rfl

/-- **A context is what the references up to the limit have left**, and it is marked where there is
one more to take. -/
theorem run_inheritance (state : σ) :
    (graph.inheritance options root excluded).run state =
      let steps := (graph.firstSteps options root excluded Limits.maxAncestorEdges).run state
      let w := AncestorWalk.trailEnd (graph.firstWalk root) steps.1
      ({ w.context with
          truncated :=
            if w.queue.toList = [] then none
            else (graph.declaration? root).map (⟨·.name, Limits.maxAncestorEdges⟩) },
        steps.2) := by
  cases hd : graph.declaration? root with
  | none =>
      rw [inheritance, firstSteps, firstWalk, hd]
      rfl
  | some d =>
      obtain ⟨⟨b, state'⟩, hb⟩ : ∃ r, (graph.typeBindings root).run state = r := ⟨_, rfl⟩
      obtain ⟨⟨steps, after⟩, hsteps⟩ : ∃ r, (AncestorWalk.trail graph ⟨options, excluded, b⟩
        Limits.maxAncestorEdges (graph.firstWalk root)).run state' = r := ⟨_, rfl⟩
      have hunmarked := AncestorWalk.truncated_trailEnd graph ⟨options, excluded, b⟩
        Limits.maxAncestorEdges (graph.firstWalk root) state'
      have hstart : (graph.firstWalk root).context.truncated = none := by
        rw [firstWalk_of_declaration? hd]
        rfl
      rw [AncestorWalk.trailFrom, hsteps, hstart] at hunmarked
      have hrun := congrArg (StateT.run · state') (AncestorWalk.run_eq_map_trail graph
        ⟨options, excluded, b⟩ Limits.maxAncestorEdges (graph.firstWalk root))
      rw [StateT.run_map, hsteps] at hrun
      rw [run_inheritance_of_declaration? options excluded hd hb hrun,
        run_firstSteps_of_declaration? options excluded hd hb, hsteps]
      dsimp only at hunmarked ⊢
      cases hq : (AncestorWalk.trailEnd (graph.firstWalk root) steps).queue.dequeue? with
      | none =>
          rw [if_pos (Queue.dequeue?_eq_none_iff.1 hq)]
          exact congrArg (·, after) (InheritanceContext.eq_of_truncated hunmarked)
      | some taken =>
          have hleft : (AncestorWalk.trailEnd (graph.firstWalk root) steps).queue.toList ≠ [] := by
            rw [ne_eq, ← Queue.dequeue?_eq_none_iff, hq]
            simp
          rw [if_neg hleft]
          rfl

end AncestorGraph

/-! ### Counting the references of a store -/

namespace DeclarationStore

section

variable (s : DeclarationStore) (excludes : String → Bool) (root : DeclId)

open Classical in
/-- **What can be reached from a root**, the root included: declarations on a path of references that
mentions no name which is passed over. -/
noncomputable def reachable : List DeclId :=
  s.ids.filter fun i => Relation.ReflTransGen (s.LeadsTo excludes) root i

variable {s excludes root}

theorem mem_reachable_iff {i : DeclId} :
    i ∈ s.reachable excludes root ↔
      i ∈ s.ids ∧ Relation.ReflTransGen (s.LeadsTo excludes) root i := by
  simp only [reachable, List.mem_filter, decide_eq_true_eq]

theorem nodup_reachable : (s.reachable excludes root).Nodup := by
  rw [reachable]
  exact s.nodup_ids.filter _

end

section

variable (s : DeclarationStore) (options : ResolverOptions) (root : DeclId) (excluded : List String)

/-- The references that a walk puts into its queue are those of the root and of what it visits. -/
theorem map_reference_enqueued :
    (s.enqueued options root excluded).map (·.reference) =
      (root :: (s.walked options root excluded).map (·.1)).flatMap s.references := by
  have hedges : ∀ (isRoot : Bool) (d : TypeDeclaration),
      (d.edges isRoot).map (·.reference) = d.supertypes := fun isRoot d =>
    map_reference_edges d isRoot
  rw [enqueued, List.map_append, List.map_flatMap, List.map_flatMap, List.flatMap_cons,
    List.flatMap_map]
  simp only [hedges]
  refine congrArg (_ ++ ·) (List.flatMap_congr fun a ha => ?_)
  rw [references, (s.idOf?_of_mem_walked options root excluded ha).2, Option.toList_some,
    List.flatMap_singleton]

theorem length_enqueued :
    (s.enqueued options root excluded).length =
      ((root :: (s.walked options root excluded).map (·.1)).flatMap s.references).length := by
  rw [← map_reference_enqueued, List.length_map]

/-- The root and what a walk visits are different from each other. -/
theorem nodup_root_cons_walked :
    (root :: (s.walked options root excluded).map (·.1)).Nodup := by
  refine List.nodup_cons.2 ⟨fun h => ?_, s.nodup_walked options root excluded⟩
  obtain ⟨a, ha, hroot⟩ := List.mem_map.1 h
  exact ne_root_of_mem_walked ha hroot

/-- **A walk takes no more references than there are** in what can be reached. -/
theorem length_enqueued_le :
    (s.enqueued options root excluded).length ≤
      ((s.reachable (options.excludes excluded) root).flatMap s.references).length := by
  cases hd : s.get? root with
  | none =>
      rw [enqueued, walked, found, hd]
      exact Nat.zero_le _
  | some d =>
      have hsubset : root :: (s.walked options root excluded).map (·.1) ⊆
          s.reachable (options.excludes excluded) root := by
        intro i hi
        rw [mem_reachable_iff]
        rcases List.mem_cons.1 hi with rfl | hi
        · exact ⟨mem_ids_of_get? hd, .refl⟩
        · obtain ⟨a, ha, rfl⟩ := List.mem_map.1 hi
          have hget := (s.idOf?_of_mem_walked options root excluded ha).2
          exact ⟨mem_ids_of_get? hget, (transGen_leadsTo_of_mem_walked ha).to_reflTransGen⟩
      obtain ⟨ids, hperm, hsub⟩ :=
        List.subperm_of_subset (s.nodup_root_cons_walked options root excluded) hsubset
      rw [length_enqueued, ← (hperm.flatMap_right s.references).length_eq]
      exact (hsub.flatMap s.references).length_le

/-- **A walk that is not cut short takes all of them.** -/
theorem le_length_enqueued (h : s.isCut options root excluded = false) :
    ((s.reachable (options.excludes excluded) root).flatMap s.references).length ≤
      (s.enqueued options root excluded).length := by
  have hsubset : s.reachable (options.excludes excluded) root ⊆
      root :: (s.walked options root excluded).map (·.1) := by
    intro i hi
    obtain ⟨-, hreach⟩ := mem_reachable_iff.1 hi
    by_cases hroot : i = root
    · exact List.mem_cons.2 (.inl hroot)
    · have hpath := (Relation.reflTransGen_iff_eq_or_transGen.1 hreach).resolve_left hroot
      obtain ⟨n, hn⟩ := exists_isDistance_succ_iff.2 ⟨hroot, hpath⟩
      exact List.mem_cons_of_mem root ((mem_map_fst_walked_iff h).2 ⟨n, hn⟩)
  obtain ⟨ids, hperm, hsub⟩ := List.subperm_of_subset nodup_reachable hsubset
  rw [length_enqueued, ← (hperm.flatMap_right s.references).length_eq]
  exact (hsub.flatMap s.references).length_le

/-- **A context is not marked** if and only if the references of what can be reached are within the
limit. -/
theorem truncated_eq_none_iff_length_le :
    (s.inheritance options root excluded).truncated = none ↔
      ((s.reachable (options.excludes excluded) root).flatMap s.references).length ≤
        Limits.maxAncestorEdges := by
  rw [truncated_inheritance_eq_none_iff]
  constructor
  · intro h
    exact (s.le_length_enqueued options root excluded h).trans
      ((s.isCut_eq_false_iff options root excluded).1 h)
  · intro h
    exact (s.isCut_eq_false_iff options root excluded).2
      ((s.length_enqueued_le options root excluded).trans h)

end

end DeclarationStore

/-! ### The limit -/

/-- **Which members the first references leave in the context** of a walk: those of the declarations
that the references lead to, one after another, under the options of the walk and the bindings that
the graph gives for the root. -/
theorem AncestorGraph.records_firstSteps {σ : Type} (graph : AncestorGraph σ)
    (options : ResolverOptions) (root : DeclId) (excluded : List String) (state : σ) (n : Nat) :
    let steps := ((graph.firstSteps options root excluded n).run state).1
    ∃ found : List Finding,
      List.SublistForall₂ (fun f e => graph.Finds (options.excludes excluded) e f) found
        (steps.map (·.1)) ∧
      (AncestorWalk.trailEnd (graph.firstWalk root) steps).context.Records options
        ((graph.typeBindings root).run state).1 found := by
  intro steps
  obtain ⟨state', htrail⟩ := graph.exists_firstSteps_eq options root excluded state
  obtain ⟨found, hfound, hend⟩ := AncestorWalk.exists_entered_trailEnd graph
    (graph.walkRules options root excluded state) n (graph.firstWalk root) state'
  have hstart : (graph.firstWalk root).context = {} := by
    rw [firstWalk]
    cases graph.declaration? root <;> rfl
  rw [← htrail] at hfound hend
  rw [hstart] at hend
  refine ⟨found, hfound, ?_⟩
  rw [hend]
  exact Finding.records_foldl_enter (graph.walkRules options root excluded state) found

/-- **The limit bounds every walk.**  For every graph, finite or not, the references that a walk may
take form one sequence, and a walk that is limited to a number of them takes the first ones.  The
context of a root is what the walk limited to 100000 references has left, and the graph is in the state
that it has left.  Either there is one more reference to take, and the context is marked with the name
of the root and the limit, or the queue is empty and the context is not marked.  Over a store it is not
marked if and only if the super-type references of the root and of all that can be reached from it,
each counted as often as it occurs, are at most 100000. -/
theorem walk_bounded :
    (∀ {σ : Type} (graph : AncestorGraph σ) (options : ResolverOptions) (root : DeclId)
      (excluded : List String) (state : σ),
      let limit := Limits.maxAncestorEdges
      let run n := (graph.firstSteps options root excluded n).run state
      let steps n := (run n).1
      let after n := AncestorWalk.trailEnd (graph.firstWalk root) (steps n)
      let r := (graph.inheritance options root excluded).run state
      (∀ n, (steps n).length ≤ n) ∧
      (∀ m n, m ≤ n → steps m = (steps n).take m) ∧
      r.2 = (run limit).2 ∧
      r.1 = { (after limit).context with truncated := r.1.truncated } ∧
      ((steps (limit + 1)).length = limit + 1 ∧
          (∃ d, graph.declaration? root = some d ∧ r.1.truncated = some ⟨d.name, limit⟩) ∨
        (steps (limit + 1)).length ≤ limit ∧ (after limit).queue.toList = [] ∧
          r.1.truncated = none)) ∧
    Limits.maxAncestorEdges = 100000 ∧
    ∀ (s : DeclarationStore) (options : ResolverOptions) (root : DeclId) (excluded : List String),
      (s.inheritance options root excluded).truncated = none ↔
        ((s.reachable (options.excludes excluded) root).flatMap s.references).length ≤
          Limits.maxAncestorEdges := by
  refine ⟨?_, rfl, DeclarationStore.truncated_eq_none_iff_length_le⟩
  intro σ graph options root excluded state limit run steps after r
  obtain ⟨state', htrail⟩ := graph.exists_firstSteps_eq options root excluded state
  have hsteps : ∀ n, steps n = AncestorWalk.trailFrom graph
      (graph.walkRules options root excluded state) n (graph.firstWalk root) state' := htrail
  have hr : r = ({ (after limit).context with
      truncated :=
        if (after limit).queue.toList = [] then none
        else (graph.declaration? root).map (⟨·.name, limit⟩) }, (run limit).2) :=
    graph.run_inheritance options root excluded state
  have hempty : (after limit).queue.toList = [] ↔ (steps (limit + 1)).length ≤ limit := by
    simp only [after, hsteps]
    exact AncestorWalk.queue_trailEnd_eq_nil_iff graph _ limit (graph.firstWalk root) state'
  have hbound : ∀ n, (steps n).length ≤ n := by
    intro n
    rw [hsteps]
    exact AncestorWalk.length_trailFrom_le graph _ n (graph.firstWalk root) state'
  have htruncated := congrArg (fun r => r.1.truncated) hr
  refine ⟨hbound, ?_, ?_, ?_, ?_⟩
  · intro m n hmn
    rw [hsteps, hsteps, AncestorWalk.take_trailFrom graph _ hmn]
  · rw [hr]
  · rw [hr]
  · by_cases hmore : (steps (limit + 1)).length ≤ limit
    · refine .inr ⟨hmore, hempty.2 hmore, ?_⟩
      exact htruncated.trans (if_pos (hempty.2 hmore))
    · have hlength := hbound (limit + 1)
      refine .inl ⟨by omega, ?_⟩
      have hmarked := htruncated.trans (if_neg (mt hempty.1 hmore))
      cases hd : graph.declaration? root with
      | none =>
          have hnone := graph.run_firstSteps_of_declaration?_eq_none options excluded hd state
          refine absurd ?_ hmore
          simp only [steps, run, hnone]
          exact Nat.zero_le _
      | some d =>
          rw [hd] at hmarked
          exact ⟨d, rfl, hmarked⟩

end ActionSignatures
