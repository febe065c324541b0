/-
**The trail of a walk.**

Two walks go up from a root, and each keeps books of its own.  The walk for the members has
references in its queue and marks a declaration when it takes a reference to it off the queue.  The
walk for the bindings has identifiers in its queue and binds type parameters when it puts an
identifier there.  This module records what the first walk takes off its queue, and proves that the
bindings that the second one asks for begin with those of the references on the record, in their
order.  So where a declaration is extended several times, with different arguments, both choose the
same extension point.

Main definitions:

* `ActionSignatures.AncestorWalk.trail` — **the references that a walk takes**, with what they lead
  to;
* `ActionSignatures.AncestorWalk.Takes` — what taking one reference does over a store;
* `ActionSignatures.DeclarationStore.trail` — the trail of the walk from a root.

Main results:

* `ActionSignatures.AncestorWalk.run_eq_map_trail` — a walk ends where its trail does;
* `ActionSignatures.AncestorWalk.Holds.exists_takes` — one step of a trail;
* `ActionSignatures.AncestorWalk.Holds.find?_trailIn` — an ancestor is visited through the first
  reference to its name;
* `ActionSignatures.DeclarationStore.isPrefix_flatMap_trail` — **the bindings asked for begin with
  those of the trail**;
* `ActionSignatures.DeclarationStore.bindings_at_visiting_reference` — **an ancestor's type
  parameters are bound at the reference through which it is visited**.
-/

import ActionSignatures.Proofs.Inheritance.Levels
import ActionSignatures.Proofs.Substitution.ExtensionPoint

set_option relaxedAutoImplicit false
set_option autoImplicit false

namespace ActionSignatures

/-! ### References in a queue -/

namespace DeclarationStore

variable {s : DeclarationStore}

/-- The references of a declaration ask for the bindings of the declaration. -/
theorem flatMap_pointBindings_edges {i : DeclId} {d : TypeDeclaration} (h : s.get? i = some d)
    (isRoot : Bool) :
    (d.edges isRoot).flatMap (fun e => s.pointBindings e.reference) = s.bindingsOf i := by
  rw [bindingsOf_of_get? h, ← map_reference_edges d isRoot, List.flatMap_map]

end DeclarationStore

/-! ### Trails -/

namespace AncestorWalk

section

variable {σ : Type} (graph : AncestorGraph σ) (rules : WalkRules)

/-- **The trail of a walk**: the references that it takes off its queue, in their order, each with
the walk as it is after the step. -/
def trail : Nat → AncestorWalk → StateM σ (List (AncestorEdge × AncestorWalk))
  | left, w =>
      match w.queue.dequeue?, left with
      | none, _ => pure []
      | some _, 0 => pure []
      | some (e, rest), left + 1 => do
          let w ← step graph rules { w with queue := rest } e
          let later ← trail left w
          return (e, w) :: later

theorem trail_of_empty {w : AncestorWalk} (hq : w.queue.dequeue? = none) (left : Nat) :
    trail graph rules left w = pure [] := by
  unfold trail
  rw [hq]

theorem trail_zero (w : AncestorWalk) : trail graph rules 0 w = pure [] := by
  unfold trail
  cases w.queue.dequeue? with
  | none => rfl
  | some taken => rfl

theorem trail_succ {w : AncestorWalk} {e : AncestorEdge} {rest : Queue AncestorEdge}
    (hq : w.queue.dequeue? = some (e, rest)) (left : Nat) :
    trail graph rules (left + 1) w = do
      let w' ← step graph rules { w with queue := rest } e
      let later ← trail graph rules left w'
      return (e, w') :: later := by
  conv_lhs => unfold trail
  rw [hq]

/-- The walk at the end of a trail. -/
def trailEnd (w : AncestorWalk) (steps : List (AncestorEdge × AncestorWalk)) : AncestorWalk :=
  steps.foldl (fun _ taken => taken.2) w

/-- The end of a trail is the walk after one of its steps, unless there are none. -/
theorem trailEnd_eq_or_mem (w : AncestorWalk) (steps : List (AncestorEdge × AncestorWalk)) :
    trailEnd w steps = w ∨ ∃ taken ∈ steps, taken.2 = trailEnd w steps := by
  induction steps using List.reverseRecOn with
  | nil => exact .inl rfl
  | append_singleton steps taken _ =>
      refine .inr ⟨taken, List.mem_append_right steps (List.mem_singleton_self taken), ?_⟩
      rw [trailEnd, List.foldl_append]
      rfl

/-- **A walk ends where its trail does**, and is cut short if references are left in its queue. -/
theorem run_eq_map_trail (left : Nat) (w : AncestorWalk) :
    run graph rules left w =
      (fun steps => ((trailEnd w steps).context, (trailEnd w steps).queue.dequeue?.isSome)) <$>
        trail graph rules left w := by
  induction left generalizing w with
  | zero =>
      rw [trail_zero, map_pure]
      unfold run
      cases hq : w.queue.dequeue? with
      | none => simp [trailEnd, hq]
      | some taken => simp [trailEnd, hq]
  | succ left ih =>
      cases hq : w.queue.dequeue? with
      | none =>
          rw [trail_of_empty graph rules hq, map_pure]
          unfold run
          simp [trailEnd, hq]
      | some taken =>
          rw [trail_succ graph rules hq]
          unfold run
          simp only [hq, map_bind, map_pure]
          refine bind_congr fun w' => ?_
          rw [ih w', map_eq_pure_bind]
          rfl

end

/-! ### Trails over a store -/

variable {s : DeclarationStore} {rules : WalkRules}

/-- The trail of a walk over a store. -/
def trailIn (s : DeclarationStore) (rules : WalkRules) (left : Nat) (w : AncestorWalk) :
    List (AncestorEdge × AncestorWalk) :=
  ((trail s.graph rules left w).run ()).1

@[simp] theorem trailIn_zero (w : AncestorWalk) : trailIn s rules 0 w = [] := by
  rw [trailIn, trail_zero]
  rfl

theorem Holds.trailIn_nil {w : AncestorWalk} {visited : List DeclId} (h : w.Holds visited [])
    (left : Nat) : trailIn s rules left w = [] := by
  rw [trailIn, trail_of_empty s.graph rules (Queue.dequeue?_eq_none_iff.2 h.queue)]
  rfl

/-- A walk with references to follow takes the first one of them. -/
theorem Holds.exists_dequeue? {w : AncestorWalk} {visited : List DeclId} {e : AncestorEdge}
    {edges : List AncestorEdge} (h : w.Holds visited (e :: edges)) :
    ∃ rest, w.queue.dequeue? = some (e, rest) ∧
      ({ w with queue := rest } : AncestorWalk).Holds visited edges := by
  cases hq : w.queue.dequeue? with
  | none =>
      have hnil := h.eq_nil_of_dequeue? hq
      cases hnil
  | some taken =>
      obtain ⟨e', rest⟩ := taken
      have hcons := h.eq_cons_of_dequeue? hq
      obtain ⟨rfl, rfl⟩ := List.cons.inj hcons
      exact ⟨rest, rfl, rfl, h.visited⟩

theorem trailIn_succ {left : Nat} {w w' : AncestorWalk} {e : AncestorEdge}
    {rest : Queue AncestorEdge} (hq : w.queue.dequeue? = some (e, rest))
    (hstep : step s.graph rules { w with queue := rest } e = pure w') :
    trailIn s rules (left + 1) w = (e, w') :: trailIn s rules left w' := by
  rw [trailIn, trail_succ s.graph rules hq, hstep, pure_bind]
  rfl

/-- **What taking one reference does** to a walk that has some identifiers visited and some
references left to follow, and passes over nothing. -/
inductive Takes (s : DeclarationStore) (w : AncestorWalk) (visited : List DeclId) (e : AncestorEdge)
    (edges : List AncestorEdge) (w' : AncestorWalk) : Prop
  | unresolved (target : s.ancestor? e.reference = none) (holds : w'.Holds visited edges)
      (ancestors : w'.context.ancestors = w.context.ancestors)
  | again (id : DeclId) (d : TypeDeclaration) (target : s.ancestor? e.reference = some (id, d))
      (old : id ∈ visited) (holds : w'.Holds visited edges)
      (ancestors : w'.context.ancestors = w.context.ancestors)
  | first (id : DeclId) (d : TypeDeclaration) (target : s.ancestor? e.reference = some (id, d))
      (new : id ∉ visited) (holds : w'.Holds (id :: visited) (edges ++ d.edges false))
      (ancestors : w'.context.ancestors = w.context.ancestors.push d.name)

/-- **One step of a trail**: the next reference is taken, and the trail goes on from there. -/
theorem Holds.exists_takes (hopen : ∀ name, rules.excludes name = false) {w : AncestorWalk}
    {visited : List DeclId} {e : AncestorEdge} {edges : List AncestorEdge}
    (h : w.Holds visited (e :: edges)) (left : Nat) :
    ∃ w', Takes s w visited e edges w' ∧
      trailIn s rules (left + 1) w = (e, w') :: trailIn s rules left w' := by
  obtain ⟨rest, hq, hrest⟩ := h.exists_dequeue?
  have hx : ¬e.reference.declaredName?.any rules.excludes = true := by
    cases e.reference.declaredName? with
    | none => simp
    | some name => simp [hopen name]
  cases hn : s.ancestor? e.reference with
  | none =>
      have htrail : trailIn s rules (left + 1) w = (e, _) :: trailIn s rules left _ :=
        trailIn_succ hq (step_of_unresolved hx hn _)
      exact ⟨note { w with queue := rest } e,
        .unresolved hn ⟨hrest.queue, hrest.visited⟩ rfl, htrail⟩
  | some target =>
      obtain ⟨id, d⟩ := target
      have htrail : trailIn s rules (left + 1) w = (e, _) :: trailIn s rules left _ :=
        trailIn_succ hq (step_of_ancestor hx hn _)
      by_cases hv : id ∈ visited
      · obtain ⟨hholds, hcontext⟩ := hrest.visit_of_mem s rules hv e
        exact ⟨_, .again id d hn hv hholds (by rw [hcontext]), htrail⟩
      · have hd := (DeclarationStore.ancestor?_eq_some_iff.1 hn).2
        obtain ⟨hholds, hcontext⟩ := hrest.visit_of_notMem rules hd hv e
        refine ⟨_, .first id d hn hv hholds ?_, htrail⟩
        rw [hcontext]
        exact ancestors_collect rules _ id d e.isRootSuperclass

/-- At the end of a trail all findings of the walk have been entered. -/
theorem Holds.context_trailEnd {w : AncestorWalk} {visited : List DeclId}
    {edges : List AncestorEdge} (h : w.Holds visited edges) (s : DeclarationStore)
    (rules : WalkRules) (left : Nat) :
    (trailEnd w (trailIn s rules left w)).context =
      (s.findings rules.excludes left visited edges).1.foldl (Finding.enter rules) w.context := by
  have hrun := run_eq_map_trail s.graph rules left w
  rw [run_eq s rules left h] at hrun
  exact (congrArg (fun m => (m.run ()).1.1) hrun).symm

/-! ### What a trail shows -/

/-- What holds of all references in the queue and of all super-type references of the declarations
holds of every reference that is taken. -/
theorem Holds.forall_mem_trailIn {motive : TypeRef → Prop}
    (hdeclared : ∀ i d, s.get? i = some d → ∀ t ∈ d.supertypes, motive t)
    (hopen : ∀ name, rules.excludes name = false) (left : Nat) {w : AncestorWalk}
    {visited : List DeclId} {edges : List AncestorEdge} (h : w.Holds visited edges)
    (hedges : ∀ e ∈ edges, motive e.reference) :
    ∀ taken ∈ trailIn s rules left w, motive taken.1.reference := by
  induction left generalizing w visited edges with
  | zero => simp
  | succ left ih =>
      cases edges with
      | nil => simp [h.trailIn_nil]
      | cons e edges =>
          obtain ⟨w', htakes, htrail⟩ := h.exists_takes (s := s) hopen left
          rw [htrail, List.forall_mem_cons]
          obtain ⟨he, hlater⟩ := List.forall_mem_cons.1 hedges
          refine ⟨he, ?_⟩
          cases htakes with
          | unresolved _ holds _ => exact ih holds hlater
          | again _ _ _ _ holds _ => exact ih holds hlater
          | first id d target _ holds _ =>
              refine ih holds fun f hf => ?_
              rcases List.mem_append.1 hf with hf | hf
              · exact hlater f hf
              · have hd := (DeclarationStore.ancestor?_eq_some_iff.1 target).2
                refine hdeclared id d hd f.reference ?_
                rw [← DeclarationStore.map_reference_edges d false]
                exact List.mem_map_of_mem hf

/-- **An ancestor is visited through the first reference to its name** that is taken: where it is
not visited yet, the first reference after which it is among the ancestors is the first one that
mentions it. -/
theorem Holds.find?_trailIn (hopen : ∀ name, rules.excludes name = false) {name : String}
    {id : DeclId} (hid : s.idOf? name = some id) (left : Nat) {w : AncestorWalk}
    {visited : List DeclId} {edges : List AncestorEdge} (h : w.Holds visited edges)
    (hnew : id ∉ visited) (hancestors : name ∉ w.context.ancestors) :
    (trailIn s rules left w).find? (fun taken => name ∈ taken.2.context.ancestors) =
      (trailIn s rules left w).find?
        (fun taken => taken.1.reference.declaredName? = some name) := by
  induction left generalizing w visited edges with
  | zero => simp
  | succ left ih =>
      cases edges with
      | nil => simp [h.trailIn_nil]
      | cons e edges =>
          obtain ⟨w', htakes, htrail⟩ := h.exists_takes (s := s) hopen left
          rw [htrail]
          -- a reference that is not to the name is passed by on both sides
          have hskip (hother : e.reference.declaredName? ≠ some name)
              (hstill : name ∉ w'.context.ancestors) :
              (trailIn s rules left w').find? (fun taken => name ∈ taken.2.context.ancestors) =
                (trailIn s rules left w').find?
                  (fun taken => taken.1.reference.declaredName? = some name) →
              ((e, w') :: trailIn s rules left w').find?
                  (fun taken => name ∈ taken.2.context.ancestors) =
                ((e, w') :: trailIn s rules left w').find?
                  (fun taken => taken.1.reference.declaredName? = some name) := by
            intro hlater
            rw [List.find?_cons_of_neg (by simpa using hstill),
              List.find?_cons_of_neg (by simpa using hother), hlater]
          cases htakes with
          | unresolved target holds ancestors =>
              rw [← ancestors] at hancestors
              refine hskip (fun hname => ?_) hancestors (ih holds hnew hancestors)
              have hnone := DeclarationStore.ancestor?_eq_none_iff.1 target
              rw [DeclarationStore.resolveType?, hname, Option.bind_some, hid] at hnone
              cases hnone
          | again i d target old holds ancestors =>
              rw [← ancestors] at hancestors
              refine hskip (fun hname => ?_) hancestors (ih holds hnew hancestors)
              obtain ⟨hmentioned, hi⟩ := DeclarationStore.declaredName?_of_ancestor? target
              obtain rfl : d.name = name := Option.some.inj (hmentioned.symm.trans hname)
              exact hnew (Option.some.inj (hid.symm.trans hi) ▸ old)
          | first i d target new holds ancestors =>
              obtain ⟨hmentioned, hi⟩ := DeclarationStore.declaredName?_of_ancestor? target
              by_cases hname : d.name = name
              · rw [List.find?_cons_of_pos (by simp [ancestors, hname]),
                  List.find?_cons_of_pos (by simp [hmentioned, hname])]
              · have hstill : name ∉ w'.context.ancestors := by
                  rw [ancestors, Array.mem_push, not_or]
                  exact ⟨hancestors, Ne.symm hname⟩
                refine hskip (by simpa [hmentioned] using hname) hstill (ih holds ?_ hstill)
                rw [List.mem_cons, not_or]
                refine ⟨fun hsame => hname ?_, hnew⟩
                obtain ⟨c, hc, rfl⟩ := DeclarationStore.get?_of_idOf? hid
                have hd := (DeclarationStore.ancestor?_eq_some_iff.1 target).2
                rw [← hsame, hc] at hd
                rw [Option.some.inj hd]

/-- **The bindings asked for begin with those of the trail.**  When a reference is taken, the
bindings of the references in the queue have been asked for already, and the walk for the bindings
has the targets of these in its queue. -/
theorem Holds.isPrefix_flatMap_trailIn (hopen : ∀ name, rules.excludes name = false)
    (hobject : s.idOf? WellKnown.object = none) {left limit : Nat} (hlimit : left ≤ limit + 1)
    {w : AncestorWalk} {visited : List DeclId} {edges : List AncestorEdge}
    (h : w.Holds visited edges) :
    (trailIn s rules left w).flatMap (fun taken => s.pointBindings taken.1.reference) <+:
      edges.flatMap (fun e => s.pointBindings e.reference) ++
        (s.expansions limit visited (s.edgeTargets WellKnown.isObject edges)).flatMap
          s.bindingsOf := by
  -- a reference that leads nowhere counts for the first walk only, so that the second one never
  -- runs out of room before it
  induction left generalizing limit w visited edges with
  | zero => simp
  | succ left ih =>
      cases edges with
      | nil => simp [h.trailIn_nil]
      | cons e edges =>
          obtain ⟨w', htakes, htrail⟩ := h.exists_takes (s := s) hopen left
          rw [htrail, List.flatMap_cons, List.flatMap_cons, List.append_assoc,
            List.prefix_append_right_inj]
          have hlead := DeclarationStore.target?_isObject hobject e.reference
          cases htakes with
          | unresolved target holds _ =>
              rw [target, Option.map_none] at hlead
              rw [DeclarationStore.edgeTargets_cons_of_eq_none hlead]
              exact ih (by omega) holds
          | again id d target old holds _ =>
              rw [target, Option.map_some] at hlead
              rw [DeclarationStore.edgeTargets_cons_of_eq_some hlead]
              cases limit with
              | zero =>
                  obtain rfl : left = 0 := by omega
                  simp
              | succ limit =>
                  rw [DeclarationStore.expansions, if_pos old]
                  exact ih (by omega) holds
          | first id d target new holds _ =>
              rw [target, Option.map_some] at hlead
              rw [DeclarationStore.edgeTargets_cons_of_eq_some hlead]
              cases limit with
              | zero =>
                  obtain rfl : left = 0 := by omega
                  simp
              | succ limit =>
                  have hd := (DeclarationStore.ancestor?_eq_some_iff.1 target).2
                  have hlater := ih (Nat.le_of_succ_le_succ hlimit) holds
                  rw [List.flatMap_append, DeclarationStore.edgeTargets_append,
                    DeclarationStore.edgeTargets_edges hd, List.append_assoc,
                    DeclarationStore.flatMap_pointBindings_edges hd] at hlater
                  rw [DeclarationStore.expansions, if_neg new, List.flatMap_cons]
                  exact hlater

end AncestorWalk

/-! ### The trail from a root -/

namespace DeclarationStore

variable (s : DeclarationStore) (options : ResolverOptions) (root : DeclId) (excluded : List String)

/-- **The trail of the walk from a root**: the references that it takes off its queue, in their
order, each with the walk as it is after the step. -/
def trail : List (AncestorEdge × AncestorWalk) :=
  match s.get? root with
  | some d =>
      AncestorWalk.trailIn s (s.walkRules options root excluded) Limits.maxAncestorEdges
        (.start s.graph.idBound root d)
  | none => []

variable {s options root excluded}

theorem trail_of_get? {d : TypeDeclaration} (h : s.get? root = some d) :
    s.trail options root excluded =
      AncestorWalk.trailIn s (s.walkRules options root excluded) Limits.maxAncestorEdges
        (.start s.graph.idBound root d) := by
  rw [trail, h]

theorem trail_of_get?_eq_none (h : s.get? root = none) : s.trail options root excluded = [] := by
  rw [trail, h]

/-- Every ancestor of a context is among the ancestors after some step of the trail. -/
theorem exists_mem_trail_of_mem_ancestors {name : String}
    (h : name ∈ (s.inheritance options root excluded).ancestors) :
    ∃ taken ∈ s.trail options root excluded, name ∈ taken.2.context.ancestors := by
  obtain ⟨truncated, hcontext⟩ := s.exists_inheritance_eq options root excluded
  rw [hcontext, found] at h
  cases hd : s.get? root with
  | none => simp [hd] at h
  | some d =>
      rw [trail_of_get? hd]
      rw [hd] at h
      have hend := (AncestorWalk.start_holds s.graph.idBound root d).context_trailEnd s
        (s.walkRules options root excluded) Limits.maxAncestorEdges
      have hmem : name ∈ (AncestorWalk.trailEnd (.start s.graph.idBound root d)
          (AncestorWalk.trailIn s (s.walkRules options root excluded) Limits.maxAncestorEdges
            (.start s.graph.idBound root d))).context.ancestors := by
        rw [hend]
        exact h
      rcases AncestorWalk.trailEnd_eq_or_mem (.start s.graph.idBound root d)
        (AncestorWalk.trailIn s (s.walkRules options root excluded) Limits.maxAncestorEdges
          (.start s.graph.idBound root d)) with hstart | ⟨taken, htaken, hlast⟩
      · rw [hstart] at hmem
        exact absurd hmem (Array.not_mem_empty name)
      · rw [← hlast] at hmem
        exact ⟨taken, htaken, hmem⟩

/-- **The bindings asked for begin with those of the trail**, where nothing is passed over. -/
theorem isPrefix_flatMap_trail (hopen : ∀ name, options.excludes excluded name = false)
    (hobject : s.idOf? WellKnown.object = none) :
    (s.trail options root excluded).flatMap (fun taken => s.pointBindings taken.1.reference) <+:
      s.requestedBindings root := by
  cases hd : s.get? root with
  | none =>
      rw [trail_of_get?_eq_none hd]
      exact List.nil_prefix
  | some d =>
      -- expanding the root takes one identifier off the queue, and asks for what its references say
      have hexpansions : s.expansions Limits.maxAncestorEdges [] [root] =
          root :: s.expansions (Limits.maxAncestorEdges - 1) [root]
            (s.targets WellKnown.isObject root) := rfl
      have hrules : ∀ name, (s.walkRules options root excluded).excludes name = false := hopen
      rw [trail_of_get? hd, requestedBindings, hexpansions, List.flatMap_cons,
        ← flatMap_pointBindings_edges hd true, ← edgeTargets_edges hd true]
      have hstart := AncestorWalk.start_holds s.graph.idBound root d
      exact hstart.isPrefix_flatMap_trailIn hrules hobject (by decide)

/-- **An ancestor is visited through the first reference to its name** that the walk from the root
takes. -/
theorem exists_visiting_reference (hopen : ∀ name, options.excludes excluded name = false)
    {name : String} (h : name ∈ (s.inheritance options root excluded).ancestors) :
    ∃ taken,
      (s.trail options root excluded).find? (fun taken => name ∈ taken.2.context.ancestors) =
        some taken ∧
      (s.trail options root excluded).find?
          (fun taken => taken.1.reference.declaredName? = some name) = some taken := by
  obtain ⟨last, hlast, hmem⟩ := exists_mem_trail_of_mem_ancestors h
  obtain ⟨taken, htaken⟩ := Option.isSome_iff_exists.1 (List.find?_isSome
    (p := fun taken : AncestorEdge × AncestorWalk => decide (name ∈ taken.2.context.ancestors)) |>.2
    ⟨last, hlast, decide_eq_true hmem⟩)
  refine ⟨taken, htaken, ?_⟩
  rw [← htaken]
  cases hd : s.get? root with
  | none =>
      rw [trail_of_get?_eq_none hd] at hlast
      exact absurd hlast List.not_mem_nil
  | some d =>
      rw [← Array.mem_toList_iff, ancestors_inheritance, List.mem_map] at h
      obtain ⟨a, ha, rfl⟩ := h
      have hid := (s.idOf?_of_mem_walked options root excluded ha).1
      have hrules : ∀ name, (s.walkRules options root excluded).excludes name = false := hopen
      rw [trail_of_get? hd]
      refine ((AncestorWalk.start_holds s.graph.idBound root d).find?_trailIn hrules hid _ ?_
        (Array.not_mem_empty _)).symm
      rw [List.mem_singleton]
      exact ne_root_of_mem_walked ha

/-- Every reference that the walk takes is a super-type reference of some declaration. -/
theorem forall_mem_trail {motive : TypeRef → Prop}
    (hopen : ∀ name, options.excludes excluded name = false)
    (hdeclared : ∀ d ∈ s.declarations, ∀ t ∈ d.supertypes, motive t) :
    ∀ taken ∈ s.trail options root excluded, motive taken.1.reference := by
  have hstored : ∀ i d, s.get? i = some d → ∀ t ∈ d.supertypes, motive t :=
    fun i d hd => hdeclared d (mem_declarations_of_get? hd)
  cases hd : s.get? root with
  | none => simp [trail_of_get?_eq_none hd]
  | some d =>
      have hrules : ∀ name, (s.walkRules options root excluded).excludes name = false := hopen
      rw [trail_of_get? hd]
      refine (AncestorWalk.start_holds s.graph.idBound root d).forall_mem_trailIn hstored hrules _
        fun e he => hstored root d hd e.reference ?_
      rw [← map_reference_edges d true]
      exact List.mem_map_of_mem he

/-- What the bindings of a root say about a type parameter of an ancestor is what the first
reference to the ancestor on the trail says. -/
theorem get?_typeBindings_of_find?_trail (hopen : ∀ name, options.excludes excluded name = false)
    (hobject : s.idOf? WellKnown.object = none) {taken : AncestorEdge × AncestorWalk} {i : DeclId}
    {d : TypeDeclaration} (htarget : s.ancestor? taken.1.reference = some (i, d))
    (hfind : (s.trail options root excluded).find?
      (fun taken => taken.1.reference.declaredName? = some d.name) = some taken)
    (hlength : taken.1.reference.arguments.length = d.typeParams.length) {k : TypeParamKey}
    (hk : k ∈ d.paramKeys) :
    (s.typeBindings root).get? k = (d.paramKeys.zip taken.1.reference.arguments).lookup k := by
  obtain ⟨_, before, after, htrail, hbefore⟩ := List.find?_eq_some_iff_append.1 hfind
  obtain ⟨later, hrequested⟩ : (s.trail options root excluded).flatMap _ <+:
      s.requestedBindings root := isPrefix_flatMap_trail hopen hobject
  -- references before the first one to the ancestor bind other type parameters
  have hskip : (before.flatMap fun taken => s.pointBindings taken.1.reference).lookup k = none := by
    refine lookup_flatMap_of_ne fun x hx => lookup_pointBindings_of_ne ?_
    rw [TypeDeclaration.owner_of_mem_paramKeys hk]
    simpa using hbefore x hx
  have hlead := target?_isObject hobject taken.1.reference
  rw [htarget, Option.map_some] at hlead
  have hpoint := pointBindings_of_target? hlead (ancestor?_eq_some_iff.1 htarget).2
  rw [TypeDeclaration.argumentBindings_eq] at hpoint
  obtain ⟨u, hu⟩ := TypeDeclaration.exists_lookup_zip_paramKeys hlength hk
  rw [get?_typeBindings, ← hrequested, htrail, List.flatMap_append, List.flatMap_cons, hpoint,
    List.lookup_append, List.lookup_append, List.lookup_append, hskip, hu, Option.none_or,
    Option.some_or, Option.some_or]

/-- Where every extension point supplies its arguments, so does the reference through which an
ancestor is visited. -/
theorem exists_visiting_reference_of_mem_walked
    (hopen : ∀ name, options.excludes excluded name = false) (hsupplies : s.SuppliesArguments)
    {i : DeclId} {d : TypeDeclaration} (ha : (i, d) ∈ s.walked options root excluded) :
    ∃ taken,
      (s.trail options root excluded).find? (fun taken => d.name ∈ taken.2.context.ancestors) =
        some taken ∧
      (s.trail options root excluded).find?
          (fun taken => taken.1.reference.declaredName? = some d.name) = some taken ∧
      s.ancestor? taken.1.reference = some (i, d) ∧
      taken.1.reference.arguments.length = d.typeParams.length := by
  have hname : d.name ∈ (s.inheritance options root excluded).ancestors := by
    rw [← Array.mem_toList_iff, ancestors_inheritance]
    exact List.mem_map_of_mem ha
  obtain ⟨taken, hvisit, hfind⟩ := exists_visiting_reference hopen hname
  have hmentioned : taken.1.reference.declaredName? = some d.name := by
    simpa using List.find?_some hfind
  obtain ⟨hid, hd⟩ := s.idOf?_of_mem_walked options root excluded ha
  have htarget : s.ancestor? taken.1.reference = some (i, d) := by
    rw [ancestor?_eq_some_iff, resolveType?, hmentioned]
    exact ⟨hid, hd⟩
  have hlengths : ∀ taken ∈ s.trail options root excluded, ∀ a ∈ s.ancestor? taken.1.reference,
      taken.1.reference.arguments.length = a.2.typeParams.length :=
    forall_mem_trail hopen hsupplies
  exact ⟨taken, hvisit, hfind, htarget,
    hlengths taken (List.mem_of_find?_eq_some hfind) (i, d) htarget⟩

/-- Where nothing is passed over, every ancestor that is visited has its type parameters bound. -/
theorem isBound_of_mem_walked (hopen : ∀ name, options.excludes excluded name = false)
    (hobject : s.idOf? WellKnown.object = none) (hsupplies : s.SuppliesArguments) {i : DeclId}
    {d : TypeDeclaration} (ha : (i, d) ∈ s.walked options root excluded) {k : TypeParamKey}
    (hk : k ∈ d.paramKeys) : (s.typeBindings root).get? k ≠ none := by
  obtain ⟨taken, _, hfind, htarget, hlength⟩ :=
    exists_visiting_reference_of_mem_walked hopen hsupplies ha
  have hget := get?_typeBindings_of_find?_trail hopen hobject htarget hfind hlength hk
  obtain ⟨u, hu⟩ := TypeDeclaration.exists_lookup_zip_paramKeys hlength hk
  simp [hget, hu]

/-- **An ancestor's type parameters are bound at the reference through which it is visited.**  Let
the root of the class hierarchy not be registered, every extension point supply its arguments, and
nothing be passed over.  Then each ancestor in the context of a root is visited when the walk takes
the first reference to its name off its queue, and the bindings of the root bind the type parameters
of the ancestor, if they have different names, to the arguments of just this reference. -/
theorem bindings_at_visiting_reference (s : DeclarationStore) (options : ResolverOptions)
    (root : DeclId) (excluded : List String) (name : String)
    (hopen : ∀ name, options.excludes excluded name = false)
    (hobject : s.idOf? WellKnown.object = none) (hsupplies : s.SuppliesArguments)
    (hname : name ∈ (s.inheritance options root excluded).ancestors) :
    ∃ d e w, s.lookup? name = some d ∧
      (s.trail options root excluded).find? (fun taken => name ∈ taken.2.context.ancestors) =
        some (e, w) ∧
      (s.trail options root excluded).find?
          (fun taken => taken.1.reference.declaredName? = some name) = some (e, w) ∧
      e.reference.arguments.length = d.typeParams.length ∧
      ((d.typeParams.map (·.name)).Nodup →
        d.typeParams.map (fun p => (s.typeBindings root).get? ⟨name, p.name⟩) =
          e.reference.arguments.map some) := by
  rw [← Array.mem_toList_iff, ancestors_inheritance, List.mem_map] at hname
  obtain ⟨⟨i, d⟩, ha, rfl⟩ := hname
  obtain ⟨⟨e, w⟩, hvisit, hfind, htarget, hlength⟩ :=
    exists_visiting_reference_of_mem_walked hopen hsupplies ha
  obtain ⟨hid, hd⟩ := s.idOf?_of_mem_walked options root excluded ha
  refine ⟨d, e, w, ?_, hvisit, hfind, hlength, fun hnodup => ?_⟩
  · rw [lookup?, hid]
    exact hd
  · have hkeys : ∀ p ∈ d.typeParams, (⟨d.name, p.name⟩ : TypeParamKey) ∈ d.paramKeys :=
      fun p hp => List.mem_map.2 ⟨p, hp, rfl⟩
    rw [← map_lookup_zip (TypeDeclaration.nodup_paramKeys hnodup)
      (hlength.trans d.length_paramKeys.symm), TypeDeclaration.paramKeys, List.map_map]
    exact List.map_congr_left fun p hp =>
      get?_typeBindings_of_find?_trail hopen hobject htarget hfind hlength (hkeys p hp)

/-- A hierarchy with a cycle in which one declaration is extended twice, with different arguments.
-/
def twiceExtended : DeclarationStore :=
  .ofList
    [{ name := "Pair", kind := .interfaceType, typeParams := [{ name := "A" }, { name := "B" }],
       interfaces := [.named "Far"] },
      { name := "Far", kind := .interfaceType,
        interfaces := [.generic "Pair" [.named "java.lang.Long", .named "java.lang.Short"]] },
      { name := "Near", kind := .interfaceType, interfaces := [.named "Far"] },
      { name := "Other", kind := .interfaceType, typeParams := [{ name := "T" }],
        interfaces :=
          [.generic "Pair" [.param "Other" "T" none, .array (.param "Other" "T" none)]] },
      { name := "Root",
        interfaces := [.named "Near", .generic "Other" [.named "java.lang.String"]] }]

/-- The extension point that is nearer to the root is the one that counts, although the declaration
that leads to the other one comes first. -/
theorem bindings_twiceExtended :
    (∀ name, ({} : ResolverOptions).excludes [] name = false) ∧
      twiceExtended.idOf? WellKnown.object = none ∧ twiceExtended.SuppliesArguments ∧
      "Pair" ∈ (twiceExtended.inheritance {} ⟨5⟩ []).ancestors ∧
      ∃ e w,
        (twiceExtended.trail {} ⟨5⟩ []).find?
            (fun taken => "Pair" ∈ taken.2.context.ancestors) = some (e, w) ∧
          e.reference.arguments = [.param "Other" "T" none, .array (.param "Other" "T" none)] ∧
          (twiceExtended.typeBindings ⟨5⟩).get? ⟨"Pair", "A"⟩ = some (.param "Other" "T" none) ∧
          (twiceExtended.typeBindings ⟨5⟩).get? ⟨"Pair", "B"⟩ =
            some (.array (.param "Other" "T" none)) := by
  have hopen : ∀ name, ({} : ResolverOptions).excludes [] name = false := fun name => rfl
  have hobject : twiceExtended.idOf? WellKnown.object = none := by
    rw [idOf?_eq]
    decide
  have hsupplies : twiceExtended.SuppliesArguments := by decide
  have hname : "Pair" ∈ (twiceExtended.inheritance {} ⟨5⟩ []).ancestors := by
    rw [← Array.mem_toList_iff, ancestors_inheritance]
    decide
  obtain ⟨d, e, w, hd, hvisit, _, _, hbound⟩ :=
    bindings_at_visiting_reference twiceExtended {} ⟨5⟩ [] "Pair" hopen hobject hsupplies hname
  have hpair : (twiceExtended.lookup? "Pair").map (·.typeParams) =
      some [{ name := "A" }, { name := "B" }] := by
    rw [lookup?, idOf?_eq]
    rfl
  rw [hd, Option.map_some, Option.some_inj] at hpair
  have hfirst : (twiceExtended.typeBindings ⟨5⟩).get? ⟨"Pair", "A"⟩ =
      some (.param "Other" "T" none) := by
    rw [get?_typeBindings]
    rfl
  have hsecond : (twiceExtended.typeBindings ⟨5⟩).get? ⟨"Pair", "B"⟩ =
      some (.array (.param "Other" "T" none)) := by
    rw [get?_typeBindings]
    rfl
  have harguments := hbound (by rw [hpair]; decide)
  rw [hpair, List.map_cons, List.map_cons, List.map_nil, hfirst, hsecond] at harguments
  exact ⟨hopen, hobject, hsupplies, hname, e, w, hvisit,
    List.map_injective_iff.2 (fun _ _ => Option.some.inj) harguments.symm, hfirst, hsecond⟩

end DeclarationStore

end ActionSignatures
