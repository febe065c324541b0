/-
**Walks that keep what they visit in sets of bits.**

Both walks of a graph are repeated here over sets of bits, in which a bit beyond the length cannot be
set.  They make room at different moments: the walk over ancestors just before it visits an identifier,
the walk for bindings when it puts one into its queue, long before it sets the bit.  That the second
one never fails is an invariant of the queue: there is room for all that it holds.  With it both walks
succeed, whatever bound a graph reports and wherever its references lead, and do the same as over
sets without a length.

Main definitions:

* `ActionSignatures.RunsLike` — a computation that succeeds and does what one does that cannot fail;
* `ActionSignatures.BitBindingWalk`, `ActionSignatures.BitAncestorWalk` — **the walks over sets of
  bits**;
* `ActionSignatures.AncestorGraph.bitTypeBindings`, `ActionSignatures.AncestorGraph.bitInheritance` —
  the bindings and the context of a root by these walks;
* `ActionSignatures.BitBindingWalk.Mirrors`, `ActionSignatures.BitAncestorWalk.Mirrors` — what the
  walks have in common with those over sets of identifiers.

Main results:

* `ActionSignatures.BitBindingWalk.Mirrors.expand`, `ActionSignatures.BitAncestorWalk.Mirrors.step` —
  **one step** of the walks;
* `ActionSignatures.BitBindingWalk.Mirrors.run`, `ActionSignatures.BitAncestorWalk.Mirrors.run` —
  **the walks**;
* `ActionSignatures.AncestorGraph.visited_bits_in_range` — no bit is set out of range, and lengths do
  not matter.
-/

import ActionSignatures.Inheritance.Walk
import ActionSignatures.Proofs.Collections.BitSets

set_option relaxedAutoImplicit false
set_option autoImplicit false

namespace ActionSignatures

/-! ### Computations that succeed -/

section

variable {σ α α' γ γ' δ : Type}

/-- A computation that cannot fail among those that may. -/
def succeeding (m : StateM σ α) : StateT σ Option α := StateT.mk fun state => some (m.run state)

theorem liftM_some (a : α) : (liftM (some a) : StateT σ Option α) = pure a := rfl

/-- **A computation that succeeds** from every state, does the same to the state as one that cannot
fail, and has a related result. -/
def RunsLike (R : α → α' → Prop) (m : StateT σ Option α) (n : StateM σ α') : Prop :=
  ∀ state, ∃ a, m.run state = some (a, (n.run state).2) ∧ R a (n.run state).1

namespace RunsLike

variable {R : α → α' → Prop} {S : γ → γ' → Prop}

theorem pure {a : α} {a' : α'} (h : R a a') :
    RunsLike R (Pure.pure a : StateT σ Option α) (Pure.pure a') :=
  fun _ => ⟨a, rfl, h⟩

theorem succeeding (m : StateM σ α) : RunsLike Eq (succeeding m) m :=
  fun _ => ⟨_, rfl, rfl⟩

/-- One computation after another. -/
theorem bind {m : StateT σ Option α} {n : StateM σ α'} {f : α → StateT σ Option γ}
    {g : α' → StateM σ γ'} (h : RunsLike R m n) (hf : ∀ a a', R a a' → RunsLike S (f a) (g a')) :
    RunsLike S (m >>= f) (n >>= g) := by
  intro state
  obtain ⟨a, hm, hR⟩ := h state
  obtain ⟨c, hc, hS⟩ := hf a _ hR (n.run state).2
  refine ⟨c, ?_, hS⟩
  rw [StateT.run_bind, hm]
  exact hc

/-- The same steps along a list. -/
theorem foldlM {f : α → δ → StateT σ Option α} {g : α' → δ → StateM σ α'} {xs : List δ}
    (step : ∀ a a' x, R a a' → RunsLike R (f a x) (g a' x)) {a : α} {a' : α'} (h : R a a') :
    RunsLike R (xs.foldlM f a) (xs.foldlM g a') := by
  induction xs generalizing a a' with
  | nil => exact pure h
  | cons x xs ih =>
      rw [List.foldlM_cons, List.foldlM_cons]
      exact (step a a' x h).bind fun _ _ => ih

theorem run_eq {m : StateT σ Option α} {n : StateM σ α} (h : RunsLike Eq m n) (state : σ) :
    m.run state = some (n.run state) := by
  obtain ⟨a, hm, rfl⟩ := h state
  exact hm

end RunsLike

end

/-! ### The walk for bindings -/

/-- The state of the walk for bindings over sets of bits. -/
structure BitBindingWalk (β : Type) where
  bindings : TypeBindings
  expanded : β
  queue : Queue DeclId

namespace BitBindingWalk

variable {σ β : Type} (B : BitSets β) (graph : AncestorGraph σ)

/-- The walk at its beginning, for a bound that the graph reports. -/
def start (reported : Nat) (root : DeclId) : BitBindingWalk β where
  bindings := .empty
  expanded := B.ofLength (max reported (root.index + 1))
  queue := .ofList [root]

/-- The walk after a reference that leads to an identifier, for which there is room now. -/
def reach (w : BitBindingWalk β) (reference : TypeRef) (id : DeclId) : BitBindingWalk β where
  bindings :=
    match BindingWalk.argumentsOf reference, graph.declaration? id with
    | some args, some d => w.bindings.bindArguments d args
    | _, _ => w.bindings
  expanded := B.reserve w.expanded id.index
  queue := w.queue.enqueue id

/-- The walk after one super-type reference. -/
def follow (w : BitBindingWalk β) (reference : TypeRef) : StateT σ Option (BitBindingWalk β) := do
  if reference.declaredName? = some WellKnown.object then
    return w
  else
    match ← succeeding (graph.resolveType? reference) with
    | some id => return w.reach B graph reference id
    | none => return w

/-- One step of the walk.  The bit of the declaration is set without making room for it. -/
def expand (w : BitBindingWalk β) (id : DeclId) : StateT σ Option (BitBindingWalk β) :=
  if B.contains w.expanded id.index then
    pure w
  else do
    let expanded ← (B.insert? w.expanded id.index : Option β)
    let w := { w with expanded }
    match graph.declaration? id with
    | some d => d.supertypes.foldlM (follow B graph) w
    | none => pure w

/-- The walk until the queue is empty, or until the limit. -/
def run : Nat → BitBindingWalk β → StateT σ Option (BitBindingWalk β)
  | 0, w => pure w
  | limit + 1, w =>
      match w.queue.dequeue? with
      | none => pure w
      | some (id, rest) => do
          let w ← expand B graph { w with queue := rest } id
          run limit w

variable {B} {room : β → Nat → Prop}

/-- **What the walk has in common** with the one over sets of identifiers.  In both sets there is room
for whatever is in the queue. -/
structure Mirrors (B : BitSets β) (room : β → Nat → Prop) (w : BitBindingWalk β) (v : BindingWalk) :
    Prop where
  bindings : w.bindings = v.bindings
  queue : w.queue = v.queue
  contains : ∀ i, B.contains w.expanded i = v.expanded.contains i
  hasRoom : ∀ id ∈ v.queue.toList, room w.expanded id.index ∧ id.index < v.expanded.length

theorem start_mirrors (hB : B.MakesRoom room) (reported : Nat) (root : DeclId) :
    Mirrors B room (start B reported root) (.start graph root) where
  bindings := rfl
  queue := rfl
  contains i := by rw [start, BindingWalk.start, hB.contains_ofLength, IdSet.contains_ofLength]
  hasRoom id hid := by
    obtain rfl : id = root := by simpa [BindingWalk.start] using hid
    refine ⟨hB.room_ofLength (by omega), ?_⟩
    rw [BindingWalk.start, IdSet.length_ofLength]
    omega

namespace Mirrors

variable {graph} {w : BitBindingWalk β} {v : BindingWalk} (hB : B.MakesRoom room)
include hB

theorem reach (h : Mirrors B room w v) (reference : TypeRef) (id : DeclId) :
    Mirrors B room (w.reach B graph reference id) (v.reach graph reference id) where
  bindings := by
    cases hargs : BindingWalk.argumentsOf reference <;> cases hd : graph.declaration? id <;>
      simp only [BitBindingWalk.reach, BindingWalk.reach, hargs, hd, h.bindings]
  queue := by rw [BitBindingWalk.reach, BindingWalk.reach, h.queue]
  contains i := by
    rw [BitBindingWalk.reach, BindingWalk.reach, hB.contains_reserve, IdSet.contains_grow,
      h.contains]
  hasRoom j hj := by
    rw [BindingWalk.reach, Queue.toList_enqueue, List.mem_append, List.mem_singleton] at hj
    rw [BitBindingWalk.reach, BindingWalk.reach, IdSet.length_grow]
    obtain hj | rfl := hj
    · have hold := h.hasRoom j hj
      exact ⟨hB.room_reserve (.inl hold.1), by omega⟩
    · exact ⟨hB.room_reserve (.inr rfl), by omega⟩

theorem follow (h : Mirrors B room w v) (reference : TypeRef) :
    RunsLike (Mirrors B room) (w.follow B graph reference) (v.follow graph reference) := by
  rw [BitBindingWalk.follow, BindingWalk.follow]
  split
  · exact .pure h
  · refine (RunsLike.succeeding _).bind ?_
    rintro found _ rfl
    cases found with
    | none => exact .pure h
    | some id => exact .pure (h.reach hB reference id)

/-- **One step**: a declaration is expanded, for which both sets have room. -/
theorem expand (h : Mirrors B room w v) {id : DeclId} (hroom : room w.expanded id.index)
    (hlt : id.index < v.expanded.length) :
    RunsLike (Mirrors B room) (w.expand B graph id) (v.expand graph id) := by
  rw [BitBindingWalk.expand, BindingWalk.expand, h.contains]
  split
  · exact .pure h
  · obtain ⟨expanded, hinsert, hkeeps, hcontains⟩ := hB.exists_insert? hroom
    -- the bit is set, and what is in the queue keeps its room
    have hmarked : Mirrors B room { w with expanded }
        { v with expanded := v.expanded.insert id.index } :=
      { bindings := h.bindings
        queue := h.queue
        contains := fun i => by rw [hcontains, IdSet.contains_insert hlt, h.contains]
        hasRoom := fun j hj => by
          have hold := h.hasRoom j hj
          exact ⟨hkeeps _ hold.1, by rw [IdSet.length_insert]; exact hold.2⟩ }
    rw [hinsert, liftM_some, pure_bind]
    cases graph.declaration? id with
    | none => exact .pure hmarked
    | some d => exact .foldlM (fun _ _ reference h => h.follow hB reference) hmarked

/-- **The walk**: it never fails, and does the same as the one over sets of identifiers. -/
theorem run (limit : Nat) (h : Mirrors B room w v) :
    RunsLike (Mirrors B room) (BitBindingWalk.run B graph limit w)
      (BindingWalk.run graph limit v) := by
  induction limit generalizing w v with
  | zero => exact .pure h
  | succ limit ih =>
      rw [BitBindingWalk.run, BindingWalk.run, h.queue]
      cases hq : v.queue.dequeue? with
      | none => exact .pure h
      | some taken =>
          obtain ⟨id, rest⟩ := taken
          have hcons := Queue.toList_of_dequeue? hq
          have hrest : Mirrors B room { w with queue := rest } { v with queue := rest } :=
            { bindings := h.bindings
              queue := rfl
              contains := h.contains
              hasRoom := fun j hj => h.hasRoom j (by rw [hcons]; exact List.mem_cons_of_mem id hj) }
          have hid := h.hasRoom id (by rw [hcons]; exact List.mem_cons_self)
          exact (hrest.expand hB hid.1 hid.2).bind fun _ _ => ih

end Mirrors

end BitBindingWalk

/-! ### The walk over ancestors -/

/-- The state of the walk over ancestors over sets of bits. -/
structure BitAncestorWalk (β : Type) where
  context : InheritanceContext
  visited : β
  queue : Queue AncestorEdge

namespace BitAncestorWalk

variable {σ β : Type} (B : BitSets β) (graph : AncestorGraph σ) (rules : WalkRules)

/-- The walk at its beginning, for a bound that the graph reports: the bit of the root is set. -/
def start (reported : Nat) (root : DeclId) (d : TypeDeclaration) : Option (BitAncestorWalk β) := do
  let visited ← B.insert? (B.ofLength (max reported (root.index + 1))) root.index
  return { context := {}, visited, queue := .ofList (d.edges true) }

/-- The walk with a reference noted that leads nowhere. -/
def note (w : BitAncestorWalk β) (e : AncestorEdge) : BitAncestorWalk β :=
  { w with context := w.context.note e }

/-- The walk after a reference that leads to an identifier.  Its bit is set after making room for
it. -/
def visit (declaration? : DeclId → Option TypeDeclaration) (w : BitAncestorWalk β)
    (e : AncestorEdge) (id : DeclId) : Option (BitAncestorWalk β) := do
  let (isVisited, visited) ← B.put? (B.reserve w.visited id.index) id.index
  let w := { w with visited }
  if isVisited then
    return w
  else
    match declaration? id with
    | some d =>
        return { w with
          context := AncestorWalk.collect rules w.context id d e.isRootSuperclass
          queue := w.queue.enqueueAll (d.edges false) }
    | none => return w.note e

/-- One step of the walk: a reference is passed over, noted, or followed. -/
def step (w : BitAncestorWalk β) (e : AncestorEdge) : StateT σ Option (BitAncestorWalk β) := do
  if e.reference.declaredName?.any rules.excludes then
    return w
  else
    match ← succeeding (graph.resolveType? e.reference) with
    | some id => (w.visit B rules graph.declaration? e id : Option (BitAncestorWalk β))
    | none => return w.note e

/-- The walk until the queue is empty, or until the limit. -/
def run : Nat → BitAncestorWalk β → StateT σ Option (InheritanceContext × Bool)
  | left, w =>
      match w.queue.dequeue?, left with
      | none, _ => pure (w.context, false)
      | some _, 0 => pure (w.context, true)
      | some (e, rest), left + 1 => do
          let w ← step B graph rules { w with queue := rest } e
          run left w

variable {B} {rules} {room : β → Nat → Prop}

/-- **What the walk has in common** with the one over sets of identifiers. -/
structure Mirrors (B : BitSets β) (w : BitAncestorWalk β) (v : AncestorWalk) : Prop where
  context : w.context = v.context
  queue : w.queue = v.queue
  contains : ∀ i, B.contains w.visited i = v.visited.contains i

theorem exists_start_mirrors (hB : B.MakesRoom room) (reported idBound : Nat) (root : DeclId)
    (d : TypeDeclaration) :
    ∃ w, start B reported root d = some w ∧ Mirrors B w (.start idBound root d) := by
  have hroom : room (B.ofLength (max reported (root.index + 1))) root.index :=
    hB.room_ofLength (by omega)
  have hlt : root.index < (IdSet.ofLength (max idBound (root.index + 1))).length := by
    rw [IdSet.length_ofLength]
    omega
  obtain ⟨visited, hinsert, -, hcontains⟩ := hB.exists_insert? hroom
  refine ⟨_, by rw [start, hinsert]; rfl, rfl, rfl, fun i => ?_⟩
  rw [AncestorWalk.start, hcontains, hB.contains_ofLength, IdSet.contains_insert hlt,
    IdSet.contains_ofLength]

namespace Mirrors

variable {graph} {w : BitAncestorWalk β} {v : AncestorWalk}

theorem note (h : Mirrors B w v) (e : AncestorEdge) : Mirrors B (w.note e) (v.note e) where
  context := by rw [BitAncestorWalk.note, AncestorWalk.note, h.context]
  queue := h.queue
  contains := h.contains

variable (hB : B.MakesRoom room)
include hB

/-- A bit is set after room has been made for it. -/
theorem exists_visit (h : Mirrors B w v) (declaration? : DeclId → Option TypeDeclaration)
    (e : AncestorEdge) (id : DeclId) :
    ∃ w', w.visit B rules declaration? e id = some w' ∧
      Mirrors B w' (v.visit rules declaration? e id) := by
  have hlt : id.index < (v.visited.grow (id.index + 1)).length := by
    rw [IdSet.length_grow]
    omega
  have hroom : room (B.reserve w.visited id.index) id.index := hB.room_reserve (.inr rfl)
  obtain ⟨visited, hinsert, -, hcontains⟩ := hB.exists_insert? hroom
  have hput : B.put? (B.reserve w.visited id.index) id.index =
      some ((v.visited.grow (id.index + 1)).contains id.index, visited) := by
    rw [hB.put?_eq, hinsert, hB.contains_reserve, h.contains]
    rfl
  rw [BitAncestorWalk.visit, AncestorWalk.visit, hput]
  simp only [Option.bind_eq_bind, Option.bind_some]
  by_cases hvisited : (v.visited.grow (id.index + 1)).contains id.index
  · -- the bit was set already, so the set holds what it held
    rw [if_pos hvisited, if_pos hvisited]
    refine ⟨_, rfl, h.context, h.queue, fun i => ?_⟩
    rw [hcontains, hB.contains_reserve, h.contains, ← IdSet.contains_grow v.visited]
    by_cases hi : id.index = i
    · rw [← hi, hvisited, Bool.or_true]
    · rw [beq_eq_false_iff_ne.2 hi, Bool.false_or]
  · rw [if_neg hvisited, if_neg hvisited]
    have hmarked : Mirrors B { w with visited }
        { v with visited := (v.visited.grow (id.index + 1)).insert id.index } :=
      { context := h.context
        queue := h.queue
        contains := fun i => by
          rw [hcontains, hB.contains_reserve, h.contains, IdSet.contains_insert hlt,
            IdSet.contains_grow] }
    cases declaration? id with
    | none => exact ⟨_, rfl, hmarked.note e⟩
    | some d =>
        exact ⟨_, rfl,
          { context := by rw [h.context]
            queue := by rw [h.queue]
            contains := hmarked.contains }⟩

/-- **One step**: a reference is passed over, noted, or followed. -/
theorem step (h : Mirrors B w v) (e : AncestorEdge) :
    RunsLike (Mirrors B) (w.step B graph rules e) (v.step graph rules e) := by
  rw [BitAncestorWalk.step, AncestorWalk.step]
  split
  · exact .pure h
  · refine (RunsLike.succeeding _).bind ?_
    rintro found _ rfl
    cases found with
    | none => exact .pure (h.note e)
    | some id =>
        obtain ⟨w', hvisit, hw'⟩ := h.exists_visit hB graph.declaration? e id
        change RunsLike _ (liftM (w.visit B rules graph.declaration? e id)) _
        rw [hvisit, liftM_some]
        exact .pure hw'

/-- **The walk**: it never fails, and has the result of the one over sets of identifiers. -/
theorem run (left : Nat) (h : Mirrors B w v) :
    RunsLike Eq (BitAncestorWalk.run B graph rules left w)
      (AncestorWalk.run graph rules left v) := by
  induction left generalizing w v with
  | zero =>
      unfold BitAncestorWalk.run AncestorWalk.run
      rw [h.queue]
      cases v.queue.dequeue? <;> exact .pure (by rw [h.context])
  | succ left ih =>
      unfold BitAncestorWalk.run AncestorWalk.run
      rw [h.queue]
      cases v.queue.dequeue? with
      | none => exact .pure (by rw [h.context])
      | some taken =>
          obtain ⟨e, rest⟩ := taken
          have hrest : Mirrors B { w with queue := rest } { v with queue := rest } :=
            { context := h.context
              queue := rfl
              contains := h.contains }
          exact (hrest.step hB e).bind fun _ _ => ih

end Mirrors

end BitAncestorWalk

/-! ### A root -/

namespace AncestorGraph

variable {σ β : Type} (B : BitSets β) (graph : AncestorGraph σ)

/-- **The bindings for a root** by the walk over sets of bits, for a bound that the graph reports. -/
def bitTypeBindings (reported : Nat) (root : DeclId) : StateT σ Option TypeBindings := do
  let w ← BitBindingWalk.run B graph Limits.maxAncestorEdges (.start B reported root)
  return w.bindings

/-- **The context of a root** by the walks over sets of bits.  Each of the walks asks the graph for
its bound. -/
def bitInheritance (options : ResolverOptions) (reported reported' : Nat) (root : DeclId)
    (excluded : List String) : StateT σ Option InheritanceContext := do
  match graph.declaration? root with
  | none => return {}
  | some d =>
      let bindings ← graph.bitTypeBindings B reported root
      let w ← (BitAncestorWalk.start B reported' root d : Option (BitAncestorWalk β))
      let (context, isCut) ← BitAncestorWalk.run B graph { options, excluded, bindings }
        Limits.maxAncestorEdges w
      if isCut then
        return { context with truncated := some ⟨d.name, Limits.maxAncestorEdges⟩ }
      else
        return context

section

variable {B} {room : β → Nat → Prop} (hB : B.MakesRoom room)
include hB

theorem runsLike_typeBindings (reported : Nat) (root : DeclId) :
    RunsLike Eq (graph.bitTypeBindings B reported root) (graph.typeBindings root) :=
  ((BitBindingWalk.start_mirrors graph hB reported root).run hB Limits.maxAncestorEdges).bind
    fun _ _ h => .pure h.bindings

theorem runsLike_inheritance (options : ResolverOptions) (reported reported' : Nat)
    (root : DeclId) (excluded : List String) :
    RunsLike Eq (graph.bitInheritance B options reported reported' root excluded)
      (graph.inheritance options root excluded) := by
  rw [bitInheritance, inheritance]
  cases graph.declaration? root with
  | none => exact .pure rfl
  | some d =>
      refine (graph.runsLike_typeBindings hB reported root).bind ?_
      rintro bindings _ rfl
      obtain ⟨w, hstart, hw⟩ :=
        BitAncestorWalk.exists_start_mirrors hB reported' graph.idBound root d
      rw [hstart, liftM_some, pure_bind]
      refine (hw.run hB Limits.maxAncestorEdges).bind ?_
      rintro ⟨context, isCut⟩ _ rfl
      cases isCut <;> exact .pure rfl

end

/-- **No bit is set out of range, and lengths do not matter.**  Over sets of bits, in which setting a
bit at or beyond the length does not succeed, both walks have a result, whatever bounds the graph
reports and wherever its references lead; and they do the same, to the state of the graph also, as
over sets without a length and as over sets of identifiers. -/
theorem visited_bits_in_range {B : BitSets β} (hB : B.Lawful) (graph : AncestorGraph σ)
    (options : ResolverOptions) (reported reported' : Nat) (root : DeclId)
    (excluded : List String) (state : σ) :
    (graph.bitTypeBindings B reported root).run state =
        some ((graph.typeBindings root).run state) ∧
      (graph.bitTypeBindings .unbounded reported root).run state =
        some ((graph.typeBindings root).run state) ∧
      (graph.bitInheritance B options reported reported' root excluded).run state =
        some ((graph.inheritance options root excluded).run state) ∧
      (graph.bitInheritance .unbounded options reported reported' root excluded).run state =
        some ((graph.inheritance options root excluded).run state) := by
  refine ⟨RunsLike.run_eq ?_ state, RunsLike.run_eq ?_ state, RunsLike.run_eq ?_ state,
    RunsLike.run_eq ?_ state⟩
  · exact graph.runsLike_typeBindings hB.makesRoom reported root
  · exact graph.runsLike_typeBindings BitSets.makesRoom_unbounded reported root
  · exact graph.runsLike_inheritance hB.makesRoom options reported reported' root excluded
  · exact graph.runsLike_inheritance BitSets.makesRoom_unbounded options reported reported' root
      excluded

/-- A graph without end: every reference leads to an identifier that no reference has led to. -/
def endless : AncestorGraph Nat where
  declaration? id :=
    some { name := "a.Level" ++ toString id.index, superclass := some (.named "a.Next") }
  resolveType? _ := modifyGet fun next => (some ⟨next⟩, next + 1)
  idBound := 4

/-- The graph without end reports the bound 4, and later none, although its identifiers go on. -/
theorem visited_bits_in_range_endless :
    BitSets.bits.Lawful ∧
      (endless.bitTypeBindings .bits 4 ⟨1⟩).run 2 = some ((endless.typeBindings ⟨1⟩).run 2) ∧
      (endless.bitTypeBindings .unbounded 4 ⟨1⟩).run 2 =
        some ((endless.typeBindings ⟨1⟩).run 2) ∧
      (endless.bitInheritance .bits {} 4 0 ⟨1⟩ []).run 2 =
        some ((endless.inheritance {} ⟨1⟩ []).run 2) ∧
      (endless.bitInheritance .unbounded {} 4 0 ⟨1⟩ []).run 2 =
        some ((endless.inheritance {} ⟨1⟩ []).run 2) :=
  ⟨BitSets.lawful_bits, visited_bits_in_range BitSets.lawful_bits endless {} 4 0 ⟨1⟩ [] 2⟩

end AncestorGraph

end ActionSignatures
