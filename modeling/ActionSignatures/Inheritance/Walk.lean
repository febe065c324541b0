/-
**The walk over the ancestors of a type.**

The walk takes super-type references off a queue, breadth first and the superclass before the
interfaces, so that a prototype is met first where it is declared closest to the root.  Each
declaration is visited at most once.  A reference to an excluded name is passed over, together with
everything above it; one that leads nowhere is noted.

Main definitions:

* `ActionSignatures.ResolverOptions` — what is passed over, and what is inherited;
* `ActionSignatures.AncestorEdge`, `ActionSignatures.AncestorWalk` — the references to follow, and
  the state of the walk;
* `ActionSignatures.AncestorWalk.step` — one step of it;
* `ActionSignatures.AncestorGraph.inheritance` — **the context of a root**.
-/

import ActionSignatures.Inheritance.Context
import ActionSignatures.Substitution.Hierarchy
import Std.Data.TreeSet.Basic

set_option relaxedAutoImplicit false
set_option autoImplicit false

namespace ActionSignatures

/-! ### Options -/

/-- What a walk passes over: the ancestors of some names, and generated operations. -/
structure ResolverOptions where
  excludedAncestors : Std.TreeSet String := ∅
  skipSynthetic : Bool := true

namespace ResolverOptions

/-- Whether an ancestor of a name is passed over, where further names are excluded. -/
def excludes (options : ResolverOptions) (excluded : List String) (name : String) : Bool :=
  options.excludedAncestors.contains name || excluded.contains name

/-- Whether subtypes inherit an operation. -/
def inherits (options : ResolverOptions) (op : Operation) : Bool :=
  !op.isStatic && op.visibility.isInheritable && !(op.isSynthetic && options.skipSynthetic)

/-- Subtypes inherit what is neither static nor private nor left out as generated. -/
theorem inherits_eq_true_iff {options : ResolverOptions} {op : Operation} :
    options.inherits op = true ↔
      op.isStatic = false ∧ op.visibility ≠ .owner ∧
        (op.isSynthetic && options.skipSynthetic) = false := by
  rw [inherits, Bool.and_eq_true, Bool.and_eq_true, Bool.not_eq_true', Bool.not_eq_true',
    Visibility.isInheritable_eq_true_iff, and_assoc]

end ResolverOptions

/-- Everything that decides what a walk keeps: the options, further excluded names, and the bindings
of type parameters. -/
structure WalkRules where
  options : ResolverOptions
  excluded : List String
  bindings : TypeBindings

namespace WalkRules

/-- Whether an ancestor of a name is passed over. -/
def excludes (r : WalkRules) (name : String) : Bool := r.options.excludes r.excluded name

/-- Whether subtypes inherit an operation. -/
def inherits (r : WalkRules) (op : Operation) : Bool := r.options.inherits op

end WalkRules

/-! ### The state of a walk -/

/-- **A super-type reference to follow**: the declaration that mentions it, and whether it is the
superclass of a root that is a class. -/
structure AncestorEdge where
  reference : TypeRef
  referencedBy : String
  isRootSuperclass : Bool := false

/-- The super-type references of a declaration. -/
def TypeDeclaration.edges (d : TypeDeclaration) (isRoot : Bool) : List AncestorEdge :=
  d.superclass.toList.map (⟨·, d.name, isRoot && d.isClass⟩) ++
    d.interfaces.map (⟨·, d.name, false⟩)

/-- The context with a reference noted that leads nowhere. -/
def InheritanceContext.note (c : InheritanceContext) (e : AncestorEdge) : InheritanceContext :=
  { c with unresolved := c.unresolved.push ⟨e.reference, e.referencedBy⟩ }

/-- **The state of a walk**: the context so far, the declarations visited, and the references to
follow. -/
structure AncestorWalk where
  context : InheritanceContext
  visited : IdSet
  queue : Queue AncestorEdge

namespace AncestorWalk

/-- The walk at its beginning: only the root has been visited. -/
def start (idBound : Nat) (root : DeclId) (d : TypeDeclaration) : AncestorWalk where
  context := {}
  visited := (IdSet.ofLength (max idBound (root.index + 1))).insert root.index
  queue := .ofList (d.edges true)

/-- The walk with a reference noted that leads nowhere. -/
def note (w : AncestorWalk) (e : AncestorEdge) : AncestorWalk :=
  { w with context := w.context.note e }

/-- The context with the members of a visited declaration: its operations and fields and, where it
is the superclass of the root, its constructors. -/
def collect (rules : WalkRules) (c : InheritanceContext) (id : DeclId) (d : TypeDeclaration)
    (isRootSuperclass : Bool) : InheritanceContext :=
  let c := { c with ancestors := c.ancestors.push d.name }
  let c := (d.operations.filter rules.inherits).foldl
    (fun c op => c.recordOperation (.of d id rules.bindings op)) c
  let c := (d.fields.filter (·.visibility.isInheritable)).foldl
    (fun c field => c.recordField d rules.bindings field) c
  if isRootSuperclass && d.isClass then
    (d.constructors.filter (·.visibility.isInheritable)).foldl
      (fun c constructor => c.recordConstructor d rules.bindings constructor) c
  else
    c

/-- The walk after a reference that leads to an identifier.  The identifier counts as visited even
where nothing is declared under it. -/
def visit (rules : WalkRules) (declaration? : DeclId → Option TypeDeclaration) (w : AncestorWalk)
    (e : AncestorEdge) (id : DeclId) : AncestorWalk :=
  let room := w.visited.grow (id.index + 1)
  if room.contains id.index then
    { w with visited := room }
  else
    let w := { w with visited := room.insert id.index }
    match declaration? id with
    | some d =>
        { w with
          context := collect rules w.context id d e.isRootSuperclass
          queue := w.queue.enqueueAll (d.edges false) }
    | none => w.note e

variable {σ : Type}

/-- **One step of a walk**: a reference is passed over, noted, or followed. -/
def step (graph : AncestorGraph σ) (rules : WalkRules) (w : AncestorWalk) (e : AncestorEdge) :
    StateM σ AncestorWalk := do
  if e.reference.declaredName?.any rules.excludes then
    return w
  else
    match ← graph.resolveType? e.reference with
    | some id => return w.visit rules graph.declaration? e id
    | none => return w.note e

/-- The walk until the queue is empty, or until as many references as are left have been taken off
the queue; whether it was cut short is the second part of the result. -/
def run (graph : AncestorGraph σ) (rules : WalkRules) :
    Nat → AncestorWalk → StateM σ (InheritanceContext × Bool)
  | left, w =>
      match w.queue.dequeue?, left with
      | none, _ => pure (w.context, false)
      | some _, 0 => pure (w.context, true)
      | some (e, rest), left + 1 => do
          let w ← step graph rules { w with queue := rest } e
          run graph rules left w

end AncestorWalk

/-! ### Resolution -/

namespace AncestorGraph

variable {σ : Type}

/-- **The context of a root**, where ancestors of further excluded names are passed over.  A root
without a declaration inherits nothing. -/
def inheritance (graph : AncestorGraph σ) (options : ResolverOptions) (root : DeclId)
    (excluded : List String) : StateM σ InheritanceContext := do
  match graph.declaration? root with
  | none => return {}
  | some d =>
      let bindings ← graph.typeBindings root
      let (context, isCut) ← AncestorWalk.run graph { options, excluded, bindings }
        Limits.maxAncestorEdges (.start graph.idBound root d)
      if isCut then
        return { context with truncated := some ⟨d.name, Limits.maxAncestorEdges⟩ }
      else
        return context

end AncestorGraph

namespace DeclarationStore

/-- **The context of a declaration** of a store. -/
def inheritance (s : DeclarationStore) (options : ResolverOptions) (root : DeclId)
    (excluded : List String) : InheritanceContext :=
  ((s.graph.inheritance options root excluded).run ()).1

/-- The bindings of type parameters for a declaration of a store. -/
def typeBindings (s : DeclarationStore) (root : DeclId) : TypeBindings :=
  ((s.graph.typeBindings root).run ()).1

end DeclarationStore

end ActionSignatures
