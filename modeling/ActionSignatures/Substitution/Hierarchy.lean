/-
**The bindings of a hierarchy.**

The bindings for a type come from all super-type references above it.  The walk takes declarations
off a queue, breadth first; a generic reference binds the type parameters of the declaration that it
leads to, as far as it has arguments.  The root of the class hierarchy is not followed, nor is a
reference that leads nowhere.

Main definitions:

* `ActionSignatures.TypeBindings.bindArguments` — the bindings of one extension point;
* `ActionSignatures.BindingWalk` — the state of the walk;
* `ActionSignatures.BindingWalk.expand` — one step of it;
* `ActionSignatures.AncestorGraph.typeBindings` — **the bindings for a root**.
-/

import ActionSignatures.AncestorGraph
import ActionSignatures.Collections.IdSet
import ActionSignatures.Collections.Queue
import ActionSignatures.Limits
import ActionSignatures.Substitution.Bindings

set_option relaxedAutoImplicit false
set_option autoImplicit false

namespace ActionSignatures

/-- **The bindings of one extension point**: the type parameters of the declaration are bound to the
arguments, position by position, as far as both go. -/
def TypeBindings.bindArguments (b : TypeBindings) (d : TypeDeclaration) (args : List TypeRef) :
    TypeBindings :=
  (d.typeParams.zip args).foldl (fun b (p, arg) => b.insert ⟨d.name, p.name⟩ arg) b

/-- The state of the walk: the bindings so far, the declarations that have been expanded, and those
that are to be. -/
structure BindingWalk where
  bindings : TypeBindings
  expanded : IdSet
  queue : Queue DeclId

namespace BindingWalk

variable {σ : Type}

/-- The walk at its beginning. -/
def start (graph : AncestorGraph σ) (root : DeclId) : BindingWalk where
  bindings := .empty
  expanded := .ofLength (max graph.idBound (root.index + 1))
  queue := .ofList [root]

/-- The arguments of a generic reference. -/
def argumentsOf : TypeRef → Option (List TypeRef)
  | .generic _ args => some args
  | _ => none

/-- The walk after a reference that leads to a declaration's identifier. -/
def reach (graph : AncestorGraph σ) (w : BindingWalk) (reference : TypeRef) (id : DeclId) :
    BindingWalk where
  bindings :=
    match argumentsOf reference, graph.declaration? id with
    | some args, some d => w.bindings.bindArguments d args
    | _, _ => w.bindings
  expanded := w.expanded.grow (id.index + 1)
  queue := w.queue.enqueue id

/-- The walk after one super-type reference. -/
def follow (graph : AncestorGraph σ) (w : BindingWalk) (reference : TypeRef) :
    StateM σ BindingWalk := do
  if reference.declaredName? = some WellKnown.object then
    return w
  else
    match ← graph.resolveType? reference with
    | some id => return w.reach graph reference id
    | none => return w

/-- **One step of the walk**: the declaration of an identifier is expanded, unless it has been. -/
def expand (graph : AncestorGraph σ) (w : BindingWalk) (id : DeclId) : StateM σ BindingWalk :=
  if w.expanded.contains id.index then
    pure w
  else
    let w := { w with expanded := w.expanded.insert id.index }
    match graph.declaration? id with
    | some d => d.supertypes.foldlM (follow graph) w
    | none => pure w

/-- The walk until the queue is empty, or until as many identifiers as the limit says have been taken
off the queue. -/
def run (graph : AncestorGraph σ) : Nat → BindingWalk → StateM σ BindingWalk
  | 0, w => pure w
  | limit + 1, w =>
      match w.queue.dequeue? with
      | none => pure w
      | some (id, rest) => do
          let w ← expand graph { w with queue := rest } id
          run graph limit w

end BindingWalk

/-- **The bindings for a root.** -/
def AncestorGraph.typeBindings {σ : Type} (graph : AncestorGraph σ) (root : DeclId) :
    StateM σ TypeBindings := do
  let w ← BindingWalk.run graph Limits.maxAncestorEdges (.start graph root)
  return w.bindings

end ActionSignatures
