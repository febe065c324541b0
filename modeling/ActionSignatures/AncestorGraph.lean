/-
**Graphs of ancestors.**

The walks of this library see declarations through a graph: what is declared under an identifier,
which identifier a reference leads to, and below which bound the identifiers lie.  Following a
reference may change the state of the graph, for instance when identifiers are made up on demand.

Main definitions:

* `ActionSignatures.AncestorGraph` — **graphs**;
* `ActionSignatures.DeclarationStore.resolveType?` — where a reference leads in a store;
* `ActionSignatures.DeclarationStore.graph` — a store as a graph, which has no state.
-/

import ActionSignatures.Declaration.Store

set_option relaxedAutoImplicit false
set_option autoImplicit false

namespace ActionSignatures

/-- **A graph of ancestors** with states of type `σ`.  The bound is a hint: a walk does not rely on
the identifiers lying below it. -/
structure AncestorGraph (σ : Type) where
  declaration? : DeclId → Option TypeDeclaration
  resolveType? : TypeRef → StateM σ (Option DeclId)
  idBound : Nat

namespace DeclarationStore

/-- Where a reference leads: a nominal one to the declaration that its name stands for, a type
parameter or an array nowhere. -/
def resolveType? (s : DeclarationStore) (t : TypeRef) : Option DeclId :=
  t.declaredName?.bind s.idOf?

/-- **A store as a graph.** -/
def graph (s : DeclarationStore) : AncestorGraph Unit where
  declaration? := s.get?
  resolveType? t := pure (s.resolveType? t)
  idBound := s.nextId.index

end DeclarationStore

end ActionSignatures
