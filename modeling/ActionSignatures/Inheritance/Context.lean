/-
**What a type inherits.**

The context of a type tells, for each prototype, whether an inherited operation is final, can be
overridden or is still to be implemented.  It also lists the ancestors in the order of the walk, the
inherited fields, the constructors of the direct superclass, and what the walk could not follow.

Main definitions:

* `ActionSignatures.InheritedOperation`, `ActionSignatures.InheritedField`,
  `ActionSignatures.MirroredConstructor` — inherited members;
* `ActionSignatures.InheritanceContext` — **the context of a type**;
* `ActionSignatures.InheritanceContext.recordOperation`,
  `ActionSignatures.InheritanceContext.recordField`,
  `ActionSignatures.InheritanceContext.recordConstructor` — **how one more member of an ancestor
  changes it**.

Main results:

* `ActionSignatures.InheritanceContext.recordField_eq`,
  `ActionSignatures.InheritanceContext.recordConstructor_eq` — the first field of a name and the first
  constructor with given parameter types are kept.
-/

import ActionSignatures.Collections.FirstMap
import ActionSignatures.Declaration.Store
import ActionSignatures.Prototype
import ActionSignatures.Substitution.Bindings
import Std.Data.ExtTreeMap.Lemmas

set_option relaxedAutoImplicit false
set_option autoImplicit false

namespace ActionSignatures

/-! ### Inherited members -/

/-- An operation of an ancestor, with its types as the inheriting type sees them. -/
structure InheritedOperation where
  prototype : Prototype
  owner : String
  ownerId : DeclId
  signature : Signature
  returnType : TypeRef
  visibility : Visibility
  isAbstract : Bool
  isFinal : Bool
  typeParams : List TypeParam
  exceptions : List TypeRef
deriving DecidableEq

/-- The operation of an ancestor under the bindings of the inheriting type. -/
def InheritedOperation.of (owner : TypeDeclaration) (ownerId : DeclId) (b : TypeBindings)
    (op : Operation) : InheritedOperation :=
  let signature := op.signature.mapTypes b.substitute
  { prototype := .ofSignature op.name signature
    owner := owner.name
    ownerId
    signature
    returnType := b.substitute op.returnType
    visibility := op.visibility
    isAbstract := op.isAbstract
    isFinal := op.isFinal
    typeParams := op.typeParams
    exceptions := op.exceptions.map b.substitute }

/-- A field of an ancestor, with its type as the inheriting type sees it. -/
structure InheritedField where
  name : String
  type : TypeRef
  owner : String
deriving DecidableEq, Repr

/-- The field of an ancestor under the bindings of the inheriting type. -/
def InheritedField.of (owner : TypeDeclaration) (b : TypeBindings) (field : Field) :
    InheritedField where
  name := field.name
  type := b.substitute field.type
  owner := owner.name

/-- The name under which constructors are known. -/
def constructorName : String := "new"

/-- A constructor of the direct superclass, with its types as the inheriting type sees them. -/
structure MirroredConstructor where
  prototype : Prototype
  owner : String
  signature : Signature
  visibility : Visibility
  exceptions : List TypeRef
deriving DecidableEq

/-- The constructor of a superclass under the bindings of the inheriting type, for the signature that
it has under them. -/
def MirroredConstructor.withSignature (owner : TypeDeclaration) (b : TypeBindings)
    (c : Constructor) (signature : Signature) : MirroredConstructor where
  prototype := .ofSignature constructorName signature
  owner := owner.name
  signature
  visibility := c.visibility
  exceptions := c.exceptions.map b.substitute

/-- The constructor of a superclass under the bindings of the inheriting type. -/
def MirroredConstructor.of (owner : TypeDeclaration) (b : TypeBindings) (c : Constructor) :
    MirroredConstructor :=
  .withSignature owner b c (c.signature.mapTypes b.substitute)

/-! ### What the walk could not follow -/

/-- A super-type reference that leads nowhere, and the declaration that mentions it. -/
structure UnresolvedAncestor where
  reference : TypeRef
  referencedBy : String
deriving DecidableEq, Repr

/-- The warning about a reference that leads nowhere. -/
def UnresolvedAncestor.toDiagnostic (u : UnresolvedAncestor) (file : String) : Diagnostic :=
  .ofKind ⟨file, 0, 0⟩ .unresolvedAncestor [u.reference.display, u.referencedBy]

/-- A walk that stopped at its limit. -/
structure TruncatedWalk where
  root : String
  edgeLimit : Nat
deriving DecidableEq, Repr

/-- The warning about a walk that stopped at its limit. -/
def TruncatedWalk.toDiagnostic (t : TruncatedWalk) (file : String) : Diagnostic :=
  .ofKind ⟨file, 0, 0⟩ .truncatedWalk [t.root, toString t.edgeLimit]

/-! ### The context -/

/-- Inherited operations by prototype. -/
abbrev OperationMap := Std.ExtTreeMap Prototype InheritedOperation

/-- **The context of a type.** -/
structure InheritanceContext where
  ancestors : Array String := #[]
  finalOperations : OperationMap := ∅
  overridableOperations : OperationMap := ∅
  operationsToImplement : OperationMap := ∅
  inheritedFields : FirstMap String InheritedField := .empty
  constructors : Std.ExtTreeMap ParameterTypes MirroredConstructor := ∅
  unresolved : Array UnresolvedAncestor := #[]
  truncated : Option TruncatedWalk := none

namespace InheritanceContext

instance : Inhabited InheritanceContext := ⟨{}⟩

/-- Whether every super-type reference led somewhere and was followed. -/
def isComplete (c : InheritanceContext) : Bool := c.unresolved.isEmpty && c.truncated.isNone

/-- Whether a final operation with the prototype is inherited. -/
def isFinal (c : InheritanceContext) (p : Prototype) : Bool := c.finalOperations.contains p

/-- Whether an operation with the prototype is to be implemented. -/
def mustImplement (c : InheritanceContext) (p : Prototype) : Bool :=
  c.operationsToImplement.contains p

/-- The warnings about what the walk could not follow. -/
def diagnostics (c : InheritanceContext) (file : String) : List Diagnostic :=
  c.unresolved.toList.map (·.toDiagnostic file) ++ c.truncated.toList.map (·.toDiagnostic file)

/-- **The context with one more operation of an ancestor.**  A final operation settles its prototype
for everything that comes later, and is what nothing has to implement.  An abstract operation is to
be implemented unless the prototype is known already.  A concrete operation implements its prototype.
The first operation of each sort is kept. -/
def recordOperation (c : InheritanceContext) (op : InheritedOperation) : InheritanceContext :=
  let p := op.prototype
  if op.isFinal then
    { c with
      operationsToImplement := c.operationsToImplement.erase p
      finalOperations := c.finalOperations.insertIfNew p op }
  else if c.finalOperations.contains p then
    c
  else if op.isAbstract then
    if c.overridableOperations.contains p then c
    else { c with operationsToImplement := c.operationsToImplement.insertIfNew p op }
  else
    { c with
      operationsToImplement := c.operationsToImplement.erase p
      overridableOperations := c.overridableOperations.insertIfNew p op }

/-- **The context with one more field of an ancestor**; the first field of a name is kept.  The type of
a later one, which may be large under the bindings, is not substituted into. -/
def recordField (c : InheritanceContext) (owner : TypeDeclaration) (b : TypeBindings)
    (field : Field) : InheritanceContext :=
  if c.inheritedFields.contains field.name then c
  else
    { c with
      inheritedFields := c.inheritedFields.insert field.name (.of owner b field) }

/-- Recording a field binds its name, unless it is bound already. -/
theorem recordField_eq (c : InheritanceContext) (owner : TypeDeclaration) (b : TypeBindings)
    (field : Field) :
    c.recordField owner b field =
      { c with
        inheritedFields := c.inheritedFields.insert field.name (.of owner b field) } := by
  rw [recordField]
  split
  · rename_i h
    rw [FirstMap.insert_of_contains h]
  · rfl

/-- **The context with one more constructor of the superclass**; the first constructor with given
parameter types is kept.  The exceptions of a later one are not substituted into. -/
def recordConstructor (c : InheritanceContext) (owner : TypeDeclaration) (b : TypeBindings)
    (constructor : Constructor) : InheritanceContext :=
  let signature := constructor.signature.mapTypes b.substitute
  let params := signature.parameterTypes
  if c.constructors.contains params then c
  else
    { c with
      constructors :=
        c.constructors.insert params (.withSignature owner b constructor signature) }

/-- Recording a constructor binds its parameter types, unless they are bound already. -/
theorem recordConstructor_eq (c : InheritanceContext) (owner : TypeDeclaration) (b : TypeBindings)
    (constructor : Constructor) :
    c.recordConstructor owner b constructor =
      { c with
        constructors :=
          c.constructors.insertIfNew (constructor.signature.mapTypes b.substitute).parameterTypes
            (.of owner b constructor) } := by
  have kept {m : Std.ExtTreeMap ParameterTypes MirroredConstructor} {k : ParameterTypes}
      (v : MirroredConstructor) :
      m.insertIfNew k v = if m.contains k then m else m.insert k v := by
    refine Std.ExtTreeMap.ext_getElem? fun l => ?_
    rw [Std.ExtTreeMap.getElem?_insertIfNew]
    split
    · rename_i h
      rw [if_neg (by simpa using h.2), Std.ExtTreeMap.getElem?_insert, if_pos h.1]
    · rename_i h
      split
      · rfl
      · rename_i hk
        rw [Std.ExtTreeMap.getElem?_insert, if_neg fun e => h ⟨e, by simpa using hk⟩]
  rw [recordConstructor, kept]
  split <;> rfl

end InheritanceContext

end ActionSignatures
