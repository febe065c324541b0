/-
**Contexts and diagnostics as JSON.**

Contexts and diagnostics are only written.  Operations stand under the written forms of their
prototypes, which need not tell all prototypes apart: a form may come twice.  The names that options
exclude are a set and are written in order.

Main definitions:

* `ActionSignatures.Diagnostic.toJson` — diagnostics;
* `ActionSignatures.ResolverOptions.toJson`, `ActionSignatures.ResolverOptions.ofJson` — options;
* `ActionSignatures.InheritanceContext.toJson` — **contexts**.
-/

import ActionSignatures.Codec.Declaration
import ActionSignatures.Inheritance.Walk

set_option relaxedAutoImplicit false
set_option autoImplicit false

namespace ActionSignatures

open Json (present optional)

/-! ### Diagnostics -/

/-- The fields of a message at a place. -/
def Place.messageFields (p : Place) (text : String) (category : DiagnosticCategory) (code : Nat) :
    List (String × Json) :=
  [("file", .str p.file),
    ("start", .int p.start),
    ("length", .int p.length),
    ("message_text", .str text),
    ("category", .str category.name),
    ("code", .int code)]

/-- A related message as a value. -/
def RelatedInformation.toJson (r : RelatedInformation) : Json :=
  .obj (r.toPlace.messageFields r.text r.category r.code)

/-- **A diagnostic as a value.** -/
def Diagnostic.toJson (d : Diagnostic) : Json :=
  .obj (d.toPlace.messageFields d.text d.category d.code ++
    present [("related_information", Json.unlessEmpty RelatedInformation.toJson d.related)])

/-! ### Options -/

namespace ResolverOptions

/-- Options as a value. -/
def toJson (o : ResolverOptions) : Json :=
  .obj
    [("excludedAncestors", .arr (o.excludedAncestors.toList.map .str)),
      ("skipSynthetic", .bool o.skipSynthetic)]

/-- **The options that a value writes.** -/
def ofJson (j : Json) : Decoded ResolverOptions := do
  let fields ← j.record ["excludedAncestors", "skipSynthetic"]
  return {
    excludedAncestors :=
      Std.TreeSet.ofList (← optional fields "excludedAncestors" [] (Json.list Json.text))
    skipSynthetic := ← optional fields "skipSynthetic" true Json.truth }

end ResolverOptions

/-! ### Contexts -/

/-- An inherited operation as a value. -/
def InheritedOperation.toJson (op : InheritedOperation) : Json :=
  .obj (present
    [("prototype", some op.prototype.toJson),
      ("owner", some (.str op.owner)),
      ("signature", some op.signature.toJson),
      ("returnType", some op.returnType.toJson),
      ("visibility", some op.visibility.toJson),
      ("isAbstract", some (.bool op.isAbstract)),
      ("isFinal", some (.bool op.isFinal)),
      ("typeParameters", Json.unlessEmpty TypeParam.toJson op.typeParams),
      ("exceptions", Json.unlessEmpty TypeRef.toJson op.exceptions)])

/-- An inherited field as a value. -/
def InheritedField.toJson (f : InheritedField) : Json :=
  .obj [("name", .str f.name), ("type", f.type.toJson), ("owner", .str f.owner)]

/-- A constructor of the superclass as a value. -/
def MirroredConstructor.toJson (c : MirroredConstructor) : Json :=
  .obj (present
    [("prototype", some c.prototype.toJson),
      ("owner", some (.str c.owner)),
      ("signature", some c.signature.toJson),
      ("visibility", some c.visibility.toJson),
      ("exceptions", Json.unlessEmpty TypeRef.toJson c.exceptions)])

/-- A reference that leads nowhere as a value. -/
def UnresolvedAncestor.toJson (u : UnresolvedAncestor) : Json :=
  .obj [("reference", u.reference.toJson), ("referencedBy", .str u.referencedBy)]

/-- A walk that stopped at its limit as a value. -/
def TruncatedWalk.toJson (t : TruncatedWalk) : Json :=
  .obj [("root", .str t.root), ("edgeLimit", .int t.edgeLimit)]

/-- Operations by prototype as a value. -/
def operationsToJson (operations : OperationMap) : Json :=
  .obj (operations.toList.map fun (p, op) => (p.display, op.toJson))

/-- **A context as a value.** -/
def InheritanceContext.toJson (c : InheritanceContext) : Json :=
  .obj (present
    [("ancestors", some (.arr (c.ancestors.toList.map .str))),
      ("finalOperations", some (operationsToJson c.finalOperations)),
      ("overridableOperations", some (operationsToJson c.overridableOperations)),
      ("operationsToImplement", some (operationsToJson c.operationsToImplement)),
      ("inheritedFields",
        some (.obj (c.inheritedFields.entries.map fun (name, f) => (name, f.toJson)))),
      ("constructors",
        some (.obj (c.constructors.toList.map fun (types, k) => (types.display, k.toJson)))),
      ("unresolved", Json.unlessEmpty UnresolvedAncestor.toJson c.unresolved.toList),
      ("truncated", c.truncated.map TruncatedWalk.toJson)])

end ActionSignatures
