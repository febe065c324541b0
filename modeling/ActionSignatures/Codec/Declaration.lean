/-
**Declarations as JSON.**

Fields with default values are written all the same, except empty lists of type parameters,
exceptions and interfaces and a missing superclass or bound, which are left out.

Main definitions:

* `ActionSignatures.TypeDeclaration.toJson`, `ActionSignatures.TypeDeclaration.ofJson` —
  **declarations of types**, and likewise for all their parts;
* `ActionSignatures.DeclId.ofJson` — identifiers of declarations.
-/

import ActionSignatures.Codec.Signature
import ActionSignatures.Declaration.Store

set_option relaxedAutoImplicit false
set_option autoImplicit false

namespace ActionSignatures

open Json (present required optional inOrder leadingFields noneLeft)

/-- A list as a value, which is left out where it is empty. -/
def Json.unlessEmpty {α : Type} (toJson : α → Json) (items : List α) : Option Json :=
  if items.isEmpty then none else some (.arr (items.map toJson))

/-! ### Names of a few things -/

/-- A visibility as a value. -/
def Visibility.toJson (v : Visibility) : Json := .str v.keyword

/-- The visibility that a value names. -/
def Visibility.ofJson : Json → Decoded Visibility := Json.oneOf .outside all keyword

/-- A kind of declaration as a value. -/
def DeclKind.toJson (k : DeclKind) : Json := .str k.keyword

/-- The kind of declaration that a value names. -/
def DeclKind.ofJson : Json → Decoded DeclKind := Json.oneOf .outside all keyword

/-- Modifiers as a value. -/
def OperationFlags.toJson (f : OperationFlags) : Json := .str f.display

/-- **The modifiers that a value writes.** -/
def OperationFlags.ofJson (j : Json) : Decoded OperationFlags := do
  match parse (← j.text) with
  | some flags => .ok flags
  | _ => .error .malformed

/-- The identifier that a value writes. -/
def DeclId.ofJson (j : Json) : Decoded DeclId := DeclId.mk <$> j.word32

/-- The identifier as a value. -/
def DeclId.toJson (id : DeclId) : Json := .int id.index

/-! ### Members -/

namespace TypeParam

/-- A type parameter as a value. -/
def toJson (p : TypeParam) : Json :=
  .obj (present [("name", some (.str p.name)), ("bound", p.bound.map TypeRef.toJson)])

/-- **The type parameter that a value writes.** -/
def ofJson (j : Json) : Decoded TypeParam := do
  let fields ← j.record ["name", "bound"]
  return {
    name := ← required fields "name" Json.text
    bound := ← optional fields "bound" none (Json.nullable TypeRef.ofJson) }

end TypeParam

namespace Operation

/-- An operation as a value. -/
def toJson (op : Operation) : Json :=
  .obj (present
    [("name", some (.str op.name)),
      ("signature", some op.signature.toJson),
      ("returnType", some op.returnType.toJson),
      ("visibility", some op.visibility.toJson),
      ("flags", some op.flags.toJson),
      ("typeParams", Json.unlessEmpty TypeParam.toJson op.typeParams),
      ("exceptions", Json.unlessEmpty TypeRef.toJson op.exceptions)])

/-- The names of the fields of an operation. -/
def fieldNames : List String :=
  ["name", "signature", "returnType", "visibility", "flags", "typeParams", "exceptions"]

/-- **The operation that a value writes.** -/
def ofJson (j : Json) : Decoded Operation := do
  let fields ← leadingFields fieldNames j
  let name := required fields "name" Json.text
  let signature := optional fields "signature" .empty Signature.ofJson
  let returnType := optional fields "returnType" (.primitive .void) TypeRef.ofJson
  let visibility := optional fields "visibility" .everyone Visibility.ofJson
  let flags := optional fields "flags" .none OperationFlags.ofJson
  let typeParams := optional fields "typeParams" [] (Json.list TypeParam.ofJson)
  let exceptions := optional fields "exceptions" [] (Json.list TypeRef.ofJson)
  inOrder fields
    [("name", name.fault?), ("signature", signature.fault?), ("returnType", returnType.fault?),
      ("visibility", visibility.fault?), ("flags", flags.fault?),
      ("typeParams", typeParams.fault?), ("exceptions", exceptions.fault?)]
  noneLeft fieldNames j
  return {
    name := ← name
    signature := ← signature
    returnType := ← returnType
    visibility := ← visibility
    flags := ← flags
    typeParams := ← typeParams
    exceptions := ← exceptions }

end Operation

namespace Field

/-- A field as a value. -/
def toJson (f : Field) : Json :=
  .obj
    [("name", .str f.name),
      ("type", f.type.toJson),
      ("visibility", f.visibility.toJson),
      ("isStatic", .bool f.isStatic)]

/-- **The field that a value writes.** -/
def ofJson (j : Json) : Decoded Field := do
  let fields ← j.record ["name", "type", "visibility", "isStatic"]
  return {
    name := ← required fields "name" Json.text
    type := ← required fields "type" TypeRef.ofJson
    visibility := ← optional fields "visibility" .everyone Visibility.ofJson
    isStatic := ← optional fields "isStatic" false Json.truth }

end Field

namespace Constructor

/-- A constructor as a value. -/
def toJson (c : Constructor) : Json :=
  .obj (present
    [("signature", some c.signature.toJson),
      ("visibility", some c.visibility.toJson),
      ("exceptions", Json.unlessEmpty TypeRef.toJson c.exceptions)])

/-- The names of the fields of a constructor. -/
def fieldNames : List String := ["signature", "visibility", "exceptions"]

/-- **The constructor that a value writes.** -/
def ofJson (j : Json) : Decoded Constructor := do
  let fields ← leadingFields fieldNames j
  let signature := optional fields "signature" .empty Signature.ofJson
  let visibility := optional fields "visibility" .everyone Visibility.ofJson
  let exceptions := optional fields "exceptions" [] (Json.list TypeRef.ofJson)
  inOrder fields
    [("signature", signature.fault?), ("visibility", visibility.fault?),
      ("exceptions", exceptions.fault?)]
  noneLeft fieldNames j
  return {
    signature := ← signature
    visibility := ← visibility
    exceptions := ← exceptions }

end Constructor

/-! ### Types -/

namespace TypeDeclaration

/-- A declaration of a type as a value. -/
def toJson (d : TypeDeclaration) : Json :=
  .obj (present
    [("name", some (.str d.name)),
      ("kind", some d.kind.toJson),
      ("typeParams", Json.unlessEmpty TypeParam.toJson d.typeParams),
      ("superclass", d.superclass.map TypeRef.toJson),
      ("interfaces", Json.unlessEmpty TypeRef.toJson d.interfaces),
      ("operations", some (.arr (d.operations.map Operation.toJson))),
      ("fields", some (.arr (d.fields.map Field.toJson))),
      ("constructors", some (.arr (d.constructors.map Constructor.toJson)))])

/-- The names of the fields of a declaration. -/
def fieldNames : List String :=
  ["name", "kind", "typeParams", "superclass", "interfaces", "operations", "fields",
    "constructors"]

/-- **The declaration of a type that a value writes.** -/
def ofJson (j : Json) : Decoded TypeDeclaration := do
  let fields ← leadingFields fieldNames j
  let name := required fields "name" Json.text
  let kind := optional fields "kind" .classType DeclKind.ofJson
  let typeParams := optional fields "typeParams" [] (Json.list TypeParam.ofJson)
  let superclass := optional fields "superclass" none (Json.nullable TypeRef.ofJson)
  let interfaces := optional fields "interfaces" [] (Json.list TypeRef.ofJson)
  let operations := optional fields "operations" [] (Json.list Operation.ofJson)
  let members := optional fields "fields" [] (Json.list Field.ofJson)
  let constructors := optional fields "constructors" [] (Json.list Constructor.ofJson)
  inOrder fields
    [("name", name.fault?), ("kind", kind.fault?), ("typeParams", typeParams.fault?),
      ("superclass", superclass.fault?), ("interfaces", interfaces.fault?),
      ("operations", operations.fault?), ("fields", members.fault?),
      ("constructors", constructors.fault?)]
  noneLeft fieldNames j
  return {
    name := ← name
    kind := ← kind
    typeParams := ← typeParams
    superclass := ← superclass
    interfaces := ← interfaces
    operations := ← operations
    fields := ← members
    constructors := ← constructors }

end TypeDeclaration

end ActionSignatures
