/-
**Signatures, prototypes and overloads as JSON.**

A signature is the array of its parameters and is checked when it is read.  Parameter types and
prototypes are written in their textual forms, so that reading parses them.  Overloads are only
written.

Main definitions:

* `ActionSignatures.Parameter.toJson`, `ActionSignatures.Parameter.ofJson` — parameters;
* `ActionSignatures.Signature.toJson`, `ActionSignatures.Signature.ofJson` — signatures;
* `ActionSignatures.ParameterTypes.ofJson`, `ActionSignatures.Prototype.ofJson` — textual forms;
* `ActionSignatures.OverloadSet.fields` — an action with its overloads.
-/

import ActionSignatures.Codec.TypeRef
import ActionSignatures.Overload.Synthesis

set_option relaxedAutoImplicit false
set_option autoImplicit false

namespace ActionSignatures

open Json (present required optional inOrder)

/-! ### Signatures -/

namespace Parameter

/-- A parameter as a value. -/
def toJson (p : Parameter) : Json :=
  .obj (present
    [("name", some (.str p.name)),
      ("type", some p.type.toJson),
      ("hasDefaultValue", some (.bool p.hasDefaultValue)),
      ("defaultValue", p.defaultValue.map Expr.toJson),
      ("isVarargs", some (.bool p.isVarargs))])

/-- **The parameter that a value writes.** -/
def ofJson (j : Json) : Decoded Parameter := do
  let fields ← j.record ["name", "type", "hasDefaultValue", "defaultValue", "isVarargs"]
  let name := required fields "name" Json.text
  let type := required fields "type" TypeRef.ofJson
  let hasDefaultValue := optional fields "hasDefaultValue" false Json.truth
  let defaultValue := optional fields "defaultValue" none (Json.nullable Expr.ofJson)
  let isVarargs := optional fields "isVarargs" false Json.truth
  inOrder fields
    [("name", name.fault?), ("type", type.fault?), ("hasDefaultValue", hasDefaultValue.fault?),
      ("defaultValue", defaultValue.fault?), ("isVarargs", isVarargs.fault?)]
  return {
    name := ← name
    type := ← type
    hasDefaultValue := ← hasDefaultValue
    defaultValue := ← defaultValue
    isVarargs := ← isVarargs }

end Parameter

namespace Signature

/-- A signature as a value. -/
def toJson (s : Signature) : Json := .arr (s.params.map Parameter.toJson)

/-- The signature with the given parameters, for a reader. -/
def decode (params : List Parameter) : Decoded Signature :=
  match ofParams params with
  | .ok s => .ok s
  | .error offence => .error (.signature offence)

/-- **The signature that a value writes**, checked once all its parameters have been read. -/
def ofJson (j : Json) : Decoded Signature := do
  decode (← j.list Parameter.ofJson)

end Signature

/-! ### Textual forms -/

/-- Parameter types as a value. -/
def ParameterTypes.toJson (t : ParameterTypes) : Json := .str t.display

/-- **The parameter types that a value writes.** -/
def ParameterTypes.ofJson (j : Json) : Decoded ParameterTypes := do
  match parse (← j.text) with
  | .ok types => .ok types
  | .error fault => .error (.prototype fault)

/-- A prototype as a value. -/
def Prototype.toJson (p : Prototype) : Json := .str p.display

/-- **The prototype that a value writes.** -/
def Prototype.ofJson (j : Json) : Decoded Prototype := do
  match parse (← j.text) with
  | .ok prototype => .ok prototype
  | .error fault => .error (.prototype fault)

namespace DefaultValueId

/-- The identity of a default value as a value. -/
def toJson (d : DefaultValueId) : Json :=
  .obj [("owner", .str d.owner), ("action", .str d.action), ("position", .int d.position)]

/-- **The identity of a default value that a value writes.** -/
def ofJson (j : Json) : Decoded DefaultValueId := do
  let fields ← j.record ["owner", "action", "position"]
  return {
    owner := ← required fields "owner" Json.text
    action := ← required fields "action" Json.text
    position := ← required fields "position" Json.word64 }

end DefaultValueId

/-! ### Overloads -/

namespace SynthesisOptions

/-- Options as a value. -/
def toJson (o : SynthesisOptions) : Json :=
  .obj [("maxDefaultParameters", .int o.maxDefaultParameters.toNat)]

/-- **The options that a value writes.** -/
def ofJson (j : Json) : Decoded SynthesisOptions := do
  let fields ← j.record ["maxDefaultParameters"]
  let max ← optional fields "maxDefaultParameters" Limits.maxDefaultParameters
    fun value => UInt32.ofNat <$> value.word32
  return ⟨max⟩

end SynthesisOptions

/-- Positions as a value. -/
def positionsToJson (positions : List Nat) : Json := .arr (positions.map fun p : Nat => .int p)

/-- An argument as a value. -/
def Argument.toJson : Argument → Json
  | .forward position name =>
      .obj [("kind", .str "forward"), ("position", .int position), ("name", .str name)]
  | .default position name value declared defaultId =>
      .obj (present
        [("kind", some (.str "default")),
          ("position", some (.int position)),
          ("name", some (.str name)),
          ("value", some value.toJson),
          ("declared", declared.map Expr.toJson),
          ("defaultId", defaultId.map DefaultValueId.toJson)])

/-- An overload as a value. -/
def Overload.toJson (o : Overload) : Json :=
  .obj
    [("signature", o.signature.toJson),
      ("parameterTypes", o.parameterTypes.toJson),
      ("plan", .arr (o.plan.map Argument.toJson)),
      ("omitted", positionsToJson o.omitted),
      ("usesDefaultsFrom", o.usesDefaultsFrom.toJson)]

/-- The fields of an action with its overloads. -/
def OverloadSet.fields {β : Type} (s : OverloadSet β) : List (String × Json) :=
  [("canonical", s.canonical.toJson),
    ("sourceOfDefaults", s.sourceOfDefaults.toJson),
    ("overloads", .arr (s.overloads.toList.map Overload.toJson))]

end ActionSignatures
