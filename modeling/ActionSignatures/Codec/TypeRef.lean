/-
**Types and expressions as JSON.**

References to types, literals and expressions are tagged values: their field `kind` says what they
are.  A reference and an expression are taken in as a whole, so that nothing in them may be
unreadable, even where it is ignored.

Main definitions:

* `ActionSignatures.TypeRef.toJson`, `ActionSignatures.TypeRef.ofJson` — references to types;
* `ActionSignatures.Literal.toJson`, `ActionSignatures.Literal.ofJson` — literals;
* `ActionSignatures.Expr.toJson`, `ActionSignatures.Expr.ofJson` — expressions;
* `ActionSignatures.DefaultExpression.toJson` — defaults.
-/

import ActionSignatures.Codec.Basic
import ActionSignatures.DefaultExpression

set_option relaxedAutoImplicit false
set_option autoImplicit false

namespace ActionSignatures

open Json (present)

/-! ### Writing -/

namespace TypeRef

mutual

/-- A reference to a type as a value. -/
def toJson : TypeRef → Json
  | .named name => .obj [("kind", .str "named"), ("name", .str name)]
  | .param owner name bound =>
      .obj ([("kind", .str "param"), ("owner", .str owner), ("name", .str name)] ++
        boundToJson bound)
  | .array element => .obj [("kind", .str "array"), ("element", element.toJson)]
  | .generic base args =>
      .obj [("kind", .str "generic"), ("base", .str base), ("args", .arr (argsToJson args))]

/-- The field of a bound, which is left out where there is none. -/
def boundToJson : Option TypeRef → List (String × Json)
  | none => []
  | some bound => [("bound", bound.toJson)]

/-- Type arguments as values. -/
def argsToJson : List TypeRef → List Json
  | [] => []
  | arg :: args => arg.toJson :: argsToJson args

end

end TypeRef

/-- A literal as a value. -/
def Literal.toJson : Literal → Json
  | .null => .obj [("kind", .str "null")]
  | .boolean value => .obj [("kind", .str "boolean"), ("value", .bool value)]
  | .integer value => .obj [("kind", .str "integer"), ("value", .int value.toInt)]
  | .float digits => .obj [("kind", .str "float"), ("value", .str digits)]
  | .double digits => .obj [("kind", .str "double"), ("value", .str digits)]
  | .char value => .obj [("kind", .str "char"), ("value", .str (String.singleton value))]

/-- An expression as a value. -/
def Expr.toJson : Expr → Json
  | .literal value => .obj [("kind", .str "literal"), ("value", value.toJson)]
  | .source text => .obj [("kind", .str "source"), ("text", .str text)]
  | .cast target operand =>
      .obj [("kind", .str "cast"), ("target", .str target.name), ("operand", operand.toJson)]

/-- A default as a value. -/
def DefaultExpression.toJson (d : DefaultExpression) : Json :=
  .obj [("expr", d.expr.toJson), ("isLiteral", .bool d.isLiteral)]

/-! ### Reading -/

namespace TypeRef

/-- The tags of references, with the names of their fields. -/
def cases : List (String × List String) :=
  [("named", ["name"]), ("param", ["owner", "name", "bound"]), ("array", ["element"]),
    ("generic", ["base", "args"])]

mutual

/-- The reference to a type that a readable value writes. -/
def ofReadable (standing : Json.Standing) (j : Json) : Decoded TypeRef :=
  match h : j.tagged? standing cases with
  | some ("named", [some name]) => named <$> name.text
  | some ("param", [some owner, some name, none]) =>
      return param (← owner.text) (← name.text) none
  | some ("param", [some owner, some name, some .null]) =>
      return param (← owner.text) (← name.text) none
  | some ("param", [some owner, some name, some bound]) => do
      have : sizeOf bound < sizeOf j := Json.sizeOf_lt_of_tagged? h (by simp)
      return param (← owner.text) (← name.text) (some (← ofReadable .inside bound))
  | some ("array", [some element]) => do
      have : sizeOf element < sizeOf j := Json.sizeOf_lt_of_tagged? h (by simp)
      return array (← ofReadable .inside element)
  | some ("generic", [some base, some (.arr args)]) => do
      have : sizeOf args < sizeOf j :=
        Nat.lt_trans (by simp) (Json.sizeOf_lt_of_tagged? (v := .arr args) h (by simp))
      return generic (← base.text) (← argsOfReadable args)
  | _ => .error .malformed
termination_by sizeOf j

/-- The type arguments that readable values write. -/
def argsOfReadable (items : List Json) : Decoded (List TypeRef) :=
  match items with
  | [] => .ok []
  | item :: items => return (← ofReadable .inside item) :: (← argsOfReadable items)
termination_by sizeOf items

end

/-- **The reference to a type that a value writes.** -/
def ofJson (j : Json) : Decoded TypeRef :=
  if j.readable then ofReadable .outside j else .error .malformed

end TypeRef

/-- The primitive kind that a value names. -/
def PrimitiveKind.ofJson (standing : Json.Standing) : Json → Decoded PrimitiveKind :=
  Json.oneOf standing all name

namespace Literal

/-- The tags of literals. -/
def tags : List String := ["null", "boolean", "integer", "float", "double", "char"]

/-- The literal with a tag and the value beside it.  The null literal may have a null value. -/
def ofTag : String → Option Json → Decoded Literal
  | "null", none => .ok .null
  | "null", some .null => .ok .null
  | "boolean", some (.bool value) => .ok (.boolean value)
  | "integer", some (.int n) =>
      if Int64.minValue.toInt ≤ n ∧ n ≤ Int64.maxValue.toInt then .ok (.integer (Int64.ofInt n))
      else .error .malformed
  | "float", some (.str digits) => .ok (.float digits)
  | "double", some (.str digits) => .ok (.double digits)
  | "char", some (.str s) =>
      match s.toList with
      | [c] => .ok (.char c)
      | _ => .error .malformed
  | _, _ => .error .malformed

/-- **The literal that a value inside an expression writes**: an object with a tag, which is a name,
and a value, or an array of tag and value. -/
def ofJson : Json → Decoded Literal
  | .obj fields =>
      if Json.unrepeated ["kind", "value"] fields then do
        let tag ← Json.required fields "kind" (Json.oneOf .inside tags id)
        ofTag tag (Json.field? "value" fields)
      else
        .error .malformed
  | .arr [tag, value] =>
      match tag.tag? .inside tags with
      | some tag => ofTag tag (some value)
      | none => .error .malformed
  | _ => .error .malformed

end Literal

namespace Expr

/-- The tags of expressions, with the names of their fields. -/
def cases : List (String × List String) :=
  [("literal", ["value"]), ("source", ["text"]), ("cast", ["target", "operand"])]

/-- The expression that a readable value writes. -/
def ofReadable (standing : Json.Standing) (j : Json) : Decoded Expr :=
  match h : j.tagged? standing cases with
  | some ("literal", [some value]) => literal <$> Literal.ofJson value
  | some ("source", [some text]) => source <$> text.text
  | some ("cast", [some target, some operand]) => do
      have : sizeOf operand < sizeOf j := Json.sizeOf_lt_of_tagged? h (by simp)
      return cast (← PrimitiveKind.ofJson .inside target) (← ofReadable .inside operand)
  | _ => .error .malformed
termination_by sizeOf j

/-- **The expression that a value writes.** -/
def ofJson (j : Json) : Decoded Expr :=
  if j.readable then ofReadable .outside j else .error .malformed

end Expr

end ActionSignatures
