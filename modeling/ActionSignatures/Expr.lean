/-
**Expressions in front of and behind a call.**

The library does not look into expressions written in a declaration; it only keeps their text.  The
expressions that it makes itself are literals and narrowing conversions of literals.

Main definitions:

* `ActionSignatures.Literal` — literal values;
* `ActionSignatures.Expr` — expressions;
* `ActionSignatures.Expr.literal?` — the literal at the core of an expression.
-/

import ActionSignatures.Primitive

set_option relaxedAutoImplicit false
set_option autoImplicit false

namespace ActionSignatures

/-! ### Literals -/

/-- A literal.  Floating-point literals keep the digits of their source. -/
inductive Literal where
  | null
  | boolean (value : Bool)
  | integer (value : Int64)
  | float (digits : String)
  | double (digits : String)
  | char (value : Char)
deriving DecidableEq, Repr

namespace Literal

/-- The written form of a literal. -/
def display : Literal → String
  | .null => "null"
  | .boolean true => "true"
  | .boolean false => "false"
  | .integer value => toString value.toInt
  | .float digits => digits ++ "f"
  | .double digits => digits
  | .char value => if value = '\x00' then "'\\0'" else "'" ++ String.singleton value ++ "'"

end Literal

/-! ### Expressions -/

/-- **An expression**: a literal, source text that nobody looks into, or a narrowing conversion to a
primitive type. -/
inductive Expr where
  | literal (value : Literal)
  | source (text : String)
  | cast (target : PrimitiveKind) (operand : Expr)
deriving DecidableEq, Repr

namespace Expr

/-- The written form of an expression. -/
def display : Expr → String
  | .literal value => value.display
  | .source text => text
  | .cast target operand => "(" ++ target.name ++ ") " ++ operand.display

/-- The literal at the core of an expression, behind any number of conversions. -/
def literal? : Expr → Option Literal
  | .literal value => some value
  | .source _ => none
  | .cast _ operand => operand.literal?

end Expr

end ActionSignatures
