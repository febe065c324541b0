/-
**Default expressions of types.**

An argument that a call leaves out is replaced by the default of its parameter's type.  Only the
erased name decides: numbers are zero, truth values false, characters the null character, and
everything else is the null reference.

Main definitions:

* `ActionSignatures.DefaultExpression` — a default, and whether it is a plain literal;
* `ActionSignatures.DefaultExpression.ofErased` — the default of an erased type;
* `ActionSignatures.DefaultExpression.ofType` — **the default of a type**.

Main results:

* `ActionSignatures.DefaultExpression.isLiteral_ofErased` — a default is a plain literal exactly
  when no conversion stands around it.
-/

import ActionSignatures.Expr
import ActionSignatures.TypeRef

set_option relaxedAutoImplicit false
set_option autoImplicit false

namespace ActionSignatures

/-- A default expression, and whether it is a plain literal, which needs no conversion at the
call. -/
structure DefaultExpression where
  expr : Expr
  isLiteral : Bool
deriving DecidableEq, Repr

namespace DefaultExpression

/-- A plain literal as default. -/
def plain (value : Literal) : DefaultExpression := ⟨.literal value, true⟩

/-- Zero, narrowed to a primitive type. -/
def narrowedZero (target : PrimitiveKind) : DefaultExpression :=
  ⟨.cast target (.literal (.integer 0)), false⟩

/-- The default of a primitive type.  No parameter has type `void`; its default is the one of
references. -/
def ofPrimitive : PrimitiveKind → DefaultExpression
  | .boolean => plain (.boolean false)
  | .byte => narrowedZero .byte
  | .short => narrowedZero .short
  | .int => plain (.integer 0)
  | .long => plain (.integer 0)
  | .float => plain (.float "0.0")
  | .double => plain (.double "0.0")
  | .char => plain (.char '\x00')
  | .void => plain .null

/-- The default of an erased type.  The class of truth values and the class of decimal numbers have
defaults of their own among the reference types. -/
def ofErased (name : ErasedType) : DefaultExpression :=
  match PrimitiveKind.ofName? name with
  | some k => ofPrimitive k
  | none =>
      if name = WellKnown.boxedBoolean then plain (.boolean false)
      else if name = WellKnown.bigDecimal then plain (.double "0.0")
      else plain .null

/-- **The default of a type**, which depends on its erasure alone. -/
def ofType (t : TypeRef) : DefaultExpression := ofErased t.erasure

/-- A default is a plain literal exactly when its expression is a literal. -/
theorem isLiteral_ofErased (name : ErasedType) :
    (ofErased name).isLiteral = true ↔ ∃ v, (ofErased name).expr = .literal v := by
  rw [ofErased]
  split
  · rename_i k _
    cases k <;> simp [ofPrimitive, plain, narrowedZero]
  · split
    · simp [plain]
    · split <;> simp [plain]

end DefaultExpression

end ActionSignatures
