/-
**Primitive kinds and the names of the types with a role of their own.**

Main definitions:

* `ActionSignatures.PrimitiveKind` — the primitive types of the target machine;
* `ActionSignatures.PrimitiveKind.ofName?` — the kind with a given name;
* `ActionSignatures.WellKnown` — the qualified names that some rule singles out.

Main results:

* `ActionSignatures.PrimitiveKind.ofName?_eq_some_iff` — a kind is found by its name only.
-/

set_option relaxedAutoImplicit false
set_option autoImplicit false

namespace ActionSignatures

/-! ### Names with a role of their own -/

namespace WellKnown

/-- The root of the class hierarchy; an unbounded type parameter erases to it. -/
def object : String := "java.lang.Object"

/-- The class whose instances hold a truth value. -/
def boxedBoolean : String := "java.lang.Boolean"

/-- The class of decimal numbers of any length. -/
def bigDecimal : String := "java.math.BigDecimal"

end WellKnown

/-! ### Primitive kinds -/

/-- **The primitive types** of the target machine. -/
inductive PrimitiveKind where
  | boolean
  | byte
  | short
  | int
  | long
  | float
  | double
  | char
  | void
deriving DecidableEq, Repr

namespace PrimitiveKind

/-- The name under which a type mentions the kind. -/
def name : PrimitiveKind → String
  | .boolean => "boolean"
  | .byte => "byte"
  | .short => "short"
  | .int => "int"
  | .long => "long"
  | .float => "float"
  | .double => "double"
  | .char => "char"
  | .void => "void"

/-- All kinds. -/
def all : List PrimitiveKind :=
  [.boolean, .byte, .short, .int, .long, .float, .double, .char, .void]

/-- The kind with a given name, in exactly that spelling. -/
def ofName? (name : String) : Option PrimitiveKind := all.find? (·.name == name)

theorem mem_all (k : PrimitiveKind) : k ∈ all := by cases k <;> decide

@[simp] theorem ofName?_name (k : PrimitiveKind) : ofName? k.name = some k := by
  cases k <;> decide

/-- A kind is found by its name only. -/
theorem ofName?_eq_some_iff {name : String} {k : PrimitiveKind} :
    ofName? name = some k ↔ k.name = name := by
  constructor
  · intro h
    simpa using List.find?_some h
  · rintro rfl
    exact ofName?_name k

end PrimitiveKind

end ActionSignatures
