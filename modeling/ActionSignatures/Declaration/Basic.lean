/-
**Declarations of types and of their members.**

Main definitions:

* `ActionSignatures.Visibility`, `ActionSignatures.DeclKind` — who sees a member, and what is
  declared;
* `ActionSignatures.TypeParam`, `ActionSignatures.Operation`, `ActionSignatures.Field`,
  `ActionSignatures.Constructor` — the parts of a declaration;
* `ActionSignatures.TypeDeclaration` — **declarations of types**;
* `ActionSignatures.TypeDeclaration.supertypes` — the references to direct super-types.
-/

import ActionSignatures.Declaration.Flags
import ActionSignatures.Signature

set_option relaxedAutoImplicit false
set_option autoImplicit false

namespace ActionSignatures

/-! ### Visibility -/

/-- Who sees a member, from everybody to the declaring type alone. -/
inductive Visibility where
  | everyone
  | subtypes
  | package
  | owner
deriving DecidableEq, Repr

namespace Visibility

instance : Inhabited Visibility := ⟨everyone⟩

/-- The keyword of a visibility. -/
def keyword : Visibility → String
  | .everyone => "public"
  | .subtypes => "protected"
  | .package => "package"
  | .owner => "private"

/-- All visibilities, from the widest to the narrowest. -/
def all : List Visibility := [.everyone, .subtypes, .package, .owner]

/-- How much narrower a visibility is than the widest. -/
def rank : Visibility → Nat
  | .everyone => 0
  | .subtypes => 1
  | .package => 2
  | .owner => 3

instance : Ord Visibility := ⟨compareOn rank⟩

/-- Whether subtypes see the member. -/
def isInheritable (v : Visibility) : Bool := v ≠ .owner

theorem isInheritable_eq_true_iff {v : Visibility} : v.isInheritable = true ↔ v ≠ .owner :=
  decide_eq_true_iff

end Visibility

/-! ### Kinds of declarations -/

/-- What a declaration declares. -/
inductive DeclKind where
  | classType
  | interfaceType
deriving DecidableEq, Repr

namespace DeclKind

instance : Inhabited DeclKind := ⟨classType⟩

/-- The keyword of a kind. -/
def keyword : DeclKind → String
  | .classType => "class"
  | .interfaceType => "interface"

/-- All kinds. -/
def all : List DeclKind := [.classType, .interfaceType]

end DeclKind

/-! ### Members -/

/-- A declared type parameter. -/
structure TypeParam where
  name : String
  bound : Option TypeRef := none
deriving DecidableEq, Repr

/-- The reference to a type parameter of an owner, with the bound it was declared with. -/
def TypeParam.toRef (p : TypeParam) (owner : String) : TypeRef := .param owner p.name p.bound

/-- **A declared operation.** -/
structure Operation where
  name : String
  signature : Signature := .empty
  returnType : TypeRef := .primitive .void
  visibility : Visibility := .everyone
  flags : OperationFlags := .none
  typeParams : List TypeParam := []
  exceptions : List TypeRef := []
deriving DecidableEq

namespace Operation

/-- Whether the operation has no body. -/
def isAbstract (op : Operation) : Bool := op.flags.contains .abstract

/-- Whether the operation cannot be overridden. -/
def isFinal (op : Operation) : Bool := op.flags.contains .final

/-- Whether the operation belongs to the type and not to its instances. -/
def isStatic (op : Operation) : Bool := op.flags.contains .static

/-- Whether the operation was generated. -/
def isSynthetic (op : Operation) : Bool := op.flags.contains .synthetic

/-- The operation with further modifiers. -/
def withFlags (op : Operation) (flags : OperationFlags) : Operation :=
  { op with flags := op.flags.union flags }

end Operation

/-- A declared field. -/
structure Field where
  name : String
  type : TypeRef
  visibility : Visibility := .everyone
  isStatic : Bool := false
deriving DecidableEq, Repr

/-- A declared constructor. -/
structure Constructor where
  signature : Signature := .empty
  visibility : Visibility := .everyone
  exceptions : List TypeRef := []
deriving DecidableEq

/-! ### Types -/

/-- **A declared type**, under its qualified name. -/
structure TypeDeclaration where
  name : String
  kind : DeclKind := .classType
  typeParams : List TypeParam := []
  superclass : Option TypeRef := none
  interfaces : List TypeRef := []
  operations : List Operation := []
  fields : List Field := []
  constructors : List Constructor := []
deriving DecidableEq

namespace TypeDeclaration

instance : Inhabited TypeDeclaration := ⟨{ name := "" }⟩

/-- Whether a class is declared. -/
def isClass (d : TypeDeclaration) : Bool := d.kind = .classType

/-- The reference to the type parameter of a name: the first one declared. -/
def typeParamRef? (d : TypeDeclaration) (name : String) : Option TypeRef :=
  (d.typeParams.find? (·.name == name)).map (·.toRef d.name)

/-- **The references to direct super-types**: the superclass, and then the interfaces in the order in
which they are declared. -/
def supertypes (d : TypeDeclaration) : List TypeRef := d.superclass.toList ++ d.interfaces

/-- The operations of a name, in the order in which they are declared. -/
def operationsNamed (d : TypeDeclaration) (name : String) : List Operation :=
  d.operations.filter (·.name == name)

/-- The declaration with one more operation at the end. -/
def withOperation (d : TypeDeclaration) (op : Operation) : TypeDeclaration :=
  { d with operations := d.operations ++ [op] }

/-- The declaration with one more field at the end. -/
def withField (d : TypeDeclaration) (field : Field) : TypeDeclaration :=
  { d with fields := d.fields ++ [field] }

/-- The declaration with one more constructor at the end. -/
def withConstructor (d : TypeDeclaration) (constructor : Constructor) : TypeDeclaration :=
  { d with constructors := d.constructors ++ [constructor] }

end TypeDeclaration

end ActionSignatures
