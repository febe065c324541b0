/-
**Declarations are read back.**

A record leaves out a field only where the reader supplies the same value, every name that is written
is the only one among those that the reader knows, and a signature passes the check that every list
of parameters has to pass.  So a declaration is read back as it was, whatever types, expressions and
modifiers it is made of.

Main definitions:

* `ActionSignatures.TypeDeclaration.written` — what is written of a declaration, field by field, and
  likewise for all its parts.

Main results:

* `ActionSignatures.Signature.readBack` — signatures are read back;
* `ActionSignatures.Operation.readBack`, `ActionSignatures.Field.readBack`,
  `ActionSignatures.Constructor.readBack` — members are read back;
* `ActionSignatures.TypeDeclaration.ofJson_toJson` — **declarations are read back**.
-/

import ActionSignatures.Codec.Declaration
import ActionSignatures.Proofs.Codec.Modifiers
import ActionSignatures.Proofs.Codec.Types

set_option relaxedAutoImplicit false
set_option autoImplicit false

namespace ActionSignatures

open Json (present inOrder_eq_ok ok_bind ReadBack readBack_text readBack_truth
  required_present optional_present leadingFields_present record_present)

/-! ### Names and modifiers -/

theorem Visibility.readBack : ReadBack toJson ofJson :=
  ReadBack.oneOf (fun v => by cases v <;> decide) .outside

theorem DeclKind.readBack : ReadBack toJson ofJson :=
  ReadBack.oneOf (fun k => by cases k <;> decide) .outside

theorem OperationFlags.readBack : ReadBack toJson ofJson := by
  intro f
  have htext : f.toJson.text = .ok f.display := rfl
  rw [ofJson, htext, ok_bind, parse_display]

/-! ### Signatures -/

namespace Parameter

/-- What is written of a parameter, field by field. -/
def written (p : Parameter) : List (String × Option Json) :=
  [("name", some (.str p.name)), ("type", some p.type.toJson),
    ("hasDefaultValue", some (.bool p.hasDefaultValue)),
    ("defaultValue", p.defaultValue.map Expr.toJson), ("isVarargs", some (.bool p.isVarargs))]

theorem toJson_eq (p : Parameter) : p.toJson = .obj (present p.written) := rfl

theorem readBack : ReadBack toJson ofJson := by
  intro p
  have hnames : (p.written.map (·.1)).Nodup := by simp [written]
  have hname := required_present hnames 0 rfl (readBack_text p.name)
  have htype := required_present hnames 1 rfl (TypeRef.readBack p.type)
  have hflag := optional_present hnames 2 rfl
    (readBack_truth.standsFor_some false p.hasDefaultValue)
  have hdefault := optional_present hnames 3 rfl
    (Expr.readBack.standsFor_map Expr.toJson_ne_null p.defaultValue)
  have hvarargs := optional_present hnames 4 rfl
    (readBack_truth.standsFor_some false p.isVarargs)
  rw [toJson_eq]
  simp only [ofJson, record_present hnames, ok_bind, hname, htype, hflag, hdefault, hvarargs]
  rw [inOrder_eq_ok (by simp)]
  rfl

end Parameter

theorem Signature.readBack : ReadBack toJson ofJson := by
  intro s
  have hparams : Json.list Parameter.ofJson s.toJson = .ok s.params :=
    Parameter.readBack.list s.params
  rw [ofJson, hparams, ok_bind, decode, ofParams_params]

/-! ### Members -/

namespace TypeParam

/-- What is written of a type parameter, field by field. -/
def written (p : TypeParam) : List (String × Option Json) :=
  [("name", some (.str p.name)), ("bound", p.bound.map TypeRef.toJson)]

theorem toJson_eq (p : TypeParam) : p.toJson = .obj (present p.written) := rfl

theorem readBack : ReadBack toJson ofJson := by
  intro p
  have hnames : (p.written.map (·.1)).Nodup := by simp [written]
  have hname := required_present hnames 0 rfl (readBack_text p.name)
  have hbound := optional_present hnames 1 rfl
    (TypeRef.readBack.standsFor_map TypeRef.toJson_ne_null p.bound)
  rw [toJson_eq]
  simp only [ofJson, record_present hnames, ok_bind, hname, hbound]
  rfl

end TypeParam

namespace Operation

/-- What is written of an operation, field by field. -/
def written (op : Operation) : List (String × Option Json) :=
  [("name", some (.str op.name)), ("signature", some op.signature.toJson),
    ("returnType", some op.returnType.toJson), ("visibility", some op.visibility.toJson),
    ("flags", some op.flags.toJson),
    ("typeParams", Json.unlessEmpty TypeParam.toJson op.typeParams),
    ("exceptions", Json.unlessEmpty TypeRef.toJson op.exceptions)]

theorem toJson_eq (op : Operation) : op.toJson = .obj (present op.written) := rfl

theorem map_fst_written (op : Operation) : op.written.map (·.1) = fieldNames := rfl

theorem readBack : ReadBack toJson ofJson := by
  intro op
  have hnames : (op.written.map (·.1)).Nodup := by
    rw [map_fst_written]
    decide
  have hname := required_present hnames 0 rfl (readBack_text op.name)
  have hsignature := optional_present hnames 1 rfl
    (Signature.readBack.standsFor_some .empty op.signature)
  have hreturn := optional_present hnames 2 rfl
    (TypeRef.readBack.standsFor_some (.primitive .void) op.returnType)
  have hvisibility := optional_present hnames 3 rfl
    (Visibility.readBack.standsFor_some .everyone op.visibility)
  have hflags := optional_present hnames 4 rfl
    (OperationFlags.readBack.standsFor_some .none op.flags)
  have hparams := optional_present hnames 5 rfl
    (TypeParam.readBack.standsFor_unlessEmpty op.typeParams)
  have hexceptions := optional_present hnames 6 rfl
    (TypeRef.readBack.standsFor_unlessEmpty op.exceptions)
  rw [toJson_eq]
  simp only [ofJson, leadingFields_present hnames, ok_bind, hname, hsignature, hreturn, hvisibility,
    hflags, hparams, hexceptions]
  rw [inOrder_eq_ok (by simp)]
  rfl

end Operation

namespace Field

/-- What is written of a field, field by field. -/
def written (f : Field) : List (String × Option Json) :=
  [("name", some (.str f.name)), ("type", some f.type.toJson),
    ("visibility", some f.visibility.toJson), ("isStatic", some (.bool f.isStatic))]

theorem toJson_eq (f : Field) : f.toJson = .obj (present f.written) := rfl

theorem readBack : ReadBack toJson ofJson := by
  intro f
  have hnames : (f.written.map (·.1)).Nodup := by simp [written]
  have hname := required_present hnames 0 rfl (readBack_text f.name)
  have htype := required_present hnames 1 rfl (TypeRef.readBack f.type)
  have hvisibility := optional_present hnames 2 rfl
    (Visibility.readBack.standsFor_some .everyone f.visibility)
  have hstatic := optional_present hnames 3 rfl (readBack_truth.standsFor_some false f.isStatic)
  rw [toJson_eq]
  simp only [ofJson, record_present hnames, ok_bind, hname, htype, hvisibility, hstatic]
  rfl

end Field

namespace Constructor

/-- What is written of a constructor, field by field. -/
def written (c : Constructor) : List (String × Option Json) :=
  [("signature", some c.signature.toJson), ("visibility", some c.visibility.toJson),
    ("exceptions", Json.unlessEmpty TypeRef.toJson c.exceptions)]

theorem toJson_eq (c : Constructor) : c.toJson = .obj (present c.written) := rfl

theorem map_fst_written (c : Constructor) : c.written.map (·.1) = fieldNames := rfl

theorem readBack : ReadBack toJson ofJson := by
  intro c
  have hnames : (c.written.map (·.1)).Nodup := by
    rw [map_fst_written]
    decide
  have hsignature := optional_present hnames 0 rfl
    (Signature.readBack.standsFor_some .empty c.signature)
  have hvisibility := optional_present hnames 1 rfl
    (Visibility.readBack.standsFor_some .everyone c.visibility)
  have hexceptions := optional_present hnames 2 rfl
    (TypeRef.readBack.standsFor_unlessEmpty c.exceptions)
  rw [toJson_eq]
  simp only [ofJson, leadingFields_present hnames, ok_bind, hsignature, hvisibility, hexceptions]
  rw [inOrder_eq_ok (by simp)]
  rfl

end Constructor

/-! ### Types -/

namespace TypeDeclaration

/-- What is written of a declaration, field by field. -/
def written (d : TypeDeclaration) : List (String × Option Json) :=
  [("name", some (.str d.name)), ("kind", some d.kind.toJson),
    ("typeParams", Json.unlessEmpty TypeParam.toJson d.typeParams),
    ("superclass", d.superclass.map TypeRef.toJson),
    ("interfaces", Json.unlessEmpty TypeRef.toJson d.interfaces),
    ("operations", some (.arr (d.operations.map Operation.toJson))),
    ("fields", some (.arr (d.fields.map Field.toJson))),
    ("constructors", some (.arr (d.constructors.map Constructor.toJson)))]

theorem toJson_eq (d : TypeDeclaration) : d.toJson = .obj (present d.written) := rfl

theorem map_fst_written (d : TypeDeclaration) : d.written.map (·.1) = fieldNames := rfl

/-- **Declarations are read back**: what is written of a declaration reads as that declaration. -/
theorem ofJson_toJson (d : TypeDeclaration) : ofJson d.toJson = .ok d := by
  have hnames : (d.written.map (·.1)).Nodup := by
    rw [map_fst_written]
    decide
  have hname := required_present hnames 0 rfl (readBack_text d.name)
  have hkind := optional_present hnames 1 rfl (DeclKind.readBack.standsFor_some .classType d.kind)
  have hparams := optional_present hnames 2 rfl
    (TypeParam.readBack.standsFor_unlessEmpty d.typeParams)
  have hsuperclass := optional_present hnames 3 rfl
    (TypeRef.readBack.standsFor_map TypeRef.toJson_ne_null d.superclass)
  have hinterfaces := optional_present hnames 4 rfl
    (TypeRef.readBack.standsFor_unlessEmpty d.interfaces)
  have hoperations := optional_present hnames 5 rfl
    (Operation.readBack.list.standsFor_some [] d.operations)
  have hmembers := optional_present hnames 6 rfl (Field.readBack.list.standsFor_some [] d.fields)
  have hconstructors := optional_present hnames 7 rfl
    (Constructor.readBack.list.standsFor_some [] d.constructors)
  rw [toJson_eq]
  simp only [ofJson, leadingFields_present hnames, ok_bind, hname, hkind, hparams, hsuperclass,
    hinterfaces, hoperations, hmembers, hconstructors]
  rw [inOrder_eq_ok (by simp)]
  rfl

end TypeDeclaration

end ActionSignatures
