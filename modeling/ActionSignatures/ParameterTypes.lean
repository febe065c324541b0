/-
**Parameter types: what tells overloads apart.**

Two overloads of one action differ by the erased types of their parameters and by whether the last
parameter is variadic; names and default values of parameters play no part.  The written form lists
the erased names with commas between them and a star behind the last one of a variadic list.

Main definitions:

* `ActionSignatures.ParameterTypes` — erased types and the variadic mark;
* `ActionSignatures.ParameterTypes.display` — the written form;
* `ActionSignatures.ParameterTypes.parse` — **reading the written form**;
* `ActionSignatures.PrototypeFault` — what can be wrong with it.

Main results:

* `ActionSignatures.ParameterTypes.compare_def` — the order: by the erased names, a proper prefix
  first, and then the list that is not variadic before the one that is.
-/

import ActionSignatures.Signature
import ActionSignatures.Text.Blank

set_option relaxedAutoImplicit false
set_option autoImplicit false

namespace ActionSignatures

/-! ### Parameter types -/

/-- **Erased parameter types**, and whether the last of them is variadic. -/
structure ParameterTypes where
  types : List ErasedType
  varargs : Bool
  nonempty : varargs = true → types ≠ []

namespace ParameterTypes

@[ext] theorem ext {s t : ParameterTypes} (types : s.types = t.types)
    (varargs : s.varargs = t.varargs) : s = t := by
  cases s; cases t; cases types; cases varargs; rfl

instance : DecidableEq ParameterTypes := fun s t =>
  if h : s.types = t.types ∧ s.varargs = t.varargs then
    isTrue (ext h.1 h.2)
  else
    isFalse fun e => h (by rw [e]; exact ⟨rfl, rfl⟩)

instance : Hashable ParameterTypes := ⟨fun t => mixHash (hash t.types) (hash t.varargs)⟩

/-- Parameter types are ordered by their erased names, a proper prefix first; of two lists with the
same names the one that is not variadic comes first. -/
instance : Ord ParameterTypes := ⟨compareLex (compareOn types) (compareOn varargs)⟩

theorem compare_def (s t : ParameterTypes) :
    compare s t = (compare s.types t.types).then (compare s.varargs t.varargs) := rfl

instance : Std.TransOrd ParameterTypes :=
  inferInstanceAs (Std.TransCmp (compareLex (compareOn types) (compareOn varargs)))

instance : Std.LawfulEqOrd ParameterTypes where
  compare_self := Std.ReflCmp.compare_self
  eq_of_compare {s t} h := by
    rw [compare_def, Ordering.then_eq_eq] at h
    exact ext (Std.LawfulEqOrd.eq_of_compare h.1) (Std.LawfulEqOrd.eq_of_compare h.2)

/-- The parameter types of no parameters. -/
def empty : ParameterTypes := ⟨[], false, nofun⟩

instance : Inhabited ParameterTypes := ⟨empty⟩

/-- The parameter types with the given names.  An empty list is never variadic. -/
def of (types : List ErasedType) (varargs : Bool) : ParameterTypes where
  types := types
  varargs := varargs && !types.isEmpty
  nonempty h := by
    simp only [Bool.and_eq_true, Bool.not_eq_true', List.isEmpty_eq_false_iff] at h
    exact h.2

/-- The number of parameters. -/
def length (t : ParameterTypes) : Nat := t.types.length

/-- Whether there is no parameter. -/
def isEmpty (t : ParameterTypes) : Bool := t.types.isEmpty

/-- The written form: the names with commas between them, and a star at the end of a variadic
list. -/
def display (t : ParameterTypes) : String :=
  ",".intercalate t.types ++ (if t.varargs then "*" else "")

end ParameterTypes

/-- The parameter types of a signature. -/
def Signature.parameterTypes (s : Signature) : ParameterTypes where
  types := s.params.map (·.type.erasure)
  varargs := s.isVarargs
  nonempty h e := by
    rw [List.map_eq_nil_iff] at e
    simp [Signature.isVarargs, e] at h

/-! ### Reading the written form -/

/-- What is wrong with the written form of parameter types or of a prototype; positions are those of
the comma-separated parts. -/
inductive PrototypeFault where
  | emptyType (position : Nat)
  | misplacedVarargs (position : Nat)
  | missingParameterList (text : String)
deriving DecidableEq, Repr

/-- The wording of a fault. -/
def PrototypeFault.message : PrototypeFault → String
  | .emptyType position => "empty type name at position " ++ toString position
  | .misplacedVarargs position =>
      "only the last parameter type may be variadic (position " ++ toString position ++ ")"
  | .missingParameterList text => "missing parameter list in '" ++ text ++ "'"

namespace ParameterTypes

/-- A part without the star at its end, if it has one. -/
def unstarred (part : List Char) : Option (List Char) :=
  if part.getLast? = some '*' then some part.dropLast else none

/-- The name that a part writes at a position. -/
def nameOf (position : Nat) (part : List Char) : Except PrototypeFault ErasedType :=
  if part = [] then .error (.emptyType position) else .ok (String.ofList part)

/-- The parameter types that the trimmed parts from a position on write.  Only the last part may end
in a star. -/
def ofParts (position : Nat) : List (List Char) → Except PrototypeFault ParameterTypes
  | [] => .ok empty
  | [part] =>
      match unstarred part with
      | some bare => (nameOf position bare).map fun name => of [name] true
      | none => (nameOf position part).map fun name => of [name] false
  | part :: parts =>
      if (unstarred part).isSome then
        .error (.misplacedVarargs position)
      else do
        let name ← nameOf position part
        let rest ← ofParts (position + 1) parts
        .ok (of (name :: rest.types) rest.varargs)

/-- The parameter types that a list of characters writes. -/
def parseChars (cs : List Char) : Except PrototypeFault ParameterTypes :=
  let text := Text.trim cs
  if text = [] then .ok empty else ofParts 0 ((Text.pieces ',' text).map Text.trim)

/-- **Reading parameter types**: a blank text writes the empty list; in any other the parts between
the commas are names, and a star behind the last name makes the list variadic.  Blanks around the
parts are ignored. -/
def parse (text : String) : Except PrototypeFault ParameterTypes := parseChars text.toList

end ParameterTypes

end ActionSignatures
