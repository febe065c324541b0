/-
**Prototypes: the identity of an overload.**

A prototype is the name of an action together with its parameter types.  It is the key under which
overriding operations meet.  The written form puts the parameter types into parentheses behind the
name.

Main definitions:

* `ActionSignatures.Prototype` — name and parameter types;
* `ActionSignatures.Prototype.display`, `ActionSignatures.Prototype.parse` — **the written form**;
* `ActionSignatures.DefaultValueId` — the member that holds one default value.

Main results:

* `ActionSignatures.Prototype.compare_def` — the order: by name, and then by parameter types.
-/

import ActionSignatures.ParameterTypes
import ActionSignatures.Text.Upper

set_option relaxedAutoImplicit false
set_option autoImplicit false

namespace ActionSignatures

/-! ### Prototypes -/

/-- **The identity of an overload** within its owner. -/
structure Prototype where
  name : String
  params : ParameterTypes
deriving DecidableEq, Hashable

namespace Prototype

/-- Prototypes are ordered by name, and by parameter types where the name is the same. -/
instance : Ord Prototype := ⟨compareLex (compareOn name) (compareOn params)⟩

theorem compare_def (p q : Prototype) :
    compare p q = (compare p.name q.name).then (compare p.params q.params) := rfl

instance : Std.TransOrd Prototype :=
  inferInstanceAs (Std.TransCmp (compareLex (compareOn name) (compareOn params)))

instance : Std.LawfulEqOrd Prototype where
  compare_self := Std.ReflCmp.compare_self
  eq_of_compare {p q} h := by
    rw [compare_def, Ordering.then_eq_eq] at h
    cases p
    cases q
    exact (Prototype.mk.injEq ..).mpr
      ⟨Std.LawfulEqOrd.eq_of_compare h.1, Std.LawfulEqOrd.eq_of_compare h.2⟩

instance : Inhabited Prototype := ⟨⟨"", .empty⟩⟩

/-- The prototype of an action with a given signature. -/
def ofSignature (name : String) (s : Signature) : Prototype := ⟨name, s.parameterTypes⟩

/-- The written form: the parameter types in parentheses behind the name. -/
def display (p : Prototype) : String := p.name ++ "(" ++ p.params.display ++ ")"

/-! ### Reading the written form -/

/-- The prototype that a list of characters writes. -/
def parseChars (cs : List Char) : Except PrototypeFault Prototype :=
  let text := Text.trim cs
  let missing := PrototypeFault.missingParameterList (String.ofList text)
  match text.dropWhile (· ≠ '(') with
  | [] => .error missing
  | _ :: rest =>
      if rest.getLast? = some ')' then
        (ParameterTypes.parseChars rest.dropLast).map fun params =>
          ⟨String.ofList (Text.trim (text.takeWhile (· ≠ '('))), params⟩
      else
        .error missing

/-- **Reading a prototype**: the name in front of the first opening parenthesis, and the parameter
types between it and the closing parenthesis at the end.  Blanks around the tokens are ignored. -/
def parse (text : String) : Except PrototypeFault Prototype := parseChars text.toList

end Prototype

/-! ### Members that hold default values -/

/-- The identity of the generated member that holds the default value of one parameter. -/
structure DefaultValueId where
  owner : String
  action : String
  position : Nat
deriving DecidableEq, Repr

namespace DefaultValueId

/-- What stands in front of the key in the name of a generated member. -/
def memberMark : String := "$DEFAULT_VALUE$"

/-- The key of a default value among those of one owner: the action in upper case, and the
position. -/
def key (d : DefaultValueId) : String := Text.upper d.action ++ "_" ++ toString d.position

/-- The name of the generated member. -/
def memberName (d : DefaultValueId) : String := memberMark ++ d.key

/-- The written form: owner and key around a number sign. -/
def display (d : DefaultValueId) : String := d.owner ++ "#" ++ d.key

end DefaultValueId

end ActionSignatures
