/-
**Bindings of type parameters and substitution.**

When a generic type is extended, its type parameters are bound to the arguments at the extension
point.  An argument may mention parameters of the extending type, which are bound in turn, so that
substitution follows the bindings through arrays and type arguments.  Bounds of type parameters are
left alone.  Bindings may be cyclic; the number of bindings bounds how far they are followed.

Main definitions:

* `ActionSignatures.TypeBindings` — bindings of type parameters;
* `ActionSignatures.TypeBindings.resolve` — **following a type parameter**;
* `ActionSignatures.TypeBindings.substitute` — **substituting inside a type**.

Main results:

* `ActionSignatures.TypeBindings.substitute_named`, `ActionSignatures.TypeBindings.substitute_array`,
  `ActionSignatures.TypeBindings.substitute_generic` — substitution goes through the structure of a
  type;
* `ActionSignatures.TypeBindings.substitute_param_of_named` — a bound type parameter is replaced.
-/

import ActionSignatures.Collections.FirstMap
import ActionSignatures.TypeRef

set_option relaxedAutoImplicit false
set_option autoImplicit false

namespace ActionSignatures

/-! ### Replacing type parameters -/

namespace TypeRef

mutual

/-- The type with each type parameter in it replaced; bounds of type parameters are not looked
into. -/
def mapParams (f : TypeRef → TypeRef) : TypeRef → TypeRef
  | .named name => .named name
  | .param owner name bound => f (.param owner name bound)
  | .array element => .array (element.mapParams f)
  | .generic base args => .generic base (mapParamsArgs f args)

/-- The arguments with each type parameter in them replaced. -/
def mapParamsArgs (f : TypeRef → TypeRef) : List TypeRef → List TypeRef
  | [] => []
  | arg :: args => arg.mapParams f :: mapParamsArgs f args

end

@[simp] theorem mapParamsArgs_eq_map (f : TypeRef → TypeRef) (args : List TypeRef) :
    mapParamsArgs f args = args.map (mapParams f) := by
  induction args with
  | nil => rfl
  | cons arg args ih => rw [mapParamsArgs, ih, List.map_cons]

end TypeRef

/-! ### Bindings -/

/-- **Bindings of type parameters** to types, in the order in which they were found.  The first
binding of a parameter wins. -/
abbrev TypeBindings := FirstMap TypeParamKey TypeRef

namespace TypeBindings

/-- What the type is bound to, if it is a bound type parameter. -/
def next? (b : TypeBindings) (t : TypeRef) : Option TypeRef := t.paramKey?.bind b.get?

/-- The type reached by following at most `n` bindings. -/
def chase (b : TypeBindings) : Nat → TypeRef → TypeRef
  | 0, t => t
  | n + 1, t =>
      match b.next? t with
      | some u => b.chase n u
      | none => t

/-- **Following a type parameter** to the first type that is not itself a bound type parameter.  On
a cycle it ends one binding after as many as there are bindings. -/
def resolve (b : TypeBindings) (t : TypeRef) : TypeRef := b.chase (b.size + 1) t

/-- Substitution inside a type, where at most `n` resolved type parameters lie inside one
another. -/
def substituteWithin (b : TypeBindings) : Nat → TypeRef → TypeRef
  | 0, t => t
  | n + 1, t =>
      t.mapParams fun p =>
        let r := b.resolve p
        if r = p then p else b.substituteWithin n r

/-- **Substituting inside a type.** -/
def substitute (b : TypeBindings) (t : TypeRef) : TypeRef := b.substituteWithin (b.size + 1) t

@[simp] theorem substitute_named (b : TypeBindings) (name : String) :
    b.substitute (.named name) = .named name := rfl

@[simp] theorem substitute_array (b : TypeBindings) (element : TypeRef) :
    b.substitute (.array element) = .array (b.substitute element) := rfl

@[simp] theorem substitute_generic (b : TypeBindings) (base : String) (args : List TypeRef) :
    b.substitute (.generic base args) = .generic base (args.map b.substitute) := by
  have h := TypeRef.mapParamsArgs_eq_map (fun p =>
    let r := b.resolve p
    if r = p then p else b.substituteWithin b.size r) args
  exact congrArg (TypeRef.generic base) h

/-- A type parameter that is bound to a named type becomes that type. -/
theorem substitute_param_of_named {b : TypeBindings} {owner name n : String}
    (h : b.get? ⟨owner, name⟩ = some (.named n)) (bound : Option TypeRef) :
    b.substitute (.param owner name bound) = .named n := by
  have hchase : ∀ k, b.chase k (.named n) = .named n := by
    intro k
    cases k <;> rfl
  have hresolve : b.resolve (.param owner name bound) = .named n := by
    simp only [resolve, chase, next?, TypeRef.paramKey?, Option.bind_some, h, hchase]
  have hwithin : b.substituteWithin b.size (.named n) = .named n := by
    cases b.size <;> rfl
  simp only [substitute, substituteWithin, TypeRef.mapParams, hresolve, reduceCtorEq, if_false,
    hwithin]

end TypeBindings

end ActionSignatures
