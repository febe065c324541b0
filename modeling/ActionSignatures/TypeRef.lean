/-
**References to types.**

A reference names a type, a type parameter of some declaration, an array, or an instance of a
generic type.  Overloads are told apart by the *erasure* of their parameter types alone: the name
that is left when type arguments are forgotten and a type parameter is replaced by its bound.

Main definitions:

* `ActionSignatures.TypeParamKey` — the identity of a type parameter;
* `ActionSignatures.TypeRef` — references to types;
* `ActionSignatures.TypeRef.display` — the written form;
* `ActionSignatures.TypeRef.erasure` — **the erased name**.

Main results:

* `ActionSignatures.TypeRef.instDecidableEq` — equality of references, bounds included, is
  decidable;
* `ActionSignatures.TypeRef.erasure_param_bounded` — a type parameter erases to its bound.
-/

import ActionSignatures.Primitive

set_option relaxedAutoImplicit false
set_option autoImplicit false

namespace ActionSignatures

/-! ### Type parameters -/

/-- The identity of a type parameter: the declaration that owns it, and its name there. -/
structure TypeParamKey where
  owner : String
  name : String
deriving DecidableEq, Repr

namespace TypeParamKey

/-- The written form: owner and name around a dollar sign. -/
def display (k : TypeParamKey) : String := k.owner ++ "$" ++ k.name

/-- Keys are ordered by owner, and by name where the owner is the same. -/
instance : Ord TypeParamKey := ⟨compareLex (compareOn owner) (compareOn name)⟩

theorem compare_def (k l : TypeParamKey) :
    compare k l = (compare k.owner l.owner).then (compare k.name l.name) := rfl

instance : Std.TransOrd TypeParamKey :=
  inferInstanceAs (Std.TransCmp (compareLex (compareOn owner) (compareOn name)))

instance : Std.LawfulEqOrd TypeParamKey where
  compare_self := Std.ReflCmp.compare_self
  eq_of_compare {k l} h := by
    rw [compare_def, Ordering.then_eq_eq] at h
    cases k
    cases l
    exact (TypeParamKey.mk.injEq ..).mpr
      ⟨Std.LawfulEqOrd.eq_of_compare h.1, Std.LawfulEqOrd.eq_of_compare h.2⟩

end TypeParamKey

/-! ### References -/

/-- **A reference to a type.**  A type parameter carries the bound it was declared with, which is no
part of its identity as a key. -/
inductive TypeRef where
  | named (name : String)
  | param (owner name : String) (bound : Option TypeRef)
  | array (element : TypeRef)
  | generic (base : String) (args : List TypeRef)
deriving Repr

/-- The erased name of a type, by which overloads are told apart. -/
abbrev ErasedType := String

namespace TypeRef

instance : Inhabited TypeRef := ⟨.named ""⟩

/-- The reference to the root of the class hierarchy. -/
def object : TypeRef := .named WellKnown.object

/-- The reference to a primitive type. -/
def primitive (k : PrimitiveKind) : TypeRef := .named k.name

/-! ### Equality -/

mutual

/-- Decides equality of two references. -/
def decEq : (s t : TypeRef) → Decidable (s = t)
  | .named m, .named n =>
      if h : m = n then isTrue (by rw [h]) else isFalse fun e => h (TypeRef.named.inj e)
  | .param o m b, .param p n c =>
      if h : o = p ∧ m = n then
        match decEqBound b c with
        | isTrue hb => isTrue (by rw [h.1, h.2, hb])
        | isFalse hb => isFalse fun e => hb (TypeRef.param.inj e).2.2
      else
        isFalse fun e => h ⟨(TypeRef.param.inj e).1, (TypeRef.param.inj e).2.1⟩
  | .array s, .array t =>
      match decEq s t with
      | isTrue h => isTrue (by rw [h])
      | isFalse h => isFalse fun e => h (TypeRef.array.inj e)
  | .generic m ss, .generic n ts =>
      if h : m = n then
        match decEqArgs ss ts with
        | isTrue ha => isTrue (by rw [h, ha])
        | isFalse ha => isFalse fun e => ha (TypeRef.generic.inj e).2
      else
        isFalse fun e => h (TypeRef.generic.inj e).1
  | .named _, .param .. => isFalse nofun
  | .named _, .array _ => isFalse nofun
  | .named _, .generic .. => isFalse nofun
  | .param .., .named _ => isFalse nofun
  | .param .., .array _ => isFalse nofun
  | .param .., .generic .. => isFalse nofun
  | .array _, .named _ => isFalse nofun
  | .array _, .param .. => isFalse nofun
  | .array _, .generic .. => isFalse nofun
  | .generic .., .named _ => isFalse nofun
  | .generic .., .param .. => isFalse nofun
  | .generic .., .array _ => isFalse nofun

/-- Decides equality of two bounds. -/
def decEqBound : (b c : Option TypeRef) → Decidable (b = c)
  | none, none => isTrue rfl
  | none, some _ => isFalse nofun
  | some _, none => isFalse nofun
  | some s, some t =>
      match decEq s t with
      | isTrue h => isTrue (by rw [h])
      | isFalse h => isFalse fun e => h (Option.some.inj e)

/-- Decides equality of two lists of arguments. -/
def decEqArgs : (ss ts : List TypeRef) → Decidable (ss = ts)
  | [], [] => isTrue rfl
  | [], _ :: _ => isFalse nofun
  | _ :: _, [] => isFalse nofun
  | s :: ss, t :: ts =>
      match decEq s t, decEqArgs ss ts with
      | isTrue h, isTrue hs => isTrue (by rw [h, hs])
      | isFalse h, _ => isFalse fun e => h (List.cons.inj e).1
      | _, isFalse hs => isFalse fun e => hs (List.cons.inj e).2

end

instance instDecidableEq : DecidableEq TypeRef := decEq

/-! ### Questions about a reference -/

/-- Whether the reference is to a type parameter. -/
def isTypeParameter : TypeRef → Bool
  | .param .. => true
  | _ => false

/-- The identity of the type parameter that is referred to. -/
def paramKey? : TypeRef → Option TypeParamKey
  | .param owner name _ => some ⟨owner, name⟩
  | _ => none

/-- The name of the declaration that a nominal reference points at. -/
def declaredName? : TypeRef → Option String
  | .named name => some name
  | .generic base _ => some base
  | _ => none

/-- The kind of the primitive type that is referred to. -/
def primitiveKind? : TypeRef → Option PrimitiveKind
  | .named name => PrimitiveKind.ofName? name
  | _ => none

/-! ### Written form and erasure -/

mutual

/-- The written form of a reference. -/
def display : TypeRef → String
  | .named name => name
  | .param _ name _ => name
  | .array element => element.display ++ "[]"
  | .generic base args => base ++ "<" ++ ", ".intercalate (displayArgs args) ++ ">"

/-- The written forms of arguments. -/
def displayArgs : List TypeRef → List String
  | [] => []
  | arg :: args => arg.display :: displayArgs args

end

@[simp] theorem displayArgs_eq_map (args : List TypeRef) : displayArgs args = args.map display := by
  induction args with
  | nil => rfl
  | cons arg args ih => rw [displayArgs, ih, List.map_cons]

/-- **The erased name** of a type: type arguments are forgotten, a type parameter becomes its bound
or, where it has none, the root of the class hierarchy. -/
def erasure : TypeRef → ErasedType
  | .named name => name
  | .param _ _ none => WellKnown.object
  | .param _ _ (some bound) => bound.erasure
  | .array element => element.erasure ++ "[]"
  | .generic base _ => base

@[simp] theorem erasure_named (name : String) : (TypeRef.named name).erasure = name := rfl

@[simp] theorem erasure_param_unbounded (owner name : String) :
    (TypeRef.param owner name none).erasure = WellKnown.object := rfl

/-- A type parameter erases to its bound. -/
@[simp] theorem erasure_param_bounded (owner name : String) (bound : TypeRef) :
    (TypeRef.param owner name (some bound)).erasure = bound.erasure := rfl

@[simp] theorem erasure_array (element : TypeRef) :
    (TypeRef.array element).erasure = element.erasure ++ "[]" := rfl

@[simp] theorem erasure_generic (base : String) (args : List TypeRef) :
    (TypeRef.generic base args).erasure = base := rfl

end TypeRef

end ActionSignatures
