/-
**The type parameters in a type.**

Substitution looks at a type through the type parameters that occur in it, at any depth of arrays
and type arguments but outside the bounds of type parameters.  This module lists them, and says how
replacing type parameters acts on the list: only the replacement at the listed parameters counts,
and the parameters of the result are those of the replacements.

Main definitions:

* `ActionSignatures.TypeRef.params` — **the type parameters in a type**, as references;
* `ActionSignatures.TypeRef.paramKeys` — their identities.

Main results:

* `ActionSignatures.TypeRef.rec_outside_bounds` — induction on a type that stays outside bounds;
* `ActionSignatures.TypeRef.mapParams_congr`, `ActionSignatures.TypeRef.mapParams_eq_self` — only
  the replacement at the type parameters of a type counts;
* `ActionSignatures.TypeRef.mapParams_mapParams` — two replacements one after the other are one;
* `ActionSignatures.TypeRef.mem_paramKeys_mapParams_iff` — **the parameters after a replacement**.
-/

import ActionSignatures.Substitution.Bindings
import Mathlib.Data.List.Basic

set_option relaxedAutoImplicit false
set_option autoImplicit false

namespace ActionSignatures

namespace TypeRef

/-! ### Induction outside bounds -/

/-- **Induction on a type that stays outside bounds**: a type parameter is a leaf, whatever its
bound is. -/
@[elab_as_elim]
theorem rec_outside_bounds {motive : TypeRef → Prop} (named : ∀ name, motive (.named name))
    (param : ∀ owner name bound, motive (.param owner name bound))
    (array : ∀ element, motive element → motive (.array element))
    (generic : ∀ base args, (∀ arg ∈ args, motive arg) → motive (.generic base args)) :
    ∀ t, motive t
  | .named name => named name
  | .param owner name bound => param owner name bound
  | .array element => array element (rec_outside_bounds named param array generic element)
  | .generic base args =>
      generic base args fun arg _ => rec_outside_bounds named param array generic arg

/-! ### The type parameters in a type -/

mutual

/-- **The type parameters in a type**, from left to right; bounds of type parameters are not looked
into. -/
def params : TypeRef → List TypeRef
  | .named _ => []
  | .param owner name bound => [.param owner name bound]
  | .array element => element.params
  | .generic _ args => paramsOfArgs args

/-- The type parameters in arguments. -/
def paramsOfArgs : List TypeRef → List TypeRef
  | [] => []
  | arg :: args => arg.params ++ paramsOfArgs args

end

/-- **The identities of the type parameters in a type**, outside bounds. -/
def paramKeys (t : TypeRef) : List TypeParamKey := t.params.filterMap paramKey?

@[simp] theorem paramsOfArgs_eq_flatMap (args : List TypeRef) :
    paramsOfArgs args = args.flatMap params := by
  induction args with
  | nil => rfl
  | cons arg args ih => rw [paramsOfArgs, ih, List.flatMap_cons]

@[simp] theorem params_named (name : String) : (named name).params = [] := rfl

@[simp] theorem params_param (owner name : String) (bound : Option TypeRef) :
    (param owner name bound).params = [.param owner name bound] := rfl

@[simp] theorem params_array (element : TypeRef) : (array element).params = element.params := rfl

@[simp] theorem params_generic (base : String) (args : List TypeRef) :
    (generic base args).params = args.flatMap params :=
  paramsOfArgs_eq_flatMap args

theorem mem_params_generic {base : String} {args : List TypeRef} {arg p : TypeRef}
    (harg : arg ∈ args) (hp : p ∈ arg.params) : p ∈ (generic base args).params := by
  rw [params_generic]
  exact List.mem_flatMap.2 ⟨arg, harg, hp⟩

/-- Every one of the type parameters in a type is a reference to a type parameter. -/
theorem exists_eq_param_of_mem_params {t p : TypeRef} (h : p ∈ t.params) :
    ∃ owner name bound, p = .param owner name bound := by
  induction t using rec_outside_bounds with
  | named name => cases h
  | param owner name bound => exact ⟨owner, name, bound, List.mem_singleton.1 h⟩
  | array element ih => exact ih h
  | generic base args ih =>
      rw [params_generic, List.mem_flatMap] at h
      obtain ⟨arg, harg, hp⟩ := h
      exact ih arg harg hp

theorem mem_paramKeys_iff {t : TypeRef} {k : TypeParamKey} :
    k ∈ t.paramKeys ↔ ∃ p ∈ t.params, p.paramKey? = some k :=
  List.mem_filterMap

/-- A type parameter is the only one in it. -/
theorem paramKeys_of_paramKey? {p : TypeRef} {k : TypeParamKey} (h : p.paramKey? = some k) :
    p.paramKeys = [k] := by
  cases p with
  | param owner name bound =>
      cases h
      rfl
  | named name => cases h
  | array element => cases h
  | generic base args => cases h

/-! ### Replacing type parameters -/

variable {f g : TypeRef → TypeRef}

@[simp] theorem mapParams_named (f : TypeRef → TypeRef) (name : String) :
    (named name).mapParams f = .named name := rfl

@[simp] theorem mapParams_param (f : TypeRef → TypeRef) (owner name : String)
    (bound : Option TypeRef) :
    (param owner name bound).mapParams f = f (.param owner name bound) := rfl

@[simp] theorem mapParams_array (f : TypeRef → TypeRef) (element : TypeRef) :
    (array element).mapParams f = .array (element.mapParams f) := rfl

@[simp] theorem mapParams_generic (f : TypeRef → TypeRef) (base : String) (args : List TypeRef) :
    (generic base args).mapParams f = .generic base (args.map (mapParams f)) :=
  congrArg (generic base) (mapParamsArgs_eq_map f args)

/-- **Only the replacement at the type parameters of a type counts.** -/
theorem mapParams_congr {t : TypeRef} (h : ∀ p ∈ t.params, f p = g p) :
    t.mapParams f = t.mapParams g := by
  induction t using rec_outside_bounds with
  | named name => rfl
  | param owner name bound => exact h _ List.mem_cons_self
  | array element ih => rw [mapParams_array, mapParams_array, ih h]
  | generic base args ih =>
      rw [mapParams_generic, mapParams_generic]
      refine congrArg (generic base) (List.map_congr_left fun arg harg => ?_)
      exact ih arg harg fun p hp => h p (mem_params_generic harg hp)

/-- Where every type parameter is replaced by itself the type stays the same. -/
theorem mapParams_eq_self {t : TypeRef} (h : ∀ p ∈ t.params, f p = p) : t.mapParams f = t := by
  induction t using rec_outside_bounds with
  | named name => rfl
  | param owner name bound => exact h _ List.mem_cons_self
  | array element ih => rw [mapParams_array, ih h]
  | generic base args ih =>
      rw [mapParams_generic]
      refine congrArg (generic base) ((List.map_congr_left fun arg harg => ?_).trans args.map_id)
      exact ih arg harg fun p hp => h p (mem_params_generic harg hp)

/-- The type parameters after a replacement are those of the replacements. -/
theorem params_mapParams (t : TypeRef) (f : TypeRef → TypeRef) :
    (t.mapParams f).params = t.params.flatMap fun p => (f p).params := by
  induction t using rec_outside_bounds with
  | named name => rfl
  | param owner name bound => rw [mapParams_param, params_param, List.flatMap_singleton]
  | array element ih => rw [mapParams_array, params_array, params_array, ih]
  | generic base args ih =>
      rw [mapParams_generic, params_generic, params_generic, List.flatMap_map, List.flatMap_assoc]
      exact List.flatMap_congr ih

/-- Two replacements one after the other are one. -/
theorem mapParams_mapParams (t : TypeRef) (f g : TypeRef → TypeRef) :
    (t.mapParams f).mapParams g = t.mapParams fun p => (f p).mapParams g := by
  induction t using rec_outside_bounds with
  | named name => rfl
  | param owner name bound => rfl
  | array element ih => rw [mapParams_array, mapParams_array, mapParams_array, ih]
  | generic base args ih =>
      rw [mapParams_generic, mapParams_generic, mapParams_generic, List.map_map]
      exact congrArg (generic base) (List.map_congr_left ih)

/-- **The identities of the type parameters after a replacement** are those in the replacements. -/
theorem mem_paramKeys_mapParams_iff {t : TypeRef} {k : TypeParamKey} :
    k ∈ (t.mapParams f).paramKeys ↔ ∃ p ∈ t.params, k ∈ (f p).paramKeys := by
  simp only [mem_paramKeys_iff, params_mapParams, List.mem_flatMap]
  constructor
  · rintro ⟨q, ⟨p, hp, hq⟩, hk⟩
    exact ⟨p, hp, q, hq, hk⟩
  · rintro ⟨p, hp, q, hq, hk⟩
    exact ⟨q, ⟨p, hp, hq⟩, hk⟩

end TypeRef

end ActionSignatures
