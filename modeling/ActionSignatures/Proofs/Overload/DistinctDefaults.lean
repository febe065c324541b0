/-
**Default values of different types.**

Whether the overloads of a signature collide depends on all its parameters, as a parameter without a
default value may have the type of one with.  Where the parameters that may be left out have pairwise
different erased types there is no collision, whatever stands between them: leaving parameters out
takes their types off the parameter types, so that parameter types that are equal have lost the same
types, and each of these belongs to one parameter only.

Main definitions:

* `ActionSignatures.Signature.omittedParams` — the parameters that are left out;
* `ActionSignatures.Signature.defaultTypes` — the erased types of the parameters with a default value.

Main results:

* `ActionSignatures.Signature.perm_omittedTypes_of_parameterTypes_eq` — choices that leave the same
  parameter types leave out the same types;
* `ActionSignatures.Signature.not_hasCollision_of_nodup_defaultTypes` — different types do not collide;
* `ActionSignatures.distinct_defaults_never_collide` — **the synthesis succeeds** for such a signature.
-/

import ActionSignatures.Proofs.Overload.Collisions
import ActionSignatures.Proofs.Overload.Enumeration

set_option relaxedAutoImplicit false
set_option autoImplicit false

namespace ActionSignatures

namespace Signature

variable {s : Signature}

/-! ### What is left out -/

/-- The parameters at the given positions. -/
def omittedParams (s : Signature) (omitted : List Nat) : List Parameter :=
  (s.params.zipIdx.filter fun p => omitted.contains p.2).map (·.1)

theorem mem_omittedParams_iff {omitted : List Nat} {p : Parameter} :
    p ∈ s.omittedParams omitted ↔ ∃ i ∈ omitted, s.params[i]? = some p := by
  simp only [omittedParams, List.mem_map, List.mem_filter, Prod.exists,
    List.mem_zipIdx_iff_getElem?, List.contains_iff_mem]
  constructor
  · rintro ⟨q, i, ⟨hq, hi⟩, rfl⟩
    exact ⟨i, hi, hq⟩
  · rintro ⟨i, hi, hp⟩
    exact ⟨p, i, ⟨hp, hi⟩, rfl⟩

/-- The parameters that are left out and those that are left are all parameters. -/
theorem omittedParams_append_keptParams_perm (s : Signature) (omitted : List Nat) :
    (s.omittedParams omitted ++ s.keptParams omitted).Perm s.params := by
  have hsplit := (List.filter_append_perm (fun p => omitted.contains p.2) s.params.zipIdx).map
    Prod.fst
  rwa [List.map_append, List.zipIdx_map_fst] at hsplit

/-- **Choices that leave the same parameter types leave out the same types**, each as often. -/
theorem perm_omittedTypes_of_parameterTypes_eq {chosen other : List Nat}
    (heq : (s.omitting chosen).parameterTypes = (s.omitting other).parameterTypes) :
    ((s.omittedParams chosen).map (·.type.erasure)).Perm
      ((s.omittedParams other).map (·.type.erasure)) := by
  have hkept : (s.keptParams chosen).map (·.type.erasure) =
      (s.keptParams other).map (·.type.erasure) := by
    rw [← types_omitting, ← types_omitting, heq]
  have hchosen := (s.omittedParams_append_keptParams_perm chosen).map (·.type.erasure)
  have hother := (s.omittedParams_append_keptParams_perm other).map (·.type.erasure)
  rw [List.map_append] at hchosen hother
  rw [hkept] at hchosen
  exact (List.perm_append_right_iff _).1 (hchosen.trans hother.symm)

/-! ### Types that occur once -/

/-- The erased types of the parameters with a default value, in the order of the parameters.  No
variadic parameter is among them. -/
def defaultTypes (s : Signature) : List ErasedType :=
  (s.params.filter (·.isOptional)).map (·.type.erasure)

/-- Where these types are pairwise different, each of them has one position. -/
theorem eq_of_erasure_eq (h : s.defaultTypes.Nodup) {i j : Nat} {p q : Parameter}
    (hp : s.params[i]? = some p) (hq : s.params[j]? = some q) (hpopt : p.isOptional = true)
    (hqopt : q.isOptional = true) (heq : p.type.erasure = q.type.erasure) : i = j := by
  have hzip : s.defaultTypes =
      (s.params.zipIdx.filter fun e => e.1.isOptional).map fun e => e.1.type.erasure := by
    rw [defaultTypes]
    conv_lhs => rw [← List.zipIdx_map_fst 0 s.params, List.filter_map, List.map_map]
    rfl
  rw [hzip] at h
  have hmem : ∀ {i : Nat} {p : Parameter}, s.params[i]? = some p → p.isOptional = true →
      (p, i) ∈ s.params.zipIdx.filter fun e => e.1.isOptional := fun hget hopt =>
    List.mem_filter.2 ⟨List.mem_zipIdx_iff_getElem?.2 hget, hopt⟩
  exact congrArg Prod.snd (List.inj_on_of_nodup_map h (hmem hp hpopt) (hmem hq hqopt) heq)

/-- Where these types are pairwise different, an omission is known from the types that it leaves
out. -/
theorem subset_of_omittedTypes_subset (h : s.defaultTypes.Nodup) {chosen other : List Nat}
    (hchosen : s.IsOmission chosen) (hother : s.IsOmission other)
    (hsub : (s.omittedParams chosen).map (·.type.erasure) ⊆
      (s.omittedParams other).map (·.type.erasure)) : chosen ⊆ other := by
  intro i hi
  obtain ⟨p, hp, hpopt⟩ := mem_defaultPositions_iff.1 (hchosen.optional i hi)
  have hleft : p ∈ s.omittedParams chosen := mem_omittedParams_iff.2 ⟨i, hi, hp⟩
  obtain ⟨q, hq, heq⟩ := List.mem_map.1 (hsub (List.mem_map_of_mem hleft))
  obtain ⟨j, hj, hget⟩ := mem_omittedParams_iff.1 hq
  obtain ⟨r, hr, hropt⟩ := mem_defaultPositions_iff.1 (hother.optional j hj)
  obtain rfl : q = r := Option.some.inj (hget.symm.trans hr)
  rw [eq_of_erasure_eq h hp hget hpopt hropt heq.symm]
  exact hj

/-- **Default values of different types do not collide.** -/
theorem not_hasCollision_of_nodup_defaultTypes (h : s.defaultTypes.Nodup) : ¬s.HasCollision := by
  rintro ⟨chosen, other, hchosen, hother, hne, heq⟩
  have hperm := perm_omittedTypes_of_parameterTypes_eq heq
  have hsub : chosen ⊆ other := subset_of_omittedTypes_subset h hchosen hother hperm.subset
  have hsup : other ⊆ chosen := subset_of_omittedTypes_subset h hother hchosen hperm.symm.subset
  -- both are ascending, so they are equal if they have the same members
  have hsame : chosen.Perm other :=
    (List.perm_ext_iff_of_nodup (hchosen.ascending.imp Nat.ne_of_lt)
      (hother.ascending.imp Nat.ne_of_lt)).2 fun i => ⟨@hsub i, @hsup i⟩
  exact hne (hsame.eq_of_sortedLE (hchosen.ascending.imp Nat.le_of_lt).sortedLE
    (hother.ascending.imp Nat.le_of_lt).sortedLE)

end Signature

/-! ### The synthesis -/

variable {β : Type} {s : Signature}

/-- **Default values of different types never collide.**  If the parameters that may be left out have
pairwise different erased types, and there are not more of them than the limit allows, the synthesis
succeeds and makes one overload for every non-empty choice of them; the parameter types of the
overloads are pairwise different.  The other parameters may have any types and stand anywhere. -/
theorem distinct_defaults_never_collide (options : SynthesisOptions) (origin : Option ActionOrigin)
    (body : β) (hlimit : s.defaultPositions.length ≤ options.effectiveMax.toNat)
    (hdistinct : s.defaultTypes.Nodup) :
    ∃ set, synthesizeFor options origin s body = .ok set ∧
      set.overloads.size = 2 ^ s.defaultPositions.length - 1 ∧
      (set.overloads.toList.map (·.parameterTypes)).Nodup := by
  have hmax := options.effectiveMax_le
  have hbits : s.defaultPositions.length ≤ 32 := by omega
  have hnodup : (s.typesBelow s.overloadCount).Nodup := by
    by_contra hcollision
    exact Signature.not_hasCollision_of_nodup_defaultTypes hdistinct
      ((Signature.hasCollision_iff hbits).2 hcollision)
  refine ⟨_, synthesizeFor_of_nodup origin body hlimit hnodup,
    OverloadSet.size_overloads_ofMasks origin body, ?_⟩
  rw [OverloadSet.map_parameterTypes_ofMasks]
  exact hnodup

/-- An action in which the types of the default values occur among the other parameters as well. -/
def drawText : Signature where
  params :=
    [{ name := "text", type := .named "java.lang.String" },
      { name := "size", type := .primitive .int, hasDefaultValue := true },
      { name := "x", type := .primitive .int },
      { name := "font", type := .named "java.lang.String", hasDefaultValue := true },
      { name := "y", type := .primitive .int },
      { name := "styles", type := .named "java.lang.String", isVarargs := true }]
  variadicLast := ⟨nofun, nofun, nofun, nofun, nofun, fun _ => ⟨rfl, rfl⟩, trivial⟩

theorem distinct_defaults_drawText :
    drawText.defaultPositions.length ≤ ({} : SynthesisOptions).effectiveMax.toNat ∧
      drawText.defaultTypes.Nodup ∧
      ∃ set, synthesize {} drawText () = .ok set ∧
        set.overloads.size = 2 ^ drawText.defaultPositions.length - 1 ∧
        (set.overloads.toList.map (·.parameterTypes)).Nodup := by
  have hlimit : drawText.defaultPositions.length ≤
      ({} : SynthesisOptions).effectiveMax.toNat := by decide
  have hdistinct : drawText.defaultTypes.Nodup := by decide
  exact ⟨hlimit, hdistinct, distinct_defaults_never_collide {} none () hlimit hdistinct⟩

end ActionSignatures
