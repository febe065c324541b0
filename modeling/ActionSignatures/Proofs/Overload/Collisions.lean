/-
**Collisions of overloads.**

Two omissions collide when they leave the same parameter types.  The synthesis refuses a signature
exactly when two of its omissions collide, and then names the first mask that repeats parameter types
and the earlier mask that has them.  The declared action itself is not among what has been seen; it
cannot be repeated because it has more parameters than any of its overloads.

Main definitions:

* `ActionSignatures.Signature.HasCollision` — **two omissions that collide**.

Main results:

* `ActionSignatures.Signature.length_keptParams_add` — leaving parameters out counts them off;
* `ActionSignatures.Signature.length_eq_of_parameterTypes_eq` — omissions that collide have equally
  many positions;
* `ActionSignatures.Signature.hasCollision_iff` — collisions are found by going through the masks;
* `ActionSignatures.OverloadSet.nodup_prototypes_ofMasks` — an action and its overloads have
  different prototypes;
* `ActionSignatures.synthesizeFor_detects_collisions` — **the detection of collisions is exact**.
-/

import ActionSignatures.Proofs.Overload.Run

set_option relaxedAutoImplicit false
set_option autoImplicit false

namespace ActionSignatures

namespace Signature

variable {s : Signature}

/-! ### The number of parameters left -/

theorem lt_length_of_mem_defaultPositions {i : Nat} (h : i ∈ s.defaultPositions) :
    i < s.params.length := by
  obtain ⟨p, hp, -⟩ := mem_defaultPositions_iff.1 h
  exact (List.getElem?_eq_some_iff.1 hp).1

/-- Leaving parameters out counts them off. -/
theorem length_keptParams_add {omitted : List Nat} (h : s.IsOmission omitted) :
    (s.keptParams omitted).length + omitted.length = s.params.length := by
  have hkept : (s.keptParams omitted).length =
      ((List.range' 0 s.params.length).filter fun i => !omitted.contains i).length := by
    rw [keptParams, List.length_map, ← List.zipIdx_map_snd, List.filter_map, List.length_map]
    rfl
  have homitted : ((List.range' 0 s.params.length).filter fun i => omitted.contains i).Perm
      omitted := by
    refine (List.perm_ext_iff_of_nodup ((List.nodup_range' ..).filter _)
      (h.ascending.imp Nat.ne_of_lt)).2 fun i => ?_
    rw [List.mem_filter, List.contains_iff_mem]
    refine ⟨And.right, fun hi => ⟨?_, hi⟩⟩
    have hlt := lt_length_of_mem_defaultPositions (h.optional i hi)
    exact List.mem_range'_1.2 ⟨Nat.zero_le _, by omega⟩
  have hsplit := List.length_eq_length_filter_add (l := List.range' 0 s.params.length)
    fun i => omitted.contains i
  rw [List.length_range', homitted.length_eq] at hsplit
  omega

/-- The parameter types of an overload are those of the parameters that are left. -/
theorem types_omitting (s : Signature) (omitted : List Nat) :
    (s.omitting omitted).parameterTypes.types =
      (s.keptParams omitted).map (·.type.erasure) := by
  change (s.omitting omitted).params.map (·.type.erasure) = _
  rw [params_omitting, List.map_map]
  rfl

/-- The number of parameter types of an overload. -/
theorem length_types_omitting_add {omitted : List Nat} (h : s.IsOmission omitted) :
    (s.omitting omitted).parameterTypes.types.length + omitted.length = s.params.length := by
  rw [← length_keptParams_add h, types_omitting, List.length_map]

/-- Omissions that collide have equally many positions. -/
theorem length_eq_of_parameterTypes_eq {chosen other : List Nat} (h : s.IsOmission chosen)
    (ho : s.IsOmission other)
    (heq : (s.omitting chosen).parameterTypes = (s.omitting other).parameterTypes) :
    chosen.length = other.length := by
  have hchosen := length_types_omitting_add h
  have hother := length_types_omitting_add ho
  rw [heq] at hchosen
  omega

/-- An omission never leaves the parameter types of the declaration. -/
theorem parameterTypes_omitting_ne {omitted : List Nat} (h : s.IsOmission omitted) :
    (s.omitting omitted).parameterTypes ≠ s.parameterTypes := by
  intro heq
  have hlen := length_types_omitting_add h
  have hpos : 0 < omitted.length := List.length_pos_iff.2 h.ne_nil
  have hdeclared : s.parameterTypes.types.length = s.params.length := List.length_map _
  rw [heq] at hlen
  omega

/-! ### Collisions -/

/-- **Two omissions that collide**: they are different and leave the same parameter types. -/
def HasCollision (s : Signature) : Prop :=
  ∃ chosen other, s.IsOmission chosen ∧ s.IsOmission other ∧ chosen ≠ other ∧
    (s.omitting chosen).parameterTypes = (s.omitting other).parameterTypes

/-- **Collisions are found by going through the masks.** -/
theorem hasCollision_iff (h : s.defaultPositions.length ≤ 32) :
    s.HasCollision ↔ ¬(s.typesBelow s.overloadCount).Nodup := by
  constructor
  · rintro ⟨chosen, other, hchosen, hother, hne, heq⟩ hnodup
    obtain ⟨m, ⟨hm, rfl⟩, -⟩ := existsUnique_mask_of_isOmission h hchosen
    obtain ⟨n, ⟨hn, rfl⟩, -⟩ := existsUnique_mask_of_isOmission h hother
    exact hne (congrArg s.omission (typesOfMask_inj hnodup hm hn heq))
  · intro hnodup
    obtain ⟨first, second, hlt, hr⟩ := exists_firstRepeat hnodup
    have hfirst : first < s.overloadCount := hr.lt.trans hlt
    refine ⟨s.omission first, s.omission second, isOmission_omission h hfirst,
      isOmission_omission h hlt, fun heq => ?_, hr.eq⟩
    exact absurd (omission_inj h hfirst hlt heq) hr.lt.ne

end Signature

/-! ### Prototypes -/

variable {β : Type} {s : Signature}

/-- The overloads of all masks have the parameter types of the masks. -/
theorem OverloadSet.map_parameterTypes_ofMasks (origin : Option ActionOrigin) (body : β) :
    (ofMasks origin s body).overloads.toList.map (·.parameterTypes) =
      s.typesBelow s.overloadCount := by
  rw [ofMasks, List.map_map]
  rfl

/-- **An action and its overloads have different prototypes** where the masks tell the parameter types
of the overloads apart. -/
theorem OverloadSet.nodup_prototypes_ofMasks (origin : Option ActionOrigin) (body : β)
    (h : s.defaultPositions.length ≤ 32) (hnodup : (s.typesBelow s.overloadCount).Nodup)
    (action : String) : ((ofMasks origin s body).prototypes action).Nodup := by
  rw [prototypes, map_parameterTypes_ofMasks]
  refine List.Nodup.map (fun t u heq => congrArg Prototype.params heq) ?_
  refine List.nodup_cons.2 ⟨fun hmem => ?_, hnodup⟩
  obtain ⟨mask, hmask, heq⟩ := Signature.mem_typesBelow_iff.1 hmem
  exact Signature.parameterTypes_omitting_ne (Signature.isOmission_omission h hmask) heq

/-! ### The detection of collisions -/

/-- **The detection of collisions is exact.**  Of a signature that the limit allows, the synthesis
refuses exactly those with a collision; it then names the least mask that repeats the parameter types
of an earlier one, and the only such earlier one; and where it succeeds, the action and its overloads
have different prototypes. -/
theorem synthesizeFor_detects_collisions (options : SynthesisOptions)
    (origin : Option ActionOrigin) (body : β)
    (h : s.defaultPositions.length ≤ options.effectiveMax.toNat) :
    ((∃ declared types first second, synthesizeFor options origin s body =
        .error (.duplicateOverload declared types first second)) ↔ s.HasCollision) ∧
    (∀ e, synthesizeFor options origin s body = .error e →
      ∃ first second, first < second ∧ second < 2 ^ s.defaultPositions.length - 1 ∧
        s.typesOfMask first = s.typesOfMask second ∧
        (∀ i j, i < j → j < second → s.typesOfMask i ≠ s.typesOfMask j) ∧
        (∀ i < second, s.typesOfMask i = s.typesOfMask second → i = first) ∧
        (s.omission first).length = (s.omission second).length ∧
        e = .duplicateOverload s.parameterTypes (s.typesOfMask second) (s.omission first)
          (s.omission second)) ∧
    (∀ set, synthesizeFor options origin s body = .ok set →
      ∀ action, (set.prototypes action).Nodup) := by
  have hmax := options.effectiveMax_le
  have hbits : s.defaultPositions.length ≤ 32 := by omega
  rw [Signature.hasCollision_iff hbits]
  by_cases hnodup : (s.typesBelow s.overloadCount).Nodup
  · have hok := synthesizeFor_of_nodup origin body h hnodup
    rw [hok]
    refine ⟨⟨nofun, absurd hnodup⟩, nofun, ?_⟩
    rintro set ⟨⟩ action
    exact OverloadSet.nodup_prototypes_ofMasks origin body hbits hnodup action
  · obtain ⟨first, second, hlt, hr⟩ := Signature.exists_firstRepeat hnodup
    have herror := synthesizeFor_of_firstRepeat origin body h hr hlt
    rw [herror]
    refine ⟨⟨fun _ => hnodup, fun _ => ⟨_, _, _, _, rfl⟩⟩, ?_, nofun⟩
    rintro e ⟨⟩
    have hlength := Signature.length_eq_of_parameterTypes_eq
      (Signature.isOmission_omission hbits (hr.lt.trans hlt))
      (Signature.isOmission_omission hbits hlt) hr.eq
    exact ⟨first, second, hr.lt, hlt, hr.eq, fun i j => hr.least, fun i => hr.unique, hlength, rfl⟩

/-- An action with two default values of one type. -/
def twoNumbers : Signature where
  params :=
    [{ name := "a", type := .primitive .int, hasDefaultValue := true },
      { name := "b", type := .primitive .int, hasDefaultValue := true }]
  variadicLast := ⟨nofun, nofun, trivial⟩

theorem twoNumbers_collides :
    ∃ declared types first second,
      synthesize {} twoNumbers () = .error (.duplicateOverload declared types first second) := by
  have h := synthesizeFor_detects_collisions (s := twoNumbers) {} none () (by decide)
  refine h.1.2 ⟨[0], [1], ⟨by decide, by decide, by decide⟩, ⟨by decide, by decide, by decide⟩,
    by decide, by decide⟩

end ActionSignatures
