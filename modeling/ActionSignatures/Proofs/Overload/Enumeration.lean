/-
**The overloads enumerate the omissions.**

A synthesis that succeeds has made one overload for every mask below `2 ^ k - 1`, where `k` is the
number of default positions.  Since masks and omissions correspond to one another, the overloads are
the omissions of the signature, each of them once.

Main definitions:

* `ActionSignatures.OverloadSet.omissions` — the choices that the overloads of an action make;
* `ActionSignatures.OverloadSet.Enumerates` — **an action with one overload for every omission**, in the
  order of the masks.

Main results:

* `ActionSignatures.exists_isOmission_of_mem_overloads` — every overload is the one of an omission;
* `ActionSignatures.synthesizeFor_enumerates` — the synthesis enumerates the omissions.
-/

import ActionSignatures.Proofs.Overload.Run

set_option relaxedAutoImplicit false
set_option autoImplicit false

namespace ActionSignatures

variable {β : Type} {s : Signature} {set : OverloadSet β}

namespace OverloadSet

/-- The choices of positions that the overloads of an action leave out, in the order of the
overloads. -/
def omissions (set : OverloadSet β) : List (List Nat) := set.overloads.toList.map (·.omitted)

/-- **An action with one overload for every omission** of a signature, in the order of the masks.  Of
`k` default positions the one with index `i` is left out by the overload `m` where the bit `k - 1 - i`
of `m` is not set. -/
structure Enumerates (set : OverloadSet β) (s : Signature) : Prop where
  size : set.overloads.size = 2 ^ s.defaultPositions.length - 1
  ascending : ∀ (m : Nat) (hm : m < set.overloads.size), set.overloads[m].omitted.Pairwise (· < ·)
  bits : ∀ (m : Nat) (hm : m < set.overloads.size) (x : Nat), x ∈ set.overloads[m].omitted ↔
    ∃ (i : Nat) (hi : i < s.defaultPositions.length), s.defaultPositions[i] = x ∧
      m.testBit (s.defaultPositions.length - 1 - i) = false
  nodup : set.omissions.Nodup
  ne_nil : ∀ omitted ∈ set.omissions, omitted ≠ []
  once : ∀ omitted, s.IsOmission omitted → set.omissions.count omitted = 1
  not_isVarargs : ∀ omitted ∈ set.omissions, ∀ i ∈ omitted, ∀ p, s.params[i]? = some p →
    p.isVarargs = false
  canonical : set.canonical = s
  source : set.sourceOfDefaults = s.parameterTypes
  uses : ∀ overload ∈ set.overloads, overload.usesDefaultsFrom = set.sourceOfDefaults

variable (origin : Option ActionOrigin) (body : β)

theorem size_overloads_ofMasks : (ofMasks origin s body).overloads.size = s.overloadCount := by
  simp [ofMasks]

theorem getElem_overloads_ofMasks {m : Nat} (hm : m < (ofMasks origin s body).overloads.size) :
    (ofMasks origin s body).overloads[m] = .ofOmitted s origin (s.omission m) := by
  simp [ofMasks]

theorem omissions_ofMasks :
    (ofMasks origin s body).omissions = (List.range s.overloadCount).map s.omission := by
  rw [omissions, ofMasks, List.map_map]
  rfl

/-- The choices that the overloads of all masks make are the omissions. -/
theorem mem_omissions_ofMasks_iff (h : s.defaultPositions.length ≤ 32) {omitted : List Nat} :
    omitted ∈ (ofMasks origin s body).omissions ↔ s.IsOmission omitted := by
  rw [omissions_ofMasks, List.mem_map]
  constructor
  · rintro ⟨mask, hmask, rfl⟩
    exact Signature.isOmission_omission h (List.mem_range.1 hmask)
  · intro ho
    obtain ⟨mask, ⟨hmask, heq⟩, -⟩ := Signature.existsUnique_mask_of_isOmission h ho
    exact ⟨mask, List.mem_range.2 hmask, heq⟩

theorem nodup_omissions_ofMasks (h : s.defaultPositions.length ≤ 32) :
    (ofMasks origin s body).omissions.Nodup := by
  rw [omissions_ofMasks]
  refine List.Nodup.map_on (fun m hm n hn heq => ?_) List.nodup_range
  exact Signature.omission_inj h (List.mem_range.1 hm) (List.mem_range.1 hn) heq

/-- The overloads of all masks enumerate the omissions. -/
theorem enumerates_ofMasks (h : s.defaultPositions.length ≤ 32) :
    (ofMasks origin s body).Enumerates s where
  size := size_overloads_ofMasks origin body
  ascending m hm := by
    rw [getElem_overloads_ofMasks]
    rw [size_overloads_ofMasks] at hm
    exact (Signature.isOmission_omission h hm).ascending
  bits m hm x := by
    rw [getElem_overloads_ofMasks]
    change x ∈ omittedBy s.defaultPositions (.ofNat m) ↔ _
    rw [mem_omittedBy_iff h]
    refine exists_congr fun i => ?_
    rw [List.getElem?_eq_some_iff, exists_and_right]
  nodup := nodup_omissions_ofMasks origin body h
  ne_nil omitted hmem := ((mem_omissions_ofMasks_iff origin body h).1 hmem).ne_nil
  once omitted ho := List.count_eq_one_of_mem (nodup_omissions_ofMasks origin body h)
    ((mem_omissions_ofMasks_iff origin body h).2 ho)
  not_isVarargs omitted hmem i hi p hp :=
    ((mem_omissions_ofMasks_iff origin body h).1 hmem).isVarargs_eq_false hi hp
  canonical := rfl
  source := rfl
  uses overload hmem := by
    obtain ⟨mask, -, rfl⟩ := List.mem_map.1 (List.mem_toArray.1 hmem)
    rfl

end OverloadSet

/-- Every overload of a synthesis that succeeds is the overload of an omission. -/
theorem exists_isOmission_of_mem_overloads {options : SynthesisOptions}
    {origin : Option ActionOrigin} {body : β} (h : synthesizeFor options origin s body = .ok set)
    {o : Overload} (ho : o ∈ set.overloads) :
    ∃ omitted, s.IsOmission omitted ∧ o = .ofOmitted s origin omitted := by
  have hmax := options.effectiveMax_le
  obtain ⟨hlimit, -, rfl⟩ := synthesizeFor_eq_ok_iff.1 h
  obtain ⟨mask, hmask, rfl⟩ := List.mem_map.1 (List.mem_toArray.1 ho)
  exact ⟨_, Signature.isOmission_omission (by omega) (List.mem_range.1 hmask), rfl⟩

/-- **The synthesis enumerates the omissions**: where it succeeds there is one overload for every
non-empty choice of default positions. -/
theorem synthesizeFor_enumerates {options : SynthesisOptions} {origin : Option ActionOrigin}
    {body : β} (h : synthesizeFor options origin s body = .ok set) : set.Enumerates s := by
  obtain ⟨hlimit, -, rfl⟩ := synthesizeFor_eq_ok_iff.1 h
  have hmax := options.effectiveMax_le
  exact OverloadSet.enumerates_ofMasks origin body (by omega)

/-- An action with two default values in front of a variadic parameter. -/
def influenceKinematic : Signature where
  params :=
    [{ name := "linearInfluence", type := .named "java.lang.String", hasDefaultValue := true },
      { name := "angularInfluence", type := .named "float", hasDefaultValue := true },
      { name := "otherInfluences", type := .object, isVarargs := true }]
  variadicLast := ⟨nofun, nofun, fun _ => ⟨rfl, rfl⟩, trivial⟩

theorem influenceKinematic_enumerates :
    ∃ set, synthesize {} influenceKinematic () = .ok set ∧ set.Enumerates influenceKinematic := by
  have h : synthesize {} influenceKinematic () = .ok (.ofMasks none influenceKinematic ()) :=
    synthesizeFor_of_nodup none () (by decide) (by decide)
  exact ⟨_, h, synthesizeFor_enumerates h⟩

end ActionSignatures
