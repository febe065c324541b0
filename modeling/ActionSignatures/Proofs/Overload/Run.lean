/-
**The run of the synthesis through the masks.**

The synthesis goes through the masks in order, keeps the overloads made so far, and looks the parameter
types of the next one up among those seen.  What has been seen is therefore known at every moment from
the number of masks gone through, as long as no two of them give the same parameter types; and the
run ends at the first mask that repeats the parameter types of an earlier one.

Main definitions:

* `ActionSignatures.Signature.typesOfMask` — the parameter types of the overload of a mask;
* `ActionSignatures.Signature.FirstRepeat` — **the first mask that repeats** the parameter types of an
  earlier one, with the earlier one;
* `ActionSignatures.Synthesized.Upto` — the invariant of the run;
* `ActionSignatures.OverloadSet.ofMasks` — the action with one overload for every mask.

Main results:

* `ActionSignatures.Signature.exists_firstRepeat` — masks that do not tell all parameter types apart
  have a first one that repeats;
* `ActionSignatures.Synthesized.Upto.add_of_notMem`, `ActionSignatures.Synthesized.Upto.add_of_eq` —
  **one mask**;
* `ActionSignatures.Synthesized.Upto.addFrom_of_nodup`,
  `ActionSignatures.Synthesized.Upto.addFrom_of_firstRepeat` — **the run**;
* `ActionSignatures.synthesizeFor_of_nodup`, `ActionSignatures.synthesizeFor_of_firstRepeat` — the
  result of the synthesis in either case.
-/

import ActionSignatures.Proofs.Overload.Omissions
import Std.Data.HashMap.Lemmas

set_option relaxedAutoImplicit false
set_option autoImplicit false

namespace ActionSignatures

/-! ### How many masks there are -/

theorem SynthesisOptions.effectiveMax_le (o : SynthesisOptions) : o.effectiveMax.toNat ≤ 24 := by
  have h : o.effectiveMax ≤ Limits.defaultParametersCeiling := by
    change (if o.maxDefaultParameters ≤ Limits.defaultParametersCeiling then o.maxDefaultParameters
      else Limits.defaultParametersCeiling) ≤ _
    split
    · assumption
    · exact UInt32.le_refl _
  exact UInt32.le_iff_toNat_le.1 h

theorem toNat_fullMask {k : Nat} (h : k < 32) : (fullMask k).toNat = 2 ^ k - 1 := by
  have hshift := toNat_one_shiftLeft h
  have hone : (1 : UInt32) ≤ 1 <<< UInt32.ofNat k := by
    rw [UInt32.le_iff_toNat_le, hshift]
    exact Nat.one_le_two_pow
  rw [fullMask, UInt32.toNat_sub_of_le _ _ hone, hshift, UInt32.toNat_one]

/-! ### The first mask that repeats -/

namespace Signature

variable {s : Signature}

/-- The parameter types of the overload of a mask. -/
def typesOfMask (s : Signature) (mask : Nat) : ParameterTypes :=
  (s.omitting (s.omission mask)).parameterTypes

/-- The parameter types of the overloads of the masks below a number. -/
def typesBelow (s : Signature) (n : Nat) : List ParameterTypes :=
  (List.range n).map s.typesOfMask

theorem typesBelow_succ (s : Signature) (n : Nat) :
    s.typesBelow (n + 1) = s.typesBelow n ++ [s.typesOfMask n] := by
  rw [typesBelow, List.range_succ, List.map_append]
  rfl

theorem mem_typesBelow_iff {n : Nat} {t : ParameterTypes} :
    t ∈ s.typesBelow n ↔ ∃ i < n, s.typesOfMask i = t := by
  simp [typesBelow]

theorem nodup_typesBelow_succ {n : Nat} :
    (s.typesBelow (n + 1)).Nodup ↔ s.typesOfMask n ∉ s.typesBelow n ∧ (s.typesBelow n).Nodup := by
  rw [typesBelow_succ, ← List.concat_eq_append, List.nodup_concat]

/-- Masks below `n` tell the parameter types apart where these are pairwise different. -/
theorem typesOfMask_inj {n : Nat} (h : (s.typesBelow n).Nodup) {i j : Nat} (hi : i < n) (hj : j < n)
    (heq : s.typesOfMask i = s.typesOfMask j) : i = j :=
  List.inj_on_of_nodup_map h (List.mem_range.2 hi) (List.mem_range.2 hj) heq

theorem notMem_typesBelow {n m : Nat} (h : (s.typesBelow m).Nodup) (hn : n < m) :
    s.typesOfMask n ∉ s.typesBelow n := by
  intro hmem
  obtain ⟨i, hi, heq⟩ := mem_typesBelow_iff.1 hmem
  have := typesOfMask_inj h (hi.trans hn) hn heq
  omega

/-- **The first mask that repeats** parameter types, with the earlier mask that has them. -/
structure FirstRepeat (s : Signature) (first second : Nat) : Prop where
  lt : first < second
  eq : s.typesOfMask first = s.typesOfMask second
  nodup : (s.typesBelow second).Nodup

theorem exists_firstRepeat {n : Nat} (h : ¬(s.typesBelow n).Nodup) :
    ∃ first second, second < n ∧ s.FirstRepeat first second := by
  induction n with
  | zero => exact absurd List.nodup_nil h
  | succ n ih =>
      -- either `n` is the first mask that repeats, or the one below it has been found already
      by_cases hn : (s.typesBelow n).Nodup
      · have hmem : s.typesOfMask n ∈ s.typesBelow n := by
          by_contra hmem
          exact h (nodup_typesBelow_succ.2 ⟨hmem, hn⟩)
        obtain ⟨i, hi, heq⟩ := mem_typesBelow_iff.1 hmem
        exact ⟨i, n, by omega, hi, heq, hn⟩
      · obtain ⟨first, second, hlt, hr⟩ := ih hn
        exact ⟨first, second, by omega, hr⟩

namespace FirstRepeat

variable {first second : Nat}

/-- The mask before the first one that repeats is the only one with the same parameter types. -/
theorem unique (h : s.FirstRepeat first second) {i : Nat} (hi : i < second)
    (heq : s.typesOfMask i = s.typesOfMask second) : i = first :=
  typesOfMask_inj h.nodup hi h.lt (heq.trans h.eq.symm)

/-- No mask below the first one that repeats does so. -/
theorem least (h : s.FirstRepeat first second) {i j : Nat} (hij : i < j) (hj : j < second) :
    s.typesOfMask i ≠ s.typesOfMask j := by
  intro heq
  have := typesOfMask_inj h.nodup (by omega) hj heq
  omega

end FirstRepeat

end Signature

/-! ### The invariant of the run -/

namespace Synthesized

/-- **The invariant of the run**: what has been made and seen after the masks below `n`, whose
overloads have different parameter types. -/
structure Upto (a : PreparedAction) (n : Nat) (made : Synthesized) : Prop where
  overloads : made.overloads.toList =
    (List.range n).map fun mask => .ofOmitted a.canonical a.origin (a.canonical.omission mask)
  nodup : (a.canonical.typesBelow n).Nodup
  seen : ∀ types omitted, made.seen[types]? = some omitted ↔
    ∃ i < n, a.canonical.typesOfMask i = types ∧ a.canonical.omission i = omitted

namespace Upto

variable {a : PreparedAction} {n : Nat} {made : Synthesized}

theorem empty (a : PreparedAction) : Upto a 0 {} where
  overloads := rfl
  nodup := List.nodup_nil
  seen types omitted := by simp

theorem seen_of_notMem (h : made.Upto a n) {types : ParameterTypes}
    (hnot : types ∉ a.canonical.typesBelow n) : made.seen[types]? = none := by
  rw [Option.eq_none_iff_forall_not_mem]
  intro omitted hmem
  obtain ⟨i, hi, heq, -⟩ := (h.seen types omitted).1 hmem
  exact hnot (Signature.mem_typesBelow_iff.2 ⟨i, hi, heq⟩)

/-- **A mask with new parameter types** adds its overload and keeps the invariant. -/
theorem add_of_notMem (h : made.Upto a n)
    (hnew : a.canonical.typesOfMask n ∉ a.canonical.typesBelow n) :
    ∃ made' : Synthesized, made.add a (.ofNat n) = .ok made' ∧ made'.Upto a (n + 1) := by
  have hnone : made.seen[(Overload.ofOmitted a.canonical a.origin
      (omittedBy a.canonical.defaultPositions (.ofNat n))).parameterTypes]? = none :=
    h.seen_of_notMem hnew
  rw [add_eq]
  simp only [hnone]
  refine ⟨_, rfl, ?_, Signature.nodup_typesBelow_succ.2 ⟨hnew, h.nodup⟩, ?_⟩
  · rw [Array.toList_push, h.overloads, List.range_succ, List.map_append]
    rfl
  · intro types omitted
    rw [Std.HashMap.getElem?_insert]
    change (if (a.canonical.typesOfMask n == types) = true then some (a.canonical.omission n)
      else made.seen[types]?) = some omitted ↔ _
    by_cases htypes : a.canonical.typesOfMask n = types
    · -- no earlier mask has these parameter types
      subst htypes
      simp only [beq_self_eq_true, if_true, Option.some.injEq]
      constructor
      · rintro rfl
        exact ⟨n, by omega, rfl, rfl⟩
      · rintro ⟨i, hi, heq, rfl⟩
        obtain hlt | rfl := Nat.lt_succ_iff_lt_or_eq.1 hi
        · exact absurd (Signature.mem_typesBelow_iff.2 ⟨i, hlt, heq⟩) hnew
        · rfl
    · rw [if_neg (by simpa using htypes), h.seen]
      constructor
      · rintro ⟨i, hi, heq⟩
        exact ⟨i, by omega, heq⟩
      · rintro ⟨i, hi, heq⟩
        obtain hlt | rfl := Nat.lt_succ_iff_lt_or_eq.1 hi
        · exact ⟨i, hlt, heq⟩
        · exact absurd heq.1 htypes

/-- **A mask with the parameter types of an earlier one** ends the run. -/
theorem add_of_eq (h : made.Upto a n) {i : Nat} (hi : i < n)
    (heq : a.canonical.typesOfMask i = a.canonical.typesOfMask n) :
    made.add a (.ofNat n) = .error (.duplicateOverload a.canonical.parameterTypes
      (a.canonical.typesOfMask n) (a.canonical.omission i) (a.canonical.omission n)) := by
  have hsome : made.seen[(Overload.ofOmitted a.canonical a.origin
      (omittedBy a.canonical.defaultPositions (.ofNat n))).parameterTypes]? =
      some (a.canonical.omission i) := (h.seen _ _).2 ⟨i, hi, heq, rfl⟩
  rw [add_eq]
  simp only [hsome]
  rfl

/-! ### The run -/

/-- **The run through masks that tell the parameter types apart** makes all their overloads. -/
theorem addFrom_of_nodup {left : Nat} (h : made.Upto a n)
    (hnodup : (a.canonical.typesBelow (n + left)).Nodup) :
    ∃ made' : Synthesized, addFrom a left n made = .ok made' ∧ made'.Upto a (n + left) := by
  induction left generalizing n made with
  | zero => exact ⟨made, rfl, h⟩
  | succ left ih =>
      have hshift : n + (left + 1) = n + 1 + left := by omega
      rw [hshift] at hnodup ⊢
      obtain ⟨next, hadd, hnext⟩ := h.add_of_notMem (Signature.notMem_typesBelow hnodup (by omega))
      obtain ⟨made', hrun, hmade'⟩ := ih hnext hnodup
      refine ⟨made', ?_, hmade'⟩
      rw [addFrom, hadd]
      exact hrun

/-- **The run over a mask that repeats** ends there with an error. -/
theorem addFrom_of_firstRepeat {left first second : Nat} (h : made.Upto a n)
    (hr : a.canonical.FirstRepeat first second) (hle : n ≤ second) (hlt : second < n + left) :
    addFrom a left n made = .error (.duplicateOverload a.canonical.parameterTypes
      (a.canonical.typesOfMask second) (a.canonical.omission first)
      (a.canonical.omission second)) := by
  induction left generalizing n made with
  | zero => omega
  | succ left ih =>
      obtain rfl | hbefore := Nat.eq_or_lt_of_le hle
      · rw [addFrom, h.add_of_eq hr.lt hr.eq]
        rfl
      · -- up to the mask that repeats, the run adds one overload after another
        obtain ⟨next, hadd, hnext⟩ := h.add_of_notMem (Signature.notMem_typesBelow hr.nodup hbefore)
        rw [addFrom, hadd]
        exact ih hnext (by omega) (by omega)

end Upto

end Synthesized

/-! ### The result of the synthesis -/

section Synthesis

variable {β : Type} {options : SynthesisOptions} {s : Signature}

/-- How many overloads the default positions of a signature ask for. -/
def Signature.overloadCount (s : Signature) : Nat := 2 ^ s.defaultPositions.length - 1

/-- The action with one overload for every mask. -/
def OverloadSet.ofMasks (origin : Option ActionOrigin) (s : Signature) (body : β) :
    OverloadSet β where
  canonical := s
  sourceOfDefaults := s.parameterTypes
  body
  overloads :=
    ((List.range s.overloadCount).map fun mask => .ofOmitted s origin (s.omission mask)).toArray

theorem synthesizeFor_of_lt (origin : Option ActionOrigin) (body : β)
    (h : options.effectiveMax.toNat < s.defaultPositions.length) :
    synthesizeFor options origin s body = .error (.tooManyDefaultParameters s.parameterTypes
      s.defaultPositions.length options.effectiveMax) := by
  rw [synthesizeFor, if_pos h]

theorem synthesizeFor_of_le (origin : Option ActionOrigin) (body : β)
    (h : s.defaultPositions.length ≤ options.effectiveMax.toNat) :
    synthesizeFor options origin s body =
      (Synthesized.addFrom { canonical := s, origin } s.overloadCount 0 {}).map fun made =>
        { canonical := s, sourceOfDefaults := s.parameterTypes, body
          overloads := made.overloads } := by
  have hmax := options.effectiveMax_le
  have hcount : (fullMask s.defaultPositions.length).toNat = s.overloadCount :=
    toNat_fullMask (by omega)
  rw [synthesizeFor, if_neg (Nat.not_lt.2 h), hcount]
  rfl

/-- **Masks that tell the parameter types apart** are all made overloads. -/
theorem synthesizeFor_of_nodup (origin : Option ActionOrigin) (body : β)
    (h : s.defaultPositions.length ≤ options.effectiveMax.toNat)
    (hnodup : (s.typesBelow s.overloadCount).Nodup) :
    synthesizeFor options origin s body = .ok (.ofMasks origin s body) := by
  have hstart := Synthesized.Upto.empty { canonical := s, origin }
  have hmasks : (s.typesBelow (0 + s.overloadCount)).Nodup := by rwa [Nat.zero_add]
  obtain ⟨made, hrun, hmade⟩ := hstart.addFrom_of_nodup hmasks
  have hall : made.overloads = (OverloadSet.ofMasks origin s body).overloads := by
    rw [← Array.toList_inj, hmade.overloads, Nat.zero_add]
    rfl
  rw [synthesizeFor_of_le origin body h, hrun, Except.map, hall]
  rfl

/-- **A mask that repeats** the parameter types of an earlier one is an error. -/
theorem synthesizeFor_of_firstRepeat (origin : Option ActionOrigin) (body : β)
    (h : s.defaultPositions.length ≤ options.effectiveMax.toNat) {first second : Nat}
    (hr : s.FirstRepeat first second) (hlt : second < s.overloadCount) :
    synthesizeFor options origin s body = .error (.duplicateOverload s.parameterTypes
      (s.typesOfMask second) (s.omission first) (s.omission second)) := by
  have hstart := Synthesized.Upto.empty { canonical := s, origin }
  rw [synthesizeFor_of_le origin body h,
    hstart.addFrom_of_firstRepeat hr (Nat.zero_le _) (by omega)]
  rfl

/-- The synthesis succeeds where the limit allows the default positions and the masks tell all
parameter types apart. -/
theorem synthesizeFor_eq_ok_iff {origin : Option ActionOrigin} {body : β} {set : OverloadSet β} :
    synthesizeFor options origin s body = .ok set ↔
      s.defaultPositions.length ≤ options.effectiveMax.toNat ∧
        (s.typesBelow s.overloadCount).Nodup ∧ set = .ofMasks origin s body := by
  constructor
  · intro hok
    by_cases h : s.defaultPositions.length ≤ options.effectiveMax.toNat
    · by_cases hnodup : (s.typesBelow s.overloadCount).Nodup
      · rw [synthesizeFor_of_nodup origin body h hnodup] at hok
        cases hok
        exact ⟨h, hnodup, rfl⟩
      · obtain ⟨first, second, hlt, hr⟩ := Signature.exists_firstRepeat hnodup
        rw [synthesizeFor_of_firstRepeat origin body h hr hlt] at hok
        cases hok
    · rw [synthesizeFor_of_lt origin body (Nat.not_le.1 h)] at hok
      cases hok
  · rintro ⟨h, hnodup, rfl⟩
    exact synthesizeFor_of_nodup origin body h hnodup

end Synthesis

end ActionSignatures
