/-
**Masks and the omissions that they stand for.**

The synthesis of overloads counts through the masks of `k` bits, where `k` is the number of default
positions.  A mask leaves out the positions whose bit is not set, and the first position has the most
significant bit.  This module reads the bits of a mask as bits of a natural number and proves that the
masks below `2 ^ k` and the choices of default positions correspond to one another, the mask
`2 ^ k - 1` to the empty choice.

Main definitions:

* `ActionSignatures.Signature.IsOmission` — **the non-empty choices of default positions**, each as
  the ascending list of its positions;
* `ActionSignatures.Signature.omission` — the positions that a mask leaves out of a signature.

Main results:

* `ActionSignatures.mem_omittedBy_iff` — the bits of a mask by the indices of the positions;
* `ActionSignatures.exists_mask_of_sublist`, `ActionSignatures.mask_eq_of_omittedBy_eq` — every choice
  has a mask, and only one;
* `ActionSignatures.Signature.isOmission_omission`,
  `ActionSignatures.Signature.existsUnique_mask_of_isOmission` — **masks below `2 ^ k - 1` and
  omissions** correspond to one another.
-/

import ActionSignatures.Overload.Synthesis
import Mathlib.Data.List.Sort
import Mathlib.Data.Nat.Bitwise

set_option relaxedAutoImplicit false
set_option autoImplicit false

namespace ActionSignatures

/-! ### One bit of a mask -/

theorem toNat_one_shiftLeft {j : Nat} (hj : j < 32) :
    (1 <<< UInt32.ofNat j : UInt32).toNat = 2 ^ j := by
  have hbound : 2 ^ j < 2 ^ 32 := Nat.pow_lt_pow_right (by omega) hj
  have hmod : j % 2 ^ 32 % 32 = j := by omega
  rw [UInt32.toNat_shiftLeft, UInt32.toNat_ofNat', hmod, UInt32.toNat_one, Nat.one_shiftLeft,
    Nat.mod_eq_of_lt hbound]

/-- A bit of a mask, as a bit of the number that the mask is. -/
theorem mask_and_bit_eq {j : Nat} (hj : j < 32) (mask : Nat) :
    (UInt32.ofNat mask &&& (1 <<< UInt32.ofNat j) == 0) = !mask.testBit j := by
  have hand : (UInt32.ofNat mask &&& (1 <<< UInt32.ofNat j)).toNat =
      (mask.testBit j).toNat * 2 ^ j := by
    rw [UInt32.toNat_and, toNat_one_shiftLeft hj, UInt32.toNat_ofNat', Nat.and_two_pow,
      Nat.testBit_mod_two_pow, decide_eq_true hj, Bool.true_and]
  rw [Bool.eq_iff_iff, beq_iff_eq, ← UInt32.toNat_inj, hand]
  cases mask.testBit j <;> simp

/-- What a mask leaves out, position by position. -/
theorem omittedBy_cons_ofNat (position : Nat) {positions : List Nat} (h : positions.length < 32)
    (mask : Nat) :
    omittedBy (position :: positions) (.ofNat mask) =
      if mask.testBit positions.length then omittedBy positions (.ofNat mask)
      else position :: omittedBy positions (.ofNat mask) := by
  rw [omittedBy, mask_and_bit_eq h]
  cases mask.testBit positions.length <;> rfl

/-! ### The choice that a mask makes -/

theorem omittedBy_sublist (positions : List Nat) (retained : UInt32) :
    (omittedBy positions retained).Sublist positions := by
  induction positions with
  | nil => exact List.Sublist.refl _
  | cons position positions ih =>
      rw [omittedBy]
      split
      · exact ih.cons_cons position
      · exact ih.cons position

/-- What a mask leaves out depends on as many bits as there are positions. -/
theorem omittedBy_congr {positions : List Nat} (h : positions.length ≤ 32) {m n : Nat}
    (bits : ∀ j < positions.length, m.testBit j = n.testBit j) :
    omittedBy positions (.ofNat m) = omittedBy positions (.ofNat n) := by
  induction positions with
  | nil => rfl
  | cons position positions ih =>
      rw [List.length_cons] at h bits
      rw [omittedBy_cons_ofNat position (by omega), omittedBy_cons_ofNat position (by omega),
        bits _ (by omega), ih (by omega) fun j hj => bits j (by omega)]

/-- **The bits of a mask by the indices of the positions**: of `k` positions the one with index `i` is
left out where the bit `k - 1 - i` is not set. -/
theorem mem_omittedBy_iff {positions : List Nat} (h : positions.length ≤ 32) {mask x : Nat} :
    x ∈ omittedBy positions (.ofNat mask) ↔
      ∃ i, positions[i]? = some x ∧ mask.testBit (positions.length - 1 - i) = false := by
  induction positions with
  | nil => simp [omittedBy]
  | cons position positions ih =>
      rw [List.length_cons] at h
      have ih := ih (by omega)
      -- the indices behind the first one are those of the remaining positions
      have htail : (∃ i, (position :: positions)[i + 1]? = some x ∧
          mask.testBit (positions.length + 1 - 1 - (i + 1)) = false) ↔
          x ∈ omittedBy positions (.ofNat mask) := by
        rw [ih]
        refine exists_congr fun i => ?_
        have hshift : positions.length + 1 - 1 - (i + 1) = positions.length - 1 - i := by omega
        rw [hshift, List.getElem?_cons_succ]
      rw [List.length_cons, ← Nat.or_exists_add_one, htail, omittedBy_cons_ofNat position (by omega)]
      cases hbit : mask.testBit positions.length <;> simp [hbit, eq_comm]

theorem omittedBy_eq_nil_iff {positions : List Nat} (h : positions.length ≤ 32) {mask : Nat} :
    omittedBy positions (.ofNat mask) = [] ↔ ∀ j < positions.length, mask.testBit j = true := by
  rw [List.eq_nil_iff_forall_not_mem]
  constructor
  · intro hnil j hj
    by_contra hbit
    have hindex : positions.length - 1 - (positions.length - 1 - j) = j := by omega
    refine hnil positions[positions.length - 1 - j] ((mem_omittedBy_iff h).2
      ⟨_, List.getElem?_eq_getElem _, ?_⟩)
    rw [hindex]
    simpa using hbit
  · intro hbits x hx
    obtain ⟨i, hi, hbit⟩ := (mem_omittedBy_iff h).1 hx
    obtain ⟨hlt, -⟩ := List.getElem?_eq_some_iff.1 hi
    rw [hbits _ (by omega)] at hbit
    cases hbit

/-- Every choice has a mask. -/
theorem exists_mask_of_sublist {positions chosen : List Nat} (h : positions.length ≤ 32)
    (hsub : chosen.Sublist positions) :
    ∃ mask < 2 ^ positions.length, omittedBy positions (.ofNat mask) = chosen := by
  induction hsub with
  | slnil => exact ⟨0, by simp, rfl⟩
  | @cons chosen positions position hsub ih =>
      rw [List.length_cons] at h
      obtain ⟨mask, hlt, heq⟩ := ih (by omega)
      -- the position is retained by the most significant bit
      refine ⟨2 ^ positions.length + mask, by rw [List.length_cons, Nat.pow_succ]; omega, ?_⟩
      have hbit : (2 ^ positions.length + mask).testBit positions.length = true := by
        rw [Nat.testBit_two_pow_add_eq, Nat.testBit_lt_two_pow hlt]
        rfl
      rw [omittedBy_cons_ofNat position (by omega), if_pos hbit, ← heq]
      exact omittedBy_congr (by omega) fun j hj => Nat.testBit_two_pow_add_gt hj mask
  | @cons_cons chosen positions position hsub ih =>
      rw [List.length_cons] at h
      obtain ⟨mask, hlt, heq⟩ := ih (by omega)
      refine ⟨mask, by rw [List.length_cons, Nat.pow_succ]; omega, ?_⟩
      rw [omittedBy_cons_ofNat position (by omega), Nat.testBit_lt_two_pow hlt, heq]
      rfl

/-- A choice has no two masks. -/
theorem mask_eq_of_omittedBy_eq {positions : List Nat} (h : positions.length ≤ 32)
    (hnodup : positions.Nodup) {m n : Nat} (hm : m < 2 ^ positions.length)
    (hn : n < 2 ^ positions.length)
    (heq : omittedBy positions (.ofNat m) = omittedBy positions (.ofNat n)) : m = n := by
  -- a position tells which of the two masks retain it
  have hbit : ∀ j < positions.length, ∀ mask : Nat, mask.testBit j = false ↔
      positions[positions.length - 1 - j]? ∈ (omittedBy positions (.ofNat mask)).map some := by
    intro j hj mask
    have hlt : positions.length - 1 - j < positions.length := by omega
    have hindex : positions.length - 1 - (positions.length - 1 - j) = j := by omega
    rw [List.getElem?_eq_getElem hlt, List.mem_map_of_injective (Option.some_injective _),
      mem_omittedBy_iff h]
    constructor
    · intro hfalse
      exact ⟨_, List.getElem?_eq_getElem hlt, by rwa [hindex]⟩
    · rintro ⟨i, hi, hfalse⟩
      obtain ⟨hi', hget⟩ := List.getElem?_eq_some_iff.1 hi
      obtain rfl := (hnodup.getElem_inj_iff).1 hget
      rwa [hindex] at hfalse
  refine Nat.eq_of_testBit_eq fun j => ?_
  by_cases hj : j < positions.length
  · have hiff : m.testBit j = false ↔ n.testBit j = false := by
      rw [hbit j hj m, hbit j hj n, heq]
    cases hm' : m.testBit j <;> cases hn' : n.testBit j <;> simp_all
  · have hpow : 2 ^ positions.length ≤ 2 ^ j := Nat.pow_le_pow_right (by omega) (by omega)
    rw [Nat.testBit_lt_two_pow (by omega), Nat.testBit_lt_two_pow (by omega)]

/-- Only the mask that has every bit set leaves nothing out. -/
theorem omittedBy_ne_nil {positions : List Nat} (h : positions.length ≤ 32) {mask : Nat}
    (hmask : mask < 2 ^ positions.length - 1) : omittedBy positions (.ofNat mask) ≠ [] := by
  intro hnil
  have hall := (omittedBy_eq_nil_iff h).1 hnil
  have hfull : mask = 2 ^ positions.length - 1 := by
    refine Nat.eq_of_testBit_eq fun j => ?_
    rw [Nat.testBit_two_pow_sub_one]
    by_cases hj : j < positions.length
    · rw [hall j hj, decide_eq_true hj]
    · have hpow : 2 ^ positions.length ≤ 2 ^ j := Nat.pow_le_pow_right (by omega) (by omega)
      rw [Nat.testBit_lt_two_pow (by omega), decide_eq_false hj]
  omega

/-! ### Default positions -/

namespace Signature

variable {s : Signature}

theorem mem_defaultPositions_iff {i : Nat} :
    i ∈ s.defaultPositions ↔ ∃ p, s.params[i]? = some p ∧ p.isOptional = true := by
  simp only [defaultPositions, List.mem_filterMap, Prod.exists, List.mem_zipIdx_iff_getElem?,
    Option.ite_none_right_eq_some, Option.some.injEq]
  constructor
  · rintro ⟨p, j, hp, hopt, rfl⟩
    exact ⟨p, hp, hopt⟩
  · rintro ⟨p, hp, hopt⟩
    exact ⟨p, i, hp, hopt, rfl⟩

theorem pairwise_defaultPositions (s : Signature) : s.defaultPositions.Pairwise (· < ·) := by
  have hzip : (s.params.zipIdx.map Prod.snd).Pairwise (· < ·) := by
    rw [List.zipIdx_map_snd]
    exact List.pairwise_lt_range'
  rw [defaultPositions, List.pairwise_filterMap]
  refine (List.pairwise_map.1 hzip).imp fun hlt i hi j hj => ?_
  rw [Option.ite_none_right_eq_some, Option.some.injEq] at hi hj
  rwa [← hi.2, ← hj.2]

theorem nodup_defaultPositions (s : Signature) : s.defaultPositions.Nodup :=
  s.pairwise_defaultPositions.imp Nat.ne_of_lt

/-! ### Omissions -/

/-- **An omission**: a non-empty choice of default positions, as the ascending list of them. -/
structure IsOmission (s : Signature) (omitted : List Nat) : Prop where
  ne_nil : omitted ≠ []
  ascending : omitted.Pairwise (· < ·)
  optional : ∀ i ∈ omitted, i ∈ s.defaultPositions

theorem IsOmission.sublist {omitted : List Nat} (h : s.IsOmission omitted) :
    omitted.Sublist s.defaultPositions := by
  have hsubperm := List.subperm_of_subset (h.ascending.imp Nat.ne_of_lt) h.optional
  exact List.sublist_of_subperm_of_sortedLE hsubperm (h.ascending.imp Nat.le_of_lt).sortedLE
    (s.pairwise_defaultPositions.imp Nat.le_of_lt).sortedLE

theorem isOmission_of_sublist {omitted : List Nat} (hnil : omitted ≠ [])
    (h : omitted.Sublist s.defaultPositions) : s.IsOmission omitted where
  ne_nil := hnil
  ascending := s.pairwise_defaultPositions.sublist h
  optional := h.subset

/-- The positions that a mask leaves out of a signature. -/
def omission (s : Signature) (mask : Nat) : List Nat :=
  omittedBy s.defaultPositions (.ofNat mask)

/-- Every mask but the full one makes an omission. -/
theorem isOmission_omission (h : s.defaultPositions.length ≤ 32) {mask : Nat}
    (hmask : mask < 2 ^ s.defaultPositions.length - 1) : s.IsOmission (s.omission mask) :=
  isOmission_of_sublist (omittedBy_ne_nil h hmask) (omittedBy_sublist ..)

/-- Two masks make different omissions. -/
theorem omission_inj (h : s.defaultPositions.length ≤ 32) {m n : Nat}
    (hm : m < 2 ^ s.defaultPositions.length - 1) (hn : n < 2 ^ s.defaultPositions.length - 1)
    (heq : s.omission m = s.omission n) : m = n :=
  mask_eq_of_omittedBy_eq h s.nodup_defaultPositions (by omega) (by omega) heq

/-- **Every omission is made by one mask.** -/
theorem existsUnique_mask_of_isOmission (h : s.defaultPositions.length ≤ 32) {omitted : List Nat}
    (ho : s.IsOmission omitted) :
    ∃! mask, mask < 2 ^ s.defaultPositions.length - 1 ∧ s.omission mask = omitted := by
  obtain ⟨mask, hlt, heq⟩ := exists_mask_of_sublist h ho.sublist
  have hne : mask ≠ 2 ^ s.defaultPositions.length - 1 := by
    rintro rfl
    refine ho.ne_nil (heq.symm.trans ((omittedBy_eq_nil_iff h).2 fun j hj => ?_))
    rw [Nat.testBit_two_pow_sub_one, decide_eq_true hj]
  have hmask : mask < 2 ^ s.defaultPositions.length - 1 := by omega
  refine ⟨mask, ⟨hmask, heq⟩, ?_⟩
  rintro other ⟨hother, hmade⟩
  exact omission_inj h hother hmask (hmade.trans heq.symm)

/-- A variadic parameter is in no omission. -/
theorem IsOmission.isVarargs_eq_false {omitted : List Nat} (h : s.IsOmission omitted) {i : Nat}
    (hi : i ∈ omitted) {p : Parameter} (hp : s.params[i]? = some p) : p.isVarargs = false := by
  obtain ⟨q, hq, hopt⟩ := mem_defaultPositions_iff.1 (h.optional i hi)
  rw [hp, Option.some.injEq] at hq
  subst hq
  rw [Parameter.isOptional, Bool.and_eq_true, Bool.not_eq_true'] at hopt
  exact hopt.2

end Signature

end ActionSignatures
