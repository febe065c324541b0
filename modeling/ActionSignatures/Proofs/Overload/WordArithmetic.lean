/-
**The words that the synthesis computes with.**

Masks are words of 32 bits, and the synthesis computes with them and with indices of positions: it
shifts a one to the place of a bit, takes one off the result for the number of masks, and counts the
positions behind a given one.  On words and indices these operations may go wrong: a shift by the
width or more has no result, nor has a difference below zero.  This module repeats the synthesis with
every operation checked and proves that no check ever fails, since the limit on default values lies
well below the width whatever the options ask for.

Main definitions:

* `ActionSignatures.Checked.shiftLeft?`, `ActionSignatures.Checked.sub?`,
  `ActionSignatures.Checked.indexSub?` — operations that are checked;
* `ActionSignatures.synthesizeChecked` — **the synthesis with every operation checked**;
* `ActionSignatures.WithinWord` — what a number of default positions asks of words and indices.

Main results:

* `ActionSignatures.withinWord_of_lt` — less than 32 default positions stay within a word;
* `ActionSignatures.omittedFrom?_eq`, `ActionSignatures.Synthesized.addChecked_eq` — no check fails
  for a mask;
* `ActionSignatures.synthesizeChecked_eq` — **no check fails** in the whole synthesis;
* `ActionSignatures.mask_arithmetic_within_word` — when there are too many default values, and
  what holds of the words otherwise.
-/

import ActionSignatures.Proofs.Overload.Run

set_option relaxedAutoImplicit false
set_option autoImplicit false

namespace ActionSignatures

/-! ### Operations that are checked -/

namespace Checked

/-- A word shifted to the left, by less than its width. -/
def shiftLeft? (word : UInt32) (distance : Nat) : Option UInt32 :=
  if distance < 32 then some (word <<< UInt32.ofNat distance) else none

/-- The difference of two words, where it is not below zero. -/
def sub? (v w : UInt32) : Option UInt32 := if w ≤ v then some (v - w) else none

/-- The difference of two indices, where it is not below zero. -/
def indexSub? (m n : Nat) : Option Nat := if n ≤ m then some (m - n) else none

theorem shiftLeft?_of_lt {word : UInt32} {distance : Nat} (h : distance < 32) :
    shiftLeft? word distance = some (word <<< UInt32.ofNat distance) := if_pos h

theorem sub?_of_le {v w : UInt32} (h : w ≤ v) : sub? v w = some (v - w) := if_pos h

theorem indexSub?_of_le {m n : Nat} (h : n ≤ m) : indexSub? m n = some (m - n) := if_pos h

end Checked

open Checked

/-! ### Masks -/

/-- The mask that retains all of `k` positions. -/
def fullMask? (k : Nat) : Option UInt32 := do
  let bit ← shiftLeft? 1 k
  sub? bit 1

/-- The bit of the position with index `i` among `k`. -/
def bitOf? (k i : Nat) : Option UInt32 := do
  let last ← indexSub? k 1
  let distance ← indexSub? last i
  shiftLeft? 1 distance

/-- The positions that a mask leaves out, from the index `i` on. -/
def omittedFrom? (k : Nat) (retained : UInt32) : Nat → List Nat → Option (List Nat)
  | _, [] => some []
  | i, position :: positions => do
      let bit ← bitOf? k i
      let omitted ← omittedFrom? k retained (i + 1) positions
      return if retained &&& bit == 0 then position :: omitted else omitted

/-- The words below a word, in order. -/
def wordsBelow (full : UInt32) : List UInt32 := (List.range full.toNat).map UInt32.ofNat

theorem one_le_one_shiftLeft {k : Nat} (h : k < 32) : (1 : UInt32) ≤ 1 <<< UInt32.ofNat k := by
  rw [UInt32.le_iff_toNat_le, toNat_one_shiftLeft h]
  exact Nat.one_le_two_pow

theorem fullMask?_eq {k : Nat} (h : k < 32) : fullMask? k = some (fullMask k) := by
  rw [fullMask?, shiftLeft?_of_lt h]
  exact sub?_of_le (one_le_one_shiftLeft h)

theorem bitOf?_eq {k i : Nat} (hi : i < k) (hk : k ≤ 32) :
    bitOf? k i = some (1 <<< UInt32.ofNat (k - 1 - i)) := by
  have hlast : indexSub? k 1 = some (k - 1) := indexSub?_of_le (by omega)
  have hdistance : indexSub? (k - 1) i = some (k - 1 - i) := indexSub?_of_le (by omega)
  have hshift : shiftLeft? 1 (k - 1 - i) = some (1 <<< UInt32.ofNat (k - 1 - i)) :=
    shiftLeft?_of_lt (by omega)
  simp only [bitOf?, hlast, hdistance, hshift, Option.bind_eq_bind, Option.bind_some]

/-- **No check fails for a mask**: what it leaves out is the same with checks and without. -/
theorem omittedFrom?_eq (retained : UInt32) {k i : Nat} {positions : List Nat}
    (hk : i + positions.length = k) (hwidth : k ≤ 32) :
    omittedFrom? k retained i positions = some (omittedBy positions retained) := by
  induction positions generalizing i with
  | nil => rfl
  | cons position positions ih =>
      rw [List.length_cons] at hk
      -- the index counts the positions in front, the distance those behind
      have hdistance : k - 1 - i = positions.length := by omega
      have hbit := bitOf?_eq (k := k) (i := i) (by omega) hwidth
      rw [hdistance] at hbit
      simp only [omittedFrom?, hbit, ih (i := i + 1) (by omega), Option.bind_eq_bind,
        Option.bind_some, omittedBy]
      rfl

theorem map_toNat_wordsBelow (full : UInt32) :
    (wordsBelow full).map UInt32.toNat = List.range full.toNat := by
  rw [wordsBelow, List.map_map]
  conv_rhs => rw [← List.map_id (List.range full.toNat)]
  refine List.map_congr_left fun mask hmask => ?_
  have hfull := full.toNat_lt
  have hlt := List.mem_range.1 hmask
  exact UInt32.toNat_ofNat_of_lt' (by rw [UInt32.size]; omega)

/-! ### The synthesis -/

/-- The overloads with the one of a mask added, with every operation checked. -/
def Synthesized.addChecked (a : PreparedAction) (made : Synthesized) (retained : UInt32) :
    ExceptT SynthesisError Option Synthesized := do
  let omitted ← (omittedFrom? a.defaults.length retained 0 a.defaults : Option (List Nat))
  let overload := a.overload omitted
  match made.seen[overload.parameterTypes]? with
  | some first => throw (.duplicateOverload a.source overload.parameterTypes first omitted)
  | none =>
      return { overloads := made.overloads.push overload
               seen := made.seen.insert overload.parameterTypes omitted }

/-- **The synthesis with every operation checked**: no result at all stands for a check that fails. -/
def synthesizeChecked {β : Type} (options : SynthesisOptions) (a : PreparedAction) (body : β) :
    ExceptT SynthesisError Option (OverloadSet β) := do
  let k := a.defaults.length
  if k > options.effectiveMax.toNat then
    throw (.tooManyDefaultParameters a.source k options.effectiveMax)
  else
    let full ← (fullMask? k : Option UInt32)
    let made ← (wordsBelow full).foldlM (Synthesized.addChecked a) {}
    return { canonical := a.canonical
             sourceOfDefaults := a.source
             body
             overloads := made.overloads }

/-- No check fails where a mask adds its overload. -/
theorem Synthesized.addChecked_eq (a : PreparedAction) (h : a.defaults.length ≤ 32)
    (made : Synthesized) (retained : UInt32) :
    made.addChecked a retained = ExceptT.mk (some (made.add a retained)) := by
  have homitted : omittedFrom? a.defaults.length retained 0 a.defaults =
      some (omittedBy a.defaults retained) := omittedFrom?_eq retained (Nat.zero_add _) h
  rw [addChecked, homitted, add]
  change (match made.seen[(a.overload (omittedBy a.defaults retained)).parameterTypes]? with
    | some first => _
    | none => _ : ExceptT SynthesisError Option Synthesized) = _
  cases made.seen[(a.overload (omittedBy a.defaults retained)).parameterTypes]? <;> rfl

/-- No check fails where masks add their overloads one after another. -/
theorem Synthesized.foldlM_addChecked_eq (a : PreparedAction) (h : a.defaults.length ≤ 32)
    (masks : List UInt32) (made : Synthesized) :
    masks.foldlM (addChecked a) made = ExceptT.mk (some (masks.foldlM (add a) made)) := by
  induction masks generalizing made with
  | nil => rfl
  | cons mask masks ih =>
      rw [List.foldlM_cons, List.foldlM_cons, addChecked_eq a h]
      cases made.add a mask with
      | error e => rfl
      | ok next => exact ih next

/-- The synthesis goes through the words below the mask that retains everything. -/
theorem Synthesized.addFrom_eq_foldlM_wordsBelow (a : PreparedAction) (full : UInt32)
    (made : Synthesized) :
    addFrom a full.toNat 0 made = (wordsBelow full).foldlM (add a) made := by
  rw [addFrom_eq_foldlM, wordsBelow, List.foldlM_map, List.range_eq_range']

/-- **No check fails**: the synthesis with every operation checked is the one without checks. -/
theorem synthesizeChecked_eq {β : Type} (options : SynthesisOptions) (origin : Option ActionOrigin)
    (s : Signature) (body : β) :
    synthesizeChecked options { canonical := s, origin } body =
      ExceptT.mk (some (synthesizeFor options origin s body)) := by
  have hmax := options.effectiveMax_le
  rw [synthesizeChecked, synthesizeFor]
  by_cases h : s.defaultPositions.length > options.effectiveMax.toNat
  · simp only [if_pos h]
    rfl
  · have hfull := fullMask?_eq (k := s.defaultPositions.length) (by omega)
    simp only [if_neg h, hfull, Synthesized.addFrom_eq_foldlM_wordsBelow]
    change ExceptT.bind ((wordsBelow (fullMask s.defaultPositions.length)).foldlM _ _) _ = _
    rw [Synthesized.foldlM_addChecked_eq _ (show s.defaultPositions.length ≤ 32 by omega)]
    cases (wordsBelow (fullMask s.defaultPositions.length)).foldlM (Synthesized.add _) {} <;> rfl

/-! ### Words and limits -/

/-- **What `k` default positions ask of words and indices**: every shift is by less than the width, no
difference is below zero, and the masks are the numbers below `2 ^ k - 1`. -/
structure WithinWord (k : Nat) : Prop where
  shift_lt : k < 32
  last_le : ∀ i < k, 1 ≤ k ∧ i ≤ k - 1
  distance_lt : ∀ i < k, k - 1 - i < 32
  full : ∃ bit full, shiftLeft? 1 k = some bit ∧ bit.toNat = 2 ^ k ∧ sub? bit 1 = some full ∧
    full = fullMask k ∧ full.toNat = 2 ^ k - 1
  bits : ∀ i < k, ∃ bit, bitOf? k i = some bit ∧ bit.toNat = 2 ^ (k - 1 - i)
  masks : (wordsBelow (fullMask k)).map UInt32.toNat = List.range (2 ^ k - 1)

/-- **Less than 32 default positions stay within a word.** -/
theorem withinWord_of_lt {k : Nat} (h : k < 32) : WithinWord k where
  shift_lt := h
  last_le i hi := by omega
  distance_lt i hi := by omega
  full := ⟨1 <<< UInt32.ofNat k, fullMask k, shiftLeft?_of_lt h, toNat_one_shiftLeft h,
    sub?_of_le (one_le_one_shiftLeft h), rfl, toNat_fullMask h⟩
  bits i hi := ⟨_, bitOf?_eq hi (by omega), toNat_one_shiftLeft (by omega)⟩
  masks := by rw [map_toNat_wordsBelow, toNat_fullMask h]

/-- The limit in force is what the options ask for, but at most 24. -/
theorem SynthesisOptions.toNat_effectiveMax (o : SynthesisOptions) :
    o.effectiveMax.toNat = min o.maxDefaultParameters.toNat 24 := by
  change (if o.maxDefaultParameters ≤ Limits.defaultParametersCeiling then o.maxDefaultParameters
    else Limits.defaultParametersCeiling).toNat = _
  have hceiling : Limits.defaultParametersCeiling.toNat = 24 := rfl
  split <;> rename_i h <;> rw [UInt32.le_iff_toNat_le, hceiling] at h
  · rw [Nat.min_eq_left h]
  · rw [hceiling, Nat.min_eq_right (by omega)]

section

variable {β : Type} (options : SynthesisOptions) (origin : Option ActionOrigin) (s : Signature)
  (body : β)

/-- There are too many default values exactly where they are more than the limit in force. -/
theorem synthesizeFor_eq_tooMany_iff {declared : ParameterTypes} {count : Nat} {max : UInt32} :
    synthesizeFor options origin s body = .error (.tooManyDefaultParameters declared count max) ↔
      options.effectiveMax.toNat < s.defaultPositions.length ∧ declared = s.parameterTypes ∧
        count = s.defaultPositions.length ∧ max = options.effectiveMax := by
  constructor
  · intro herror
    by_cases h : s.defaultPositions.length ≤ options.effectiveMax.toNat
    · by_cases hnodup : (s.typesBelow s.overloadCount).Nodup
      · rw [synthesizeFor_of_nodup origin body h hnodup] at herror
        cases herror
      · obtain ⟨first, second, hlt, hr⟩ := Signature.exists_firstRepeat hnodup
        rw [synthesizeFor_of_firstRepeat origin body h hr hlt] at herror
        cases herror
    · rw [synthesizeFor_of_lt origin body (Nat.not_le.1 h)] at herror
      cases herror
      exact ⟨Nat.not_le.1 h, rfl, rfl, rfl⟩
  · rintro ⟨h, rfl, rfl, rfl⟩
    exact synthesizeFor_of_lt origin body h

/-- **The arithmetic of masks stays within a word.**  The synthesis refuses a signature for its number
of default values exactly where they are more than the limit in force.  Otherwise all words and indices
that it computes are in range, it goes through the masks below `2 ^ k - 1`, and its result does not
depend on the options.  In any case no check fails. -/
theorem mask_arithmetic_within_word :
    (synthesizeChecked options { canonical := s, origin } body).run =
        some (synthesizeFor options origin s body) ∧
      options.effectiveMax.toNat = min options.maxDefaultParameters.toNat 24 ∧
      (∀ declared count max,
        synthesizeFor options origin s body =
            .error (.tooManyDefaultParameters declared count max) ↔
          options.effectiveMax.toNat < s.defaultPositions.length ∧ declared = s.parameterTypes ∧
            count = s.defaultPositions.length ∧ max = options.effectiveMax) ∧
      (s.defaultPositions.length ≤ options.effectiveMax.toNat →
        WithinWord s.defaultPositions.length ∧
        synthesizeFor options origin s body =
          ((List.range (2 ^ s.defaultPositions.length - 1)).foldlM (fun made mask =>
              Synthesized.add { canonical := s, origin } made (.ofNat mask)) {}).map (fun made =>
            { canonical := s, sourceOfDefaults := s.parameterTypes, body
              overloads := made.overloads }) ∧
        ∀ others : SynthesisOptions,
          s.defaultPositions.length ≤ others.effectiveMax.toNat →
            synthesizeFor others origin s body = synthesizeFor options origin s body) := by
  have hmax := options.effectiveMax_le
  refine ⟨congrArg ExceptT.run (synthesizeChecked_eq options origin s body),
    options.toNat_effectiveMax,
    fun _ _ _ => synthesizeFor_eq_tooMany_iff options origin s body, fun h => ⟨?_, ?_, ?_⟩⟩
  · exact withinWord_of_lt (by omega)
  · rw [synthesizeFor_of_le origin body h, Synthesized.addFrom_eq_foldlM, List.range_eq_range']
    rfl
  · intro others hothers
    rw [synthesizeFor_of_le origin body hothers, synthesizeFor_of_le origin body h]

end

/-- A signature of as many numbers, all of which have default values. -/
def defaultNumbers (n : Nat) : Signature where
  params := List.replicate n { name := "x", type := .primitive .int, hasDefaultValue := true }
  variadicLast := by
    induction n with
    | zero => trivial
    | succ n ih => exact ⟨nofun, ih⟩

/-- As many default values as the ceiling allows, under options that ask for more. -/
theorem mask_arithmetic_defaultNumbers :
    (defaultNumbers 24).defaultPositions.length ≤
        (SynthesisOptions.effectiveMax ⟨4294967295⟩).toNat ∧
      WithinWord (defaultNumbers 24).defaultPositions.length ∧
      synthesizeFor ⟨24⟩ none (defaultNumbers 24) () =
        synthesizeFor ⟨4294967295⟩ none (defaultNumbers 24) () := by
  have hlimit : (defaultNumbers 24).defaultPositions.length ≤
      (SynthesisOptions.effectiveMax ⟨4294967295⟩).toNat := by decide
  have h := (mask_arithmetic_within_word ⟨4294967295⟩ none (defaultNumbers 24) ()).2.2.2 hlimit
  exact ⟨hlimit, h.1, h.2.2 ⟨24⟩ (by decide)⟩

end ActionSignatures
