/-
**The grammar of parameter types, and the first offence against it.**

A text that is not blank is split at its commas, and the parts are trimmed.  A part offends if it
writes no name: if it is empty, or is nothing but the star of a variadic list.  A part in front of
another one also offends if it ends in a star.  Reading goes through the parts in order, and the
first one that offends is reported; if none offends, all are read.

Main definitions:

* `ActionSignatures.ParameterTypes.textParts` — the trimmed parts of a text;
* `ActionSignatures.ParameterTypes.Offends` — **the parts that offend**;
* `ActionSignatures.ParameterTypes.offence` — the fault with which one is reported.

Main results:

* `ActionSignatures.ParameterTypes.parse_of_not_blank` — a text is read by its trimmed parts;
* `ActionSignatures.ParameterTypes.ofParts_of_isLeast` — **the first offence is reported**;
* `ActionSignatures.ParameterTypes.exists_ofParts_of_forall_not_offends` — parts that do not offend
  are read;
* `ActionSignatures.ParameterTypes.parts_of_ofParts` — what is read writes the parts again;
* `ActionSignatures.ParameterTypes.parse_reports_first_offence` — **which texts are read**, and what
  is reported of the others.
-/

import ActionSignatures.Proofs.Text.Trimming
import Mathlib.Data.Nat.Find
import Mathlib.Order.Bounds.Basic

set_option relaxedAutoImplicit false
set_option autoImplicit false

namespace ActionSignatures.ParameterTypes

open Text

/-! ### The parts of a text -/

/-- What stands between the commas of a text, trimmed. -/
def textParts (text : String) : List (List Char) := (pieces ',' text.toList).map trim

theorem textParts_ne_nil (text : String) : textParts text ≠ [] :=
  fun h => pieces_ne_nil ',' _ (List.map_eq_nil_iff.1 h)

theorem isPart_of_mem_textParts {text : String} : ∀ part ∈ textParts text, IsPart part :=
  List.forall_mem_map.2 fun _ hpiece => isPart_trim (not_mem_of_mem_pieces _ hpiece)

/-- A blank text writes no parameter types. -/
theorem parse_of_blank {text : String} (h : ∀ c ∈ text.toList, isBlank c = true) :
    parse text = .ok empty := by
  rw [parse, parseChars]
  exact if_pos (trim_eq_nil_iff.2 h)

/-- **A text that is not blank is read by its trimmed parts.** -/
theorem parse_of_not_blank {text : String} (h : ¬∀ c ∈ text.toList, isBlank c = true) :
    parse text = ofParts 0 (textParts text) := by
  have hcomma : isBlank ',' = false := rfl
  have hparts := map_trim_pieces_trim hcomma text.toList
  rw [parse, parseChars, textParts, ← hparts]
  exact if_neg fun hnil => h (trim_eq_nil_iff.1 hnil)

/-! ### Parts that offend -/

/-- **A part offends** if it is empty, or if it is the last one and nothing but a star, or if it is
not the last one and ends in a star. -/
def Offends (ps : List (List Char)) (i : Nat) : Prop :=
  ∃ part, ps[i]? = some part ∧
    (part = [] ∨ if i + 1 = ps.length then part = ['*'] else part.getLast? = some '*')

/-- The fault with which an offending part is reported, by its place among the parts from a position
on. -/
def offence (position : Nat) (ps : List (List Char)) (i : Nat) : PrototypeFault :=
  if i + 1 ≠ ps.length ∧ ps[i]?.bind List.getLast? = some '*' then
    .misplacedVarargs (position + i)
  else
    .emptyType (position + i)

theorem not_offends_nil (i : Nat) : ¬Offends [] i := by
  rintro ⟨part, hpart, -⟩
  cases hpart

theorem offends_singleton_iff {part : List Char} {i : Nat} :
    Offends [part] i ↔ i = 0 ∧ (part = [] ∨ part = ['*']) := by
  cases i with
  | zero => simp [Offends]
  | succ i => simp [Offends]

theorem offends_zero_iff {part next : List Char} {ps : List (List Char)} :
    Offends (part :: next :: ps) 0 ↔ part = [] ∨ part.getLast? = some '*' := by
  simp [Offends]

theorem offends_succ_iff {part : List Char} {ps : List (List Char)} {i : Nat} :
    Offends (part :: ps) (i + 1) ↔ Offends ps i := by
  simp [Offends]

theorem offence_succ (position : Nat) (part : List Char) (ps : List (List Char)) (i : Nat) :
    offence position (part :: ps) (i + 1) = offence (position + 1) ps i := by
  simp [offence, Nat.add_right_comm, Nat.add_assoc]

/-- Behind a part that does not offend the offences are those of the other parts. -/
theorem isLeast_offends_succ_iff {part : List Char} {ps : List (List Char)} {i : Nat}
    (h : ¬Offends (part :: ps) 0) :
    IsLeast {j | Offends (part :: ps) j} (i + 1) ↔ IsLeast {j | Offends ps j} i := by
  constructor
  · rintro ⟨hi, hleast⟩
    exact ⟨offends_succ_iff.1 hi, fun j hj => Nat.le_of_succ_le_succ
      (hleast (offends_succ_iff.2 hj))⟩
  · rintro ⟨hi, hleast⟩
    refine ⟨offends_succ_iff.2 hi, fun j hj => ?_⟩
    cases j with
    | zero => exact absurd hj h
    | succ j => exact Nat.succ_le_succ (hleast (offends_succ_iff.1 hj))

/-! ### Reading parts in order -/

/-- The name that a part writes. -/
theorem nameOf_of_ne_nil {part : List Char} (h : part ≠ []) (position : Nat) :
    nameOf position part = .ok (String.ofList part) :=
  nameOf_eq_ok_iff.2 ⟨h, rfl⟩

/-- **The first offence is reported.** -/
theorem ofParts_of_isLeast {ps : List (List Char)} {position i : Nat}
    (h : IsLeast {j | Offends ps j} i) : ofParts position ps = .error (offence position ps i) := by
  induction ps generalizing position i with
  | nil => exact absurd h.1 (not_offends_nil i)
  | cons part ps ih =>
      cases ps with
      | nil =>
          obtain ⟨rfl, rfl | rfl⟩ := offends_singleton_iff.1 h.1
          · rfl
          · rfl
      | cons next ps =>
          by_cases hpart : Offends (part :: next :: ps) 0
          · obtain rfl : i = 0 := Nat.le_zero.1 (h.2 hpart)
            by_cases hstar : part.getLast? = some '*'
            · simp [ofParts, unstarred, offence, hstar]
            · obtain rfl := (offends_zero_iff.1 hpart).resolve_right hstar
              rfl
          · cases i with
            | zero => exact absurd h.1 hpart
            | succ i =>
                obtain ⟨hne, hstar⟩ := not_or.1 (mt offends_zero_iff.2 hpart)
                rw [ofParts_cons_of_unstarred_eq_none (unstarred_eq_none_iff.2 hstar)
                  (List.cons_ne_nil next ps), nameOf_of_ne_nil hne,
                  ih ((isLeast_offends_succ_iff hpart).1 h), offence_succ]
                rfl

/-- **Parts that do not offend are read.** -/
theorem exists_ofParts_of_forall_not_offends {ps : List (List Char)} (h : ∀ i, ¬Offends ps i)
    (position : Nat) : ∃ p, ofParts position ps = .ok p := by
  induction ps generalizing position with
  | nil => exact ⟨empty, rfl⟩
  | cons part ps ih =>
      cases ps with
      | nil =>
          have hpart := not_or.1 fun hoff => h 0 (offends_singleton_iff.2 ⟨rfl, hoff⟩)
          cases hstar : unstarred part with
          | some bare =>
              obtain rfl := unstarred_eq_some_iff.1 hstar
              have hne : bare ≠ [] := fun hnil => hpart.2 (by rw [hnil]; rfl)
              rw [ofParts, hstar]
              simp only [nameOf_of_ne_nil hne]
              exact ⟨_, rfl⟩
          | none =>
              rw [ofParts, hstar]
              simp only [nameOf_of_ne_nil hpart.1]
              exact ⟨_, rfl⟩
      | cons next ps =>
          obtain ⟨hne, hstar⟩ := not_or.1 (mt offends_zero_iff.2 (h 0))
          obtain ⟨rest, hrest⟩ := ih (fun i hi => h (i + 1) (offends_succ_iff.2 hi)) (position + 1)
          rw [ofParts_cons_of_unstarred_eq_none (unstarred_eq_none_iff.2 hstar)
            (List.cons_ne_nil next ps), nameOf_of_ne_nil hne, hrest]
          exact ⟨_, rfl⟩

/-! ### What the parts write -/

theorem length_parts (names : List ErasedType) (varargs : Bool) :
    (parts names varargs).length = names.length := by
  induction names with
  | nil => rfl
  | cons name names ih =>
      cases names with
      | nil => rfl
      | cons next names => exact congrArg (· + 1) ih

/-- A star stands behind the last name of a variadic list. -/
theorem parts_concat (front : List ErasedType) (last : ErasedType) (varargs : Bool) :
    parts (front ++ [last]) varargs =
      front.map String.toList ++ [last.toList ++ if varargs then ['*'] else []] := by
  induction front with
  | nil => rfl
  | cons name front ih =>
      obtain ⟨next, names, hnames⟩ := List.exists_cons_of_ne_nil (List.concat_ne_nil last front)
      rw [List.cons_append, hnames, parts_cons_cons, ← hnames, ih, List.map_cons, List.cons_append]

/-- **What is read writes the parts again.** -/
theorem parts_of_ofParts {ps : List (List Char)} (hne : ps ≠ []) {position : Nat}
    {p : ParameterTypes} (h : ofParts position ps = .ok p) : parts p.types p.varargs = ps := by
  induction ps generalizing position p with
  | nil => exact absurd rfl hne
  | cons part ps ih =>
      cases ps with
      | nil =>
          cases hstar : unstarred part with
          | some bare =>
              rw [ofParts, hstar] at h
              obtain ⟨name, hname, rfl⟩ := exists_of_map_eq_ok h
              obtain ⟨-, rfl⟩ := nameOf_eq_ok_iff.1 hname
              rw [unstarred_eq_some_iff.1 hstar]
              simp [of, parts]
          | none =>
              rw [ofParts, hstar] at h
              obtain ⟨name, hname, rfl⟩ := exists_of_map_eq_ok h
              obtain ⟨-, rfl⟩ := nameOf_eq_ok_iff.1 hname
              simp [of, parts]
      | cons next ps =>
          cases hstar : unstarred part with
          | some bare => simp [ofParts, hstar] at h
          | none =>
              rw [ofParts_cons_of_unstarred_eq_none hstar (List.cons_ne_nil next ps)] at h
              obtain ⟨name, hname, h⟩ := exists_of_bind_eq_ok h
              obtain ⟨rest, hrest, h⟩ := exists_of_bind_eq_ok h
              cases h
              obtain ⟨-, rfl⟩ := nameOf_eq_ok_iff.1 hname
              have hparts := ih (List.cons_ne_nil next ps) hrest
              obtain ⟨first, names, hnames⟩ : ∃ first names, rest.types = first :: names := by
                refine List.exists_cons_of_ne_nil fun hnil => ?_
                rw [hnil] at hparts
                cases hparts
              have hvarargs : (of (String.ofList part :: rest.types) rest.varargs).varargs =
                  rest.varargs := Bool.and_true _
              rw [hvarargs, of, hnames, parts_cons_cons, String.toList_ofList, ← hnames, hparts]

/-- What is read is variadic if the last part ends in a star. -/
theorem varargs_eq_true_iff_of_ofParts {ps : List (List Char)} (hne : ps ≠ [])
    (hparts : ∀ part ∈ ps, IsPart part) {position : Nat} {p : ParameterTypes}
    (h : ofParts position ps = .ok p) :
    p.varargs = true ↔ ∃ last, ps.getLast? = some last ∧ last.getLast? = some '*' := by
  have hwrites := parts_of_ofParts hne h
  have hwritten := writtenNames_of_ofParts hparts h
  obtain ⟨front, last, hnames⟩ : ∃ front last, p.types = front ++ [last] := by
    refine (List.eq_nil_or_concat' p.types).resolve_left fun hnil => ?_
    rw [hnil] at hwrites
    exact hne hwrites.symm
  rw [hnames, parts_concat] at hwrites
  rw [← hwrites, List.getLast?_concat]
  cases hvarargs : p.varargs with
  | true => exact iff_of_true rfl ⟨_, rfl, List.getLast?_concat⟩
  | false =>
      refine iff_of_false Bool.false_ne_true ?_
      rintro ⟨_, ⟨⟩, hstar⟩
      have hclose : ClosesName last.toList := by
        refine hwritten.closes last ?_
        simp [hvarargs, hnames]
      rw [if_neg Bool.false_ne_true, List.append_nil] at hstar
      exact (hclose '*' hstar).2 rfl

/-! ### Which texts are read -/

theorem not_offends_iff {ps : List (List Char)} {i : Nat} :
    ¬Offends ps i ↔ ∀ part, ps[i]? = some part →
      part ≠ [] ∧ if i + 1 = ps.length then part ≠ ['*'] else part.getLast? ≠ some '*' := by
  rw [Offends, not_exists]
  refine forall_congr' fun part => ?_
  rw [not_and, not_or]
  split <;> rfl

/-- If some part offends, there is a first one that does. -/
theorem exists_isLeast_offends {ps : List (List Char)} (h : ¬∀ i, ¬Offends ps i) :
    ∃ i, IsLeast {j | Offends ps j} i := by
  classical
  have hsome : ∃ i, Offends ps i := not_forall_not.1 h
  exact ⟨Nat.find hsome, Nat.find_spec hsome, fun _ hj => Nat.find_min' hsome hj⟩

theorem exists_ofParts_iff {ps : List (List Char)} {position : Nat} :
    (∃ p, ofParts position ps = .ok p) ↔ ∀ i, ¬Offends ps i := by
  refine ⟨?_, fun h => exists_ofParts_of_forall_not_offends h position⟩
  rintro ⟨p, hp⟩
  by_contra hsome
  obtain ⟨i, hi⟩ := exists_isLeast_offends hsome
  rw [ofParts_of_isLeast hi] at hp
  cases hp

theorem ofParts_eq_error_iff {ps : List (List Char)} {position : Nat} {fault : PrototypeFault} :
    ofParts position ps = .error fault ↔
      ∃ i, IsLeast {j | Offends ps j} i ∧ fault = offence position ps i := by
  constructor
  · intro h
    have hsome : ¬∀ i, ¬Offends ps i := by
      intro hnone
      obtain ⟨p, hp⟩ := exists_ofParts_of_forall_not_offends hnone position
      rw [h] at hp
      cases hp
    obtain ⟨i, hi⟩ := exists_isLeast_offends hsome
    rw [ofParts_of_isLeast hi] at h
    cases h
    exact ⟨i, hi, rfl⟩
  · rintro ⟨i, hi, rfl⟩
    exact ofParts_of_isLeast hi

/-- **Which texts are read, and what is reported of the others.**  A blank text writes the empty
list.  Any other text is read if and only if none of its trimmed parts offends: none is empty, none
but the last one ends in a star, and the last one is not just a star.  It writes as many types as it
has parts, and the list is variadic if the last part ends in a star.  Otherwise the first part that
offends is reported, by its position: as a misplaced mark if it is not the last part and ends in a
star, and as an empty name in all other cases. -/
theorem parse_reports_first_offence (text : String) :
    ((∀ c ∈ text.toList, isBlank c = true) → parse text = .ok empty) ∧
    ((¬∀ c ∈ text.toList, isBlank c = true) →
      ((∃ p, parse text = .ok p) ↔
        ∀ i part, (textParts text)[i]? = some part → part ≠ [] ∧
          if i + 1 = (textParts text).length then part ≠ ['*'] else part.getLast? ≠ some '*') ∧
      (∀ fault, parse text = .error fault ↔ ∃ i part, (textParts text)[i]? = some part ∧
        IsLeast {j | Offends (textParts text) j} i ∧
          fault = if i + 1 ≠ (textParts text).length ∧ part.getLast? = some '*' then
            .misplacedVarargs i else .emptyType i) ∧
      ∀ p, parse text = .ok p → p.length = (textParts text).length ∧
        (p.varargs = true ↔
          ∃ last, (textParts text).getLast? = some last ∧ last.getLast? = some '*')) := by
  refine ⟨parse_of_blank, fun h => ?_⟩
  rw [parse_of_not_blank h]
  have hne := textParts_ne_nil text
  refine ⟨?_, fun fault => ?_, fun p hp => ⟨?_, ?_⟩⟩
  · rw [exists_ofParts_iff]
    exact forall_congr' fun i => not_offends_iff
  · rw [ofParts_eq_error_iff]
    refine exists_congr fun i => ⟨?_, ?_⟩
    · rintro ⟨hi, rfl⟩
      obtain ⟨part, hpart, -⟩ := hi.1
      exact ⟨part, hpart, hi, by simp [offence, hpart]⟩
    · rintro ⟨part, hpart, hi, rfl⟩
      exact ⟨hi, by simp [offence, hpart]⟩
  · rw [← parts_of_ofParts hne hp, length_parts, length]
  · exact varargs_eq_true_iff_of_ofParts hne isPart_of_mem_textParts hp

/-! The empty part comes before the misplaced mark; of two stars the first belongs to the name. -/

example : parse "int,,float*,char" = .error (.emptyType 1) := by decide

example : parse "int, float**" = .ok (of ["int", "float*"] true) := by decide

end ActionSignatures.ParameterTypes
