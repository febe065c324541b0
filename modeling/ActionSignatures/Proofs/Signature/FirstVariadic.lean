/-
**What is held against a parameter list.**

The pass over a parameter list stops at the first offence that it meets, and that is not always the
one at the smallest position: a variadic parameter that is not the last one is only found out at the
end.  Here the pass is followed from one variadic parameter to the next.  The first one decides: its
default flag is held against it before anything behind it is seen, then the next variadic parameter
is, and last that it is not the last parameter.

Main definitions:

* `ActionSignatures.IsNextVariadic` — **the next variadic parameter** from a position on;
* `ActionSignatures.Acceptable` — the lists without an offence.

Main results:

* `ActionSignatures.Signature.checkFrom_drop_eq` — the pass goes over parameters that are not
  variadic;
* `ActionSignatures.Signature.check_of_flagged`, `ActionSignatures.Signature.check_of_second`,
  `ActionSignatures.Signature.check_of_notLast` — what is held against the first variadic parameter;
* `ActionSignatures.acceptable_iff_variadicLast` — the lists without an offence are those that keep
  the rule;
* `ActionSignatures.Signature.first_variadic_decides` — **which lists are signatures**, and what is
  held against the others.
-/

import ActionSignatures.Proofs.Signature.Validity
import Mathlib.Data.Nat.Find

set_option relaxedAutoImplicit false
set_option autoImplicit false

namespace ActionSignatures

/-! ### Variadic parameters in order -/

/-- **The next variadic parameter** from a position on, with its position. -/
structure IsNextVariadic (ps : List Parameter) (start v : Nat) (p : Parameter) : Prop where
  getElem?_eq : ps[v]? = some p
  isVarargs : p.isVarargs = true
  start_le : start ≤ v
  least : ∀ i q, start ≤ i → ps[i]? = some q → q.isVarargs = true → v ≤ i

/-- No parameter is variadic from a position on. -/
def NoneVariadic (ps : List Parameter) (start : Nat) : Prop :=
  ∀ i q, start ≤ i → ps[i]? = some q → q.isVarargs = false

section

variable {ps : List Parameter} {start v : Nat} {p : Parameter}

/-- There is a next variadic parameter if some parameter is variadic. -/
theorem exists_isNextVariadic (h : ¬NoneVariadic ps start) :
    ∃ v p, IsNextVariadic ps start v p := by
  classical
  have hsome : ∃ v, start ≤ v ∧ ∃ p, ps[v]? = some p ∧ p.isVarargs = true := by
    by_contra hnone
    refine h fun i q hi hq => Bool.eq_false_iff.2 fun hvariadic => hnone ⟨i, hi, q, hq, hvariadic⟩
  obtain ⟨hstart, p, hp, hvariadic⟩ := Nat.find_spec hsome
  exact ⟨_, p, hp, hvariadic, hstart,
    fun i q hi hq hvariadic' => Nat.find_min' hsome ⟨hi, q, hq, hvariadic'⟩⟩

namespace IsNextVariadic

theorem lt_length (h : IsNextVariadic ps start v p) : v < ps.length :=
  (List.getElem?_eq_some_iff.1 h.getElem?_eq).1

theorem drop_eq (h : IsNextVariadic ps start v p) : ps.drop v = p :: ps.drop (v + 1) := by
  obtain ⟨hv, hp⟩ := List.getElem?_eq_some_iff.1 h.getElem?_eq
  rw [List.drop_eq_getElem_cons hv, hp]

/-- The parameters in front of the next variadic one are not variadic. -/
theorem eq_false_of_lt (h : IsNextVariadic ps start v p) {i : Nat} {q : Parameter}
    (hi : start ≤ i) (hlt : i < v) (hq : ps[i]? = some q) : q.isVarargs = false := by
  refine Bool.eq_false_iff.2 fun hvariadic => ?_
  have hle := h.least i q hi hq hvariadic
  omega

end IsNextVariadic

end

/-! ### The pass from one variadic parameter to the next -/

namespace Signature

section

variable {ps : List Parameter} {met : Option (Nat × String)} {start : Nat}

theorem checkFrom_cons_of_plain {p : Parameter} (h : p.isVarargs = false) (position : Nat)
    (ps : List Parameter) : checkFrom position met (p :: ps) = checkFrom (position + 1) met ps := by
  cases met <;> simp [checkFrom, h]

/-- **The pass goes over parameters that are not variadic** without a trace. -/
theorem checkFrom_drop_eq {stop : Nat} (hle : start ≤ stop) (hstop : stop ≤ ps.length)
    (h : ∀ i q, start ≤ i → i < stop → ps[i]? = some q → q.isVarargs = false) :
    checkFrom start met (ps.drop start) = checkFrom stop met (ps.drop stop) := by
  induction stop, hle using Nat.le_induction with
  | base => rfl
  | succ stop hle ih =>
      have hplain := h stop ps[stop] hle (Nat.lt_succ_self stop) (List.getElem?_eq_getElem hstop)
      rw [ih (Nat.le_of_succ_le hstop) fun i q hi hlt => h i q hi (Nat.lt_succ_of_lt hlt),
        List.drop_eq_getElem_cons hstop, checkFrom_cons_of_plain hplain]

theorem checkFrom_of_isNextVariadic {v : Nat} {p : Parameter} (h : IsNextVariadic ps start v p) :
    checkFrom start met (ps.drop start) = checkFrom v met (p :: ps.drop (v + 1)) := by
  rw [checkFrom_drop_eq h.start_le (Nat.le_of_lt h.lt_length) fun i q => h.eq_false_of_lt,
    h.drop_eq]

theorem checkFrom_of_noneVariadic (h : NoneVariadic ps start) (hstart : start ≤ ps.length) :
    checkFrom start met (ps.drop start) = checkFrom ps.length met [] := by
  rw [checkFrom_drop_eq hstart le_rfl fun i q hi _ => h i q hi, List.drop_length]

end

section

variable {ps : List Parameter} {v : Nat} {p : Parameter} (h : IsNextVariadic ps 0 v p)
include h

theorem check_of_isNextVariadic : check ps = checkFrom v none (p :: ps.drop (v + 1)) := by
  rw [check, ← checkFrom_of_isNextVariadic h, List.drop_zero]

/-- A default flag is held against the first variadic parameter before all else. -/
theorem check_of_flagged (hflag : p.hasDefaultValue = true) :
    check ps = .error (.varargsWithDefault p.name v) := by
  rw [check_of_isNextVariadic h, checkFrom, h.isVarargs, hflag]
  rfl

/-- The pass goes on with the first variadic parameter in mind if that has no default flag. -/
theorem check_of_not_flagged (hflag : p.hasDefaultValue = false) :
    check ps = checkFrom (v + 1) (some (v, p.name)) (ps.drop (v + 1)) := by
  rw [check_of_isNextVariadic h, checkFrom, h.isVarargs, hflag]
  rfl

/-- The next variadic parameter is held against the first one, whatever flag it has itself. -/
theorem check_of_second (hflag : p.hasDefaultValue = false) {w : Nat} {q : Parameter}
    (hsecond : IsNextVariadic ps (v + 1) w q) :
    check ps = .error (.multipleVarargs p.name q.name) := by
  rw [check_of_not_flagged h hflag, checkFrom_of_isNextVariadic hsecond, checkFrom,
    hsecond.isVarargs]
  rfl

/-- That it is not the last parameter is held against the only variadic one. -/
theorem check_of_notLast (hflag : p.hasDefaultValue = false) (honly : NoneVariadic ps (v + 1))
    (hlast : v + 1 ≠ ps.length) : check ps = .error (.varargsNotLast p.name v) := by
  rw [check_of_not_flagged h hflag, checkFrom_of_noneVariadic honly h.lt_length, checkFrom]
  exact if_neg hlast

end

/-- What the check finds is what stands in the way of a signature. -/
theorem ofParams_of_check {ps : List Parameter} {e : InvalidSignature} (h : check ps = .error e) :
    ofParams ps = .error e := by
  rw [ofParams]
  split
  · rename_i hok
    rw [h] at hok
    cases hok
  · rename_i e' he
    rw [h] at he
    cases he
    rfl

end Signature

/-! ### Lists without an offence -/

/-- **A list without an offence**: no parameter is variadic, or the last one alone is and has no
default flag. -/
def Acceptable (ps : List Parameter) : Prop :=
  (∀ p ∈ ps, p.isVarargs = false) ∨
    ∃ front p, ps = front ++ [p] ∧ (∀ q ∈ front, q.isVarargs = false) ∧
      p.isVarargs = true ∧ p.hasDefaultValue = false

/-- The lists without an offence are those that keep the rule on variadic parameters. -/
theorem acceptable_iff_variadicLast {ps : List Parameter} : Acceptable ps ↔ VariadicLast ps := by
  rw [variadicLast_iff_getElem?]
  constructor
  · rintro (hplain | ⟨front, p, rfl, hfront, -, hflag⟩) i q hq hvariadic
    · exact absurd hvariadic (by simp [hplain q (List.mem_of_getElem? hq)])
    · rcases Nat.lt_trichotomy i front.length with hlt | rfl | hgt
      · rw [List.getElem?_append_left hlt] at hq
        exact absurd hvariadic (by simp [hfront q (List.mem_of_getElem? hq)])
      · rw [List.getElem?_concat_length] at hq
        cases hq
        exact ⟨by rw [List.length_append, List.length_singleton], hflag⟩
      · rw [List.getElem?_eq_none (by rw [List.length_append, List.length_singleton]; omega)] at hq
        cases hq
  · intro hrule
    rcases List.eq_nil_or_concat' ps with rfl | ⟨front, p, rfl⟩
    · exact .inl (List.forall_mem_nil _)
    · have hfront : ∀ q ∈ front, q.isVarargs = false := by
        intro q hq
        obtain ⟨i, hi⟩ := List.getElem?_of_mem hq
        have hlt := (List.getElem?_eq_some_iff.1 hi).1
        refine Bool.eq_false_iff.2 fun hvariadic => ?_
        have hlast := (hrule i q (by rw [List.getElem?_append_left hlt, hi]) hvariadic).1
        rw [List.length_append, List.length_singleton] at hlast
        omega
      cases hvariadic : p.isVarargs with
      | false =>
          exact .inl (List.forall_mem_append.2 ⟨hfront, List.forall_mem_singleton.2 hvariadic⟩)
      | true =>
          have hflag := (hrule front.length p List.getElem?_concat_length hvariadic).2
          exact .inr ⟨front, p, rfl, hfront, hvariadic, hflag⟩

namespace Signature

/-- **Which lists are signatures, and what is held against the others.**  A list without an offence
is the list of a signature.  In any other list there is a first variadic parameter, and it decides.
If it has a default flag then that is reported, with its position.  Otherwise the next variadic
parameter is reported together with it, if there is one.  If there is none, it is reported that the
parameter is not the last one, with its position. -/
theorem first_variadic_decides (ps : List Parameter) :
    (Acceptable ps → ∃ s, ofParams ps = .ok s ∧ s.params = ps) ∧
    (¬Acceptable ps → ∃ v p, IsNextVariadic ps 0 v p ∧
      (p.hasDefaultValue = true → ofParams ps = .error (.varargsWithDefault p.name v)) ∧
      (p.hasDefaultValue = false → ∀ w q, IsNextVariadic ps (v + 1) w q →
        ofParams ps = .error (.multipleVarargs p.name q.name)) ∧
      (p.hasDefaultValue = false → (∀ w q, ¬IsNextVariadic ps (v + 1) w q) →
        ofParams ps = .error (.varargsNotLast p.name v))) := by
  rw [acceptable_iff_variadicLast]
  refine ⟨fun h => ⟨⟨ps, h⟩, ofParams_params ⟨ps, h⟩, rfl⟩, fun h => ?_⟩
  have hsome : ¬NoneVariadic ps 0 := by
    intro hnone
    refine h (variadicLast_iff_getElem?.2 fun i p hp hvariadic => ?_)
    rw [hnone i p (Nat.zero_le i) hp] at hvariadic
    cases hvariadic
  obtain ⟨v, p, hfirst⟩ := exists_isNextVariadic hsome
  refine ⟨v, p, hfirst, fun hflag => ofParams_of_check (check_of_flagged hfirst hflag),
    fun hflag w q hsecond => ofParams_of_check (check_of_second hfirst hflag hsecond),
    fun hflag honly => ofParams_of_check (check_of_notLast hfirst hflag ?_ ?_)⟩
  · by_contra hnone
    obtain ⟨w, q, hsecond⟩ := exists_isNextVariadic hnone
    exact honly w q hsecond
  · intro hlast
    refine h (variadicLast_iff_getElem?.2 fun i q hq hvariadic => ?_)
    have hle := hfirst.least i q (Nat.zero_le i) hq hvariadic
    have hlt := (List.getElem?_eq_some_iff.1 hq).1
    obtain rfl : v = i := by omega
    obtain rfl := Option.some.inj (hfirst.getElem?_eq.symm.trans hq)
    exact ⟨hlast, hflag⟩

/-! Of two variadic parameters the flag of the first one counts, and that of the second does not. -/

example :
    ofParams
        [{ name := "a", type := .named "T", hasDefaultValue := true, isVarargs := true },
          { name := "b", type := .named "T", isVarargs := true }] =
      .error (.varargsWithDefault "a" 0) := by rfl

example :
    ofParams
        [{ name := "a", type := .named "T", isVarargs := true },
          { name := "b", type := .named "T", hasDefaultValue := true, isVarargs := true }] =
      .error (.multipleVarargs "a" "b") := by rfl

end Signature

end ActionSignatures
