/-
**Default expressions of variadic parameters.**

That a parameter has a default value is recorded twice: by a flag, and by an expression if that is
known.  The check of a parameter list reads the flag only.  So a variadic parameter never has the
flag, but it keeps any expression that it was given without one, and is written with it.  The steps
by which a parameter is put together set the flag with every expression; a view or a value may give
the one without the other.

Main definitions:

* `ActionSignatures.Parameter.withExpression` — a parameter with another expression and the same
  flags;
* `ActionSignatures.Parameter.flagExpression` — a parameter with the flag beside its expression;
* `ActionSignatures.Parameter.Built` — the parameters that **any sequence of steps** puts together;
* `ActionSignatures.Signature.Accepts` — **the three ways to give parameters** that are checked.

Main results:

* `ActionSignatures.Signature.check_congr` — **expressions are not read** by the check;
* `ActionSignatures.Parameter.Built.flagged` — steps set the flag with every expression;
* `ActionSignatures.Signature.variadic_keeps_expression` — **what acceptance says** of the default
  values of variadic parameters.
-/

import ActionSignatures.Proofs.Codec.Declarations
import ActionSignatures.Proofs.Signature.Validity

set_option relaxedAutoImplicit false
set_option autoImplicit false

namespace ActionSignatures

/-! ### Expressions and flags of a parameter -/

namespace Parameter

/-- The parameter with an expression in place of its own, and with the flags that it has. -/
def withExpression (p : Parameter) (value : Option Expr) : Parameter :=
  { p with defaultValue := value }

@[simp] theorem name_withExpression (p : Parameter) (value : Option Expr) :
    (p.withExpression value).name = p.name := rfl

@[simp] theorem hasDefaultValue_withExpression (p : Parameter) (value : Option Expr) :
    (p.withExpression value).hasDefaultValue = p.hasDefaultValue := rfl

@[simp] theorem isVarargs_withExpression (p : Parameter) (value : Option Expr) :
    (p.withExpression value).isVarargs = p.isVarargs := rfl

/-- The parameter with the flag, if it has an expression. -/
def flagExpression (p : Parameter) : Parameter :=
  { p with hasDefaultValue := p.hasDefaultValue || p.defaultValue.isSome }

/-- **The parameters that any sequence of steps puts together.** -/
inductive Built : Parameter → Prop
  | new (name : String) (type : TypeRef) : Built { name, type }
  | withDefault {p : Parameter} (h : Built p) (value : Expr) : Built (p.withDefault value)
  | withDefaultFlag {p : Parameter} (h : Built p) : Built p.withDefaultFlag
  | varargs {p : Parameter} (h : Built p) : Built p.varargs

/-- **Steps set the flag** with every expression. -/
theorem Built.flagged {p : Parameter} (h : p.Built) (hvalue : p.defaultValue ≠ none) :
    p.hasDefaultValue = true := by
  induction h with
  | new name type => exact absurd rfl hvalue
  | withDefault _ value _ => rfl
  | withDefaultFlag _ _ => rfl
  | varargs _ ih => exact ih hvalue

/-- A variadic parameter is written with nothing behind the star if it has no expression. -/
theorem display_eq_iff {p : Parameter} (h : p.isVarargs = true) :
    p.display = p.name ++ " : " ++ p.type.display ++ "*" ↔ p.defaultValue = none := by
  rw [display, h, if_pos rfl]
  cases p.defaultValue with
  | none => simp
  | some value => simp [← String.toList_inj]

end Parameter

/-! ### What the check reads -/

namespace Signature

/-- The check goes over a list as it goes over the same list without expressions. -/
theorem checkFrom_map_withExpression (position : Nat) (met : Option (Nat × String))
    (ps : List Parameter) :
    checkFrom position met (ps.map (·.withExpression none)) = checkFrom position met ps := by
  induction ps generalizing position met with
  | nil => rfl
  | cons p ps ih => cases met <;> simp [checkFrom, ih]

/-- **Expressions are not read** by the check: it finds the same in lists that differ in nothing
else. -/
theorem check_congr {ps qs : List Parameter}
    (h : ps.map (·.withExpression none) = qs.map (·.withExpression none)) :
    check ps = check qs := by
  rw [check, check, ← checkFrom_map_withExpression, h, checkFrom_map_withExpression]

/-! ### Accepted parameters -/

/-- **The three ways to give parameters that are checked**, with the signature that is made of them:
a list, a view and a value. -/
inductive Accepts : List Parameter → Signature → Prop
  | ofList {ps : List Parameter} {s : Signature} (h : ofParams ps = .ok s) : Accepts ps s
  | ofView {v : FormalParameters} {s : Signature} (h : ofView v = .ok s) : Accepts v.params s
  | ofValue {j : Json} {ps : List Parameter} {s : Signature}
      (hread : j.list Parameter.ofJson = .ok ps) (h : ofJson j = .ok s) : Accepts ps s

theorem Accepts.ofParams_eq {ps : List Parameter} {s : Signature} (h : Accepts ps s) :
    ofParams ps = .ok s := by
  cases h with
  | ofList h => exact h
  | ofView h => exact h
  | ofValue hread h =>
      obtain ⟨read, hread', hmade⟩ := exists_ofParams_of_ofJson h
      rw [hread] at hread'
      cases hread'
      exact hmade

/-- The parameters that are given are those of the signature. -/
theorem Accepts.params_eq {ps : List Parameter} {s : Signature} (h : Accepts ps s) :
    s.params = ps :=
  (check_of_ofParams h.ofParams_eq).2

/-- What is accepted keeps the rule on variadic parameters. -/
theorem Accepts.variadicLast {ps : List Parameter} {s : Signature} (h : Accepts ps s) :
    VariadicLast ps := by
  have hrule := variadicLast_of_ofParams h.ofParams_eq
  rwa [h.params_eq] at hrule

/-- A variadic parameter that is accepted has no default flag. -/
theorem Accepts.plain {ps : List Parameter} {s : Signature} (h : Accepts ps s) :
    ∀ p ∈ ps, p.isVarargs = true → p.hasDefaultValue = false := by
  intro p hp hvariadic
  obtain ⟨i, hi⟩ := List.getElem?_of_mem hp
  exact (variadicLast_iff_getElem?.1 h.variadicLast i p hi hvariadic).2

/-- Just the lists that keep the rule make a signature. -/
theorem exists_ofParams_iff {ps : List Parameter} :
    (∃ s, ofParams ps = .ok s) ↔ VariadicLast ps := by
  constructor
  · rintro ⟨s, hs⟩
    exact (Accepts.ofList hs).variadicLast
  · intro h
    exact ⟨_, ofParams_params ⟨ps, h⟩⟩

/-- Whether parameters are accepted does not depend on their expressions. -/
theorem exists_ofParams_congr {ps qs : List Parameter}
    (h : ps.map (·.withExpression none) = qs.map (·.withExpression none)) :
    (∃ s, ofParams ps = .ok s) ↔ ∃ s, ofParams qs = .ok s := by
  rw [exists_ofParams_iff, exists_ofParams_iff, ← check_eq_ok_iff, ← check_eq_ok_iff, check_congr h]

/-! ### Default values of variadic parameters -/

/-- **No variadic parameter has a default value**: neither the flag nor an expression. -/
def NoVariadicDefault (ps : List Parameter) : Prop :=
  ∀ p ∈ ps, p.isVarargs = true → p.hasDefaultValue = false ∧ p.defaultValue = none

/-- Where the rule is kept, no variadic parameter has a default value if the rule is also kept with
the flag beside every expression. -/
theorem variadicLast_map_flagExpression_iff {ps : List Parameter} (h : VariadicLast ps) :
    VariadicLast (ps.map Parameter.flagExpression) ↔ NoVariadicDefault ps := by
  have hrule := variadicLast_iff_getElem?.1 h
  rw [variadicLast_iff_getElem?]
  constructor
  · intro hflagged p hp hvariadic
    obtain ⟨i, hi⟩ := List.getElem?_of_mem hp
    have hplain := (hflagged i p.flagExpression (by rw [List.getElem?_map, hi]; rfl) hvariadic).2
    exact ⟨(hrule i p hi hvariadic).2, by simpa using (Bool.or_eq_false_iff.1 hplain).2⟩
  · intro hnone i q hq hvariadic
    rw [List.getElem?_map, Option.map_eq_some_iff] at hq
    obtain ⟨p, hi, rfl⟩ := hq
    obtain ⟨hplain, hvalue⟩ := hnone p (List.mem_of_getElem? hi) hvariadic
    refine ⟨by rw [List.length_map, (hrule i p hi hvariadic).1], ?_⟩
    rw [Parameter.flagExpression, hplain, hvalue]
    rfl

/-- Where no variadic parameter has the flag, none has a default value if the flag stands beside
every expression. -/
theorem noVariadicDefault_iff {ps : List Parameter}
    (hplain : ∀ p ∈ ps, p.isVarargs = true → p.hasDefaultValue = false) :
    NoVariadicDefault ps ↔
      ∀ p ∈ ps, p.isVarargs = true → p.defaultValue ≠ none → p.hasDefaultValue = true := by
  constructor
  · intro h p hp hvariadic hvalue
    exact absurd (h p hp hvariadic).2 hvalue
  · intro h p hp hvariadic
    refine ⟨hplain p hp hvariadic, by_contra fun hvalue => ?_⟩
    have hflag := h p hp hvariadic hvalue
    rw [hplain p hp hvariadic] at hflag
    cases hflag

/-- **What acceptance says of the default values of variadic parameters.**  The parameters that are
accepted are kept as they are given, and no variadic one has the default flag.  None of them has a
default value at all if and only if the flag stands beside every expression of a variadic parameter,
or, which is the same, the parameters would also be accepted with the flag beside every expression;
and so it is if they are put together by steps.  A variadic parameter that has an expression is
written with it.  Whether parameters are accepted does not depend on expressions. -/
theorem variadic_keeps_expression {ps : List Parameter} {s : Signature} (h : Accepts ps s) :
    s.params = ps ∧
      (∀ p ∈ ps, p.isVarargs = true → p.hasDefaultValue = false) ∧
      (NoVariadicDefault s.params ↔
        ∀ p ∈ ps, p.isVarargs = true → p.defaultValue ≠ none → p.hasDefaultValue = true) ∧
      (NoVariadicDefault s.params ↔ ∃ t, ofParams (ps.map Parameter.flagExpression) = .ok t) ∧
      ((∀ p ∈ ps, p.Built) → NoVariadicDefault s.params) ∧
      (∀ p ∈ s.params, p.isVarargs = true →
        (p.display = p.name ++ " : " ++ p.type.display ++ "*" ↔ p.defaultValue = none)) ∧
      ∀ qs : List Parameter, ps.map (·.withExpression none) = qs.map (·.withExpression none) →
        ∃ t, ofParams qs = .ok t := by
  have hflagged := noVariadicDefault_iff h.plain
  rw [h.params_eq]
  refine ⟨rfl, h.plain, hflagged, ?_,
    fun hbuilt => hflagged.2 fun p hp _ => (hbuilt p hp).flagged,
    fun p _ => Parameter.display_eq_iff,
    fun qs hsame => (exists_ofParams_congr hsame).1 ⟨s, h.ofParams_eq⟩⟩
  rw [exists_ofParams_iff, variadicLast_map_flagExpression_iff h.variadicLast]

/-- The action that joins texts is put together by steps, so the texts have no default value. -/
theorem noVariadicDefault_joinTexts :
    Accepts joinTexts.params joinTexts ∧ (∀ p ∈ joinTexts.params, p.Built) ∧
      NoVariadicDefault joinTexts.params := by
  have haccepted : Accepts joinTexts.params joinTexts := .ofList joinTexts.ofParams_params
  have hbuilt : ∀ p ∈ joinTexts.params, p.Built := by
    refine List.forall_mem_cons.2 ⟨?_, List.forall_mem_singleton.2 ?_⟩
    · exact (Parameter.Built.new "separator" (.named "java.lang.String")).withDefaultFlag
    · exact (Parameter.Built.new "parts" (.param "Join" "T" none)).varargs
  exact ⟨haccepted, hbuilt, (variadic_keeps_expression haccepted).2.2.2.2.1 hbuilt⟩

/-- Texts that are given with a default expression and without the default flag. -/
def nullTexts : Parameter where
  name := "parts"
  type := .named "java.lang.String"
  defaultValue := some (.literal .null)
  isVarargs := true

/-- The signature with these texts alone. -/
def ofNullTexts : Signature := ⟨[nullTexts], ⟨fun _ => ⟨rfl, rfl⟩, trivial⟩⟩

/-- In each of the three ways the texts are accepted, with the null reference as their default
value, and they are written with it. -/
theorem default_of_nullTexts :
    ofParams [nullTexts] = .ok ofNullTexts ∧ ofView (.ofList [nullTexts]) = .ok ofNullTexts ∧
      ofJson ofNullTexts.toJson = .ok ofNullTexts ∧
        ofNullTexts.display = "(parts : java.lang.String* = null)" ∧
          ¬∀ ps s, Accepts ps s → NoVariadicDefault s.params := by
  refine ⟨rfl, rfl, readBack ofNullTexts, by decide, fun h => ?_⟩
  have hnone := h [nullTexts] ofNullTexts (.ofList rfl)
  cases (hnone nullTexts (List.mem_singleton_self _) rfl).2

end Signature

end ActionSignatures
