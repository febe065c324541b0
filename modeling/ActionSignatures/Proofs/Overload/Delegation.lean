/-
**Delegating calls.**

An overload calls the declared action with one argument for each of its parameters: its own parameters
are passed on, and a default stands for each parameter left out.  This module shows that the plan of
that call fits the overload: what is passed on are the parameters that the overload has, in their
order, and nothing else.  An overload is a signature in its own right.  It has no default values left,
so that it stands at the end: there is no further overload to make of it.

Main definitions:

* `ActionSignatures.Argument.name` — the name of the parameter that an argument is for;
* `ActionSignatures.Overload.DelegatesTo` — **an overload whose plan fits it**.

Main results:

* `ActionSignatures.Signature.isVarargs_omitting` — an omission keeps the variadic parameter;
* `ActionSignatures.synthesizeFor_of_no_defaults` — without default values there are no overloads;
* `ActionSignatures.Overload.delegatesTo_ofOmitted` — the overload of an omission fits its plan;
* `ActionSignatures.synthesizeFor_delegates` — **so does every overload that the synthesis makes**.
-/

import ActionSignatures.Proofs.Overload.Enumeration

set_option relaxedAutoImplicit false
set_option autoImplicit false

namespace ActionSignatures

/-! ### Signatures without default values -/

namespace Signature

variable {s : Signature}

theorem defaultPositions_eq_nil (h : ∀ p ∈ s.params, p.hasDefaultValue = false) :
    s.defaultPositions = [] := by
  rw [List.eq_nil_iff_forall_not_mem]
  intro i hi
  obtain ⟨p, hp, hopt⟩ := mem_defaultPositions_iff.1 hi
  rw [Parameter.isOptional, h p (List.mem_of_getElem? hp)] at hopt
  cases hopt

end Signature

/-- Without default values the synthesis succeeds and makes no overload. -/
theorem synthesizeFor_of_no_defaults {β : Type} {s : Signature} (options : SynthesisOptions)
    (origin : Option ActionOrigin) (body : β) (h : ∀ p ∈ s.params, p.hasDefaultValue = false) :
    synthesizeFor options origin s body =
      .ok { canonical := s, sourceOfDefaults := s.parameterTypes, body, overloads := #[] } := by
  have hpositions : s.defaultPositions.length = 0 := by
    rw [Signature.defaultPositions_eq_nil h, List.length_nil]
  have hcount : s.overloadCount = 0 := by rw [Signature.overloadCount, hpositions]; rfl
  have hnodup : (s.typesBelow s.overloadCount).Nodup := by
    rw [hcount]
    exact List.nodup_nil
  rw [synthesizeFor_of_nodup origin body (by omega) hnodup, OverloadSet.ofMasks, hcount]
  rfl

/-! ### The parameters that are left -/

namespace Signature

variable {s : Signature}

theorem mem_keptParams_iff {omitted : List Nat} {p : Parameter} :
    p ∈ s.keptParams omitted ↔ ∃ i, s.params[i]? = some p ∧ i ∉ omitted := by
  simp only [keptParams, List.mem_map, List.mem_filter, Prod.exists, List.mem_zipIdx_iff_getElem?,
    Bool.not_eq_true', List.contains_eq_mem, decide_eq_false_iff_not]
  constructor
  · rintro ⟨q, i, ⟨hq, hi⟩, rfl⟩
    exact ⟨i, hq, hi⟩
  · rintro ⟨i, hp, hi⟩
    exact ⟨p, i, ⟨hp, hi⟩, rfl⟩

/-- As only the last parameter may be variadic, a signature is variadic where it has a variadic
parameter. -/
theorem isVarargs_eq_true_iff (s : Signature) :
    s.isVarargs = true ↔ ∃ p ∈ s.params, p.isVarargs = true := by
  obtain ⟨params, hlast⟩ := s
  change params.getLast?.any (·.isVarargs) = true ↔ ∃ p ∈ params, p.isVarargs = true
  induction params with
  | nil => simp
  | cons p ps ih =>
      cases ps with
      | nil => simp
      | cons q qs =>
          have hfirst : p.isVarargs = false := by
            by_contra hvariadic
            obtain ⟨hnil, -⟩ := hlast.1 (by simpa using hvariadic)
            cases hnil
          rw [List.getLast?_cons_cons, ih hlast.2]
          simp [hfirst]

/-- **An omission keeps the variadic parameter**, as no call may leave that out. -/
theorem isVarargs_omitting {omitted : List Nat} (h : s.IsOmission omitted) :
    (s.omitting omitted).isVarargs = s.isVarargs := by
  rw [Bool.eq_iff_iff, isVarargs_eq_true_iff, isVarargs_eq_true_iff, params_omitting]
  constructor
  · rintro ⟨p, hp, hvariadic⟩
    obtain ⟨q, hq, rfl⟩ := List.mem_map.1 hp
    exact ⟨q, (s.keptParams_sublist omitted).subset hq, hvariadic⟩
  · rintro ⟨p, hp, hvariadic⟩
    obtain ⟨i, hi⟩ := List.getElem?_of_mem hp
    have hkept : i ∉ omitted := by
      intro homitted
      rw [h.isVarargs_eq_false homitted hi] at hvariadic
      cases hvariadic
    exact ⟨p.withoutDefault, List.mem_map_of_mem (mem_keptParams_iff.2 ⟨i, hi, hkept⟩), hvariadic⟩

end Signature

/-! ### Plans -/

namespace Argument

/-- The name of the parameter that the argument is for. -/
def name : Argument → String
  | .forward _ name => name
  | .default _ name .. => name

variable (omitted : List Nat) (origin : Option ActionOrigin) (p : Parameter) (i : Nat)

@[simp] theorem position_ofParameter : (ofParameter omitted origin p i).position = i := by
  rw [ofParameter]
  split <;> rfl

@[simp] theorem name_ofParameter : (ofParameter omitted origin p i).name = p.name := by
  rw [ofParameter]
  split <;> rfl

@[simp] theorem isDefault_ofParameter :
    (ofParameter omitted origin p i).isDefault = omitted.contains i := by
  rw [ofParameter]
  split
  · rename_i h
    rw [h]
    rfl
  · rename_i h
    rw [Bool.not_eq_true] at h
    rw [h]
    rfl

end Argument

/-- **An overload whose plan fits it**, as an overload of a declared action.  The plan has one argument
for each parameter of the action, at its place and under its name.  It is a default where the
parameter is left out, and then it is the default of the type, beside the expression declared; the
parameters passed on are those of the overload.  The overload is a valid signature without default
values, variadic like the action, and has no overloads of its own. -/
structure Overload.DelegatesTo (o : Overload) (s : Signature) : Prop where
  length : o.plan.length = s.params.length
  arguments : ∀ i p, s.params[i]? = some p → ∃ a, o.plan[i]? = some a ∧ a.position = i ∧
    a.name = p.name ∧ (a.isDefault = true ↔ i ∈ o.omitted) ∧
    (a.isDefault = true → ∃ defaultId,
      a = .default i p.name (.ofType p.type) p.defaultValue defaultId)
  forwarded : ((o.plan.filter (!·.isDefault)).map fun a =>
    (s.params[a.position]?).map Parameter.withoutDefault) = o.signature.params.map some
  valid : Signature.ofParams o.signature.params = .ok o.signature
  no_defaults : ∀ p ∈ o.signature.params, p.hasDefaultValue = false ∧ p.defaultValue = none
  isVarargs : o.signature.isVarargs = s.isVarargs
  no_overloads : ∀ {γ : Type} (options : SynthesisOptions) (origin : Option ActionOrigin) (body : γ),
    ∃ set, synthesizeFor options origin o.signature body = .ok set ∧ set.overloads = #[] ∧
      set.sourceOfDefaults = o.parameterTypes

/-- **The overload of an omission fits its plan.** -/
theorem Overload.delegatesTo_ofOmitted {s : Signature} (origin : Option ActionOrigin)
    {omitted : List Nat} (h : s.IsOmission omitted) :
    (ofOmitted s origin omitted).DelegatesTo s where
  length := by simp [ofOmitted]
  arguments i p hp := by
    refine ⟨.ofParameter omitted origin p i, ?_, ?_, ?_, ?_, fun hdefault => ?_⟩
    · simp [ofOmitted, hp]
    · exact Argument.position_ofParameter ..
    · exact Argument.name_ofParameter ..
    · rw [Argument.isDefault_ofParameter, List.contains_iff_mem]
      rfl
    · rw [Argument.isDefault_ofParameter] at hdefault
      exact ⟨_, if_pos hdefault⟩
  forwarded := by
    change ((s.params.zipIdx.map fun e => Argument.ofParameter omitted origin e.1 e.2).filter
      (!·.isDefault)).map _ = ((s.keptParams omitted).map Parameter.withoutDefault).map some
    rw [List.filter_map, List.map_map, Signature.keptParams, List.map_map, List.map_map]
    simp only [Function.comp_def, Argument.isDefault_ofParameter, Argument.position_ofParameter]
    refine List.map_congr_left fun e he => ?_
    rw [List.mem_zipIdx_iff_getElem?.1 (List.mem_filter.1 he).1, Option.map_some]
  valid := Signature.ofParams_params _
  no_defaults p hp := by
    obtain ⟨q, -, rfl⟩ := List.mem_map.1 hp
    exact ⟨rfl, rfl⟩
  isVarargs := Signature.isVarargs_omitting h
  no_overloads options origin' body := by
    refine ⟨_, synthesizeFor_of_no_defaults options origin' body fun p hp => ?_, rfl, rfl⟩
    obtain ⟨q, -, rfl⟩ := List.mem_map.1 hp
    rfl

/-- **Every overload that the synthesis makes fits its plan.** -/
theorem synthesizeFor_delegates {β : Type} {options : SynthesisOptions}
    {origin : Option ActionOrigin} {s : Signature} {body : β} {set : OverloadSet β}
    (h : synthesizeFor options origin s body = .ok set) {o : Overload} (ho : o ∈ set.overloads) :
    o.DelegatesTo s := by
  obtain ⟨omitted, homission, rfl⟩ := exists_isOmission_of_mem_overloads h ho
  exact Overload.delegatesTo_ofOmitted origin homission

/-- An action with two default values whose expressions are known, in front of a variadic parameter. -/
def openWindow : Signature where
  params :=
    [{ name := "title", type := .named "java.lang.String" },
      Parameter.withDefault { name := "width", type := .primitive .int } (.source "640"),
      Parameter.withDefault { name := "scale", type := .primitive .double } (.source "1.0"),
      { name := "hints", type := .object, isVarargs := true }]
  variadicLast := ⟨nofun, nofun, nofun, fun _ => ⟨rfl, rfl⟩, trivial⟩

/-- The overload that leaves out both default values fits its plan. -/
theorem openWindow_delegates :
    ∃ set o, synthesize {} openWindow () = .ok set ∧ o ∈ set.overloads ∧ o.omitted = [1, 2] ∧
      o.DelegatesTo openWindow := by
  have hset : synthesize {} openWindow () = .ok (.ofMasks none openWindow ()) :=
    synthesizeFor_of_nodup none () (by decide) (by decide)
  have hfirst : 0 < (OverloadSet.ofMasks none openWindow ()).overloads.size := by decide
  have hmem := Array.getElem_mem hfirst
  exact ⟨_, _, hset, hmem, rfl, synthesizeFor_delegates hset hmem⟩

end ActionSignatures
