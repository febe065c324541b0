/-
**Every signature is valid.**

Of the ways in which a signature is made three check the parameters: from a list, from a view and
from a value.  The others do not.  Rewriting types, leaving parameters out of an overload and the
signature without parameters take it for granted that the rule on variadic parameters is kept.  Here
the parameter lists are followed through any sequence of these steps, and each of the steps is shown
to keep the rule; so the check, were it made again, would accept every list.  What looks at the last
parameter only, or at flags only, then says what it is meant to say about the whole list.

Main definitions:

* `ActionSignatures.Signature.Obtained` — the parameter lists that **any sequence of the steps**
  makes;
* `ActionSignatures.Signature.IsValid` — **what validity gives**.

Main results:

* `ActionSignatures.variadicLast_iff_getElem?` — the rule on variadic parameters, by positions;
* `ActionSignatures.Signature.check_of_ofParams` — a signature is made of the list that was checked;
* `ActionSignatures.Signature.Obtained.variadicLast` — **every step keeps the rule**;
* `ActionSignatures.Signature.obtained_isValid` — **every signature is valid**.
-/

import ActionSignatures.Codec.Signature
import ActionSignatures.Inheritance.Context
import ActionSignatures.Proofs.Overload.Delegation
import ActionSignatures.Proofs.Prototype.WrittenNames

set_option relaxedAutoImplicit false
set_option autoImplicit false

namespace ActionSignatures

/-! ### The rule by positions -/

/-- The rule on variadic parameters, by positions. -/
theorem variadicLast_iff_getElem? {ps : List Parameter} :
    VariadicLast ps ↔ ∀ i p, ps[i]? = some p → p.isVarargs = true →
      i + 1 = ps.length ∧ p.hasDefaultValue = false := by
  induction ps with
  | nil => simp
  | cons q qs ih =>
      rw [VariadicLast.cons_iff, ih]
      constructor
      · rintro ⟨hfirst, hrest⟩ i p hp hvariadic
        cases i with
        | zero =>
            obtain rfl : q = p := by simpa using hp
            obtain ⟨rfl, hplain⟩ := hfirst hvariadic
            exact ⟨rfl, hplain⟩
        | succ i =>
            obtain ⟨hlast, hplain⟩ := hrest i p (by simpa using hp) hvariadic
            exact ⟨by rw [List.length_cons, hlast], hplain⟩
      · intro h
        refine ⟨fun hvariadic => ?_, fun i p hp hvariadic => ?_⟩
        · obtain ⟨hlast, hplain⟩ := h 0 q rfl hvariadic
          exact ⟨List.length_eq_zero_iff.1 (by simpa using hlast.symm), hplain⟩
        · obtain ⟨hlast, hplain⟩ := h (i + 1) p (by simpa using hp) hvariadic
          exact ⟨by simpa using hlast, hplain⟩

/-- Where a variadic parameter has no default flag, the flag tells whether a parameter can be left
out. -/
theorem Parameter.isOptional_eq {p : Parameter}
    (h : p.isVarargs = true → p.hasDefaultValue = false) : p.isOptional = p.hasDefaultValue := by
  rw [isOptional]
  cases hvariadic : p.isVarargs with
  | false => rw [Bool.not_false, Bool.and_true]
  | true => rw [h hvariadic, Bool.false_and]

/-- The parameters of a list with the types of their positions. -/
def retyped (ps : List Parameter) (types : Nat → TypeRef) : List Parameter :=
  ps.mapIdx fun i p => { p with type := types i }

/-- Types have no part in the rule. -/
theorem variadicLast_retyped {ps : List Parameter} (h : VariadicLast ps) (types : Nat → TypeRef) :
    VariadicLast (retyped ps types) := by
  rw [variadicLast_iff_getElem?]
  intro i p hp hvariadic
  rw [retyped, List.getElem?_mapIdx, Option.map_eq_some_iff] at hp
  obtain ⟨q, hq, rfl⟩ := hp
  obtain ⟨hlast, hplain⟩ := variadicLast_iff_getElem?.1 h i q hq hvariadic
  exact ⟨by rw [hlast, retyped, List.length_mapIdx], hplain⟩

namespace Signature

/-! ### Checked signatures -/

/-- A signature is made of the list that was checked. -/
theorem check_of_ofParams {ps : List Parameter} {s : Signature} (h : ofParams ps = .ok s) :
    check ps = .ok () ∧ s.params = ps := by
  rw [ofParams] at h
  split at h
  · rename_i hcheck
    cases h
    exact ⟨hcheck, rfl⟩
  · cases h

/-- What the check accepts keeps the rule. -/
theorem variadicLast_of_ofParams {ps : List Parameter} {s : Signature}
    (h : ofParams ps = .ok s) : VariadicLast s.params := by
  obtain ⟨hcheck, hparams⟩ := check_of_ofParams h
  rw [hparams]
  exact (check_eq_ok_iff ps).1 hcheck

/-- A signature that is read has been made of the parameters that were read. -/
theorem exists_ofParams_of_ofJson {j : Json} {s : Signature} (h : ofJson j = .ok s) :
    ∃ ps, j.list Parameter.ofJson = .ok ps ∧ ofParams ps = .ok s := by
  obtain ⟨ps, hread, hmade⟩ := ParameterTypes.exists_of_bind_eq_ok h
  rw [decode] at hmade
  split at hmade
  · rename_i made hchecked
    cases hmade
    exact ⟨ps, hread, hchecked⟩
  · cases hmade

/-! ### Sequences of steps -/

/-- **The parameter lists of the signatures that a sequence of steps makes**: the checked ones, the
empty one, and those that come from others by a rewriting of types and by the choice of an overload.
A function on types that keeps a state may give each position a type of its own. -/
inductive Obtained : List Parameter → Prop
  | ofParams {ps : List Parameter} {s : Signature} (h : Signature.ofParams ps = .ok s) :
      Obtained s.params
  | ofView {v : FormalParameters} {s : Signature} (h : Signature.ofView v = .ok s) :
      Obtained s.params
  | ofJson {j : Json} {s : Signature} (h : Signature.ofJson j = .ok s) : Obtained s.params
  | empty : Obtained Signature.empty.params
  | mapTypes {s : Signature} (f : TypeRef → TypeRef) (h : Obtained s.params) :
      Obtained (s.mapTypes f).params
  | retyped {ps : List Parameter} (types : Nat → TypeRef) (h : Obtained ps) :
      Obtained (retyped ps types)
  | operation {op : Operation} (owner : TypeDeclaration) (ownerId : DeclId) (b : TypeBindings)
      (h : Obtained op.signature.params) :
      Obtained (InheritedOperation.of owner ownerId b op).signature.params
  | constructor {c : Constructor} (owner : TypeDeclaration) (b : TypeBindings)
      (h : Obtained c.signature.params) :
      Obtained (MirroredConstructor.of owner b c).signature.params
  | overload {a : PreparedAction} (omitted : List Nat) (h : Obtained a.canonical.params) :
      Obtained (a.overload omitted).signature.params

/-- A rewriting of types keeps the rule. -/
theorem variadicLast_mapTypes {s : Signature} (h : VariadicLast s.params) (f : TypeRef → TypeRef) :
    VariadicLast (s.mapTypes f).params :=
  h.map (fun _ _ hvariadic => hvariadic) (fun _ _ hplain => hplain)

/-- The choice of an overload keeps the rule. -/
theorem variadicLast_overload {a : PreparedAction} (h : VariadicLast a.canonical.params)
    (omitted : List Nat) : VariadicLast (a.overload omitted).signature.params := by
  have hkept : VariadicLast (a.canonical.keptParams omitted) :=
    h.of_sublist (a.canonical.keptParams_sublist omitted)
  rw [a.overload_eq]
  exact hkept.map (fun _ _ hvariadic => hvariadic) (fun _ _ _ => rfl)

/-- **Every step keeps the rule**, so that the check accepts every list. -/
theorem Obtained.variadicLast {ps : List Parameter} (h : Obtained ps) : VariadicLast ps := by
  induction h with
  | ofParams h => exact variadicLast_of_ofParams h
  | ofView h => exact variadicLast_of_ofParams h
  | ofJson h =>
      obtain ⟨ps, -, hmade⟩ := exists_ofParams_of_ofJson h
      exact variadicLast_of_ofParams hmade
  | empty => exact VariadicLast.nil
  | mapTypes f _ ih => exact variadicLast_mapTypes ih f
  | retyped types _ ih => exact variadicLast_retyped ih types
  | operation owner ownerId b _ ih => exact variadicLast_mapTypes ih b.substitute
  | constructor owner b _ ih => exact variadicLast_mapTypes ih b.substitute
  | overload omitted _ ih => exact variadicLast_overload ih omitted

/-! ### What validity gives -/

/-- **A valid signature**: at most one parameter is variadic, that is the last one, and it has no
default flag.  Parameters with default values are then those that a call may leave out; reading the
signature through its own view gives it back; and the mark of its parameter types tells whether any
parameter is variadic. -/
structure IsValid (s : Signature) : Prop where
  accepted : check s.params = .ok ()
  unique : ∀ (i j : Nat) (p q : Parameter), s.params[i]? = some p → s.params[j]? = some q →
    p.isVarargs = true → q.isVarargs = true → i = j
  last : ∀ (i : Nat) (p : Parameter), s.params[i]? = some p → p.isVarargs = true → i + 1 = s.length
  plain : ∀ p ∈ s.params, p.isVarargs = true → p.hasDefaultValue = false
  hasDefaultValues_iff : s.hasDefaultValues = true ↔ s.defaultPositions ≠ []
  ofView_view : ofView s.view = .ok s
  varargs_iff : s.parameterTypes.varargs = true ↔ ∃ p ∈ s.params, p.isVarargs = true

/-- Some parameter is flagged where some can be left out, if no variadic parameter has the flag. -/
theorem hasDefaultValues_eq_true_iff {s : Signature}
    (h : ∀ p ∈ s.params, p.isVarargs = true → p.hasDefaultValue = false) :
    s.hasDefaultValues = true ↔ s.defaultPositions ≠ [] := by
  rw [hasDefaultValues, List.any_eq_true]
  constructor
  · rintro ⟨p, hp, hflag⟩
    obtain ⟨i, hi⟩ := List.getElem?_of_mem hp
    have hopt : p.isOptional = true := by rw [Parameter.isOptional_eq (h p hp), hflag]
    exact List.ne_nil_of_mem (mem_defaultPositions_iff.2 ⟨p, hi, hopt⟩)
  · intro hnil
    obtain ⟨i, hi⟩ := List.exists_mem_of_ne_nil _ hnil
    obtain ⟨p, hi, hopt⟩ := mem_defaultPositions_iff.1 hi
    have hp : p ∈ s.params := List.mem_of_getElem? hi
    exact ⟨p, hp, by rwa [Parameter.isOptional_eq (h p hp)] at hopt⟩

/-- Reading a signature through its own view gives it back. -/
theorem ofView_view (s : Signature) : ofView s.view = .ok s := by
  rw [ofView, view, FormalParameters.params_ofList, ofParams_params]

/-- A signature with a list that keeps the rule is valid. -/
theorem isValid_of_variadicLast {s : Signature} (h : VariadicLast s.params) : s.IsValid := by
  have hrule := variadicLast_iff_getElem?.1 h
  have hplain : ∀ p ∈ s.params, p.isVarargs = true → p.hasDefaultValue = false := by
    intro p hp hvariadic
    obtain ⟨i, hi⟩ := List.getElem?_of_mem hp
    exact (hrule i p hi hvariadic).2
  exact
    { accepted := (check_eq_ok_iff _).2 h
      unique := fun i j p q hp hq hvariadic hvariadic' => by
        have hi := (hrule i p hp hvariadic).1
        have hj := (hrule j q hq hvariadic').1
        omega
      last := fun i p hp hvariadic => (hrule i p hp hvariadic).1
      plain := hplain
      hasDefaultValues_iff := hasDefaultValues_eq_true_iff hplain
      ofView_view := s.ofView_view
      varargs_iff := s.isVarargs_eq_true_iff }

/-- **Every signature is valid**, by whatever sequence of steps it has been obtained. -/
theorem obtained_isValid {ps : List Parameter} (h : Obtained ps) :
    ∃ s : Signature, s.params = ps ∧ s.IsValid :=
  ⟨⟨ps, h.variadicLast⟩, rfl, isValid_of_variadicLast h.variadicLast⟩

/-- An action that joins texts with a separator. -/
def joinTexts : Signature where
  params :=
    [{ name := "separator", type := .named "java.lang.String", hasDefaultValue := true },
      { name := "parts", type := .param "Join" "T" none, isVarargs := true }]
  variadicLast := ⟨nofun, fun _ => ⟨rfl, rfl⟩, trivial⟩

/-- The parameters of the action are checked, their types are rewritten, and the separator is left
out.  What remains is a valid signature. -/
theorem isValid_joinTexts :
    let rewritten := joinTexts.mapTypes fun _ => .named "java.lang.Object"
    let prepared : PreparedAction := { canonical := rewritten, origin := none }
    let left := (prepared.overload [0]).signature.params
    left = [{ name := "parts", type := .named "java.lang.Object", isVarargs := true }] ∧
      ∃ s : Signature, s.params = left ∧ s.IsValid := by
  intro rewritten prepared left
  have hchecked : Obtained joinTexts.params := .ofParams joinTexts.ofParams_params
  have hrewritten : Obtained prepared.canonical.params := hchecked.mapTypes _
  exact ⟨rfl, obtained_isValid (hrewritten.overload [0])⟩

end Signature

end ActionSignatures
