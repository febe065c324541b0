/-
**Signatures.**

A signature is the list of the formal parameters of a declaration.  Only the last parameter may be
variadic, and a variadic parameter may not be flagged as having a default value; a list that breaks
this is refused with the first offence that one pass over it meets.

Main definitions:

* `ActionSignatures.Parameter` — formal parameters;
* `ActionSignatures.VariadicLast` — **the rule** on variadic parameters;
* `ActionSignatures.Signature` — parameter lists that keep it;
* `ActionSignatures.Signature.check` — the pass that accepts a list or finds an offence;
* `ActionSignatures.FormalParameters` — a view of parameters by position.

Main results:

* `ActionSignatures.Signature.check_eq_ok_iff` — the pass accepts exactly the lists that keep the
  rule;
* `ActionSignatures.Signature.ofParams_params` — a signature passes the check that made it;
* `ActionSignatures.VariadicLast.of_sublist` — dropping parameters keeps the rule.
-/

import ActionSignatures.Diagnostic
import ActionSignatures.Expr
import ActionSignatures.TypeRef

set_option relaxedAutoImplicit false
set_option autoImplicit false

namespace ActionSignatures

/-! ### Parameters -/

/-- **A formal parameter.**  The type of a variadic parameter is the type of one element.  A default
value may be known to exist without its expression being known. -/
structure Parameter where
  name : String
  type : TypeRef
  hasDefaultValue : Bool := false
  defaultValue : Option Expr := none
  isVarargs : Bool := false
deriving DecidableEq, Repr

namespace Parameter

/-- The parameter with a default value. -/
def withDefault (p : Parameter) (value : Expr) : Parameter :=
  { p with hasDefaultValue := true, defaultValue := some value }

/-- The parameter with a default value whose expression is not known. -/
def withDefaultFlag (p : Parameter) : Parameter :=
  { p with hasDefaultValue := true }

/-- The parameter as a variadic one. -/
def varargs (p : Parameter) : Parameter :=
  { p with isVarargs := true }

/-- The parameter without any default value. -/
def withoutDefault (p : Parameter) : Parameter :=
  { p with hasDefaultValue := false, defaultValue := none }

/-- Whether a call may leave the parameter out. -/
def isOptional (p : Parameter) : Bool := p.hasDefaultValue && !p.isVarargs

/-- The written form of a parameter. -/
def display (p : Parameter) : String :=
  p.name ++ " : " ++ p.type.display ++ (if p.isVarargs then "*" else "") ++
    (match p.defaultValue with
      | some value => " = " ++ value.display
      | none => "")

end Parameter

/-! ### The rule on variadic parameters -/

/-- **The rule on variadic parameters**: a variadic parameter is the last one and is not flagged as
having a default value. -/
def VariadicLast : List Parameter → Prop
  | [] => True
  | p :: ps => (p.isVarargs = true → ps = [] ∧ p.hasDefaultValue = false) ∧ VariadicLast ps

namespace VariadicLast

@[simp] theorem nil : VariadicLast [] := trivial

theorem cons_iff {p : Parameter} {ps : List Parameter} :
    VariadicLast (p :: ps) ↔
      (p.isVarargs = true → ps = [] ∧ p.hasDefaultValue = false) ∧ VariadicLast ps := Iff.rfl

/-- Dropping parameters keeps the rule. -/
theorem of_sublist {ps qs : List Parameter} (h : qs.Sublist ps) (hp : VariadicLast ps) :
    VariadicLast qs := by
  induction h with
  | slnil => exact hp
  | cons p _ ih => exact ih hp.2
  | cons_cons p h ih =>
      refine ⟨fun hv => ?_, ih hp.2⟩
      obtain ⟨hnil, hd⟩ := hp.1 hv
      subst hnil
      exact ⟨List.sublist_nil.1 h, hd⟩

/-- A change of the parameters that sets no variadic mark and no default flag keeps the rule. -/
theorem map {ps : List Parameter} {f : Parameter → Parameter}
    (variadic : ∀ p ∈ ps, (f p).isVarargs = true → p.isVarargs = true)
    (flagged : ∀ p ∈ ps, p.hasDefaultValue = false → (f p).hasDefaultValue = false)
    (hp : VariadicLast ps) : VariadicLast (ps.map f) := by
  induction ps with
  | nil => exact nil
  | cons p ps ih =>
      refine ⟨fun hv => ?_, ih (fun q hq => variadic q (List.mem_cons_of_mem _ hq))
        (fun q hq => flagged q (List.mem_cons_of_mem _ hq)) hp.2⟩
      obtain ⟨hnil, hd⟩ := hp.1 (variadic p (List.mem_cons_self ..) hv)
      exact ⟨by simpa using hnil, flagged p (List.mem_cons_self ..) hd⟩

end VariadicLast

/-! ### Offences -/

/-- How a parameter list breaks the rule on variadic parameters. -/
inductive InvalidSignature where
  | multipleVarargs (first second : String)
  | varargsNotLast (name : String) (position : Nat)
  | varargsWithDefault (name : String) (position : Nat)
deriving DecidableEq, Repr

namespace InvalidSignature

/-- The wording of an offence. -/
def message : InvalidSignature → String
  | .multipleVarargs first second =>
      "formal parameters '" ++ first ++ "' and '" ++ second ++ "' are both variadic"
  | .varargsNotLast name position =>
      "variadic parameter '" ++ name ++ "' at position " ++ toString position ++
        " is not the last formal parameter"
  | .varargsWithDefault name _ =>
      "variadic parameter '" ++ name ++ "' cannot have a default value"

/-- The kind of diagnostic that reports an offence. -/
def kind : InvalidSignature → DiagnosticKind
  | .multipleVarargs .. => .multipleVariadicParameters
  | .varargsNotLast .. => .variadicParameterNotLast
  | .varargsWithDefault .. => .variadicParameterWithDefault

/-- The position of the offending parameter, where there is a single one. -/
def position? : InvalidSignature → Option Nat
  | .multipleVarargs .. => none
  | .varargsNotLast _ position => some position
  | .varargsWithDefault _ position => some position

/-- The diagnostic that reports an offence of the declaration at a place. -/
def toDiagnostic (e : InvalidSignature) (place : Place) : Diagnostic :=
  let args :=
    match e with
    | .multipleVarargs first second => [first, second]
    | .varargsNotLast name _ => [name]
    | .varargsWithDefault name _ => [name]
  .ofKind place e.kind args

end InvalidSignature

/-! ### Signatures -/

/-- **A signature**: a list of formal parameters that keeps the rule on variadic ones. -/
structure Signature where
  params : List Parameter
  variadicLast : VariadicLast params

namespace Signature

instance : DecidableEq Signature := fun s t =>
  if h : s.params = t.params then
    isTrue (by cases s; cases t; cases h; rfl)
  else
    isFalse fun e => h (by rw [e])

@[ext] theorem ext {s t : Signature} (h : s.params = t.params) : s = t := by
  cases s; cases t; cases h; rfl

/-- The pass over the parameters from a position on, with the position and name of the variadic
parameter that it has met. -/
def checkFrom (position : Nat) (met : Option (Nat × String)) :
    List Parameter → Except InvalidSignature Unit
  | [] =>
      match met with
      | some (p, name) =>
          if p + 1 = position then .ok () else .error (.varargsNotLast name p)
      | none => .ok ()
  | p :: ps =>
      if p.isVarargs then
        match met with
        | some (_, first) => .error (.multipleVarargs first p.name)
        | none =>
            if p.hasDefaultValue then .error (.varargsWithDefault p.name position)
            else checkFrom (position + 1) (some (position, p.name)) ps
      else
        checkFrom (position + 1) met ps

/-- **The pass over the parameters** that accepts a list or finds an offence.  At each variadic
parameter an earlier one is the first thing to be held against it, then a default flag; that it is
not the last parameter shows at the end. -/
def check (params : List Parameter) : Except InvalidSignature Unit := checkFrom 0 none params

theorem checkFrom_met_eq_ok_iff (position : Nat) (p : Nat) (name : String)
    (h : p < position) (ps : List Parameter) :
    checkFrom position (some (p, name)) ps = .ok () ↔ ps = [] ∧ p + 1 = position := by
  induction ps generalizing position with
  | nil =>
      rw [checkFrom]
      split <;> simp_all
  | cons q qs ih =>
      rw [checkFrom]
      split
      · simp
      · rw [ih (position + 1) (by omega)]
        constructor
        · rintro ⟨_, hp⟩
          omega
        · rintro ⟨hq, _⟩
          cases hq

theorem checkFrom_eq_ok_iff (position : Nat) (ps : List Parameter) :
    checkFrom position none ps = .ok () ↔ VariadicLast ps := by
  induction ps generalizing position with
  | nil => simp [checkFrom]
  | cons q qs ih =>
      rw [checkFrom, VariadicLast.cons_iff]
      by_cases hv : q.isVarargs = true
      · by_cases hd : q.hasDefaultValue = true
        · simp [hv, hd]
        · simp only [hv, hd, if_true, Bool.false_eq_true, if_false]
          rw [checkFrom_met_eq_ok_iff _ _ _ (by omega)]
          constructor
          · rintro ⟨rfl, _⟩
            simp
          · rintro ⟨h, _⟩
            exact ⟨(h trivial).1, rfl⟩
      · simp [hv, ih]

/-- The pass accepts exactly the lists that keep the rule. -/
theorem check_eq_ok_iff (ps : List Parameter) : check ps = .ok () ↔ VariadicLast ps :=
  checkFrom_eq_ok_iff 0 ps

/-- **The signature with the given parameters**, or the offence that stands in its way. -/
def ofParams (params : List Parameter) : Except InvalidSignature Signature :=
  match h : check params with
  | .ok () => .ok ⟨params, (check_eq_ok_iff params).1 h⟩
  | .error e => .error e

/-- A signature passes the check that made it. -/
theorem ofParams_params (s : Signature) : ofParams s.params = .ok s := by
  have hcheck : check s.params = .ok () := (check_eq_ok_iff s.params).2 s.variadicLast
  rw [ofParams]
  split
  · rfl
  · rename_i e he
    rw [hcheck] at he
    cases he

/-- The signature without parameters. -/
def empty : Signature := ⟨[], VariadicLast.nil⟩

instance : Inhabited Signature := ⟨empty⟩

/-- The number of parameters. -/
def length (s : Signature) : Nat := s.params.length

/-- Whether the last parameter is variadic. -/
def isVarargs (s : Signature) : Bool := s.params.getLast?.any (·.isVarargs)

/-- The positions of the parameters that a call may leave out, in order. -/
def defaultPositions (s : Signature) : List Nat :=
  s.params.zipIdx.filterMap fun (p, i) => if p.isOptional then some i else none

/-- Whether some parameter is flagged as having a default value. -/
def hasDefaultValues (s : Signature) : Bool := s.params.any (·.hasDefaultValue)

/-- The same parameters with every type rewritten. -/
def mapTypes (s : Signature) (f : TypeRef → TypeRef) : Signature where
  params := s.params.map fun p => { p with type := f p.type }
  variadicLast := s.variadicLast.map (fun _ _ h => h) (fun _ _ h => h)

/-- The written form of a signature. -/
def display (s : Signature) : String :=
  "(" ++ ", ".intercalate (s.params.map Parameter.display) ++ ")"

end Signature

/-! ### Views of parameters -/

/-- **A view of formal parameters by position**, as a front end gives it for its declarations. -/
structure FormalParameters where
  count : Nat
  name : Fin count → String
  type : Fin count → TypeRef
  hasDefaultValue : Fin count → Bool
  defaultValue : Fin count → Option Expr
  isVarargs : Fin count → Bool

namespace FormalParameters

/-- The parameter at a position of a view. -/
def param (v : FormalParameters) (i : Fin v.count) : Parameter where
  name := v.name i
  type := v.type i
  hasDefaultValue := v.hasDefaultValue i
  defaultValue := v.defaultValue i
  isVarargs := v.isVarargs i

/-- The parameters of a view, in order. -/
def params (v : FormalParameters) : List Parameter := List.ofFn v.param

/-- The view of an array of parameters. -/
def ofArray (ps : Array Parameter) : FormalParameters where
  count := ps.size
  name i := ps[i].name
  type i := ps[i].type
  hasDefaultValue i := ps[i].hasDefaultValue
  defaultValue i := ps[i].defaultValue
  isVarargs i := ps[i].isVarargs

/-- The view of a list of parameters. -/
def ofList (ps : List Parameter) : FormalParameters := ofArray ps.toArray

@[simp] theorem params_ofArray (ps : Array Parameter) : (ofArray ps).params = ps.toList := by
  simp only [params]
  exact List.ofFn_getElem

@[simp] theorem params_ofList (ps : List Parameter) : (ofList ps).params = ps :=
  params_ofArray ps.toArray

end FormalParameters

namespace Signature

/-- The view of a signature. -/
def view (s : Signature) : FormalParameters := .ofList s.params

/-- The signature that a view shows, or the offence that stands in its way. -/
def ofView (v : FormalParameters) : Except InvalidSignature Signature := ofParams v.params

end Signature

end ActionSignatures
