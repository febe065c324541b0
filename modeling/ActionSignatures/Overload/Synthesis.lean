/-
**Synthesis of overloads.**

The overloads of an action are made in the order of a mask that says which default-valued parameters
are retained; the first of these parameters has the most significant bit.  For `(a = .., b = .., c*)`
this gives `(c)`, `(b, c)` and `(a, c)`.  The mask that retains everything is the declared action
itself.  Two overloads with the same parameter types could not be told apart by a call, so that the
declaration is refused, as it is when it has more default-valued parameters than the options allow.

Main definitions:

* `ActionSignatures.SynthesisOptions` — how many default-valued parameters are allowed;
* `ActionSignatures.SynthesisError` — why a declaration is refused;
* `ActionSignatures.omittedBy` — the positions that a mask leaves out;
* `ActionSignatures.synthesize`, `ActionSignatures.synthesizeAction` — **the synthesis**.

Main results:

* `ActionSignatures.omittedBy_eq` — the bits of a mask by the indices of the positions;
* `ActionSignatures.Synthesized.add_eq` — a mask adds the overload of the choice that it makes;
* `ActionSignatures.Synthesized.addFrom_eq_foldlM` — the synthesis is a fold over the masks.
-/

import ActionSignatures.Limits
import ActionSignatures.Overload.Basic
import Std.Data.HashMap.Basic

set_option relaxedAutoImplicit false
set_option autoImplicit false

namespace ActionSignatures

/-! ### Options and errors -/

/-- How many default-valued parameters an action may have.  The limit never goes beyond
`Limits.defaultParametersCeiling`. -/
structure SynthesisOptions where
  maxDefaultParameters : UInt32 := Limits.maxDefaultParameters
deriving DecidableEq, Repr

/-- The limit that is in force. -/
def SynthesisOptions.effectiveMax (o : SynthesisOptions) : UInt32 :=
  min o.maxDefaultParameters Limits.defaultParametersCeiling

/-- **Why a declaration is refused**: two choices leave the same parameter types, or there are too
many default-valued parameters.  Either holds the parameter types of the declaration. -/
inductive SynthesisError where
  | duplicateOverload (declared parameterTypes : ParameterTypes) (first second : List Nat)
  | tooManyDefaultParameters (declared : ParameterTypes) (count : Nat) (max : UInt32)
deriving DecidableEq

/-- The written form of a list of positions. -/
def displayPositions (positions : List Nat) : String :=
  "[" ++ ", ".intercalate (positions.map toString) ++ "]"

namespace SynthesisError

/-- The wording of an error. -/
def message : SynthesisError → String
  | .duplicateOverload declared parameterTypes first second =>
      "default values of (" ++ declared.display ++ ") produce the overload (" ++
        parameterTypes.display ++ ") twice (omitting " ++ displayPositions first ++ " and " ++
        displayPositions second ++ ")"
  | .tooManyDefaultParameters declared count max =>
      "(" ++ declared.display ++ ") declares " ++ toString count ++
        " default-valued parameters; at most " ++ toString max.toNat ++ " are supported"

/-- The kind of diagnostic that reports an error. -/
def kind : SynthesisError → DiagnosticKind
  | .duplicateOverload .. => .duplicateOverload
  | .tooManyDefaultParameters .. => .tooManyDefaultParameters

/-- The diagnostic that reports an error of the action declared at a place. -/
def toDiagnostic (e : SynthesisError) (action : String) (place : Place) : Diagnostic :=
  match e with
  | .duplicateOverload declared parameterTypes first second =>
      let overload := Prototype.display ⟨action, parameterTypes⟩
      (Diagnostic.ofKind place e.kind [Prototype.display ⟨action, declared⟩, overload]).withRelated
        place ("Omitting the parameters at " ++ displayPositions first ++ " or at " ++
          displayPositions second ++ " both give '" ++ overload ++ "'.")
  | .tooManyDefaultParameters declared count max =>
      .ofKind place e.kind
        [Prototype.display ⟨action, declared⟩, toString count, toString max.toNat]

end SynthesisError

/-! ### Masks -/

/-- **The positions that a mask leaves out**: a position is retained by the bit whose number says how
many positions stand behind it, so that the first position has the most significant bit. -/
def omittedBy : List Nat → UInt32 → List Nat
  | [], _ => []
  | position :: positions, retained =>
      if retained &&& (1 <<< UInt32.ofNat positions.length) == 0 then
        position :: omittedBy positions retained
      else
        omittedBy positions retained

/-- Of `k` positions the one with index `i` is retained by the bit `k - 1 - i`. -/
theorem omittedBy_eq (positions : List Nat) (retained : UInt32) :
    omittedBy positions retained =
      (positions.zipIdx.filter fun (_, i) =>
        retained &&& (1 <<< UInt32.ofNat (positions.length - 1 - i)) == 0).map (·.1) := by
  have general : ∀ (ps : List Nat) (n : Nat), omittedBy ps retained =
      ((ps.zipIdx n).filter fun (_, i) =>
        retained &&& (1 <<< UInt32.ofNat (n + ps.length - 1 - i)) == 0).map (·.1) := by
    intro ps
    induction ps with
    | nil => intro n; rfl
    | cons p ps ih =>
        intro n
        have first : n + (ps.length + 1) - 1 - n = ps.length := by omega
        have shift : n + (ps.length + 1) = n + 1 + ps.length := by omega
        rw [omittedBy, ih (n + 1), List.zipIdx_cons, List.filter_cons, List.length_cons]
        simp only [first]
        rw [shift]
        split <;> rfl
  simpa using general positions 0

/-- The mask that retains all of `k` positions; every mask below it leaves something out. -/
def fullMask (k : Nat) : UInt32 := (1 <<< UInt32.ofNat k) - 1

/-! ### Synthesis -/

/-- The overloads made so far, and for the parameter types of each the positions it leaves out. -/
structure Synthesized where
  overloads : Array Overload := #[]
  seen : Std.HashMap ParameterTypes (List Nat) := ∅

/-- The overloads with the one of a mask added, unless an earlier one has its parameter types. -/
def Synthesized.add (a : PreparedAction) (made : Synthesized) (retained : UInt32) :
    Except SynthesisError Synthesized :=
  let omitted := omittedBy a.defaults retained
  let overload := a.overload omitted
  match made.seen[overload.parameterTypes]? with
  | some first => .error (.duplicateOverload a.source overload.parameterTypes first omitted)
  | none =>
      .ok { overloads := made.overloads.push overload
            seen := made.seen.insert overload.parameterTypes omitted }

/-- What is added for a mask is the overload of the choice that the mask makes. -/
theorem Synthesized.add_eq (a : PreparedAction) (made : Synthesized) (retained : UInt32) :
    made.add a retained =
      let omitted := omittedBy a.canonical.defaultPositions retained
      let overload := Overload.ofOmitted a.canonical a.origin omitted
      match made.seen[overload.parameterTypes]? with
      | some first =>
          .error (.duplicateOverload a.canonical.parameterTypes overload.parameterTypes first
            omitted)
      | none =>
          .ok { overloads := made.overloads.push overload
                seen := made.seen.insert overload.parameterTypes omitted } := by
  simp only [add, a.overload_eq, a.defaults_eq, a.source_eq]

/-- The overloads with those of `left` masks added, in order from the mask `next` on. -/
def Synthesized.addFrom (a : PreparedAction) :
    (left next : Nat) → Synthesized → Except SynthesisError Synthesized
  | 0, _, made => .ok made
  | left + 1, next, made => do
      let made ← made.add a (UInt32.ofNat next)
      addFrom a left (next + 1) made

/-- Adding the masks one after another is a fold over the list of them. -/
theorem Synthesized.addFrom_eq_foldlM (a : PreparedAction) (left next : Nat)
    (made : Synthesized) :
    addFrom a left next made =
      (List.range' next left).foldlM (fun made mask => made.add a (UInt32.ofNat mask)) made := by
  induction left generalizing next made with
  | zero => rfl
  | succ left ih =>
      rw [addFrom, List.range'_succ, List.foldlM_cons]
      exact bind_congr fun made => ih (next + 1) made

variable {β : Type}

/-- The synthesis for an action that may be known by owner and name. -/
def synthesizeFor (options : SynthesisOptions) (origin : Option ActionOrigin)
    (canonical : Signature) (body : β) : Except SynthesisError (OverloadSet β) := do
  let a : PreparedAction := { canonical, origin }
  let k := a.defaults.length
  if k > options.effectiveMax.toNat then
    .error (.tooManyDefaultParameters a.source k options.effectiveMax)
  else
    let made ← Synthesized.addFrom a (fullMask k).toNat 0 {}
    .ok { canonical
          sourceOfDefaults := a.source
          body
          overloads := made.overloads }

/-- **The overloads of a signature.** -/
def synthesize (options : SynthesisOptions) (canonical : Signature) (body : β) :
    Except SynthesisError (OverloadSet β) :=
  synthesizeFor options none canonical body

/-- **The overloads of a named action**, with the members that hold its default values. -/
def synthesizeAction (options : SynthesisOptions) (owner action : String) (canonical : Signature)
    (body : β) : Except SynthesisError (OverloadSet β) :=
  synthesizeFor options (some ⟨owner, action⟩) canonical body

end ActionSignatures
