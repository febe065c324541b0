/-
**Overloads implied by default values.**

An action whose parameters have default values can be called with any choice of them left out.  Each
choice gives one overload: it has the remaining parameters, and delegates to the declared action with
the default of the type in the place of each parameter left out.

Main definitions:

* `ActionSignatures.Argument`, `ActionSignatures.ArgumentPlan` — the arguments of the delegating
  call;
* `ActionSignatures.Overload` — one overload;
* `ActionSignatures.OverloadSet` — **an action with its overloads**;
* `ActionSignatures.Signature.omitting` — the signature without the parameters at some positions;
* `ActionSignatures.Overload.ofOmitted` — **the overload of one choice**;
* `ActionSignatures.PreparedAction` — an action with everything worked out that its overloads share.

Main results:

* `ActionSignatures.Signature.params_omitting` — the parameters that are left keep their order and
  lose their default values;
* `ActionSignatures.PreparedAction.overload_eq` — preparing an action does not change its overloads.
-/

import ActionSignatures.DefaultExpression
import ActionSignatures.Prototype

set_option relaxedAutoImplicit false
set_option autoImplicit false

namespace ActionSignatures

/-! ### Delegating calls -/

/-- **An argument of the delegating call**: a parameter of the overload passed on, or the default
that stands for a parameter left out, together with the expression written in the declaration and the
member that holds its value, where they are known. -/
inductive Argument where
  | forward (position : Nat) (name : String)
  | default (position : Nat) (name : String) (value : DefaultExpression) (declared : Option Expr)
      (defaultId : Option DefaultValueId)
deriving DecidableEq, Repr

namespace Argument

/-- The position of the parameter that the argument is for. -/
def position : Argument → Nat
  | .forward position _ => position
  | .default position .. => position

/-- Whether the argument stands for a parameter left out. -/
def isDefault : Argument → Bool
  | .forward .. => false
  | .default .. => true

/-- The written form of an argument. -/
def display : Argument → String
  | .forward _ name => name
  | .default _ _ value _ _ => value.expr.display

end Argument

/-- The arguments of the delegating call, one for each parameter of the declared action. -/
abbrev ArgumentPlan := List Argument

/-- The written form of a plan. -/
def ArgumentPlan.display (plan : ArgumentPlan) : String :=
  "(" ++ ", ".intercalate (plan.map Argument.display) ++ ")"

/-! ### Overloads -/

/-- **An overload**: its signature and parameter types, the delegating call, the positions left out,
and the parameter types of the action that it takes its defaults from. -/
structure Overload where
  signature : Signature
  parameterTypes : ParameterTypes
  plan : ArgumentPlan
  omitted : List Nat
  usesDefaultsFrom : ParameterTypes
deriving DecidableEq

/-- **An action with its overloads.**  The body is whatever the caller wants to keep with the
action. -/
structure OverloadSet (β : Type) where
  canonical : Signature
  sourceOfDefaults : ParameterTypes
  body : β
  overloads : Array Overload

namespace OverloadSet

variable {β : Type}

/-- The number of overloads. -/
def size (s : OverloadSet β) : Nat := s.overloads.size

/-- Whether there is no overload. -/
def isEmpty (s : OverloadSet β) : Bool := s.overloads.isEmpty

/-- The prototypes of the declared action and of its overloads. -/
def prototypes (s : OverloadSet β) (action : String) : List Prototype :=
  (s.sourceOfDefaults :: s.overloads.toList.map (·.parameterTypes)).map (⟨action, ·⟩)

end OverloadSet

/-! ### Leaving parameters out -/

namespace Signature

/-- The parameters at positions other than the given ones. -/
def keptParams (s : Signature) (omitted : List Nat) : List Parameter :=
  (s.params.zipIdx.filter fun p => !omitted.contains p.2).map (·.1)

theorem keptParams_sublist (s : Signature) (omitted : List Nat) :
    (s.keptParams omitted).Sublist s.params := by
  have h := (List.filter_sublist (l := s.params.zipIdx)
    (p := fun p => !omitted.contains p.2)).map Prod.fst
  rwa [List.zipIdx_map_fst] at h

/-- The signature without the parameters at some positions.  The parameters that are left keep their
order and have no default values. -/
def omitting (s : Signature) (omitted : List Nat) : Signature where
  params := (s.keptParams omitted).map Parameter.withoutDefault
  variadicLast :=
    (s.variadicLast.of_sublist (s.keptParams_sublist omitted)).map (fun _ _ h => h)
      (fun _ _ _ => rfl)

@[simp] theorem params_omitting (s : Signature) (omitted : List Nat) :
    (s.omitting omitted).params = (s.keptParams omitted).map Parameter.withoutDefault := rfl

end Signature

/-- The action that declares default values, by which the members that hold them are named. -/
structure ActionOrigin where
  owner : String
  action : String
deriving DecidableEq, Repr

/-- The argument for the parameter at a position. -/
def Argument.ofParameter (omitted : List Nat) (origin : Option ActionOrigin) (p : Parameter)
    (position : Nat) : Argument :=
  if omitted.contains position then
    .default position p.name (.ofType p.type) p.defaultValue
      (origin.map fun o => ⟨o.owner, o.action, position⟩)
  else
    .forward position p.name

/-- **The overload of one choice** of parameters to leave out. -/
def Overload.ofOmitted (canonical : Signature) (origin : Option ActionOrigin)
    (omitted : List Nat) : Overload :=
  let signature := canonical.omitting omitted
  { signature
    parameterTypes := signature.parameterTypes
    plan := canonical.params.zipIdx.map fun (p, i) => .ofParameter omitted origin p i
    omitted
    usesDefaultsFrom := canonical.parameterTypes }

/-! ### Prepared actions -/

/-- What overloads take over from one parameter of the declared action: the parameter and its erased
type where it is kept, and the argument that stands for it in either case. -/
structure Slot where
  position : Nat
  kept : Parameter
  type : ErasedType
  forwarded : Argument
  defaulted : Argument

namespace Slot

/-- The slot of the parameter at a position. -/
def ofParameter (origin : Option ActionOrigin) (p : Parameter) (position : Nat) : Slot where
  position
  kept := p.withoutDefault
  type := p.type.erasure
  forwarded := .ofParameter [] origin p position
  defaulted := .ofParameter [position] origin p position

/-- The argument for a parameter, where the ones at some positions are left out. -/
def argument (omitted : List Nat) (s : Slot) : Argument :=
  if omitted.contains s.position then s.defaulted else s.forwarded

theorem argument_ofParameter (omitted : List Nat) (origin : Option ActionOrigin) (p : Parameter)
    (position : Nat) :
    (ofParameter origin p position).argument omitted =
      .ofParameter omitted origin p position := by
  by_cases h : position ∈ omitted <;> simp [argument, ofParameter, Argument.ofParameter, h]

end Slot

/-- The slots of the parameters of a signature. -/
def Signature.slots (s : Signature) (origin : Option ActionOrigin) : List Slot :=
  s.params.zipIdx.map fun (p, i) => .ofParameter origin p i

/-- **An action prepared for synthesis**: what its overloads share is worked out once. -/
structure PreparedAction where
  canonical : Signature
  origin : Option ActionOrigin
  source : ParameterTypes := canonical.parameterTypes
  defaults : List Nat := canonical.defaultPositions
  slots : List Slot := canonical.slots origin
  source_eq : source = canonical.parameterTypes := by rfl
  defaults_eq : defaults = canonical.defaultPositions := by rfl
  slots_eq : slots = canonical.slots origin := by rfl

namespace PreparedAction

/-- The slots of the parameters at other positions than the given ones. -/
def keptSlots (a : PreparedAction) (omitted : List Nat) : List Slot :=
  a.slots.filter fun s => !omitted.contains s.position

theorem keptSlots_eq (a : PreparedAction) (omitted : List Nat) :
    a.keptSlots omitted =
      (a.canonical.params.zipIdx.filter fun p => !omitted.contains p.2).map fun (p, i) =>
        .ofParameter a.origin p i := by
  rw [keptSlots, a.slots_eq, Signature.slots, List.filter_map]
  rfl

theorem map_kept_keptSlots (a : PreparedAction) (omitted : List Nat) :
    (a.keptSlots omitted).map (·.kept) = (a.canonical.omitting omitted).params := by
  rw [keptSlots_eq, Signature.params_omitting, Signature.keptParams, List.map_map, List.map_map]
  rfl

theorem map_type_keptSlots (a : PreparedAction) (omitted : List Nat) :
    (a.keptSlots omitted).map (·.type) = (a.canonical.omitting omitted).parameterTypes.types := by
  change _ = (a.canonical.omitting omitted).params.map (·.type.erasure)
  rw [keptSlots_eq, Signature.params_omitting, Signature.keptParams, List.map_map, List.map_map,
    List.map_map]
  rfl

theorem map_argument_slots (a : PreparedAction) (omitted : List Nat) :
    a.slots.map (·.argument omitted) =
      a.canonical.params.zipIdx.map fun (p, i) => .ofParameter omitted a.origin p i := by
  rw [a.slots_eq, Signature.slots, List.map_map]
  exact List.map_congr_left fun p _ => Slot.argument_ofParameter ..

/-- The overload that leaves the parameters at some positions out. -/
def overload (a : PreparedAction) (omitted : List Nat) : Overload :=
  let kept := a.keptSlots omitted
  let signature : Signature :=
    { params := kept.map (·.kept)
      variadicLast := by
        rw [map_kept_keptSlots]
        exact (a.canonical.omitting omitted).variadicLast }
  { signature
    parameterTypes :=
      { types := kept.map (·.type)
        varargs := signature.isVarargs
        nonempty := by
          have h : signature = a.canonical.omitting omitted := Signature.ext (map_kept_keptSlots ..)
          rw [h, map_type_keptSlots]
          exact (a.canonical.omitting omitted).parameterTypes.nonempty }
    plan := a.slots.map (·.argument omitted)
    omitted
    usesDefaultsFrom := a.source }

/-- Preparing an action does not change its overloads. -/
theorem overload_eq (a : PreparedAction) (omitted : List Nat) :
    a.overload omitted = .ofOmitted a.canonical a.origin omitted := by
  have h : ∀ proof, Signature.mk ((a.keptSlots omitted).map (·.kept)) proof =
      a.canonical.omitting omitted := fun _ => Signature.ext (map_kept_keptSlots ..)
  simp only [overload, Overload.ofOmitted, h, Overload.mk.injEq, true_and]
  exact ⟨ParameterTypes.ext (map_type_keptSlots ..) rfl, map_argument_slots .., a.source_eq⟩

end PreparedAction

end ActionSignatures
