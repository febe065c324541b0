/-
**Overloads under a rewriting of types.**

The types of a signature may be rewritten before its overloads are made, for instance because an
inheriting type binds the type parameters that occur in them.  Rewriting changes neither which
parameters may be left out nor what a choice of them leaves, so the overloads of the rewritten
signature are the rewritten overloads.  Only what is read off the types can differ: the parameter
types, and the defaults that stand for parameters left out.  Both are read off the erased names, so a
rewriting that keeps these changes the outcome of the synthesis in nothing but the signatures.

Main definitions:

* `ActionSignatures.Argument.withValue` — an argument with another default;
* `ActionSignatures.Overload.RewritesTo` — **the overload that the same choice makes of the rewritten
  action**.

Main results:

* `ActionSignatures.Signature.omitting_mapTypes` — leaving parameters out commutes with rewriting;
* `ActionSignatures.Overload.rewritesTo_ofOmitted` — so does the overload of one choice;
* `ActionSignatures.synthesizeFor_mapTypes_of_erasure` — a rewriting that keeps the erased names keeps
  the outcome;
* `ActionSignatures.synthesis_commutes_with_rewriting` — **the synthesis commutes with rewriting**.
-/

import ActionSignatures.Proofs.Overload.Enumeration
import ActionSignatures.Substitution.Bindings

set_option relaxedAutoImplicit false
set_option autoImplicit false

namespace ActionSignatures

/-! ### Signatures -/

namespace Signature

variable (s : Signature) (f : TypeRef → TypeRef)

@[simp] theorem params_mapTypes :
    (s.mapTypes f).params = s.params.map fun p => { p with type := f p.type } := rfl

theorem defaultPositions_mapTypes : (s.mapTypes f).defaultPositions = s.defaultPositions := by
  rw [defaultPositions, defaultPositions, params_mapTypes, List.zipIdx_map, List.filterMap_map]
  rfl

theorem isVarargs_mapTypes : (s.mapTypes f).isVarargs = s.isVarargs := by
  rw [isVarargs, isVarargs, params_mapTypes, List.getLast?_map, Option.any_map]

theorem keptParams_mapTypes (omitted : List Nat) :
    (s.mapTypes f).keptParams omitted =
      (s.keptParams omitted).map fun p => { p with type := f p.type } := by
  rw [keptParams, keptParams, params_mapTypes, List.zipIdx_map, List.filter_map, List.map_map,
    List.map_map]
  rfl

/-- **Leaving parameters out commutes with rewriting.** -/
theorem omitting_mapTypes (omitted : List Nat) :
    (s.mapTypes f).omitting omitted = (s.omitting omitted).mapTypes f := by
  refine Signature.ext ?_
  rw [params_omitting, keptParams_mapTypes, params_mapTypes, params_omitting, List.map_map,
    List.map_map]
  rfl

theorem omission_mapTypes (mask : Nat) : (s.mapTypes f).omission mask = s.omission mask := by
  rw [omission, omission, defaultPositions_mapTypes]

theorem overloadCount_mapTypes : (s.mapTypes f).overloadCount = s.overloadCount := by
  rw [overloadCount, overloadCount, defaultPositions_mapTypes]

variable {s f}

/-- A rewriting that keeps the erased names of the parameters keeps the parameter types. -/
theorem parameterTypes_mapTypes (h : ∀ p ∈ s.params, (f p.type).erasure = p.type.erasure) :
    (s.mapTypes f).parameterTypes = s.parameterTypes := by
  refine ParameterTypes.ext ?_ (isVarargs_mapTypes s f)
  change (s.mapTypes f).params.map (·.type.erasure) = s.params.map (·.type.erasure)
  rw [params_mapTypes, List.map_map]
  exact List.map_congr_left h

/-- So it does where parameters are left out. -/
theorem typesOfMask_mapTypes (h : ∀ p ∈ s.params, (f p.type).erasure = p.type.erasure)
    (mask : Nat) : (s.mapTypes f).typesOfMask mask = s.typesOfMask mask := by
  rw [typesOfMask, typesOfMask, omission_mapTypes, omitting_mapTypes]
  refine parameterTypes_mapTypes fun p hp => ?_
  rw [params_omitting] at hp
  obtain ⟨q, hq, rfl⟩ := List.mem_map.1 hp
  exact h q ((s.keptParams_sublist _).subset hq)

theorem typesBelow_mapTypes (h : ∀ p ∈ s.params, (f p.type).erasure = p.type.erasure) (n : Nat) :
    (s.mapTypes f).typesBelow n = s.typesBelow n :=
  List.map_congr_left fun mask _ => typesOfMask_mapTypes h mask

end Signature

/-! ### Overloads -/

/-- An argument with another default; a parameter that is passed on has none. -/
def Argument.withValue (a : Argument) (value : DefaultExpression) : Argument :=
  match a with
  | .forward position name => .forward position name
  | .default position name _ declared defaultId => .default position name value declared defaultId

theorem Overload.plan_ofOmitted (s : Signature) (origin : Option ActionOrigin)
    (omitted : List Nat) :
    (ofOmitted s origin omitted).plan =
      s.params.zipIdx.map fun e => .ofParameter omitted origin e.1 e.2 := rfl

theorem Argument.ofParameter_mapType (omitted : List Nat) (origin : Option ActionOrigin)
    (p : Parameter) (position : Nat) (type : TypeRef) :
    ofParameter omitted origin { p with type } position =
      (ofParameter omitted origin p position).withValue (.ofType type) := by
  simp only [ofParameter]
  split <;> rfl

/-- **What an overload becomes when the types of its action are rewritten**: the same parameters are
left out, the parameters that are left have their types rewritten, and the plan differs only in that
the default of the rewritten type stands for each parameter left out. -/
structure Overload.RewritesTo (o o' : Overload) (s : Signature) (f : TypeRef → TypeRef) : Prop where
  omitted : o'.omitted = o.omitted
  signature : o'.signature = o.signature.mapTypes f
  length : o'.plan.length = o.plan.length
  plan : o'.plan = List.zipWith (fun a p => a.withValue (.ofType (f p.type))) o.plan s.params

/-- **The overload of one choice commutes with rewriting.** -/
theorem Overload.rewritesTo_ofOmitted (s : Signature) (f : TypeRef → TypeRef)
    (origin : Option ActionOrigin) (omitted : List Nat) :
    (ofOmitted s origin omitted).RewritesTo (ofOmitted (s.mapTypes f) origin omitted) s f where
  omitted := rfl
  signature := s.omitting_mapTypes f omitted
  length := by simp [ofOmitted]
  plan := by
    rw [plan_ofOmitted, plan_ofOmitted, Signature.params_mapTypes]
    refine List.ext_getElem (by simp) fun i hi hi' => ?_
    simp only [List.getElem_map, List.getElem_zipIdx, List.getElem_zipWith]
    exact Argument.ofParameter_mapType omitted origin _ _ _

/-- The defaults are read off the erased names. -/
theorem Overload.plan_mapTypes {s : Signature} {f : TypeRef → TypeRef}
    (h : ∀ p ∈ s.params, (f p.type).erasure = p.type.erasure) (origin : Option ActionOrigin)
    (omitted : List Nat) :
    (ofOmitted (s.mapTypes f) origin omitted).plan = (ofOmitted s origin omitted).plan := by
  rw [plan_ofOmitted, plan_ofOmitted, Signature.params_mapTypes, List.zipIdx_map, List.map_map]
  refine List.map_congr_left fun e he => ?_
  have hp : e.1 ∈ s.params := List.mem_of_getElem? (List.mem_zipIdx_iff_getElem?.1 he)
  simp only [Function.comp_apply, Prod.map_fst, Prod.map_snd, Argument.ofParameter,
    DefaultExpression.ofType, h e.1 hp, id_eq]

/-! ### The synthesis -/

variable {β : Type} {s : Signature} {f : TypeRef → TypeRef}

/-- **A rewriting that keeps the erased names of the parameters keeps the outcome**: the synthesis
refuses the rewritten signature with the same error, or makes the overloads of all its masks. -/
theorem synthesizeFor_mapTypes_of_erasure (options : SynthesisOptions)
    (origin : Option ActionOrigin) (body : β)
    (h : ∀ p ∈ s.params, (f p.type).erasure = p.type.erasure) :
    synthesizeFor options origin (s.mapTypes f) body =
      (synthesizeFor options origin s body).map fun _ => .ofMasks origin (s.mapTypes f) body := by
  have hpositions := s.defaultPositions_mapTypes f
  have htypes := Signature.typesBelow_mapTypes h
  by_cases hlimit : s.defaultPositions.length ≤ options.effectiveMax.toNat
  · have hlimit' : (s.mapTypes f).defaultPositions.length ≤ options.effectiveMax.toNat := by
      rwa [hpositions]
    by_cases hnodup : (s.typesBelow s.overloadCount).Nodup
    · have hnodup' : ((s.mapTypes f).typesBelow (s.mapTypes f).overloadCount).Nodup := by
        rwa [s.overloadCount_mapTypes, htypes]
      rw [synthesizeFor_of_nodup origin body hlimit hnodup,
        synthesizeFor_of_nodup origin body hlimit' hnodup']
      rfl
    · obtain ⟨first, second, hlt, hr⟩ := Signature.exists_firstRepeat hnodup
      have hr' : (s.mapTypes f).FirstRepeat first second :=
        ⟨hr.lt, by rw [Signature.typesOfMask_mapTypes h, Signature.typesOfMask_mapTypes h, hr.eq],
          by rw [htypes]; exact hr.nodup⟩
      have hlt' : second < (s.mapTypes f).overloadCount := by rwa [s.overloadCount_mapTypes]
      rw [synthesizeFor_of_firstRepeat origin body hlimit hr hlt,
        synthesizeFor_of_firstRepeat origin body hlimit' hr' hlt',
        Signature.parameterTypes_mapTypes h, Signature.typesOfMask_mapTypes h,
        s.omission_mapTypes, s.omission_mapTypes]
      rfl
  · have hlimit' : options.effectiveMax.toNat < (s.mapTypes f).defaultPositions.length := by
      rw [hpositions]
      exact Nat.not_le.1 hlimit
    rw [synthesizeFor_of_lt origin body (Nat.not_le.1 hlimit),
      synthesizeFor_of_lt origin body hlimit', Signature.parameterTypes_mapTypes h, hpositions]
    rfl

/-- **The synthesis commutes with the rewriting of types.**  If it succeeds for a signature and for the
signature with its types rewritten, the overloads of the second are the overloads of the first one
rewritten, in the same order.  If moreover the rewriting keeps the erased names of the parameters, it
succeeds for both or for neither, and then with the same error; the parameter types and the plans
agree as well. -/
theorem synthesis_commutes_with_rewriting (options : SynthesisOptions)
    (origin : Option ActionOrigin) (s : Signature) (f : TypeRef → TypeRef) (body : β) :
    (∀ set set', synthesizeFor options origin s body = .ok set →
      synthesizeFor options origin (s.mapTypes f) body = .ok set' →
      set'.overloads.size = set.overloads.size ∧
        ∀ (i : Nat) (hi : i < set.overloads.size) (hi' : i < set'.overloads.size),
          set.overloads[i].RewritesTo set'.overloads[i] s f) ∧
    ((∀ p ∈ s.params, (f p.type).erasure = p.type.erasure) →
      ((∃ set, synthesizeFor options origin s body = .ok set) ↔
        ∃ set', synthesizeFor options origin (s.mapTypes f) body = .ok set') ∧
      (∀ e, synthesizeFor options origin s body = .error e ↔
        synthesizeFor options origin (s.mapTypes f) body = .error e) ∧
      (∀ set set', synthesizeFor options origin s body = .ok set →
        synthesizeFor options origin (s.mapTypes f) body = .ok set' →
        set'.sourceOfDefaults = set.sourceOfDefaults ∧
          ∀ (i : Nat) (hi : i < set.overloads.size) (hi' : i < set'.overloads.size),
            set'.overloads[i].parameterTypes = set.overloads[i].parameterTypes ∧
              set'.overloads[i].plan = set.overloads[i].plan)) := by
  refine ⟨fun set set' hset hset' => ?_, fun herasure => ⟨?_, ?_, fun set set' hset hset' => ?_⟩⟩
  · obtain ⟨-, -, rfl⟩ := synthesizeFor_eq_ok_iff.1 hset
    obtain ⟨-, -, rfl⟩ := synthesizeFor_eq_ok_iff.1 hset'
    refine ⟨?_, fun i hi hi' => ?_⟩
    · rw [OverloadSet.size_overloads_ofMasks, OverloadSet.size_overloads_ofMasks,
        s.overloadCount_mapTypes]
    · rw [OverloadSet.getElem_overloads_ofMasks, OverloadSet.getElem_overloads_ofMasks,
        s.omission_mapTypes]
      exact Overload.rewritesTo_ofOmitted s f origin (s.omission i)
  · rw [synthesizeFor_mapTypes_of_erasure options origin body herasure]
    cases synthesizeFor options origin s body <;> simp [Except.map]
  · intro e
    rw [synthesizeFor_mapTypes_of_erasure options origin body herasure]
    cases synthesizeFor options origin s body <;> simp [Except.map]
  · obtain ⟨-, -, rfl⟩ := synthesizeFor_eq_ok_iff.1 hset
    obtain ⟨-, -, rfl⟩ := synthesizeFor_eq_ok_iff.1 hset'
    refine ⟨Signature.parameterTypes_mapTypes herasure, fun i hi hi' => ?_⟩
    rw [OverloadSet.getElem_overloads_ofMasks, OverloadSet.getElem_overloads_ofMasks]
    refine ⟨Signature.typesOfMask_mapTypes herasure i, ?_⟩
    rw [s.omission_mapTypes]
    exact Overload.plan_mapTypes herasure origin (s.omission i)

/-- An action of a generic type: it takes one element and a list of elements, either of which may be
left out. -/
def putAll (element : TypeRef) : Signature where
  params :=
    [{ name := "first", type := element, hasDefaultValue := true },
      { name := "others", type := .generic "java.util.List" [element], hasDefaultValue := true }]
  variadicLast := ⟨nofun, nofun, trivial⟩

/-- Binding a type parameter changes the erased name of the element; a change inside of type arguments
changes no erased name. -/
theorem synthesis_rewritten_putAll :
    let texts := TypeRef.mapParams fun _ => .named "java.lang.String"
    let declared := putAll (.param "Store" "T" none)
    let nested := putAll (.generic "Box" [.param "Store" "T" none])
    (∃ set set', synthesize {} declared () = .ok set ∧
      synthesize {} (declared.mapTypes texts) () = .ok set' ∧
      set'.overloads.size = set.overloads.size ∧
      ∀ (i : Nat) (hi : i < set.overloads.size) (hi' : i < set'.overloads.size),
        set.overloads[i].RewritesTo set'.overloads[i] declared texts) ∧
    (∀ p ∈ nested.params, (texts p.type).erasure = p.type.erasure) ∧
    (∃ set set', synthesize {} nested () = .ok set ∧
      synthesize {} (nested.mapTypes texts) () = .ok set' ∧
      set'.sourceOfDefaults = set.sourceOfDefaults) := by
  intro texts declared nested
  have hset : synthesize {} declared () = .ok (.ofMasks none declared ()) :=
    synthesizeFor_of_nodup none () (by decide) (by decide)
  have hset' : synthesize {} (declared.mapTypes texts) () =
      .ok (.ofMasks none (declared.mapTypes texts) ()) :=
    synthesizeFor_of_nodup none () (by decide) (by decide)
  have hkept : ∀ p ∈ nested.params, (texts p.type).erasure = p.type.erasure := by decide
  have hnested : synthesize {} nested () = .ok (.ofMasks none nested ()) :=
    synthesizeFor_of_nodup none () (by decide) (by decide)
  obtain ⟨hrewrites, -⟩ := synthesis_commutes_with_rewriting {} none declared texts ()
  obtain ⟨-, hsame⟩ := synthesis_commutes_with_rewriting {} none nested texts ()
  obtain ⟨hsucceeds, -, hagree⟩ := hsame hkept
  obtain ⟨set', hnested'⟩ := hsucceeds.1 ⟨_, hnested⟩
  exact ⟨⟨_, _, hset, hset', hrewrites _ _ hset hset'⟩, hkept, _, set', hnested, hnested',
    (hagree _ _ hnested hnested').1⟩

end ActionSignatures
