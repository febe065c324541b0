/-
**Bounds of type parameters under substitution.**

A type parameter erases to its bound, but substitution stays outside bounds.  So a type parameter that
is not bound itself, as one that an operation declares, keeps the erased name of the bound as it was
declared, whatever the type parameters in the bound are bound to.  This module says when that makes a
difference.  Erasure looks at one type only, the one behind all arrays, and substitution changes what
it sees only where this type is a bound type parameter.

Main definitions:

* `ActionSignatures.TypeRef.innermost` — the type behind all arrays.

Main results:

* `ActionSignatures.TypeBindings.erasure_substitute_eq_iff` — whether the erased name stays the same
  shows behind the arrays;
* `ActionSignatures.TypeBindings.IsAcyclic.erasure_substitute_eq_self_iff` — **when substitution keeps
  the erased name**;
* `ActionSignatures.TypeBindings.erasure_at_bound` — **when an unbound type parameter erases as its
  bound does after substitution**.
-/

import ActionSignatures.Proofs.Inheritance.Classification
import ActionSignatures.Proofs.Substitution.Acyclic
import ActionSignatures.Proofs.Substitution.Expansion

set_option relaxedAutoImplicit false
set_option autoImplicit false

namespace ActionSignatures

/-! ### Behind arrays -/

namespace TypeRef

/-- The type behind all arrays: the elements of an array, of their arrays, and so on. -/
def innermost : TypeRef → TypeRef
  | .array element => element.innermost
  | t => t

@[simp] theorem innermost_named (name : String) : (named name).innermost = .named name := rfl

@[simp] theorem innermost_param (owner name : String) (bound : Option TypeRef) :
    (param owner name bound).innermost = .param owner name bound := rfl

@[simp] theorem innermost_array (element : TypeRef) :
    (array element).innermost = element.innermost := rfl

@[simp] theorem innermost_generic (base : String) (args : List TypeRef) :
    (generic base args).innermost = .generic base args := rfl

/-- What is behind all arrays is no array. -/
theorem innermost_ne_array (t element : TypeRef) : t.innermost ≠ .array element := by
  induction t using rec_outside_bounds with
  | named name => simp
  | param owner name bound => simp
  | array inner ih => exact ih
  | generic base args => simp

end TypeRef

namespace TypeBindings

variable {b : TypeBindings}

/-! ### What erasure sees of a substitution -/

/-- A type that is neither bound nor an array keeps its erased name. -/
theorem erasure_substitute_of_next?_eq_none {t : TypeRef} (h : b.next? t = none)
    (hplain : ∀ element, t ≠ .array element) : (b.substitute t).erasure = t.erasure := by
  cases t with
  | named name => rfl
  | param owner name bound => rw [substitute_of_next?_eq_none h]
  | array element => exact absurd rfl (hplain element)
  | generic base args =>
      rw [substitute_generic]
      rfl

/-- **Whether the erased name stays the same shows behind the arrays.** -/
theorem erasure_substitute_eq_iff (b : TypeBindings) (t : TypeRef) :
    (b.substitute t).erasure = t.erasure ↔
      (b.substitute t.innermost).erasure = t.innermost.erasure := by
  induction t using TypeRef.rec_outside_bounds with
  | named name => rfl
  | param owner name bound => rfl
  | array element ih =>
      rw [substitute_array, TypeRef.erasure_array, TypeRef.erasure_array, String.append_left_inj]
      exact ih
  | generic base args => rfl

/-- **When substitution keeps the erased name**: unless the type behind the arrays is a bound type
parameter, whose erased name is that of what it is bound to. -/
theorem IsAcyclic.erasure_substitute_eq_self_iff (h : b.IsAcyclic) (t : TypeRef) :
    (b.substitute t).erasure = t.erasure ↔
      ∀ k u, t.innermost.paramKey? = some k → b.get? k = some u →
        (b.substitute u).erasure = t.innermost.erasure := by
  rw [erasure_substitute_eq_iff]
  cases hu : b.next? t.innermost with
  | none =>
      have hkeeps := erasure_substitute_of_next?_eq_none hu t.innermost_ne_array
      refine ⟨fun _ k u hk hget => ?_, fun _ => hkeeps⟩
      rw [next?_eq_some_iff.2 ⟨k, hk, hget⟩] at hu
      cases hu
  | some v =>
      rw [h.substitute_of_next? hu]
      obtain ⟨l, hl, hv⟩ := next?_eq_some_iff.1 hu
      constructor
      · intro herased k u hk hget
        obtain rfl : l = k := Option.some.inj (hl.symm.trans hk)
        obtain rfl : v = u := Option.some.inj (hv.symm.trans hget)
        exact herased
      · intro hall
        exact hall l v hl hv

/-! ### Operations with type parameters of their own -/

/-- The erased types in the prototype of an inherited operation are those of its parameter types after
substitution. -/
theorem types_prototype_of (owner : TypeDeclaration) (id : DeclId) (b : TypeBindings)
    (op : Operation) :
    (InheritedOperation.of owner id b op).prototype.params.types =
      op.signature.params.map fun q => (b.substitute q.type).erasure := by
  change (op.signature.mapTypes b.substitute).params.map (·.type.erasure) = _
  rw [Signature.mapTypes, List.map_map]
  rfl

/-- **When an unbound type parameter erases as its bound does after substitution.**  Under acyclic
bindings an unbound type parameter stays as it is, and so the prototype of an inherited operation with
a parameter of that type has the erased name of the bound as declared.  This is the erased name of the
bound after substitution if and only if the type behind the arrays of the bound is no bound type
parameter, or one that is bound to a type with the erased name that it has itself. -/
theorem erasure_at_bound (b : TypeBindings) (acyclic : b.IsAcyclic) (owner name : String)
    (bound : TypeRef) (unbound : b.get? ⟨owner, name⟩ = none) :
    let p := TypeRef.param owner name (some bound)
    b.substitute p = p ∧
    (∀ (d : TypeDeclaration) (id : DeclId) (op : Operation) (i : Nat) (q : Parameter),
      op.signature.params[i]? = some q → q.type = p →
      (InheritedOperation.of d id b op).prototype.params.types[i]? = some bound.erasure) ∧
    ((b.substitute p).erasure = (b.substitute bound).erasure ↔
      ∀ k u, bound.innermost.paramKey? = some k → b.get? k = some u →
        (b.substitute u).erasure = bound.innermost.erasure) := by
  intro p
  have hstays : b.substitute p = p := substitute_of_next?_eq_none unbound
  refine ⟨hstays, fun d id op i q hq htype => ?_, ?_⟩
  · rw [types_prototype_of, List.getElem?_map, hq, Option.map_some, htype, hstays,
      TypeRef.erasure_param_bounded]
  · rw [hstays, TypeRef.erasure_param_bounded, eq_comm]
    exact acyclic.erasure_substitute_eq_self_iff bound

end TypeBindings

/-! ### An operation with a bounded type parameter -/

namespace DeclarationStore

/-- An operation that takes an argument of a type parameter of its own, whose bound is left open. -/
def boundedPut (bound : TypeRef) : Operation :=
  { name := "put", typeParams := [{ name := "N", bound := some bound }],
    signature :=
      ⟨[{ name := "n", type := .param "put" "N" (some bound) }], by simp [VariadicLast]⟩ }

/-- A generic interface with that operation. -/
def boundedInterface (bound : TypeRef) : TypeDeclaration :=
  { name := "G", kind := .interfaceType, typeParams := [{ name := "T" }],
    operations := [boundedPut bound] }

/-- A class that extends the interface for texts. -/
def boundedSink (bound : TypeRef) : DeclarationStore :=
  .ofList
    [boundedInterface bound,
      { name := "Root", interfaces := [.generic "G" [.named "java.lang.String"]] }]

/-- The type parameter of the interface. -/
def sinkParameter : TypeRef := .param "G" "T" none

section

variable (bound : TypeRef)

/-- Of the type parameters only that of the interface is bound. -/
theorem get?_typeBindings_boundedSink (k : TypeParamKey) :
    ((boundedSink bound).typeBindings ⟨2⟩).get? k =
      if k = ⟨"G", "T"⟩ then some (.named "java.lang.String") else none := by
  have hrequested : (boundedSink bound).requestedBindings ⟨2⟩ =
      [(⟨"G", "T"⟩, .named "java.lang.String")] := rfl
  rw [get?_typeBindings, hrequested]
  rw [List.lookup_cons, List.lookup_nil]
  by_cases hk : k = ⟨"G", "T"⟩
  · rw [hk]
    rfl
  · rw [if_neg hk, beq_eq_false_iff_ne.2 hk]

theorem isAcyclic_boundedSink : ((boundedSink bound).typeBindings ⟨2⟩).IsAcyclic := by
  refine TypeBindings.isAcyclic_of_rank (fun _ => 0) fun k l => ?_
  rintro ⟨u, hu, hl⟩
  rw [get?_typeBindings_boundedSink] at hu
  split at hu
  · cases hu
    exact absurd hl List.not_mem_nil
  · cases hu

theorem get?_unbound_boundedSink :
    ((boundedSink bound).typeBindings ⟨2⟩).get? ⟨"put", "N"⟩ = none := by
  rw [get?_typeBindings_boundedSink]
  rfl

/-- The operation has no modifiers. -/
theorem contains_flags_boundedPut :
    (boundedPut bound).isAbstract = false ∧ (boundedPut bound).isFinal = false ∧
      (boundedPut bound).isStatic = false ∧ (boundedPut bound).isSynthetic = false := by
  change OperationFlags.none.contains .abstract = false ∧
    OperationFlags.none.contains .final = false ∧ OperationFlags.none.contains .static = false ∧
    OperationFlags.none.contains .synthetic = false
  decide

/-- The operation is inherited with the erased name of the bound as declared. -/
theorem mem_overridableOperations_boundedSink_iff (p : Prototype) :
    p ∈ ((boundedSink bound).inheritance {} ⟨2⟩ []).overridableOperations ↔
      p = ⟨"put", .of [bound.erasure] false⟩ := by
  let op := InheritedOperation.of (boundedInterface bound) ⟨1⟩
    ((boundedSink bound).typeBindings ⟨2⟩) (boundedPut bound)
  obtain ⟨habstract, hfinal, hstatic, hsynthetic⟩ := contains_flags_boundedPut bound
  have hops : (boundedSink bound).walkedOperations {} ⟨2⟩ [] = [op] := by
    have hwalked : (boundedSink bound).walked {} ⟨2⟩ [] = [(⟨1⟩, boundedInterface bound)] := rfl
    have hinherits : ((boundedSink bound).walkRules {} ⟨2⟩ []).inherits (boundedPut bound) :=
      ResolverOptions.inherits_eq_true_iff.2 ⟨hstatic, nofun, by rw [hsynthetic]; rfl⟩
    rw [walkedOperations_eq, hwalked, List.flatMap_singleton, TypeDeclaration.inheritedOperations,
      boundedInterface, List.filter_cons_of_pos hinherits]
    rfl
  have hstays : ((boundedSink bound).typeBindings ⟨2⟩).substitute (.param "put" "N" (some bound)) =
      .param "put" "N" (some bound) :=
    TypeBindings.substitute_of_next?_eq_none (get?_unbound_boundedSink bound)
  have hp : op.prototype = ⟨"put", .of [bound.erasure] false⟩ := by
    refine congrArg (Prototype.mk "put") (ParameterTypes.ext ?_ rfl)
    refine (TypeBindings.types_prototype_of (boundedInterface bound) ⟨1⟩ _ _).trans ?_
    rw [boundedPut, List.map_singleton, hstays, TypeRef.erasure_param_bounded]
    rfl
  rw [mem_overridableOperations_of_singleton_iff hops habstract hfinal, hp]

end

/-- Where the bound is an array of lists of the type parameter, erasure does not see the type
parameter. -/
theorem erasure_at_bound_listOfParameter :
    let bound := TypeRef.array (.generic "java.util.List" [sinkParameter])
    let b := (boundedSink bound).typeBindings ⟨2⟩
    b.IsAcyclic ∧ b.get? ⟨"put", "N"⟩ = none ∧
      (b.substitute (.param "put" "N" bound)).erasure = (b.substitute bound).erasure := by
  intro bound b
  have hacyclic := isAcyclic_boundedSink bound
  have hunbound := get?_unbound_boundedSink bound
  obtain ⟨-, -, herased⟩ := TypeBindings.erasure_at_bound b hacyclic "put" "N" bound hunbound
  exact ⟨hacyclic, hunbound, herased.2 fun k u hk _ => by cases hk⟩

/-- Where the bound is the type parameter itself, the operation is inherited with the erased name of
the type parameter, and not with that of the type that it is bound to. -/
theorem not_substituted_in_bound_boundedSink :
    let b := (boundedSink sinkParameter).typeBindings ⟨2⟩
    let c := (boundedSink sinkParameter).inheritance {} ⟨2⟩ []
    b.IsAcyclic ∧ b.get? ⟨"put", "N"⟩ = none ∧
      (b.substitute (.param "put" "N" sinkParameter)).erasure = "java.lang.Object" ∧
      (b.substitute sinkParameter).erasure = "java.lang.String" ∧
      (⟨"put", .of ["java.lang.Object"] false⟩ : Prototype) ∈ c.overridableOperations ∧
      (⟨"put", .of ["java.lang.String"] false⟩ : Prototype) ∉ c.overridableOperations := by
  intro b c
  have hunbound := get?_unbound_boundedSink sinkParameter
  have hparameter : b.get? ⟨"G", "T"⟩ = some (.named "java.lang.String") := by
    rw [get?_typeBindings_boundedSink]
    rfl
  refine ⟨isAcyclic_boundedSink _, hunbound, ?_, ?_, ?_, ?_⟩
  · rw [TypeBindings.substitute_of_next?_eq_none hunbound]
    rfl
  · rw [sinkParameter, TypeBindings.substitute_param_of_named hparameter]
    rfl
  · rw [mem_overridableOperations_boundedSink_iff]
    rfl
  · rw [mem_overridableOperations_boundedSink_iff]
    decide

end DeclarationStore

end ActionSignatures
