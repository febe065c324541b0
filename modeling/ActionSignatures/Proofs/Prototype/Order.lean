/-
**The order of prototypes.**

Prototypes are the keys under which overriding operations meet and collisions are found, so that the
comparison of two of them has to be an order that takes no two for the same.  It goes by the name,
then by the erased types one after another, and by the variadic mark where these are the same.  A
valid signature has its variadic parameter at the end, and so the single mark of a prototype says for
every position whether the parameter there is variadic.

Main definitions:

* `ActionSignatures.IsTotalOrder` — what a comparison needs for the keys of a map;
* `ActionSignatures.ParameterTypes.Precedes`, `ActionSignatures.Prototype.Precedes` — **the order in
  words**.

Main results:

* `ActionSignatures.Prototype.compare_eq_lt_iff` — the comparison is that order;
* `ActionSignatures.ParameterTypes.precedes_of_isPrefix` — a list comes before its proper extensions;
* `ActionSignatures.ParameterTypes.not_between`, `ActionSignatures.Prototype.not_between` — **nothing
  lies between** a list and the variadic list of its types;
* `ActionSignatures.Signature.parameterTypes_eq_iff` — **when two signatures have the same parameter
  types**;
* `ActionSignatures.Prototype.comparison_decides_identity` — **order and identity** of prototypes.
-/

import ActionSignatures.Proofs.Signature.Validity
import Mathlib.Data.String.Basic

set_option relaxedAutoImplicit false
set_option autoImplicit false

namespace ActionSignatures

/-! ### Total orders -/

/-- **A comparison that is a total order**, and takes only a value itself for the same. -/
structure IsTotalOrder {α : Type} (cmp : α → α → Ordering) : Prop where
  refl : ∀ a, (cmp a a).isLE = true
  antisymm : ∀ a b, (cmp a b).isLE = true → (cmp b a).isLE = true → a = b
  trans : ∀ a b c, (cmp a b).isLE = true → (cmp b c).isLE = true → (cmp a c).isLE = true
  total : ∀ a b, (cmp a b).isLE = true ∨ (cmp b a).isLE = true
  eq_iff : ∀ a b, cmp a b = .eq ↔ a = b
  swap : ∀ a b, cmp b a = (cmp a b).swap

theorem isTotalOrder_of_lawful {α : Type} {cmp : α → α → Ordering} [Std.TransCmp cmp]
    [Std.LawfulEqCmp cmp] : IsTotalOrder cmp where
  refl a := by
    have hself : cmp a a = .eq := Std.ReflCmp.compare_self
    rw [hself]
    rfl
  antisymm a b hab hba := by
    have hswap : cmp b a = (cmp a b).swap := Std.OrientedCmp.eq_swap
    have heq : cmp a b = .eq := by
      rw [hswap] at hba
      cases h : cmp a b with
      | lt => simp [h] at hba
      | eq => rfl
      | gt => simp [h] at hab
    exact Std.LawfulEqCmp.compare_eq_iff_eq.1 heq
  trans a b c := Std.TransCmp.isLE_trans
  total a b := by
    have hswap : cmp b a = (cmp a b).swap := Std.OrientedCmp.eq_swap
    rw [hswap]
    cases cmp a b <;> decide
  eq_iff a b := Std.LawfulEqCmp.compare_eq_iff_eq
  swap a b := Std.OrientedCmp.eq_swap

/-! ### The order in words -/

/-- Lists are compared as words in a dictionary are. -/
theorem compare_list_eq_lt_iff {α : Type} [LinearOrder α] {xs ys : List α} :
    compare xs ys = .lt ↔ xs < ys := by
  induction xs generalizing ys with
  | nil => cases ys <;> simp
  | cons x xs ih =>
      cases ys with
      | nil => simp
      | cons y ys =>
          rw [List.compare_cons_cons, Ordering.then_eq_lt, compare_lt_iff_lt, compare_eq_iff_eq, ih,
            List.cons_lt_cons_iff]

namespace ParameterTypes

/-- **The order of parameter types in words**: the erased types are compared one after another, the
end of a list coming before any type; of two lists with the same types the one that is not variadic
comes first. -/
def Precedes (s t : ParameterTypes) : Prop :=
  s.types < t.types ∨ s.types = t.types ∧ s.varargs = false ∧ t.varargs = true

theorem compare_eq_lt_iff {s t : ParameterTypes} : compare s t = .lt ↔ s.Precedes t := by
  have hmark : compare s.varargs t.varargs = .lt ↔ s.varargs = false ∧ t.varargs = true := by
    cases s.varargs <;> cases t.varargs <;> decide
  rw [compare_def, Ordering.then_eq_lt, compare_list_eq_lt_iff, Std.compare_eq_iff_eq, hmark,
    Precedes]

/-- A list comes before every list that its types begin, whatever the marks. -/
theorem precedes_of_isPrefix {s t : ParameterTypes} (h : s.types <+: t.types)
    (hne : s.types ≠ t.types) : s.Precedes t := by
  refine .inl (List.lt_iff_exists.2 (.inl ⟨List.prefix_iff_eq_take.1 h, ?_⟩))
  exact Nat.lt_of_le_of_ne h.length_le fun hlength => hne (h.eq_of_length hlength)

/-- **Nothing lies between** a list that is not variadic and the variadic list of its types. -/
theorem not_between {types : List ErasedType} {t : ParameterTypes}
    (hbefore : (of types false).Precedes t) : ¬t.Precedes (of types true) := by
  have hplain : (of types false).types = types := rfl
  have hvariadic : (of types true).types = types := rfl
  rw [Precedes, hplain] at hbefore
  rw [Precedes, hvariadic]
  rintro (hlt | ⟨heq, hmark, -⟩)
  · obtain hlt' | ⟨heq, -⟩ := hbefore
    · exact lt_asymm hlt hlt'
    · exact absurd hlt (heq ▸ lt_irrefl _)
  · -- the types are the same, so that the mark of `t` would have to be both
    subst heq
    obtain hlt | ⟨-, -, hmark'⟩ := hbefore
    · exact lt_irrefl _ hlt
    · rw [hmark] at hmark'
      cases hmark'

end ParameterTypes

namespace Prototype

/-- **The order of prototypes in words**: by name, and by parameter types where the name is the
same. -/
def Precedes (p q : Prototype) : Prop :=
  p.name < q.name ∨ p.name = q.name ∧ p.params.Precedes q.params

/-- The comparison is the order in words. -/
theorem compare_eq_lt_iff {p q : Prototype} : compare p q = .lt ↔ p.Precedes q := by
  rw [compare_def, Ordering.then_eq_lt, compare_lt_iff_lt, Std.compare_eq_iff_eq,
    ParameterTypes.compare_eq_lt_iff, Precedes]

/-- **Nothing lies between** a prototype that is not variadic and the variadic one of its types. -/
theorem not_between {name : String} {types : List ErasedType} {p : Prototype}
    (hbefore : Precedes ⟨name, .of types false⟩ p) : ¬p.Precedes ⟨name, .of types true⟩ := by
  rintro (hlt | ⟨heq, hbehind⟩)
  · obtain hlt' | ⟨heq, -⟩ := hbefore
    · exact lt_asymm hlt hlt'
    · exact absurd hlt (heq ▸ lt_irrefl _)
  · obtain hlt | ⟨-, hbefore⟩ := hbefore
    · exact absurd hlt (heq ▸ lt_irrefl _)
    · exact ParameterTypes.not_between hbefore hbehind

end Prototype

/-! ### The parameter types of signatures -/

namespace Signature

variable {s t : Signature}

/-- **Which parameter is variadic**: the last one of a signature whose parameter types are. -/
theorem isVarargs_getElem?_iff {i : Nat} {p : Parameter} (hp : s.params[i]? = some p) :
    p.isVarargs = true ↔ i + 1 = s.length ∧ s.isVarargs = true := by
  have hlast := variadicLast_iff_getElem?.1 s.variadicLast
  rw [isVarargs_eq_true_iff]
  constructor
  · intro hvariadic
    exact ⟨(hlast i p hp hvariadic).1, p, List.mem_of_getElem? hp, hvariadic⟩
  · rintro ⟨hend, q, hq, hvariadic⟩
    obtain ⟨j, hj⟩ := List.getElem?_of_mem hq
    have hplace : j + 1 = i + 1 := (hlast j q hj hvariadic).1.trans hend.symm
    obtain rfl := Nat.succ.inj hplace
    obtain rfl := Option.some.inj (hj.symm.trans hp)
    exact hvariadic

/-- A variadic mark stands in another signature as well, if the marks are the same at all positions. -/
theorem isVarargs_of_forall (hlength : s.length = t.length)
    (h : ∀ (i : Nat) (p q : Parameter), s.params[i]? = some p → t.params[i]? = some q →
      p.isVarargs = q.isVarargs) (hvariadic : s.isVarargs = true) : t.isVarargs = true := by
  obtain ⟨p, hp, hmark⟩ := s.isVarargs_eq_true_iff.1 hvariadic
  obtain ⟨i, hi, rfl⟩ := List.getElem_of_mem hp
  have hi' : i < t.params.length := Nat.lt_of_lt_of_eq hi hlength
  have hsame := h i _ _ (List.getElem?_eq_getElem hi) (List.getElem?_eq_getElem hi')
  exact t.isVarargs_eq_true_iff.2 ⟨_, List.getElem_mem hi', hsame ▸ hmark⟩

/-- **When two signatures have the same parameter types**: they have as many parameters, and at every
position the same erased type and the same variadic mark. -/
theorem parameterTypes_eq_iff :
    s.parameterTypes = t.parameterTypes ↔ s.length = t.length ∧
      ∀ (i : Nat) (p q : Parameter), s.params[i]? = some p → t.params[i]? = some q →
        p.type.erasure = q.type.erasure ∧ p.isVarargs = q.isVarargs := by
  constructor
  · intro h
    have htypes : s.params.map (·.type.erasure) = t.params.map (·.type.erasure) :=
      congrArg ParameterTypes.types h
    have hmark : s.isVarargs = t.isVarargs := congrArg ParameterTypes.varargs h
    have hlength : s.length = t.length := by simpa [length] using congrArg List.length htypes
    refine ⟨hlength, fun i p q hp hq => ⟨?_, ?_⟩⟩
    · have hplace := congrArg (·[i]?) htypes
      simpa [hp, hq] using hplace
    · rw [Bool.eq_iff_iff, isVarargs_getElem?_iff hp, isVarargs_getElem?_iff hq, hlength, hmark]
  · rintro ⟨hlength, hplaces⟩
    have htypes : s.params.map (·.type.erasure) = t.params.map (·.type.erasure) := by
      refine List.ext_getElem (by simpa [length] using hlength) fun i hi hi' => ?_
      rw [List.length_map] at hi hi'
      rw [List.getElem_map, List.getElem_map]
      exact (hplaces i _ _ (List.getElem?_eq_getElem hi) (List.getElem?_eq_getElem hi')).1
    have hmark : s.isVarargs = t.isVarargs := Bool.eq_iff_iff.2
      ⟨isVarargs_of_forall hlength fun i p q hp hq => (hplaces i p q hp hq).2,
        isVarargs_of_forall hlength.symm fun i p q hp hq => (hplaces i q p hq hp).2.symm⟩
    exact ParameterTypes.ext htypes hmark

end Signature

/-! ### Order and identity -/

namespace Prototype

/-- **Order and identity of prototypes.**  The comparison is a total order that takes only a
prototype itself for the same: by name, by the erased types with a proper prefix first, and by the
variadic mark.  Between a list and the variadic list of its types there is nothing, and a list comes
before all its proper extensions.  The prototypes of two signatures are the same exactly if the names
are, and at every position the erased types and the variadic marks; what the parameters are called
and which default values they have plays no part. -/
theorem comparison_decides_identity :
    IsTotalOrder (compare : Prototype → Prototype → Ordering) ∧
    (∀ p q : Prototype, compare p q = .lt ↔ p.Precedes q) ∧
    (∀ (name : String) (types : List ErasedType), types ≠ [] →
      compare (⟨name, .of types false⟩ : Prototype) ⟨name, .of types true⟩ = .lt ∧
        ∀ p : Prototype, ¬(compare ⟨name, .of types false⟩ p = .lt ∧
          compare p ⟨name, .of types true⟩ = .lt)) ∧
    (∀ (name : String) (s t : ParameterTypes), s.types <+: t.types → s.types ≠ t.types →
      compare (⟨name, s⟩ : Prototype) ⟨name, t⟩ = .lt) ∧
    (∀ (m n : String) (s t : Signature), compare (ofSignature m s) (ofSignature n t) = .eq ↔
      m = n ∧ s.length = t.length ∧
        ∀ (i : Nat) (p q : Parameter), s.params[i]? = some p → t.params[i]? = some q →
          p.type.erasure = q.type.erasure ∧ p.isVarargs = q.isVarargs) ∧
    (∀ (name : String) (s t : Signature),
      List.Forall₂ (fun p q => p.type = q.type ∧ p.isVarargs = q.isVarargs) s.params t.params →
        compare (ofSignature name s) (ofSignature name t) = .eq) := by
  have hidentity : ∀ (m n : String) (s t : Signature),
      compare (ofSignature m s) (ofSignature n t) = .eq ↔ m = n ∧ s.length = t.length ∧
        ∀ (i : Nat) (p q : Parameter), s.params[i]? = some p → t.params[i]? = some q →
          p.type.erasure = q.type.erasure ∧ p.isVarargs = q.isVarargs := by
    intro m n s t
    rw [Std.compare_eq_iff_eq, ofSignature, ofSignature, Prototype.mk.injEq,
      Signature.parameterTypes_eq_iff]
  refine ⟨isTotalOrder_of_lawful, fun p q => compare_eq_lt_iff, fun name types hne => ⟨?_, ?_⟩,
    fun name s t hprefix hne => ?_, hidentity, fun name s t h => ?_⟩
  · have hvariadic : (ParameterTypes.of types true).varargs = true := by
      simpa [ParameterTypes.of] using hne
    exact compare_eq_lt_iff.2 (.inr ⟨rfl, .inr ⟨rfl, rfl, hvariadic⟩⟩)
  · rintro p ⟨hbefore, hbehind⟩
    exact not_between (compare_eq_lt_iff.1 hbefore) (compare_eq_lt_iff.1 hbehind)
  · exact compare_eq_lt_iff.2 (.inr ⟨rfl, ParameterTypes.precedes_of_isPrefix hprefix hne⟩)
  · refine (hidentity name name s t).2 ⟨rfl, h.length_eq, fun i p q hp hq => ?_⟩
    obtain ⟨hi, rfl⟩ := List.getElem?_eq_some_iff.1 hp
    obtain ⟨hi', rfl⟩ := List.getElem?_eq_some_iff.1 hq
    obtain ⟨htype, hmark⟩ := (List.forall₂_iff_get.1 h).2 i hi hi'
    exact ⟨congrArg TypeRef.erasure htype, hmark⟩

/-- An action with a text and any number of sizes. -/
def printSizes : Signature where
  params :=
    [{ name := "text", type := .named "java.lang.String" },
      { name := "sizes", type := .primitive .int, isVarargs := true }]
  variadicLast := ⟨nofun, fun _ => ⟨rfl, rfl⟩, trivial⟩

/-- The same action with other names and with a default value for the text. -/
def printSizesRenamed : Signature where
  params :=
    [Parameter.withDefault { name := "line", type := .named "java.lang.String" } (.source "empty"),
      { name := "rest", type := .primitive .int, isVarargs := true }]
  variadicLast := ⟨nofun, fun _ => ⟨rfl, rfl⟩, trivial⟩

/-- Names and default values make no difference, and the list of one more type comes behind both the
plain and the variadic list. -/
theorem comparison_printSizes :
    (["int"] : List ErasedType) ≠ [] ∧
      (∀ p : Prototype, ¬(compare ⟨"print", .of ["int"] false⟩ p = .lt ∧
        compare p ⟨"print", .of ["int"] true⟩ = .lt)) ∧
      (["int"] : List ErasedType) <+: ["int", "float"] ∧
      (["int"] : List ErasedType) ≠ ["int", "float"] ∧
      compare (⟨"print", .of ["int"] true⟩ : Prototype) ⟨"print", .of ["int", "float"] false⟩ = .lt ∧
      List.Forall₂ (fun p q => p.type = q.type ∧ p.isVarargs = q.isVarargs) printSizes.params
        printSizesRenamed.params ∧
      compare (ofSignature "print" printSizes) (ofSignature "print" printSizesRenamed) = .eq := by
  obtain ⟨-, -, hbetween, hprefix, -, hnames⟩ := comparison_decides_identity
  have hproper : (["int"] : List ErasedType) <+: ["int", "float"] := by decide
  have hsame : List.Forall₂ (fun p q => p.type = q.type ∧ p.isVarargs = q.isVarargs)
      printSizes.params printSizesRenamed.params := .cons ⟨rfl, rfl⟩ (.cons ⟨rfl, rfl⟩ .nil)
  exact ⟨by decide, (hbetween "print" ["int"] (by decide)).2, hproper, by decide,
    hprefix "print" (.of ["int"] true) (.of ["int", "float"] false) hproper (by decide), hsame,
    hnames "print" _ _ hsame⟩

end Prototype

end ActionSignatures
