/-
**What an extension point binds.**

A super-type reference with type arguments binds the type parameters of the declaration that it
leads to, position by position.  This module describes what is found for a type parameter among the
bindings of one extension point, and among those of several: a reference binds type parameters of
its own target only, so that the extension points of other declarations do not count.

Main definitions:

* `ActionSignatures.TypeRef.arguments` — the type arguments of a reference;
* `ActionSignatures.TypeDeclaration.paramKeys` — the identities of the type parameters declared.

Main results:

* `ActionSignatures.TypeDeclaration.argumentBindings_eq` — the bindings of an extension point pair
  type parameters with arguments;
* `ActionSignatures.map_lookup_zip`, `ActionSignatures.exists_lookup_zip` — what is found among
  pairs;
* `ActionSignatures.lookup_flatMap_of_ne` — lists without the key do not count.
-/

import ActionSignatures.Proofs.Substitution.Expansion
import ActionSignatures.Proofs.Substitution.Parameters
import Mathlib.Data.List.Nodup

set_option relaxedAutoImplicit false
set_option autoImplicit false

namespace ActionSignatures

/-! ### Looking up among pairs -/

section

variable {κ α β : Type} [DecidableEq κ]

/-- What is found is among the pairs. -/
theorem mem_of_lookup {l : List (κ × α)} {k : κ} {v : α} (h : l.lookup k = some v) :
    (k, v) ∈ l := by
  obtain ⟨before, after, rfl, _⟩ := List.lookup_eq_some_iff.1 h
  exact List.mem_append_right before List.mem_cons_self

/-- Where there is a value for every key, one is found for each of them. -/
theorem exists_lookup_zip {ks : List κ} {vs : List α} (hlength : vs.length = ks.length) {k : κ}
    (hk : k ∈ ks) : ∃ v, (ks.zip vs).lookup k = some v := by
  refine Option.ne_none_iff_exists'.1 fun hnone => ?_
  rw [List.lookup_eq_none_iff] at hnone
  obtain ⟨i, hi, rfl⟩ := List.getElem_of_mem hk
  have hvalue : i < vs.length := hlength ▸ hi
  have hpair : (ks[i], vs[i]) ∈ ks.zip vs := by
    rw [← List.getElem_zip (h := by rw [List.length_zip]; omega)]
    exact List.getElem_mem _
  simpa using hnone _ hpair

/-- Where the keys are different, the values are found in their order. -/
theorem map_lookup_zip {ks : List κ} {vs : List α} (hnodup : ks.Nodup)
    (hlength : vs.length = ks.length) : ks.map (fun k => (ks.zip vs).lookup k) = vs.map some := by
  induction ks generalizing vs with
  | nil =>
      obtain rfl := List.length_eq_zero_iff.1 hlength
      rfl
  | cons k ks ih =>
      obtain ⟨v, vs, rfl⟩ := List.exists_cons_of_length_eq_add_one hlength
      obtain ⟨hk, hnodup⟩ := List.nodup_cons.1 hnodup
      rw [List.map_cons, List.map_cons, List.zip_cons_cons, List.lookup_cons_self,
        ← ih hnodup (Nat.succ.inj hlength)]
      refine congrArg (some v :: ·) (List.map_congr_left fun l hl => ?_)
      have hne : (l == k) = false := beq_eq_false_iff_ne.2 fun heq => hk (heq ▸ hl)
      rw [List.lookup_cons, hne]

/-- **Lists without the key do not count** where one looks it up in several lists. -/
theorem lookup_flatMap_of_ne {l : List β} {f : β → List (κ × α)} {k : κ}
    (h : ∀ x ∈ l, (f x).lookup k = none) : (l.flatMap f).lookup k = none := by
  induction l with
  | nil => rfl
  | cons x l ih =>
      rw [List.flatMap_cons, List.lookup_append, h x List.mem_cons_self, Option.none_or]
      exact ih fun y hy => h y (List.mem_cons_of_mem x hy)

end

/-! ### Extension points -/

/-- **The type arguments of a reference**; a reference that is not generic has none. -/
def TypeRef.arguments : TypeRef → List TypeRef
  | .generic _ args => args
  | _ => []

namespace TypeDeclaration

/-- The identities of the type parameters that a declaration declares. -/
def paramKeys (d : TypeDeclaration) : List TypeParamKey :=
  d.typeParams.map fun p => ⟨d.name, p.name⟩

variable {d : TypeDeclaration}

theorem owner_of_mem_paramKeys {k : TypeParamKey} (h : k ∈ d.paramKeys) : k.owner = d.name := by
  obtain ⟨p, _, rfl⟩ := List.mem_map.1 h
  rfl

theorem length_paramKeys (d : TypeDeclaration) : d.paramKeys.length = d.typeParams.length :=
  List.length_map _

/-- The identities come from the names alone. -/
theorem paramKeys_eq_map (d : TypeDeclaration) :
    d.paramKeys = (d.typeParams.map (·.name)).map (TypeParamKey.mk d.name) :=
  (List.map_map ..).symm

/-- Type parameters of different names have different identities. -/
theorem nodup_paramKeys (h : (d.typeParams.map (·.name)).Nodup) : d.paramKeys.Nodup := by
  rw [paramKeys_eq_map]
  exact List.Nodup.map (fun _ _ heq => (TypeParamKey.mk.inj heq).2) h

/-- With an argument for each of its type parameters, one is found for every one of them. -/
theorem exists_lookup_zip_paramKeys {args : List TypeRef} {k : TypeParamKey}
    (hlength : args.length = d.typeParams.length) (hk : k ∈ d.paramKeys) :
    ∃ u, (d.paramKeys.zip args).lookup k = some u :=
  exists_lookup_zip (hlength.trans d.length_paramKeys.symm) hk

/-- Among pairs for the type parameters of a declaration no other one is found. -/
theorem lookup_zip_paramKeys_of_ne {k : TypeParamKey} (h : k.owner ≠ d.name) (args : List TypeRef) :
    (d.paramKeys.zip args).lookup k = none := by
  rw [List.lookup_eq_none_iff]
  rintro ⟨l, v⟩ hl
  rw [bne_iff_ne]
  rintro rfl
  exact h (owner_of_mem_paramKeys (List.of_mem_zip hl).1)

/-- **The bindings of an extension point** pair type parameters with arguments. -/
theorem argumentBindings_eq (d : TypeDeclaration) (reference : TypeRef) :
    d.argumentBindings reference = d.paramKeys.zip reference.arguments := by
  cases reference with
  | generic base args =>
      rw [paramKeys_eq_map, List.zip_map_left]
      rfl
  | named name => exact List.zip_nil_right.symm
  | param owner name bound => exact List.zip_nil_right.symm
  | array element => exact List.zip_nil_right.symm

end TypeDeclaration

namespace DeclarationStore

variable {s : DeclarationStore} {excludes : String → Bool} {reference : TypeRef} {i : DeclId}
  {d : TypeDeclaration}

/-- A reference to a declaration leads there, unless the name is passed over. -/
theorem target?_of_ancestor? (h : s.ancestor? reference = some (i, d))
    (hopen : excludes d.name = false) : s.target? excludes reference = some i := by
  obtain ⟨hname, hid⟩ := declaredName?_of_ancestor? h
  exact target?_eq_some_iff.2 ⟨d.name, hname, hopen, hid⟩

theorem isObject_eq_false_iff {name : String} :
    WellKnown.isObject name = false ↔ name ≠ WellKnown.object :=
  beq_eq_false_iff_ne

/-- Where the root of the class hierarchy is not registered, the walk for the bindings follows every
reference that leads somewhere. -/
theorem target?_isObject (hobject : s.idOf? WellKnown.object = none) (reference : TypeRef) :
    s.target? WellKnown.isObject reference = (s.ancestor? reference).map (·.1) := by
  by_cases hx : reference.declaredName?.any WellKnown.isObject = true
  · have hname := BindingWalk.declaredName?_eq_object_iff.2 hx
    have hnone : s.resolveType? reference = none := by
      rw [resolveType?, hname, Option.bind_some, hobject]
    rw [target?_of_excluded hx, ancestor?_eq_none_iff.2 hnone, Option.map_none]
  · exact target?_of_not_excluded hx

/-- A reference binds type parameters of the declaration that it mentions only. -/
theorem lookup_pointBindings_of_ne {k : TypeParamKey}
    (h : reference.declaredName? ≠ some k.owner) : (s.pointBindings reference).lookup k = none := by
  cases htarget : s.target? WellKnown.isObject reference with
  | none => rw [pointBindings_of_target?_eq_none htarget, List.lookup_nil]
  | some i =>
      obtain ⟨name, hname, _, hid⟩ := target?_eq_some_iff.1 htarget
      obtain ⟨d, hd, rfl⟩ := get?_of_idOf? hid
      rw [pointBindings_of_target? htarget hd, TypeDeclaration.argumentBindings_eq]
      refine TypeDeclaration.lookup_zip_paramKeys_of_ne (fun howner => h ?_) reference.arguments
      rw [hname, howner]

/-- **Every extension point supplies its arguments**: a super-type reference that leads to a
declaration has one type argument for each of its type parameters. -/
def SuppliesArguments (s : DeclarationStore) : Prop :=
  ∀ d ∈ s.declarations, ∀ t ∈ d.supertypes, ∀ a ∈ s.ancestor? t,
    t.arguments.length = a.2.typeParams.length

instance : Decidable s.SuppliesArguments :=
  inferInstanceAs (Decidable (∀ d ∈ s.declarations, _))

theorem mem_declarations_of_get? (h : s.get? i = some d) : d ∈ s.declarations := by
  rw [get?] at h
  split at h
  · cases h
  · exact Array.mem_of_getElem? h

end DeclarationStore

end ActionSignatures
