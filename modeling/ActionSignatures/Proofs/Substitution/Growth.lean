/-
**How far substitution makes a type grow.**

A type parameter is replaced by a type that may mention type parameters again, also the one that it
replaces.  So substitution goes on with types that are no parts of the one that it began with, and
what ends it on cyclic bindings is the bound on how many replaced type parameters lie inside one
another.  This module writes the recursion down as rules and proves that every type has an
evaluation under them.  Each replacement puts a type that something is bound to in the place of a
leaf, which bounds the height of the result.

Main definitions:

* `ActionSignatures.TypeRef.height` — **the nesting height of a type**;
* `ActionSignatures.TypeBindings.maxHeight` — the largest height of a type that something is bound
  to;
* `ActionSignatures.TypeBindings.Evaluates` — **the recursion of substitution**, as rules.

Main results:

* `ActionSignatures.TypeRef.height_mapParams_le` — replacing leaves adds at most the height of the
  replacements;
* `ActionSignatures.TypeBindings.evaluates_iff` — **the recursion comes to an end**, with one result;
* `ActionSignatures.TypeBindings.height_substituteWithin_le` — the height, by how many replaced type
  parameters may lie inside one another;
* `ActionSignatures.TypeBindings.substitute_ends_within_height` — **substitution ends, with a bounded
  height**.
-/

import ActionSignatures.Proofs.Substitution.Acyclic
import Mathlib.Data.List.Forall2

set_option relaxedAutoImplicit false
set_option autoImplicit false

namespace ActionSignatures

/-! ### Heights -/

namespace TypeRef

mutual

/-- **The nesting height of a type**: how many arrays and generic types lie inside one another.  A
type parameter is a leaf, whatever its bound is. -/
def height : TypeRef → Nat
  | .named _ => 0
  | .param .. => 0
  | .array element => element.height + 1
  | .generic _ args => maxHeight args + 1

/-- The largest height of some types, and zero where there are none. -/
def maxHeight : List TypeRef → Nat
  | [] => 0
  | t :: ts => max t.height (maxHeight ts)

end

@[simp] theorem height_named (name : String) : (named name).height = 0 := rfl

@[simp] theorem height_param (owner name : String) (bound : Option TypeRef) :
    (param owner name bound).height = 0 := rfl

@[simp] theorem height_array (element : TypeRef) : (array element).height = element.height + 1 :=
  rfl

@[simp] theorem height_generic (base : String) (args : List TypeRef) :
    (generic base args).height = maxHeight args + 1 := rfl

/-- The largest height is the least number that no height exceeds. -/
theorem maxHeight_le_iff {ts : List TypeRef} {n : Nat} :
    maxHeight ts ≤ n ↔ ∀ t ∈ ts, t.height ≤ n := by
  induction ts with
  | nil => simp [maxHeight]
  | cons t ts ih => rw [maxHeight, Nat.max_le, ih, List.forall_mem_cons]

theorem height_le_maxHeight {ts : List TypeRef} {t : TypeRef} (h : t ∈ ts) :
    t.height ≤ maxHeight ts :=
  maxHeight_le_iff.1 (Nat.le_refl _) t h

/-- **Replacing leaves adds at most the height of the replacements.** -/
theorem height_mapParams_le {f : TypeRef → TypeRef} {t : TypeRef} {n : Nat}
    (h : ∀ p ∈ t.params, (f p).height ≤ n) : (t.mapParams f).height ≤ t.height + n := by
  induction t using rec_outside_bounds with
  | named name => exact Nat.zero_le _
  | param owner name bound =>
      rw [height_param, Nat.zero_add]
      exact h _ List.mem_cons_self
  | array element ih =>
      have := ih h
      rw [mapParams_array, height_array, height_array]
      omega
  | generic base args ih =>
      rw [mapParams_generic, height_generic, height_generic, Nat.succ_add]
      refine Nat.succ_le_succ (maxHeight_le_iff.2 fun r hr => ?_)
      obtain ⟨arg, harg, rfl⟩ := List.mem_map.1 hr
      have := ih arg harg fun p hp => h p (mem_params_generic harg hp)
      have := height_le_maxHeight harg
      omega

end TypeRef

namespace TypeBindings

/-! ### The recursion of substitution -/

/-- **The recursion of substitution**, as rules: with room for some replaced type parameters inside
one another, a type becomes another one.  Without room it stays.  A type parameter that resolves to
another type is replaced, and what it resolves to is gone through with less room. -/
inductive Evaluates (b : TypeBindings) : Nat → TypeRef → TypeRef → Prop
  | exhausted (t : TypeRef) : Evaluates b 0 t t
  | named (n : Nat) (name : String) : Evaluates b (n + 1) (.named name) (.named name)
  | keep {n : Nat} {owner name : String} {bound : Option TypeRef}
      (same : b.resolve (.param owner name bound) = .param owner name bound) :
      Evaluates b (n + 1) (.param owner name bound) (.param owner name bound)
  | replace {n : Nat} {owner name : String} {bound : Option TypeRef} {r : TypeRef}
      (other : b.resolve (.param owner name bound) ≠ .param owner name bound)
      (rest : Evaluates b n (b.resolve (.param owner name bound)) r) :
      Evaluates b (n + 1) (.param owner name bound) r
  | array {n : Nat} {element r : TypeRef} (inside : Evaluates b (n + 1) element r) :
      Evaluates b (n + 1) (.array element) (.array r)
  | generic {n : Nat} {base : String} {args rs : List TypeRef} (length : args.length = rs.length)
      (inside : ∀ p ∈ args.zip rs, Evaluates b (n + 1) p.1 p.2) :
      Evaluates b (n + 1) (.generic base args) (.generic base rs)

variable {b : TypeBindings}

/-- A list is the image of another one where they correspond place by place. -/
theorem map_eq_iff_forall_zip {α β : Type} {f : α → β} {l : List α} {m : List β} :
    l.map f = m ↔ l.length = m.length ∧ ∀ p ∈ l.zip m, f p.1 = p.2 := by
  have hplaces : l.map f = m ↔ List.Forall₂ (fun a c => f a = c) l m := by
    rw [← List.forall₂_map_left_iff, List.forall₂_eq_eq_eq]
  rw [hplaces, List.forall₂_iff_zip, Prod.forall]

/-- A type evaluates to nothing but what substitution gives. -/
theorem Evaluates.substituteWithin_eq {n : Nat} {t r : TypeRef} (h : b.Evaluates n t r) :
    b.substituteWithin n t = r := by
  induction h with
  | exhausted t => rfl
  | named n name => rfl
  | keep same => rw [substituteWithin_succ_param, if_pos same]
  | replace other rest ih => rw [substituteWithin_succ_param, if_neg other, ih]
  | array inside ih =>
      rw [substituteWithin_succ, TypeRef.mapParams_array, ← substituteWithin_succ, ih]
  | generic length inside ih =>
      rw [substituteWithin_succ, TypeRef.mapParams_generic,
        ← funext (substituteWithin_succ (b := b) _)]
      exact congrArg _ (map_eq_iff_forall_zip.2 ⟨length, ih⟩)

/-- **What substitution gives is reached by the rules.** -/
theorem evaluates_substituteWithin (b : TypeBindings) (n : Nat) (t : TypeRef) :
    b.Evaluates n t (b.substituteWithin n t) := by
  -- what replaces a type parameter is no part of it, but there is less room for what it becomes
  induction n generalizing t with
  | zero => exact .exhausted t
  | succ n ih =>
      induction t using TypeRef.rec_outside_bounds with
      | named name => exact .named n name
      | param owner name bound =>
          rw [substituteWithin_succ_param]
          split
          · rename_i same
            exact .keep same
          · rename_i other
            exact .replace other (ih _)
      | array element ihelement =>
          rw [substituteWithin_succ, TypeRef.mapParams_array, ← substituteWithin_succ]
          exact .array ihelement
      | generic base args ihargs =>
          rw [substituteWithin_succ, TypeRef.mapParams_generic,
            ← funext (substituteWithin_succ (b := b) n)]
          obtain ⟨length, hplaces⟩ := map_eq_iff_forall_zip.1 (Eq.refl
            (args.map (b.substituteWithin (n + 1))))
          refine .generic length fun p hp => ?_
          rw [← hplaces p hp]
          exact ihargs p.1 (List.of_mem_zip hp).1

/-- **The recursion comes to an end**, whatever the bindings are, and it has one result. -/
theorem evaluates_iff {n : Nat} {t r : TypeRef} :
    b.Evaluates n t r ↔ b.substituteWithin n t = r := by
  constructor
  · exact Evaluates.substituteWithin_eq
  · rintro rfl
    exact b.evaluates_substituteWithin n t

/-! ### The height of the result -/

/-- The largest height of a type that something is bound to. -/
def maxHeight (b : TypeBindings) : Nat := TypeRef.maxHeight b.values

theorem height_le_maxHeight_of_get? {k : TypeParamKey} {u : TypeRef} (h : b.get? k = some u) :
    u.height ≤ b.maxHeight :=
  TypeRef.height_le_maxHeight (List.mem_map.2 ⟨(k, u), mem_entries_of_get? h, rfl⟩)

/-- Following bindings leads to a type that something is bound to, or nowhere. -/
theorem chase_eq_self_or_exists_get? (b : TypeBindings) (n : Nat) (t : TypeRef) :
    b.chase n t = t ∨ ∃ k, b.get? k = some (b.chase n t) := by
  induction n generalizing t with
  | zero => exact .inl rfl
  | succ n ih =>
      cases hu : b.next? t with
      | none => exact .inl (chase_of_next?_eq_none hu _)
      | some u =>
          obtain ⟨k, -, hget⟩ := next?_eq_some_iff.1 hu
          rw [chase_succ_of_next? hu]
          refine .inr ((ih u).elim (fun hsame => ?_) id)
          exact ⟨k, hsame.symm ▸ hget⟩

/-- A type parameter resolves to a type no higher than those that something is bound to. -/
theorem height_resolve_param_le (b : TypeBindings) (owner name : String) (bound : Option TypeRef) :
    (b.resolve (.param owner name bound)).height ≤ b.maxHeight := by
  rcases b.chase_eq_self_or_exists_get? (b.size + 1) (.param owner name bound) with
    hsame | ⟨k, hget⟩
  · rw [resolve, hsame, TypeRef.height_param]
    exact Nat.zero_le _
  · exact height_le_maxHeight_of_get? hget

/-- **The height after substitution**: every replaced type parameter inside another one adds at most
the largest height of a type that something is bound to. -/
theorem height_substituteWithin_le (b : TypeBindings) (n : Nat) (t : TypeRef) :
    (b.substituteWithin n t).height ≤ t.height + n * b.maxHeight := by
  induction n generalizing t with
  | zero => exact Nat.le_add_right _ _
  | succ n ih =>
      rw [substituteWithin_succ]
      refine TypeRef.height_mapParams_le fun p hp => ?_
      obtain ⟨owner, name, bound, rfl⟩ := TypeRef.exists_eq_param_of_mem_params hp
      rw [substituteWithin_succ_param]
      split
      · exact Nat.zero_le _
      · calc (b.substituteWithin n (b.resolve (.param owner name bound))).height
            ≤ (b.resolve (.param owner name bound)).height + n * b.maxHeight := ih _
          _ ≤ b.maxHeight + n * b.maxHeight :=
            Nat.add_le_add_right (b.height_resolve_param_le owner name bound) _
          _ = (n + 1) * b.maxHeight := by rw [Nat.succ_mul, Nat.add_comm]

/-- **Substitution ends, with a bounded height.**  Whatever the bindings are, cyclic ones included,
the recursion of substitution comes to an end at the type that it gives and at no other one.  Its
height is at most that of the type that it began with, and as often the largest height of a type that
something is bound to as there are bindings, and once more. -/
theorem substitute_ends_within_height (b : TypeBindings) (t : TypeRef) :
    (∀ r, b.Evaluates (b.size + 1) t r ↔ r = b.substitute t) ∧
      (b.substitute t).height ≤ t.height + (b.size + 1) * b.maxHeight :=
  ⟨fun _ => evaluates_iff.trans eq_comm, b.height_substituteWithin_le (b.size + 1) t⟩

/-- Where a type parameter is bound to the lists of itself, the height is as large as it may be. -/
example :
    let b := FirstMap.empty.insert ⟨"A", "T"⟩ (.generic "List" [.param "A" "T" none])
    (substitute b (.param "A" "T" none)).height = 0 + (b.size + 1) * maxHeight b := by
  decide

end TypeBindings

end ActionSignatures
