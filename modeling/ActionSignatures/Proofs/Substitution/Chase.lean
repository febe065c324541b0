/-
**Following bindings to the end.**

Looking up a bound type parameter leads to the type that it is bound to, which may be a bound type
parameter again.  One lookup after another comes to an end at a type that is not bound, or goes on
for ever, where bindings are cyclic.  Resolution gives up after one lookup more than there are
bindings.  This module proves that it does so on cycles alone: a chase that comes to an end looks up
every type parameter at most once, so that it has at most as many lookups as there are bindings.

Main definitions:

* `ActionSignatures.TypeBindings.reached?` — the type that a number of lookups lead to;
* `ActionSignatures.TypeBindings.EndsAt` — **where following bindings comes to an end**.

Main results:

* `ActionSignatures.TypeBindings.reached?_congr` — a lookup sees the key of a type parameter only;
* `ActionSignatures.TypeBindings.le_size_of_reached?` — **a chase that ends is no longer than there
  are bindings**;
* `ActionSignatures.TypeBindings.resolve_eq_unbounded_chase` — **what a type resolves to**, on
  bindings of every kind.
-/

import ActionSignatures.Proofs.Substitution.Acyclic

set_option relaxedAutoImplicit false
set_option autoImplicit false

namespace ActionSignatures

namespace TypeBindings

/-! ### Lookups one after another -/

/-- The type that exactly `n` lookups lead to, if every type on the way to it is bound. -/
def reached? (b : TypeBindings) : Nat → TypeRef → Option TypeRef
  | 0, t => some t
  | n + 1, t => (b.next? t).bind (b.reached? n)

/-- **Following bindings from a type comes to an end** at a type that is not bound. -/
def EndsAt (b : TypeBindings) (t v : TypeRef) : Prop :=
  ∃ n, b.reached? n t = some v ∧ b.next? v = none

variable {b : TypeBindings} {t u v : TypeRef}

@[simp] theorem reached?_zero (b : TypeBindings) (t : TypeRef) : b.reached? 0 t = some t := rfl

theorem reached?_succ (b : TypeBindings) (n : Nat) (t : TypeRef) :
    b.reached? (n + 1) t = (b.next? t).bind (b.reached? n) := rfl

/-- Some lookups and then some more are that many lookups together. -/
theorem reached?_add (b : TypeBindings) (m n : Nat) (t : TypeRef) :
    b.reached? (m + n) t = (b.reached? m t).bind (b.reached? n) := by
  induction m generalizing t with
  | zero => rw [Nat.zero_add, reached?_zero, Option.bind_some]
  | succ m ih =>
      rw [Nat.succ_add, reached?_succ, reached?_succ, Option.bind_assoc]
      exact Option.bind_congr fun u _ => ih u

/-- After the end there is no further lookup. -/
theorem reached?_succ_of_next?_eq_none (h : b.next? v = none) (n : Nat) :
    b.reached? (n + 1) v = none := by
  rw [reached?_succ, h, Option.bind_none]

/-- **A lookup sees the key of a type parameter only**, not its bound. -/
theorem reached?_congr (h : t.paramKey? = u.paramKey?) (n : Nat) :
    b.reached? (n + 1) t = b.reached? (n + 1) u := by
  rw [reached?_succ, reached?_succ, next?, next?, h]

/-- Every type on the way has a key, which is bound. -/
theorem exists_key_of_reached? {m n : Nat} (h : b.reached? n t = some v) (hm : m < n) :
    ∃ w k, b.reached? m t = some w ∧ w.paramKey? = some k ∧ k ∈ b.boundKeys ∧
      b.reached? (n - m) w = some v := by
  obtain ⟨n, rfl⟩ : ∃ l, n = m + (l + 1) := ⟨n - m - 1, by omega⟩
  rw [reached?_add, Option.bind_eq_some_iff] at h
  obtain ⟨w, hw, hrest⟩ := h
  obtain ⟨u, hu, -⟩ := Option.bind_eq_some_iff.1 hrest
  obtain ⟨k, hk, hget⟩ := next?_eq_some_iff.1 hu
  refine ⟨w, k, hw, hk, mem_boundKeys_iff.2 (by simp [hget]), ?_⟩
  rw [Nat.add_sub_cancel_left]
  exact hrest

/-! ### A chase that ends looks up every key once -/

/-- Where following bindings ends, the types on the way have different keys: from two types with
the same key it would go on equally long. -/
theorem paramKey?_ne_of_reached? {m n l : Nat} (h : b.reached? l t = some v)
    (hend : b.next? v = none) (hmn : m < n) (hnl : n < l) :
    (b.reached? m t).bind TypeRef.paramKey? ≠ (b.reached? n t).bind TypeRef.paramKey? := by
  obtain ⟨w, j, hw, hj, -, hfar⟩ := exists_key_of_reached? h (Nat.lt_trans hmn hnl)
  obtain ⟨x, k, hx, hk, -, hnear⟩ := exists_key_of_reached? h hnl
  rw [hw, hx, Option.bind_some, Option.bind_some]
  intro hsame
  obtain ⟨c, hc⟩ : ∃ c, l - n = c + 1 := ⟨l - n - 1, by omega⟩
  obtain ⟨d, hd⟩ : ∃ d, l - m = (c + 1) + (d + 1) := ⟨n - m - 1, by omega⟩
  -- the end is reached from the first of them in fewer lookups than it takes
  rw [hc, ← reached?_congr hsame] at hnear
  rw [hd, reached?_add, hnear, Option.bind_some, reached?_succ_of_next?_eq_none hend] at hfar
  cases hfar

/-- **A chase that ends is no longer than there are bindings.** -/
theorem le_size_of_reached? {n : Nat} (h : b.reached? n t = some v) (hend : b.next? v = none) :
    n ≤ b.size := by
  have hbound : ∀ m ∈ Finset.range n,
      (b.reached? m t).bind TypeRef.paramKey? ∈ b.boundKeys.image some := by
    intro m hm
    obtain ⟨w, k, hw, hk, hmem, -⟩ := exists_key_of_reached? h (Finset.mem_range.1 hm)
    rw [hw, Option.bind_some, hk]
    exact Finset.mem_image_of_mem some hmem
  have hdifferent : Set.InjOn (fun m => (b.reached? m t).bind TypeRef.paramKey?)
      (Finset.range n : Set Nat) := by
    intro l hl m hm hsame
    rw [Finset.mem_coe, Finset.mem_range] at hl hm
    rcases Nat.lt_trichotomy l m with hless | heq | hgreater
    · exact absurd hsame (paramKey?_ne_of_reached? h hend hless hm)
    · exact heq
    · exact absurd hsame.symm (paramKey?_ne_of_reached? h hend hgreater hl)
  calc n = (Finset.range n).card := (Finset.card_range n).symm
    _ ≤ (b.boundKeys.image some).card := Finset.card_le_card_of_injOn _ hbound hdifferent
    _ ≤ b.boundKeys.card := Finset.card_image_le
    _ = b.size := card_boundKeys b

/-! ### Resolution and the chase -/

/-- With room for more lookups than there are, the chase stops at the end. -/
theorem chase_of_reached? {m n : Nat} (h : b.reached? n t = some v) (hend : b.next? v = none)
    (hle : n ≤ m) : b.chase m t = v := by
  induction n generalizing m t with
  | zero =>
      obtain rfl : t = v := Option.some.inj h
      exact chase_of_next?_eq_none hend m
  | succ n ih =>
      obtain ⟨u, hu, hrest⟩ := Option.bind_eq_some_iff.1 h
      obtain ⟨m, rfl⟩ : ∃ k, m = k + 1 := ⟨m - 1, by omega⟩
      rw [chase_succ_of_next? hu]
      exact ih hrest (Nat.le_of_succ_le_succ hle)

/-- Where all of its lookups lead somewhere, the chase stops after the last one. -/
theorem reached?_chase {n : Nat} (h : (b.reached? n t).isSome) :
    b.reached? n t = some (b.chase n t) := by
  induction n generalizing t with
  | zero => rfl
  | succ n ih =>
      obtain ⟨v, hv⟩ := Option.isSome_iff_exists.1 h
      obtain ⟨u, hu, hrest⟩ := Option.bind_eq_some_iff.1 hv
      rw [reached?_succ, hu, Option.bind_some, chase_succ_of_next? hu]
      exact ih (Option.isSome_iff_exists.2 ⟨v, hrest⟩)

/-- Where following bindings does not end, there is always one more lookup. -/
theorem isSome_reached?_of_not_endsAt (h : ∀ v, ¬b.EndsAt t v) (n : Nat) :
    (b.reached? n t).isSome := by
  induction n with
  | zero => rfl
  | succ n ih =>
      obtain ⟨v, hv⟩ := Option.isSome_iff_exists.1 ih
      have hbound : b.next? v ≠ none := fun hnone => h v ⟨n, hv, hnone⟩
      obtain ⟨w, hw⟩ := Option.ne_none_iff_exists'.1 hbound
      rw [reached?_add, hv, Option.bind_some, reached?_succ, hw]
      rfl

/-- Following bindings ends where it ends from a type on the way. -/
theorem EndsAt.of_reached? {n : Nat} (h : b.EndsAt u v) (hu : b.reached? n t = some u) :
    b.EndsAt t v := by
  obtain ⟨m, hv, hend⟩ := h
  refine ⟨n + m, ?_, hend⟩
  rw [reached?_add, hu, Option.bind_some, hv]

/-- **What a type resolves to.**  If following bindings comes to an end, after however many lookups,
the type resolves to this end, which resolves to itself.  Otherwise it resolves to the type that is
reached after one lookup more than there are bindings; this is a bound type parameter, from which
following bindings does not come to an end either. -/
theorem resolve_eq_unbounded_chase (b : TypeBindings) (t : TypeRef) :
    (∀ v, b.EndsAt t v → b.resolve t = v ∧ b.resolve (b.resolve t) = b.resolve t) ∧
      ((∀ v, ¬b.EndsAt t v) →
        (∃ k u, (b.resolve t).paramKey? = some k ∧ b.get? k = some u) ∧
          b.reached? (b.size + 1) t = some (b.resolve t) ∧
          ∀ v, ¬b.EndsAt (b.resolve t) v) := by
  constructor
  · rintro v ⟨n, hv, hend⟩
    have hresolve : b.resolve t = v :=
      chase_of_reached? hv hend (Nat.le_succ_of_le (le_size_of_reached? hv hend))
    rw [hresolve]
    exact ⟨rfl, resolve_of_next?_eq_none hend⟩
  · intro hgoes
    have hreached := reached?_chase (isSome_reached?_of_not_endsAt hgoes (b.size + 1))
    have hbound : b.next? (b.resolve t) ≠ none := fun hnone => hgoes _ ⟨_, hreached, hnone⟩
    obtain ⟨u, hu⟩ := Option.ne_none_iff_exists'.1 hbound
    obtain ⟨k, hk, hget⟩ := next?_eq_some_iff.1 hu
    exact ⟨⟨k, u, hk, hget⟩, hreached, fun v hv => hgoes v (hv.of_reached? hreached)⟩

/-! ### Three bindings in a line -/

/-- Bindings of three type parameters: the first is bound to the second, the second to the third, and
the third to some type. -/
def threeInLine (last : TypeRef) : TypeBindings :=
  ((FirstMap.empty.insert ⟨"C", "X"⟩ (.param "B" "Y" none)).insert ⟨"B", "Y"⟩
    (.param "A" "Z" none)).insert ⟨"A", "Z"⟩ last

/-- Where the line leads back to the second type parameter, following it from the first one does not
come to an end. -/
theorem not_endsAt_threeInLine (v : TypeRef) :
    ¬(threeInLine (.param "B" "Y" none)).EndsAt (.param "C" "X" none) v := by
  rintro ⟨n, hv, hend⟩
  -- a chase that ends would do so after three lookups, but the first four lead somewhere
  have hle : n ≤ 3 := le_size_of_reached? hv hend
  obtain ⟨m, hm⟩ : ∃ m, 4 = n + (m + 1) := ⟨3 - n, by omega⟩
  have hfour : (threeInLine (.param "B" "Y" none)).reached? 4 (.param "C" "X" none) =
      some (.param "A" "Z" none) := rfl
  rw [hm, reached?_add, hv, Option.bind_some, reached?_succ_of_next?_eq_none hend] at hfour
  cases hfour

/-- A chase through every binding there is comes to its end; one that leads into a cycle stops on the
cycle, after one lookup more than there are bindings. -/
theorem resolve_threeInLine :
    let start := TypeRef.param "C" "X" none
    let straight := threeInLine (.named "int")
    let cyclic := threeInLine (.param "B" "Y" none)
    straight.EndsAt start (.named "int") ∧ straight.resolve start = .named "int" ∧
      (∀ v, ¬cyclic.EndsAt start v) ∧ cyclic.reached? 4 start = some (cyclic.resolve start) ∧
      ∀ v, ¬cyclic.EndsAt (cyclic.resolve start) v := by
  intro start straight cyclic
  have hends : straight.EndsAt start (.named "int") := ⟨3, rfl, rfl⟩
  obtain ⟨hend, -⟩ := resolve_eq_unbounded_chase straight start
  obtain ⟨-, hgoes⟩ := resolve_eq_unbounded_chase cyclic start
  obtain ⟨-, hreached, hstays⟩ := hgoes not_endsAt_threeInLine
  exact ⟨hends, (hend _ hends).1, not_endsAt_threeInLine, hreached, hstays⟩

end TypeBindings

end ActionSignatures
