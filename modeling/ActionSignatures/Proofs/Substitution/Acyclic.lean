/-
**Substitution under acyclic bindings.**

A bound type parameter depends on the type parameters in the type that it is bound to.  Bindings are
acyclic where no type parameter depends on itself, not even through others.  Following bindings then
comes to an end, and the number of bindings bounds how often: the bounds that keep substitution
finite on cyclic bindings are never reached.  So substitution obeys the equations that one expects
of it: a bound type parameter is replaced by what is left of the type that it is bound to, and no
bound type parameter remains.

Main definitions:

* `ActionSignatures.TypeBindings.DependsOn` — one type parameter depends on another;
* `ActionSignatures.TypeBindings.IsAcyclic` — **none depends on itself**;
* `ActionSignatures.TypeBindings.depth` — how many bound type parameters one depends on, itself
  included.

Main results:

* `ActionSignatures.TypeBindings.IsAcyclic.depth_lt`, `ActionSignatures.TypeBindings.depth_le_size`
  — the depth falls along dependencies and is at most the number of bindings;
* `ActionSignatures.TypeBindings.IsAcyclic.substituteWithin_eq` — more room than the depth changes
  nothing;
* `ActionSignatures.TypeBindings.substitute_of_next?_eq_none`,
  `ActionSignatures.TypeBindings.IsAcyclic.substitute_of_next?` — **the equations of substitution**;
* `ActionSignatures.TypeBindings.IsAcyclic.substitute_mapParams` — replacing bound type parameters
  by what they are bound to beforehand makes no difference;
* `ActionSignatures.TypeBindings.IsAcyclic.of_mem_paramKeys_substitute` — **what remains is not
  bound**;
* `ActionSignatures.TypeBindings.substitute_complete` — substitution replaces all that is bound, and
  never for want of room too little.
-/

import ActionSignatures.Proofs.Substitution.Parameters
import Mathlib.Data.Finset.Card
import Mathlib.Logic.Relation

set_option relaxedAutoImplicit false
set_option autoImplicit false

namespace ActionSignatures

namespace TypeBindings

/-! ### Dependencies -/

/-- **A type parameter depends on another** that occurs in the type that it is bound to. -/
def DependsOn (b : TypeBindings) (k l : TypeParamKey) : Prop :=
  ∃ u, b.get? k = some u ∧ l ∈ u.paramKeys

/-- **Bindings are acyclic** where no type parameter depends on itself, directly or through
others. -/
def IsAcyclic (b : TypeBindings) : Prop := ∀ k, ¬Relation.TransGen b.DependsOn k k

variable {b : TypeBindings}

/-- Bindings are acyclic where a rank falls along dependencies. -/
theorem isAcyclic_of_rank (rank : TypeParamKey → Nat)
    (falls : ∀ k l, b.DependsOn k l → rank l < rank k) : b.IsAcyclic := by
  intro k hcycle
  have hless : ∀ l, Relation.TransGen b.DependsOn k l → rank l < rank k := by
    intro l hl
    induction hl with
    | single hkl => exact falls k _ hkl
    | tail _ hlm ih => exact Nat.lt_trans (falls _ _ hlm) ih
  exact Nat.lt_irrefl _ (hless k hcycle)

/-- The bound type parameters. -/
def boundKeys (b : TypeBindings) : Finset TypeParamKey := (b.entries.map (·.1)).toFinset

theorem mem_boundKeys_iff {k : TypeParamKey} : k ∈ b.boundKeys ↔ b.get? k ≠ none := by
  rw [boundKeys, List.mem_toFinset, ne_eq, FirstMap.get?_eq_none_iff, not_not]

theorem mem_boundKeys_of_dependsOn {k l : TypeParamKey} (h : b.DependsOn k l) :
    k ∈ b.boundKeys := by
  obtain ⟨u, hu, _⟩ := h
  exact mem_boundKeys_iff.2 (by simp [hu])

theorem card_boundKeys (b : TypeBindings) : b.boundKeys.card = b.size := by
  rw [boundKeys, List.toFinset_card_of_nodup (FirstMap.nodup_keys b), List.length_map,
    FirstMap.size_eq]

open Classical in
/-- How many bound type parameters one depends on, directly or through others, itself included if it
is bound. -/
noncomputable def depth (b : TypeBindings) (k : TypeParamKey) : Nat :=
  (b.boundKeys.filter fun l => Relation.ReflTransGen b.DependsOn k l).card

theorem depth_le_size (b : TypeBindings) (k : TypeParamKey) : b.depth k ≤ b.size := by
  classical
  rw [← card_boundKeys b]
  exact Finset.card_le_card (Finset.filter_subset _ _)

theorem depth_pos_of_get? {k : TypeParamKey} {u : TypeRef} (h : b.get? k = some u) :
    0 < b.depth k := by
  classical
  have hbound : k ∈ b.boundKeys := mem_boundKeys_iff.2 (by simp [h])
  exact Finset.card_pos.2 ⟨k, Finset.mem_filter.2 ⟨hbound, .refl⟩⟩

/-- **The depth falls along dependencies**: what one type parameter depends on does not lead back to
it. -/
theorem IsAcyclic.depth_lt (h : b.IsAcyclic) {k l : TypeParamKey} (hkl : b.DependsOn k l) :
    b.depth l < b.depth k := by
  classical
  refine Finset.card_lt_card ⟨fun m hm => ?_, fun hback => ?_⟩
  · obtain ⟨hbound, hlm⟩ := Finset.mem_filter.1 hm
    exact Finset.mem_filter.2 ⟨hbound, .head hkl hlm⟩
  · have hself := hback (Finset.mem_filter.2 ⟨mem_boundKeys_of_dependsOn hkl, .refl⟩)
    exact h k (.head' hkl (Finset.mem_filter.1 hself).2)

/-- What a type parameter is bound to is the type in one of the bindings. -/
theorem mem_entries_of_get? {k : TypeParamKey} {u : TypeRef} (h : b.get? k = some u) :
    (k, u) ∈ b.entries := by
  rw [FirstMap.get?_eq] at h
  obtain ⟨before, after, hentries, -⟩ := List.lookup_eq_some_iff.1 h
  rw [hentries]
  exact List.mem_append_right before List.mem_cons_self

/-! ### Types of bounded depth -/

/-- Every type parameter in a type has at most a given depth. -/
def Within (b : TypeBindings) (n : Nat) (t : TypeRef) : Prop := ∀ k ∈ t.paramKeys, b.depth k ≤ n

theorem Within.mono {m n : Nat} {t : TypeRef} (h : b.Within m t) (hle : m ≤ n) : b.Within n t :=
  fun k hk => Nat.le_trans (h k hk) hle

theorem Within.of_mem_params {n : Nat} {t p : TypeRef} (h : b.Within n t) (hp : p ∈ t.params) :
    b.Within n p := by
  obtain ⟨owner, name, bound, rfl⟩ := TypeRef.exists_eq_param_of_mem_params hp
  intro k hk
  exact h k (TypeRef.mem_paramKeys_iff.2 ⟨_, hp, congrArg some (List.mem_singleton.1 hk).symm⟩)

theorem within_size (b : TypeBindings) (t : TypeRef) : b.Within b.size t :=
  fun k _ => b.depth_le_size k

/-- What a type is bound to is the type of its type parameter. -/
theorem next?_eq_some_iff {t u : TypeRef} :
    b.next? t = some u ↔ ∃ k, t.paramKey? = some k ∧ b.get? k = some u :=
  Option.bind_eq_some_iff

/-- A bound type parameter of depth at most `n` has a positive one, and is bound to a type whose
type parameters have a smaller depth. -/
theorem IsAcyclic.exists_within_of_next? (h : b.IsAcyclic) {n : Nat} {t u : TypeRef}
    (ht : b.Within n t) (hu : b.next? t = some u) : ∃ m, n = m + 1 ∧ b.Within m u := by
  obtain ⟨k, hk, hget⟩ := next?_eq_some_iff.1 hu
  have hmem : k ∈ t.paramKeys := by
    rw [TypeRef.paramKeys_of_paramKey? hk]
    exact List.mem_singleton_self k
  have hpos := depth_pos_of_get? hget
  have hle := ht k hmem
  obtain ⟨m, rfl⟩ : ∃ m, n = m + 1 := ⟨n - 1, by omega⟩
  refine ⟨m, rfl, fun l hl => ?_⟩
  have := h.depth_lt ⟨u, hget, hl⟩
  omega

/-! ### Following bindings to the end -/

theorem chase_of_next?_eq_none {t : TypeRef} (h : b.next? t = none) (n : Nat) :
    b.chase n t = t := by
  cases n with
  | zero => rfl
  | succ n => rw [chase, h]

theorem chase_succ_of_next? {t u : TypeRef} (h : b.next? t = some u) (n : Nat) :
    b.chase (n + 1) t = b.chase n u := by
  rw [chase, h]

/-- As many steps as the depth says are enough to come to the end. -/
theorem IsAcyclic.next?_chase (h : b.IsAcyclic) {n : Nat} {t : TypeRef} (ht : b.Within n t) :
    b.next? (b.chase n t) = none := by
  induction n generalizing t with
  | zero =>
      cases hu : b.next? t with
      | none => exact hu
      | some u =>
          obtain ⟨m, hm, _⟩ := h.exists_within_of_next? ht hu
          omega
  | succ n ih =>
      cases hu : b.next? t with
      | none => rw [chase_of_next?_eq_none hu, hu]
      | some u =>
          obtain ⟨m, hm, hwithin⟩ := h.exists_within_of_next? ht hu
          obtain rfl : n = m := by omega
          rw [chase_succ_of_next? hu]
          exact ih hwithin

/-- Following bindings never leads to a greater depth. -/
theorem IsAcyclic.within_chase (h : b.IsAcyclic) {n : Nat} {t : TypeRef} (ht : b.Within n t)
    (m : Nat) : b.Within n (b.chase m t) := by
  induction m generalizing t with
  | zero => exact ht
  | succ m ih =>
      cases hu : b.next? t with
      | none =>
          rw [chase_of_next?_eq_none hu]
          exact ht
      | some u =>
          obtain ⟨d, hd, hwithin⟩ := h.exists_within_of_next? ht hu
          rw [chase_succ_of_next? hu]
          exact ih (hwithin.mono (by omega))

/-- One more step changes nothing at the end. -/
theorem chase_succ_of_end {n : Nat} {t : TypeRef} (h : b.next? (b.chase n t) = none) :
    b.chase (n + 1) t = b.chase n t := by
  induction n generalizing t with
  | zero => exact chase_of_next?_eq_none h 1
  | succ n ih =>
      cases hu : b.next? t with
      | none => rw [chase_of_next?_eq_none hu, chase_of_next?_eq_none hu]
      | some u =>
          rw [chase_succ_of_next? hu] at h ⊢
          rw [chase_succ_of_next? hu]
          exact ih h

theorem resolve_of_next?_eq_none {t : TypeRef} (h : b.next? t = none) : b.resolve t = t :=
  chase_of_next?_eq_none h _

/-- A bound type parameter resolves to what the type that it is bound to resolves to. -/
theorem IsAcyclic.resolve_of_next? (h : b.IsAcyclic) {t u : TypeRef} (hu : b.next? t = some u) :
    b.resolve t = b.resolve u := by
  rw [resolve, chase_succ_of_next? hu, resolve,
    chase_succ_of_end (h.next?_chase (b.within_size u))]

/-- What a type resolves to is not a bound type parameter. -/
theorem IsAcyclic.next?_resolve (h : b.IsAcyclic) (t : TypeRef) : b.next? (b.resolve t) = none :=
  h.next?_chase ((b.within_size t).mono (Nat.le_succ _))

/-- A bound type parameter does not resolve to itself. -/
theorem IsAcyclic.resolve_ne (h : b.IsAcyclic) {t u : TypeRef} (hu : b.next? t = some u) :
    b.resolve t ≠ t := by
  intro heq
  have hend := h.next?_resolve t
  rw [heq, hu] at hend
  cases hend

/-! ### Substitution -/

/-- Substitution with room for `n + 1` type parameters inside one another, at one of them. -/
theorem substituteWithin_succ_param (n : Nat) (owner name : String) (bound : Option TypeRef) :
    b.substituteWithin (n + 1) (.param owner name bound) =
      if b.resolve (.param owner name bound) = .param owner name bound then
        .param owner name bound
      else b.substituteWithin n (b.resolve (.param owner name bound)) := rfl

theorem substituteWithin_succ (n : Nat) (t : TypeRef) :
    b.substituteWithin (n + 1) t = t.mapParams (b.substituteWithin (n + 1)) := by
  conv_lhs => rw [substituteWithin]
  refine TypeRef.mapParams_congr fun p hp => ?_
  obtain ⟨owner, name, bound, rfl⟩ := TypeRef.exists_eq_param_of_mem_params hp
  rfl

/-- Substitution inside a type is substitution at its type parameters. -/
theorem substitute_eq_mapParams (b : TypeBindings) (t : TypeRef) :
    b.substitute t = t.mapParams b.substitute :=
  substituteWithin_succ b.size t

/-- **More room than the depth changes nothing.** -/
theorem IsAcyclic.substituteWithin_eq (h : b.IsAcyclic) {n : Nat} {t : TypeRef}
    (ht : b.Within n t) {m : Nat} (hle : n ≤ m) :
    b.substituteWithin (m + 1) t = b.substituteWithin (n + 1) t := by
  -- what replaces a type parameter has a smaller depth, and as much less room is left for it
  induction n using Nat.strongRecOn generalizing m t with
  | ind n ih =>
      rw [substituteWithin_succ, substituteWithin_succ n]
      refine TypeRef.mapParams_congr fun p hp => ?_
      have hwithin := ht.of_mem_params hp
      obtain ⟨owner, name, bound, rfl⟩ := TypeRef.exists_eq_param_of_mem_params hp
      rw [substituteWithin_succ_param, substituteWithin_succ_param]
      cases hu : b.next? (.param owner name bound) with
      | none => rw [if_pos (resolve_of_next?_eq_none hu), if_pos (resolve_of_next?_eq_none hu)]
      | some u =>
          obtain ⟨d, rfl, hless⟩ := h.exists_within_of_next? hwithin hu
          obtain ⟨m, rfl⟩ : ∃ k, m = k + 1 := ⟨m - 1, by omega⟩
          rw [if_neg (h.resolve_ne hu), if_neg (h.resolve_ne hu), h.resolve_of_next? hu]
          exact ih d (Nat.lt_succ_self d) (h.within_chase hless _) (by omega)

/-- A type parameter that is not bound stays. -/
theorem substitute_of_next?_eq_none {owner name : String} {bound : Option TypeRef}
    (h : b.next? (.param owner name bound) = none) :
    b.substitute (.param owner name bound) = .param owner name bound := by
  rw [substitute, substituteWithin_succ_param, if_pos (resolve_of_next?_eq_none h)]

theorem IsAcyclic.substitute_eq_substituteWithin_resolve (h : b.IsAcyclic) {t u : TypeRef}
    (hu : b.next? t = some u) : b.substitute t = b.substituteWithin b.size (b.resolve u) := by
  obtain ⟨k, hk, _⟩ := next?_eq_some_iff.1 hu
  cases t with
  | param owner name bound =>
      rw [substitute, substituteWithin_succ_param, if_neg (h.resolve_ne hu), h.resolve_of_next? hu]
  | named name => cases hk
  | array element => cases hk
  | generic base args => cases hk

/-- **A bound type parameter becomes what is left of the type that it is bound to.** -/
theorem IsAcyclic.substitute_of_next? (h : b.IsAcyclic) {t u : TypeRef}
    (hu : b.next? t = some u) : b.substitute t = b.substitute u := by
  rw [h.substitute_eq_substituteWithin_resolve hu]
  cases hv : b.next? u with
  | some v => rw [h.substitute_eq_substituteWithin_resolve hv, h.resolve_of_next? hv]
  | none =>
      -- one unit of room was spent on the type parameter, but its type needs less than all of it
      obtain ⟨n, hn, hwithin⟩ := h.exists_within_of_next? (b.within_size t) hu
      rw [resolve_of_next?_eq_none hv, substitute, hn]
      exact (h.substituteWithin_eq hwithin (Nat.le_succ n)).symm

/-- **Replacing bound type parameters beforehand** by what they are bound to makes no difference. -/
theorem IsAcyclic.substitute_mapParams (h : b.IsAcyclic) {t : TypeRef} {f : TypeRef → TypeRef}
    (hf : ∀ p ∈ t.params, f p = p ∨ b.next? p = some (f p)) :
    b.substitute (t.mapParams f) = b.substitute t := by
  have hstep : ∀ p ∈ t.params, (f p).mapParams b.substitute = b.substitute p := by
    intro p hp
    rw [← substitute_eq_mapParams]
    rcases hf p hp with hsame | hbound
    · rw [hsame]
    · exact (h.substitute_of_next? hbound).symm
  calc b.substitute (t.mapParams f)
      = (t.mapParams f).mapParams b.substitute := substitute_eq_mapParams b _
    _ = t.mapParams fun p => (f p).mapParams b.substitute := TypeRef.mapParams_mapParams t f _
    _ = t.mapParams b.substitute := TypeRef.mapParams_congr hstep
    _ = b.substitute t := (substitute_eq_mapParams b t).symm

/-- A type without bound type parameters stays. -/
theorem substitute_eq_self {t : TypeRef} (h : ∀ k ∈ t.paramKeys, b.get? k = none) :
    b.substitute t = t := by
  rw [substitute_eq_mapParams]
  refine TypeRef.mapParams_eq_self fun p hp => ?_
  obtain ⟨owner, name, bound, rfl⟩ := TypeRef.exists_eq_param_of_mem_params hp
  exact substitute_of_next?_eq_none (h ⟨owner, name⟩ (TypeRef.mem_paramKeys_iff.2 ⟨_, hp, rfl⟩))

/-- **What remains after substitution is not bound**, and is what some type parameter of the type
depends on, or is one of them itself. -/
theorem IsAcyclic.of_mem_paramKeys_substitute (h : b.IsAcyclic) {t : TypeRef} {k : TypeParamKey}
    (hk : k ∈ (b.substitute t).paramKeys) :
    b.get? k = none ∧ ∃ l ∈ t.paramKeys, Relation.ReflTransGen b.DependsOn l k := by
  -- the induction is on a bound of the depth
  have hdepth := b.within_size t
  revert hdepth
  generalize b.size = n
  intro hdepth
  induction n using Nat.strongRecOn generalizing t with
  | ind n ih =>
      rw [substitute_eq_mapParams, TypeRef.mem_paramKeys_mapParams_iff] at hk
      obtain ⟨p, hp, hk⟩ := hk
      have hwithin := hdepth.of_mem_params hp
      obtain ⟨owner, name, bound, rfl⟩ := TypeRef.exists_eq_param_of_mem_params hp
      have hmem : (⟨owner, name⟩ : TypeParamKey) ∈ t.paramKeys :=
        TypeRef.mem_paramKeys_iff.2 ⟨_, hp, rfl⟩
      cases hu : b.next? (.param owner name bound) with
      | none =>
          rw [substitute_of_next?_eq_none hu] at hk
          obtain rfl : k = ⟨owner, name⟩ := List.mem_singleton.1 hk
          exact ⟨hu, ⟨owner, name⟩, hmem, .refl⟩
      | some u =>
          obtain ⟨d, rfl, hless⟩ := h.exists_within_of_next? hwithin hu
          rw [h.substitute_of_next? hu] at hk
          obtain ⟨hunbound, l, hl, hlk⟩ := ih d (Nat.lt_succ_self d) hk hless
          exact ⟨hunbound, ⟨owner, name⟩, hmem, .head ⟨u, hu, hl⟩ hlk⟩

/-- **Substitution under acyclic bindings is complete.**  No bound type parameter remains, outside
the bounds of type parameters; substituting once more changes nothing; and with any more room for
replaced type parameters inside one another the result would be the same, so that the room for as
many as there are bindings, and one more, is always enough. -/
theorem substitute_complete (b : TypeBindings) (acyclic : b.IsAcyclic) (t : TypeRef) :
    (∀ k ∈ (b.substitute t).paramKeys, b.get? k = none) ∧
      b.substitute (b.substitute t) = b.substitute t ∧
      ∀ n, b.size + 1 ≤ n → b.substituteWithin n t = b.substitute t := by
  have hunbound : ∀ k ∈ (b.substitute t).paramKeys, b.get? k = none :=
    fun k hk => (acyclic.of_mem_paramKeys_substitute hk).1
  refine ⟨hunbound, substitute_eq_self hunbound, fun n hn => ?_⟩
  obtain ⟨n, rfl⟩ : ∃ m, n = m + 1 := ⟨n - 1, by omega⟩
  exact acyclic.substituteWithin_eq (b.within_size t) (Nat.le_of_succ_le_succ hn)

/-! ### Bindings inside one another -/

/-- Bindings of three type parameters, each of which is bound to a type with the next one inside.  The
last one is bound to a type parameter that is not bound, in whose bound the first one occurs. -/
def nestedBindings : TypeBindings :=
  ((FirstMap.empty.insert ⟨"C", "X"⟩
    (.generic "Map" [.param "B" "Y" none, .array (.param "B" "Y" none)])).insert ⟨"B", "Y"⟩
      (.generic "List" [.param "A" "Z" none])).insert ⟨"A", "Z"⟩
        (.param "Root" "T" (some (.param "C" "X" none)))

theorem isAcyclic_nestedBindings : nestedBindings.IsAcyclic := by
  refine isAcyclic_of_rank (fun k => ["Root", "A", "B", "C"].idxOf k.owner) ?_
  rintro k l ⟨u, hu, hl⟩
  have hfalls : ∀ e ∈ nestedBindings.entries, ∀ l ∈ e.2.paramKeys,
      ["Root", "A", "B", "C"].idxOf l.owner < ["Root", "A", "B", "C"].idxOf e.1.owner := by
    decide
  exact hfalls (k, u) (mem_entries_of_get? hu) l hl

/-- All three type parameters are replaced, and the bound of the one that remains is left alone. -/
theorem substitute_nestedBindings :
    let remaining := TypeRef.param "Root" "T" (some (.param "C" "X" none))
    let result := TypeRef.array (.generic "Map"
      [.generic "List" [remaining], .array (.generic "List" [remaining])])
    nestedBindings.IsAcyclic ∧
      nestedBindings.substitute (.array (.param "C" "X" none)) = result ∧
      (∀ k ∈ result.paramKeys, nestedBindings.get? k = none) ∧
      nestedBindings.substitute result = result ∧
      ∀ n, 4 ≤ n → nestedBindings.substituteWithin n (.array (.param "C" "X" none)) = result :=
  ⟨isAcyclic_nestedBindings, rfl,
    substitute_complete nestedBindings isAcyclic_nestedBindings (.array (.param "C" "X" none))⟩

end TypeBindings

end ActionSignatures
