/-
**Which reference binds a type parameter.**

The walk for the bindings of a root puts a declaration into its queue as often as references lead to
it, and decides only when it takes it off whether it has been expanded.  This module shows that the
declarations are nevertheless expanded level by level, each on the level of its distance from the
root, unless the walk comes to its limit.  So what a type parameter is bound to can be said without a
queue: the references of all declarations that can be reached are looked at in the order of the
levels, and the first one that supplies an argument for the type parameter counts.

Main definitions:

* `ActionSignatures.DeclarationStore.BindsWithinLimit` — **the walk does not come to its limit**;
* `ActionSignatures.DeclarationStore.Supplies` — **a reference supplies an argument** for a type
  parameter, at a position.

Main results:

* `ActionSignatures.DeclarationStore.exists_levels_expanded` — **the declarations are expanded level by
  level**;
* `ActionSignatures.lookup_eq_some_iff_getElem?`, `ActionSignatures.lookup_flatMap_eq_some_iff` — what
  is found first, by positions and by lists;
* `ActionSignatures.DeclarationStore.getElem?_pointBindings` — what a reference asks for is what it
  supplies, position by position;
* `ActionSignatures.DeclarationStore.first_supplied_argument_is_bound` — **what the type parameters are
  bound to**.
-/

import ActionSignatures.Proofs.Inheritance.Levels
import ActionSignatures.Proofs.Substitution.Scope

set_option relaxedAutoImplicit false
set_option autoImplicit false

namespace ActionSignatures

/-! ### What is found first -/

section

variable {κ α β : Type} [DecidableEq κ]

/-- What is found for a key stands at the first position of the key. -/
theorem lookup_eq_some_iff_getElem? {l : List (κ × α)} {k : κ} {v : α} :
    l.lookup k = some v ↔
      ∃ n : Nat, l[n]? = some (k, v) ∧ ∀ m < n, ∀ w, l[m]? ≠ some (k, w) := by
  induction l with
  | nil => simp
  | cons e l ih =>
      rw [List.lookup_cons]
      by_cases hkey : k = e.1
      · subst hkey
        rw [beq_self_eq_true]
        constructor
        · intro h
          obtain rfl := Option.some.inj h
          exact ⟨0, rfl, fun m hm => absurd hm (Nat.not_lt_zero m)⟩
        · rintro ⟨n, hn, hfirst⟩
          cases n with
          | zero => exact congrArg (some ·.2) (Option.some.inj hn)
          | succ n => exact absurd rfl (hfirst 0 (Nat.succ_pos n) e.2)
      · rw [beq_eq_false_iff_ne.2 hkey, ih]
        constructor
        · rintro ⟨n, hn, hfirst⟩
          refine ⟨n + 1, hn, fun m hm w hw => ?_⟩
          cases m with
          | zero => exact hkey (congrArg Prod.fst (Option.some.inj hw)).symm
          | succ m => exact hfirst m (Nat.lt_of_succ_lt_succ hm) w hw
        · rintro ⟨n, hn, hfirst⟩
          cases n with
          | zero => exact absurd (congrArg Prod.fst (Option.some.inj hn)).symm hkey
          | succ n => exact ⟨n, hn, fun m hm => hfirst (m + 1) (Nat.succ_lt_succ hm)⟩

/-- Nothing is found for a key that stands nowhere. -/
theorem lookup_eq_none_iff_notMem {l : List (κ × α)} {k : κ} :
    l.lookup k = none ↔ ∀ v, (k, v) ∉ l := by
  rw [List.lookup_eq_none_iff]
  constructor
  · intro h v hv
    simpa using h (k, v) hv
  · rintro h ⟨k', v⟩ hv
    rw [bne_iff_ne]
    rintro rfl
    exact h v hv

/-- What is found in several lists is found in the first of them that has the key. -/
theorem lookup_flatMap_eq_some_iff {l : List β} {f : β → List (κ × α)} {k : κ} {v : α} :
    (l.flatMap f).lookup k = some v ↔
      ∃ before x after, l = before ++ x :: after ∧ (f x).lookup k = some v ∧
        ∀ y ∈ before, (f y).lookup k = none := by
  have hfind : (l.flatMap f).lookup k = l.findSome? fun x => (f x).lookup k := by
    induction l with
    | nil => rfl
    | cons x l ih =>
        rw [List.flatMap_cons, List.lookup_append, List.findSome?_cons, ih]
        cases (f x).lookup k <;> rfl
  rw [hfind, List.findSome?_eq_some_iff]

end

namespace DeclarationStore

variable {s : DeclarationStore} {root : DeclId}

/-! ### The walk for the bindings, level by level -/

/-- The walk for the bindings of a root, where it stops. -/
def bindingWalk (s : DeclarationStore) (root : DeclId) : BindingWalk :=
  ((BindingWalk.run s.graph Limits.maxAncestorEdges (.start s.graph root)).run ()).1

/-- **The walk for the bindings of a root does not come to its limit**: nothing is left in its
queue. -/
def BindsWithinLimit (s : DeclarationStore) (root : DeclId) : Prop :=
  (s.bindingWalk root).queue.toList = []

theorem bindsWithinLimit_iff :
    s.BindsWithinLimit root ↔ s.leftover Limits.maxAncestorEdges [] [root] = [] := by
  obtain ⟨w, hrun, -, hqueue⟩ :=
    BindingWalk.exists_run_eq s Limits.maxAncestorEdges (BindingWalk.start_holds s root)
  rw [BindsWithinLimit, bindingWalk, hrun, ← hqueue]
  rfl

/-- **The walk goes through the front part of its queue** and expands what is new there; where that
leads to stands behind the rest of the queue. -/
theorem expansions_append {limit : Nat} {before front later : List DeclId}
    (h : s.leftover limit before (front ++ later) = []) :
    let new := freshIds before front
    let queue := later ++ new.flatMap (s.targets WellKnown.isObject)
    front.length ≤ limit ∧
      s.leftover (limit - front.length) (new.reverse ++ before) queue = [] ∧
      s.expansions limit before (front ++ later) =
        new ++ s.expansions (limit - front.length) (new.reverse ++ before) queue := by
  -- what is expanded on the way adds to what comes later, so that part is generalised
  induction front generalizing limit before later with
  | nil =>
      simp only [freshIds_nil, List.reverse_nil, List.nil_append, List.flatMap_nil,
        List.append_nil, List.length_nil, Nat.sub_zero]
      exact ⟨Nat.zero_le limit, h, trivial⟩
  | cons i front ih =>
      cases limit with
      | zero => exact absurd h (List.cons_ne_nil i _)
      | succ limit =>
          rw [List.cons_append, leftover] at h
          rw [List.cons_append, expansions, freshIds_cons, List.length_cons,
            Nat.add_sub_add_right]
          by_cases hi : i ∈ before
          · rw [if_pos hi] at h
            rw [if_pos hi, if_pos hi]
            obtain ⟨hle, hrest⟩ := ih h
            exact ⟨Nat.succ_le_succ hle, hrest⟩
          · rw [if_neg hi, List.append_assoc] at h
            rw [if_neg hi, if_neg hi, List.append_assoc]
            obtain ⟨hle, hleft, hexpansions⟩ := ih h
            simp only [List.reverse_cons, List.append_assoc, List.flatMap_cons,
              List.cons_append] at hleft hexpansions ⊢
            exact ⟨Nat.succ_le_succ hle, hleft, congrArg (i :: ·) hexpansions⟩

/-- The walk expands the levels one after another, from a queue that holds where a level leads to. -/
theorem exists_levels_expansions {limit : Nat} {before seen level : List DeclId}
    (hseen : ∀ i, i ∈ before ↔ i ∈ seen)
    (h : s.leftover limit before (level.flatMap (s.targets WellKnown.isObject)) = []) :
    ∃ N, s.expansions limit before (level.flatMap (s.targets WellKnown.isObject)) =
        (List.range N).flatMap (fun n => s.levelFrom WellKnown.isObject seen level (n + 1)) ∧
      s.levelFrom WellKnown.isObject seen level (N + 1) = [] := by
  -- a level uses up as much of the limit as leads to it, and one that leads nowhere is the last
  induction limit using Nat.strongRecOn generalizing before seen level with
  | ind limit ih =>
      cases hqueue : level.flatMap (s.targets WellKnown.isObject) with
      | nil =>
          refine ⟨0, ?_, ?_⟩
          · cases limit <;> rfl
          · rw [levelFrom_succ, hqueue]
            rfl
      | cons i queue =>
          rw [← List.append_nil (level.flatMap (s.targets WellKnown.isObject))] at h
          obtain ⟨hle, hleft, hexpansions⟩ := expansions_append h
          rw [List.append_nil, List.nil_append, freshIds_congr hseen] at hexpansions
          rw [List.nil_append, freshIds_congr hseen] at hleft
          have hless : limit - (level.flatMap (s.targets WellKnown.isObject)).length < limit := by
            rw [hqueue, List.length_cons] at hle ⊢
            omega
          have hseen' : ∀ j, j ∈
              (freshIds seen (level.flatMap (s.targets WellKnown.isObject))).reverse ++ before ↔
                j ∈ seen ++ freshIds seen (level.flatMap (s.targets WellKnown.isObject)) := by
            intro j
            rw [List.mem_append, List.mem_reverse, hseen j, List.mem_append]
            exact Or.comm
          obtain ⟨N, hN, hempty⟩ := ih _ hless hseen' hleft
          refine ⟨N + 1, ?_, hempty⟩
          rw [← hqueue, hexpansions, hN, flatMap_levelFrom_succ]

/-- **The declarations are expanded level by level**, until a level is empty. -/
theorem exists_levels_expanded (h : s.BindsWithinLimit root) :
    ∃ N, s.expanded root = (List.range N).flatMap (s.level WellKnown.isObject root) ∧
      s.level WellKnown.isObject root N = [] := by
  have hroot : s.leftover Limits.maxAncestorEdges [] ([root] ++ []) = [] :=
    bindsWithinLimit_iff.1 h
  obtain ⟨-, hleft, hexpansions⟩ := expansions_append hroot
  have hfresh : freshIds [] [root] = [root] := by
    rw [freshIds_cons, if_neg List.not_mem_nil, freshIds_nil]
  rw [hfresh, List.nil_append] at hleft hexpansions
  obtain ⟨N, hN, hempty⟩ := exists_levels_expansions (fun i => Iff.rfl) hleft
  refine ⟨N + 1, ?_, hempty⟩
  rw [List.append_nil, hN] at hexpansions
  rw [expanded, hexpansions, List.range_succ_eq_map, List.flatMap_cons, List.flatMap_map]
  rfl

/-- What is on a level is what can be reached from the root. -/
theorem exists_mem_level_iff {excludes : String → Bool} {i : DeclId} :
    (∃ n, i ∈ s.level excludes root n) ↔
      Relation.ReflTransGen (s.LeadsTo excludes) root i := by
  rw [Relation.reflTransGen_iff_eq_or_transGen, transGen_leadsTo_iff]
  constructor
  · rintro ⟨n, hn⟩
    have hpath := (mem_level_iff.1 hn).path
    cases n with
    | zero => exact .inl (mem_level_iff.1 hn).eq_root
    | succ n => exact .inr ⟨n, hpath⟩
  · rintro (rfl | ⟨n, hpath⟩)
    · exact ⟨0, List.mem_singleton_self i⟩
    · obtain ⟨m, -, hm⟩ := hpath.exists_isDistance
      exact ⟨m, mem_level_iff.2 hm⟩

/-- Behind an empty level, all levels are empty. -/
theorem level_eq_nil_of_le {excludes : String → Bool} {N : Nat}
    (h : s.level excludes root N = []) {n : Nat} (hn : N ≤ n) :
    s.level excludes root n = [] := by
  induction n, hn using Nat.le_induction with
  | base => exact h
  | succ n _ ih => rw [level_succ, ih, List.flatMap_nil, freshIds_nil]

/-- The levels behind an empty one add nothing. -/
theorem flatMap_level_of_le {excludes : String → Bool} {N : Nat}
    (h : s.level excludes root N = []) {n : Nat} (hn : N ≤ n) :
    (List.range n).flatMap (s.level excludes root) =
      (List.range N).flatMap (s.level excludes root) := by
  induction n, hn using Nat.le_induction with
  | base => rfl
  | succ n hn ih =>
      rw [List.range_succ, List.flatMap_append, ih, List.flatMap_singleton,
        level_eq_nil_of_le h hn, List.append_nil]

/-- Whichever empty level one takes, the same declarations are on the levels before it. -/
theorem flatMap_level_eq {excludes : String → Bool} {M N : Nat}
    (hM : s.level excludes root M = []) (hN : s.level excludes root N = []) :
    (List.range M).flatMap (s.level excludes root) =
      (List.range N).flatMap (s.level excludes root) := by
  rcases Nat.le_total M N with hle | hle
  · exact (flatMap_level_of_le hM hle).symm
  · exact flatMap_level_of_le hN hle

/-! ### What a reference supplies -/

/-- **A reference supplies an argument for a type parameter**, at a position: it leads to the
declaration with that type parameter there, which is not the root of the class hierarchy, and has
the argument there. -/
inductive Supplies (s : DeclarationStore) : TypeRef → TypeParamKey → Nat → TypeRef → Prop
  | intro {base : String} {args : List TypeRef} {j : DeclId} {d : TypeDeclaration} {p : TypeParam}
      {n : Nat} {u : TypeRef} (leads : s.idOf? base = some j) (declared : s.get? j = some d)
      (notObject : d.name ≠ WellKnown.object) (parameter : d.typeParams[n]? = some p)
      (argument : args[n]? = some u) :
      Supplies s (.generic base args) ⟨d.name, p.name⟩ n u

theorem Supplies.owner_ne_object {t u : TypeRef} {k : TypeParamKey} {n : Nat}
    (h : s.Supplies t k n u) : k.owner ≠ WellKnown.object := by
  cases h with
  | intro _ _ notObject _ _ => exact notObject

theorem flatMap_bindingsOf (s : DeclarationStore) (ids : List DeclId) :
    ids.flatMap s.bindingsOf = (ids.flatMap s.references).flatMap s.pointBindings := by
  rw [List.flatMap_assoc]
  refine List.flatMap_congr fun i _ => ?_
  rw [bindingsOf, references, List.flatMap_assoc]

/-- **What a reference asks for is what it supplies**, position by position. -/
theorem getElem?_pointBindings {t u : TypeRef} {k : TypeParamKey} {n : Nat} :
    (s.pointBindings t)[n]? = some (k, u) ↔ s.Supplies t k n u := by
  constructor
  · intro h
    cases htarget : s.target? WellKnown.isObject t with
    | none =>
        rw [pointBindings_of_target?_eq_none htarget] at h
        cases h
    | some j =>
        obtain ⟨name, hname, hobject, hid⟩ := target?_eq_some_iff.1 htarget
        obtain ⟨d, hd, rfl⟩ := get?_of_idOf? hid
        rw [pointBindings_of_target? htarget hd, TypeDeclaration.argumentBindings_eq,
          List.getElem?_zip_eq_some, TypeDeclaration.paramKeys, List.getElem?_map,
          Option.map_eq_some_iff] at h
        obtain ⟨⟨p, hparameter, rfl⟩, hargument⟩ := h
        cases t with
        | generic base args =>
            obtain rfl : base = d.name := Option.some.inj hname
            exact .intro hid hd (isObject_eq_false_iff.1 hobject) hparameter hargument
        | named name => cases hargument
        | param owner name bound => cases hargument
        | array element => cases hargument
  · rintro ⟨hid, hd, hobject, hparameter, hargument⟩
    rename_i base args j d p
    obtain ⟨e, he, rfl⟩ := get?_of_idOf? hid
    obtain rfl : e = d := Option.some.inj (he.symm.trans hd)
    have htarget : s.target? WellKnown.isObject (.generic e.name args) = some j :=
      target?_eq_some_iff.2 ⟨e.name, rfl, isObject_eq_false_iff.2 hobject, hid⟩
    rw [pointBindings_of_target? htarget hd, TypeDeclaration.argumentBindings_eq,
      List.getElem?_zip_eq_some, TypeDeclaration.paramKeys, List.getElem?_map, hparameter]
    exact ⟨rfl, hargument⟩

theorem mem_pointBindings_iff_supplies {t u : TypeRef} {k : TypeParamKey} :
    (k, u) ∈ s.pointBindings t ↔ ∃ n, s.Supplies t k n u := by
  simp only [List.mem_iff_getElem?, getElem?_pointBindings]

/-- What a reference binds is what it supplies at the lowest position. -/
theorem lookup_pointBindings_eq_some_iff {t u : TypeRef} {k : TypeParamKey} :
    (s.pointBindings t).lookup k = some u ↔
      ∃ n, s.Supplies t k n u ∧ ∀ m < n, ∀ v, ¬s.Supplies t k m v := by
  simp only [lookup_eq_some_iff_getElem?, ne_eq, getElem?_pointBindings]

/-- A reference that supplies nothing for a type parameter does not bind it. -/
theorem lookup_pointBindings_eq_none_iff {t : TypeRef} {k : TypeParamKey} :
    (s.pointBindings t).lookup k = none ↔ ∀ n u, ¬s.Supplies t k n u := by
  simp only [lookup_eq_none_iff_notMem, mem_pointBindings_iff_supplies, not_exists]
  exact forall_comm

/-- What several references bind is what the first one supplies that supplies anything, at the lowest
position. -/
theorem lookup_flatMap_pointBindings_eq_some_iff {references : List TypeRef} {k : TypeParamKey}
    {u : TypeRef} :
    (references.flatMap s.pointBindings).lookup k = some u ↔
      ∃ before t after n, references = before ++ t :: after ∧
        s.Supplies t k n u ∧ (∀ m < n, ∀ v, ¬s.Supplies t k m v) ∧
        ∀ r ∈ before, ∀ m v, ¬s.Supplies r k m v := by
  simp only [lookup_flatMap_eq_some_iff, lookup_pointBindings_eq_some_iff,
    lookup_pointBindings_eq_none_iff]
  constructor
  · rintro ⟨before, t, after, heq, ⟨n, hn, hlowest⟩, hbefore⟩
    exact ⟨before, t, after, n, heq, hn, hlowest, hbefore⟩
  · rintro ⟨before, t, after, n, heq, hn, hlowest, hbefore⟩
    exact ⟨before, t, after, heq, ⟨n, hn, hlowest⟩, hbefore⟩

/-! ### What the type parameters are bound to -/

/-- The references that the walk follows are those of the levels, in their order. -/
theorem requestedBindings_eq (h : s.BindsWithinLimit root) {N : Nat}
    (hN : s.level WellKnown.isObject root N = []) :
    s.requestedBindings root =
      (((List.range N).flatMap (s.level WellKnown.isObject root)).flatMap s.references).flatMap
        s.pointBindings := by
  obtain ⟨M, hexpanded, hM⟩ := exists_levels_expanded h
  rw [requestedBindings, ← expanded, hexpanded, flatMap_bindingsOf, flatMap_level_eq hM hN]

/-- Within the limit, what is expanded is what can be reached. -/
theorem mem_expanded_iff (h : s.BindsWithinLimit root) {i : DeclId} :
    i ∈ s.expanded root ↔ Relation.ReflTransGen (s.LeadsTo WellKnown.isObject) root i := by
  obtain ⟨N, hN, hempty⟩ := exists_levels_expanded h
  rw [← exists_mem_level_iff, hN, List.mem_flatMap]
  constructor
  · rintro ⟨n, -, hi⟩
    exact ⟨n, hi⟩
  · rintro ⟨n, hi⟩
    refine ⟨n, List.mem_range.2 (Nat.lt_of_not_le fun hle => ?_), hi⟩
    rw [level_eq_nil_of_le hempty hle] at hi
    cases hi

/-- **What is bound** is what a reference of something that can be reached supplies. -/
theorem get?_typeBindings_ne_none_iff (h : s.BindsWithinLimit root) {k : TypeParamKey} :
    (s.typeBindings root).get? k ≠ none ↔
      ∃ i, Relation.ReflTransGen (s.LeadsTo WellKnown.isObject) root i ∧
        ∃ d, s.get? i = some d ∧ ∃ t ∈ d.supertypes, ∃ n u, s.Supplies t k n u := by
  simp only [get?_typeBindings, ne_eq, lookup_eq_none_iff_notMem, not_forall, not_not,
    mem_requestedBindings_iff, mem_expanded_iff h, mem_pointBindings_iff_supplies]
  constructor
  · rintro ⟨u, i, hi, d, hd, t, ht, n, hu⟩
    exact ⟨i, hi, d, hd, t, ht, n, u, hu⟩
  · rintro ⟨i, hi, d, hd, t, ht, n, u, hu⟩
    exact ⟨u, i, hi, d, hd, t, ht, n, hu⟩

/-- **What the type parameters are bound to.**  The levels start from the root; the next one is what
the references of a level lead to, in their order and without what is on a level already, each
declaration where it comes first; a level is empty in the end.  A type parameter is bound if a
reference of the root, or of a declaration that can be reached from it, supplies an argument for it.
It is bound to the argument of the first such reference, by the order of the levels and within a
declaration the superclass before the interfaces, and there to the one at the lowest position. -/
theorem first_supplied_argument_is_bound (s : DeclarationStore) (root : DeclId)
    (h : s.BindsWithinLimit root) :
    let level := s.level WellKnown.isObject root
    let bindings := s.typeBindings root
    level 0 = [root] ∧
    (∀ n, level (n + 1) =
      (((level n).flatMap (s.targets WellKnown.isObject)).filter
        (· ∉ (List.range (n + 1)).flatMap level)).eraseDups) ∧
    (∃ N, level N = []) ∧
    (∀ k, bindings.get? k ≠ none ↔
      ∃ i, Relation.ReflTransGen (s.LeadsTo WellKnown.isObject) root i ∧
        ∃ d, s.get? i = some d ∧ ∃ t ∈ d.supertypes, ∃ n u, s.Supplies t k n u) ∧
    ∀ N, level N = [] →
      ∀ k u, bindings.get? k = some u ↔
        ∃ before t after n,
          ((List.range N).flatMap level).flatMap s.references = before ++ t :: after ∧
          s.Supplies t k n u ∧ (∀ m < n, ∀ v, ¬s.Supplies t k m v) ∧
          ∀ r ∈ before, ∀ m v, ¬s.Supplies r k m v := by
  obtain ⟨M, -, hM⟩ := exists_levels_expanded h
  refine ⟨rfl, level_succ root, ⟨M, hM⟩, fun k => get?_typeBindings_ne_none_iff h,
    fun N hN k u => ?_⟩
  rw [get?_typeBindings, requestedBindings_eq h hN, lookup_flatMap_pointBindings_eq_some_iff]

/-- A root that mentions a pair three times: without arguments, with one too few, and with one too
many.  Its superclass mentions the pair as well, and the root of the class hierarchy with an argument.
The pair extends a declaration with two type parameters of one name, and the root again. -/
def repeatedPair : DeclarationStore :=
  .ofList
    [{ name := "java.lang.Object", typeParams := [{ name := "T" }] },
      { name := "Base", kind := .interfaceType, typeParams := [{ name := "X" }, { name := "X" }] },
      { name := "Pair", kind := .interfaceType, typeParams := [{ name := "T" }, { name := "U" }],
        interfaces := [.generic "Base" [.named "Lower", .named "Upper", .named "Spare"],
          .generic "Root" [.named "Loop"]] },
      { name := "Middle", superclass := some (.generic "java.lang.Object" [.named "Any"]),
        interfaces := [.generic "Pair" [.named "Far", .named "Far"]] },
      { name := "Root", typeParams := [{ name := "S" }], superclass := some (.named "Middle"),
        interfaces := [.named "Pair", .generic "Pair" [.named "First"],
          .generic "Pair" [.named "Next", .named "Second", .named "Spare"]] }]

theorem bindsWithinLimit_repeatedPair : repeatedPair.BindsWithinLimit ⟨5⟩ :=
  bindsWithinLimit_iff.2 (by decide)

/-- The pair gets its type parameters from two references of the root, and those of the superclass do
not count. -/
theorem bound_arguments_repeatedPair :
    repeatedPair.BindsWithinLimit ⟨5⟩ ∧
      repeatedPair.level WellKnown.isObject ⟨5⟩ 3 = [] ∧
      let bindings := repeatedPair.typeBindings ⟨5⟩
      bindings.get? ⟨"Pair", "T"⟩ = some (.named "First") ∧
      bindings.get? ⟨"Pair", "U"⟩ = some (.named "Second") ∧
      bindings.get? ⟨"Base", "X"⟩ = some (.named "Lower") ∧
      bindings.get? ⟨"Root", "S"⟩ = some (.named "Loop") ∧
      bindings.get? ⟨"java.lang.Object", "T"⟩ = none := by
  obtain ⟨-, -, -, hsome, hfirst⟩ :=
    first_supplied_argument_is_bound repeatedPair ⟨5⟩ bindsWithinLimit_repeatedPair
  have hempty : repeatedPair.level WellKnown.isObject ⟨5⟩ 3 = [] := by decide
  -- what is supplied first is found in the list of what the references ask for
  have hbinds : ∀ k u,
      ((((List.range 3).flatMap (repeatedPair.level WellKnown.isObject ⟨5⟩)).flatMap
          repeatedPair.references).flatMap repeatedPair.pointBindings).lookup k = some u →
        (repeatedPair.typeBindings ⟨5⟩).get? k = some u :=
    fun k u hu => (hfirst 3 hempty k u).2 (lookup_flatMap_pointBindings_eq_some_iff.1 hu)
  refine ⟨bindsWithinLimit_repeatedPair, hempty, hbinds _ _ (by decide), hbinds _ _ (by decide),
    hbinds _ _ (by decide), hbinds _ _ (by decide), ?_⟩
  by_contra hbound
  obtain ⟨_, _, _, _, _, _, _, _, hsupplies⟩ := (hsome _).1 hbound
  exact hsupplies.owner_ne_object rfl

end DeclarationStore

end ActionSignatures
