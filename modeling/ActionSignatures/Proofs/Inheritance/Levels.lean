/-
**The walk, level by level.**

A walk follows one reference at a time.  It puts the references of every declaration that it visits
at the end of its queue, and decides only when a reference is taken off the queue whether the
declaration is new.  This module shows that the ancestors nevertheless come out in levels: first what
the references of the root lead to, then what the references of those lead to, and so on, each
declaration on the first level that it belongs to.  The levels are the distances from the root.  It
follows that a walk that is not cut short visits exactly what can be reached, and never goes back to a
smaller distance.

Main definitions:

* `ActionSignatures.freshIds` — those of some identifiers that have not been seen, once each;
* `ActionSignatures.DeclarationStore.level` — **the levels of a root**.

Main results:

* `ActionSignatures.DeclarationStore.level_succ` — a level is what the one before leads to, without
  what has been seen;
* `ActionSignatures.DeclarationStore.mem_level_iff` — **the level of a declaration is its distance**;
* `ActionSignatures.DeclarationStore.exists_levels_walked` — **the walk visits the levels one after
  another**;
* `ActionSignatures.DeclarationStore.ancestors_eq_levels` — the ancestors of a context, by levels;
* `ActionSignatures.DeclarationStore.ancestors_eq_reachable` — the ancestors of a context are what can
  be reached from the root.
-/

import ActionSignatures.Proofs.Inheritance.Paths
import Mathlib.Data.List.Nodup

set_option relaxedAutoImplicit false
set_option autoImplicit false

namespace ActionSignatures

/-! ### First occurrences -/

/-- Looking for first occurrences outside some elements, one element at a time: an element is passed
over if it is among them, and is from then on otherwise. -/
theorem eraseDups_filter_notMem_cons {α : Type} [DecidableEq α] (seen : List α) (a : α)
    (l : List α) :
    ((a :: l).filter (· ∉ seen)).eraseDups =
      if a ∈ seen then (l.filter (· ∉ seen)).eraseDups
      else a :: (l.filter (· ∉ a :: seen)).eraseDups := by
  by_cases h : a ∈ seen
  · simp [h]
  · rw [if_neg h, List.filter_cons_of_pos (by simpa using h), List.eraseDups_cons,
      List.filter_filter]
    have hsame : (l.filter fun b => !b == a && decide (b ∉ seen)) =
        l.filter fun b => decide (b ∉ a :: seen) := by
      refine List.filter_congr fun b _ => ?_
      rw [Bool.eq_iff_iff]
      simp [not_or]
    rw [hsame]

/-- Those of some identifiers that have not been seen, each where it occurs first. -/
def freshIds (seen ids : List DeclId) : List DeclId := (ids.filter (· ∉ seen)).eraseDups

@[simp] theorem freshIds_nil (seen : List DeclId) : freshIds seen [] = [] := rfl

theorem freshIds_cons (seen : List DeclId) (i : DeclId) (ids : List DeclId) :
    freshIds seen (i :: ids) =
      if i ∈ seen then freshIds seen ids else i :: freshIds (i :: seen) ids :=
  eraseDups_filter_notMem_cons seen i ids

theorem mem_freshIds {seen ids : List DeclId} {i : DeclId} :
    i ∈ freshIds seen ids ↔ i ∈ ids ∧ i ∉ seen := by
  simp [freshIds]

/-- Only the members of what has been seen count. -/
theorem freshIds_congr {seen seen' : List DeclId} (h : ∀ i, i ∈ seen ↔ i ∈ seen')
    (ids : List DeclId) : freshIds seen ids = freshIds seen' ids := by
  simp only [freshIds, h]

/-! ### Levels -/

namespace DeclarationStore

/-- The `n`-th level behind a level, where some identifiers have been seen. -/
def levelFrom (s : DeclarationStore) (excludes : String → Bool) (seen level : List DeclId) :
    Nat → List DeclId
  | 0 => level
  | n + 1 =>
      let next := freshIds seen (level.flatMap (s.targets excludes))
      s.levelFrom excludes (seen ++ next) next n

/-- **The levels of a root**: the root alone, and behind each level what its references lead to,
without what has been seen. -/
def level (s : DeclarationStore) (excludes : String → Bool) (root : DeclId) : Nat → List DeclId :=
  s.levelFrom excludes [root] [root]

variable {s : DeclarationStore} {excludes : String → Bool}

theorem levelFrom_succ (seen level : List DeclId) (n : Nat) :
    s.levelFrom excludes seen level (n + 1) =
      s.levelFrom excludes (seen ++ freshIds seen (level.flatMap (s.targets excludes)))
        (freshIds seen (level.flatMap (s.targets excludes))) n := rfl

/-- Nothing is behind an empty level. -/
theorem levelFrom_nil (seen : List DeclId) (n : Nat) : s.levelFrom excludes seen [] n = [] := by
  induction n generalizing seen with
  | zero => rfl
  | succ n ih => exact ih _

/-- The levels from the first to the `n`-th, with the first one in front. -/
theorem flatMap_levelFrom_succ (seen level : List DeclId) (n : Nat) :
    (List.range (n + 1)).flatMap (fun k => s.levelFrom excludes seen level (k + 1)) =
      freshIds seen (level.flatMap (s.targets excludes)) ++
        (List.range n).flatMap fun k =>
          s.levelFrom excludes (seen ++ freshIds seen (level.flatMap (s.targets excludes)))
            (freshIds seen (level.flatMap (s.targets excludes))) (k + 1) := by
  rw [List.range_succ_eq_map, List.flatMap_cons, List.flatMap_map]
  rfl

/-- What is seen when a level is made: what was seen at the start, and all levels in between. -/
theorem levelFrom_succ_eq_freshIds (seen level : List DeclId) (n : Nat) :
    s.levelFrom excludes seen level (n + 1) =
      freshIds (seen ++ (List.range n).flatMap fun k => s.levelFrom excludes seen level (k + 1))
        ((s.levelFrom excludes seen level n).flatMap (s.targets excludes)) := by
  induction n generalizing seen level with
  | zero =>
      rw [List.range_zero, List.flatMap_nil, List.append_nil]
      rfl
  | succ n ih => rw [levelFrom_succ, ih, flatMap_levelFrom_succ, List.append_assoc, levelFrom_succ]

@[simp] theorem level_zero (root : DeclId) : s.level excludes root 0 = [root] := rfl

/-- **A level is what the one before leads to**, without what is on a level up to that one. -/
theorem level_succ (root : DeclId) (n : Nat) :
    s.level excludes root (n + 1) =
      freshIds ((List.range (n + 1)).flatMap (s.level excludes root))
        ((s.level excludes root n).flatMap (s.targets excludes)) := by
  have hseen : (List.range (n + 1)).flatMap (s.level excludes root) =
      [root] ++ (List.range n).flatMap fun k => s.level excludes root (k + 1) := by
    rw [List.range_succ_eq_map, List.flatMap_cons, List.flatMap_map]
    rfl
  rw [hseen]
  exact levelFrom_succ_eq_freshIds [root] [root] n

/-- **The level of a declaration is its distance** from the root. -/
theorem mem_level_iff {root i : DeclId} {n : Nat} :
    i ∈ s.level excludes root n ↔ s.IsDistance excludes root n i := by
  -- what is seen when a level is made lies on the levels before it, so all of them are needed
  induction n using Nat.strongRecOn generalizing i with
  | ind n ih =>
      cases n with
      | zero =>
          rw [level_zero, List.mem_singleton]
          constructor
          · rintro rfl
            exact .root_self
          · exact fun h => h.eq_root
      | succ n =>
          have hseen : i ∈ (List.range (n + 1)).flatMap (s.level excludes root) ↔
              ∃ k < n + 1, s.IsDistance excludes root k i := by
            rw [List.mem_flatMap]
            constructor
            · rintro ⟨k, hk, hi⟩
              have hk := List.mem_range.1 hk
              exact ⟨k, hk, (ih k hk).1 hi⟩
            · rintro ⟨k, hk, hi⟩
              exact ⟨k, List.mem_range.2 hk, (ih k hk).2 hi⟩
          rw [level_succ, mem_freshIds, hseen, List.mem_flatMap]
          constructor
          · rintro ⟨⟨j, hj, hij⟩, hnew⟩
            have hj := (ih n (Nat.lt_succ_self n)).1 hj
            refine ⟨hj.path.concat (mem_targets_iff.1 hij), fun m hm => ?_⟩
            obtain ⟨k, hkm, hk⟩ := hm.exists_isDistance
            have hge : ¬k < n + 1 := fun hlt => hnew ⟨k, hlt, hk⟩
            omega
          · intro h
            obtain ⟨j, hj, hji⟩ := h.exists_pred
            refine ⟨⟨j, (ih n (Nat.lt_succ_self n)).2 hj, mem_targets_iff.2 hji⟩, ?_⟩
            rintro ⟨k, hk, hdistance⟩
            have := hdistance.unique h
            omega

/-! ### The findings of a walk, level by level -/

/-- The references that a walk puts into its queue when it visits a declaration. -/
def queued (s : DeclarationStore) (i : DeclId) : List AncestorEdge :=
  match s.get? i with
  | some d => d.edges false
  | none => []

theorem queued_of_get? {i : DeclId} {d : TypeDeclaration} (h : s.get? i = some d) :
    s.queued i = d.edges false := by
  rw [queued, h]

/-- The references in the queue are those of the declaration, whether or not it is the root. -/
theorem map_reference_edges (d : TypeDeclaration) (isRoot : Bool) :
    (d.edges isRoot).map (·.reference) = d.supertypes := by
  simp [TypeDeclaration.edges, TypeDeclaration.supertypes, Function.comp_def]

/-- Where the references in a queue lead. -/
def edgeTargets (s : DeclarationStore) (excludes : String → Bool) (edges : List AncestorEdge) :
    List DeclId :=
  edges.filterMap fun e => s.target? excludes e.reference

theorem edgeTargets_cons_of_eq_none {e : AncestorEdge}
    (h : s.target? excludes e.reference = none) (edges : List AncestorEdge) :
    s.edgeTargets excludes (e :: edges) = s.edgeTargets excludes edges :=
  List.filterMap_cons_none h

theorem edgeTargets_cons_of_eq_some {e : AncestorEdge} {i : DeclId}
    (h : s.target? excludes e.reference = some i) (edges : List AncestorEdge) :
    s.edgeTargets excludes (e :: edges) = i :: s.edgeTargets excludes edges :=
  List.filterMap_cons_some h

theorem edgeTargets_append (edges later : List AncestorEdge) :
    s.edgeTargets excludes (edges ++ later) =
      s.edgeTargets excludes edges ++ s.edgeTargets excludes later :=
  List.filterMap_append

theorem edgeTargets_edges {i : DeclId} {d : TypeDeclaration} (h : s.get? i = some d)
    (isRoot : Bool) : s.edgeTargets excludes (d.edges isRoot) = s.targets excludes i := by
  rw [targets_of_get? h, ← map_reference_edges d isRoot, List.filterMap_map]
  rfl

theorem edgeTargets_flatMap_queued (ids : List DeclId) :
    s.edgeTargets excludes (ids.flatMap s.queued) = ids.flatMap (s.targets excludes) := by
  rw [edgeTargets, List.filterMap_flatMap]
  refine List.flatMap_congr fun i _ => ?_
  cases hd : s.get? i with
  | none => rw [targets_of_get?_eq_none hd, queued, hd, List.filterMap_nil]
  | some d =>
      rw [queued_of_get? hd]
      exact edgeTargets_edges hd false

end DeclarationStore

/-- The identifiers of the ancestors found. -/
def Finding.ids (fs : List Finding) : List DeclId := (fs.filterMap ancestor?).map (·.1)

namespace Finding

@[simp] theorem ids_nil : ids [] = [] := rfl

@[simp] theorem ids_ancestor (id : DeclId) (d : TypeDeclaration) (isRootSuperclass : Bool)
    (fs : List Finding) : ids (.ancestor id d isRootSuperclass :: fs) = id :: ids fs := rfl

@[simp] theorem ids_unresolved (e : AncestorEdge) (fs : List Finding) :
    ids (.unresolved e :: fs) = ids fs := rfl

end Finding

namespace DeclarationStore

variable {s : DeclarationStore} {excludes : String → Bool}

/-! What one step of a walk finds, by where the reference leads. -/

theorem findings_cons_of_excluded {e : AncestorEdge}
    (hx : e.reference.declaredName?.any excludes = true) (left : Nat) (visited : List DeclId)
    (edges : List AncestorEdge) :
    s.findings excludes (left + 1) visited (e :: edges) =
      s.findings excludes left visited edges := by
  rw [findings, if_pos hx]

theorem findings_cons_of_unresolved {e : AncestorEdge}
    (hx : ¬e.reference.declaredName?.any excludes = true) (hn : s.ancestor? e.reference = none)
    (left : Nat) (visited : List DeclId) (edges : List AncestorEdge) :
    s.findings excludes (left + 1) visited (e :: edges) =
      (.unresolved e :: (s.findings excludes left visited edges).1,
        (s.findings excludes left visited edges).2) := by
  rw [findings, if_neg hx, hn]

theorem findings_cons_of_mem {e : AncestorEdge}
    (hx : ¬e.reference.declaredName?.any excludes = true) {id : DeclId} {d : TypeDeclaration}
    (hn : s.ancestor? e.reference = some (id, d)) {visited : List DeclId} (hv : id ∈ visited)
    (left : Nat) (edges : List AncestorEdge) :
    s.findings excludes (left + 1) visited (e :: edges) =
      s.findings excludes left visited edges := by
  rw [findings, if_neg hx, hn]
  exact if_pos hv

theorem findings_cons_of_notMem {e : AncestorEdge}
    (hx : ¬e.reference.declaredName?.any excludes = true) {id : DeclId} {d : TypeDeclaration}
    (hn : s.ancestor? e.reference = some (id, d)) {visited : List DeclId} (hv : id ∉ visited)
    (left : Nat) (edges : List AncestorEdge) :
    s.findings excludes (left + 1) visited (e :: edges) =
      (.ancestor id d e.isRootSuperclass ::
          (s.findings excludes left (id :: visited) (edges ++ d.edges false)).1,
        (s.findings excludes left (id :: visited) (edges ++ d.edges false)).2) := by
  rw [findings, if_neg hx, hn]
  exact if_neg hv

/-- No ancestor is found twice, or after it has been visited. -/
theorem nodup_ids_findings (left : Nat) (visited : List DeclId) (edges : List AncestorEdge) :
    (Finding.ids (s.findings excludes left visited edges).1).Nodup ∧
      ∀ i ∈ Finding.ids (s.findings excludes left visited edges).1, i ∉ visited := by
  fun_induction s.findings excludes left visited edges with
  | case1 => simp
  | case2 => simp
  | case3 left visited e edges hx ih => exact ih
  | case4 left visited e edges hx hn rest ih => exact ih
  | case5 left visited e edges hx id d hn hv ih => exact ih
  | case6 left visited e edges hx id d hn hv rest ih =>
      obtain ⟨hnodup, hnew⟩ := ih
      rw [Finding.ids_ancestor]
      refine ⟨List.nodup_cons.2 ⟨fun hid => ?_, hnodup⟩, fun i hi => ?_⟩
      · exact hnew id hid List.mem_cons_self
      · rcases List.mem_cons.1 hi with rfl | hi
        · exact hv
        · exact fun hvisited => hnew i hi (List.mem_cons_of_mem id hvisited)

/-- **A walk goes through the front part of its queue** and finds what is new among the targets; the
references of what it finds then stand behind the rest of the queue. -/
theorem ids_findings_append {left : Nat} {visited : List DeclId} {edges later : List AncestorEdge}
    (h : (s.findings excludes left visited (edges ++ later)).2 = false) :
    let new := freshIds visited (s.edgeTargets excludes edges)
    let rest := s.findings excludes (left - edges.length) (new.reverse ++ visited)
      (later ++ new.flatMap s.queued)
    edges.length ≤ left ∧ rest.2 = false ∧
      Finding.ids (s.findings excludes left visited (edges ++ later)).1 =
        new ++ Finding.ids rest.1 := by
  -- the references found on the way are added to what comes later, so that part is generalised
  induction edges generalizing left visited later with
  | nil =>
      simp only [edgeTargets, List.filterMap_nil, freshIds_nil, List.reverse_nil, List.nil_append,
        List.flatMap_nil, List.append_nil, List.length_nil, Nat.sub_zero]
      exact ⟨Nat.zero_le left, h, trivial⟩
  | cons e edges ih =>
      cases left with
      | zero => simp [findings] at h
      | succ left =>
          rw [List.cons_append] at h ⊢
          have hlength : left + 1 - (e :: edges).length = left - edges.length := by
            simp
          have hle : edges.length ≤ left → (e :: edges).length ≤ left + 1 := by
            simp
          rw [hlength]
          by_cases hx : e.reference.declaredName?.any excludes = true
          · rw [findings_cons_of_excluded hx] at h ⊢
            rw [edgeTargets_cons_of_eq_none (target?_of_excluded hx)]
            obtain ⟨hshort, hrest⟩ := ih h
            exact ⟨hle hshort, hrest⟩
          · cases hn : s.ancestor? e.reference with
            | none =>
                have htarget : s.target? excludes e.reference = none := by
                  rw [target?_of_not_excluded hx, hn, Option.map_none]
                rw [findings_cons_of_unresolved hx hn] at h ⊢
                rw [edgeTargets_cons_of_eq_none htarget]
                obtain ⟨hshort, hrest⟩ := ih h
                exact ⟨hle hshort, hrest⟩
            | some a =>
                obtain ⟨id, d⟩ := a
                have htarget : s.target? excludes e.reference = some id := by
                  rw [target?_of_not_excluded hx, hn, Option.map_some]
                rw [edgeTargets_cons_of_eq_some htarget, freshIds_cons]
                by_cases hv : id ∈ visited
                · rw [findings_cons_of_mem hx hn hv] at h ⊢
                  rw [if_pos hv]
                  obtain ⟨hshort, hrest⟩ := ih h
                  exact ⟨hle hshort, hrest⟩
                · rw [findings_cons_of_notMem hx hn hv, List.append_assoc] at h
                  rw [findings_cons_of_notMem hx hn hv, List.append_assoc, if_neg hv]
                  dsimp only
                  rw [List.flatMap_cons, queued_of_get? (ancestor?_eq_some_iff.1 hn).2,
                    ← List.append_assoc later, List.reverse_cons, List.append_assoc _ [id],
                    List.singleton_append, Finding.ids_ancestor, List.cons_append]
                  obtain ⟨hshort, hcut, hids⟩ := ih h
                  exact ⟨hle hshort, hcut, congrArg (id :: ·) hids⟩

/-- **A walk finds the levels one after another**, from a queue with the references of a level. -/
theorem exists_levels_findings {left : Nat} {visited seen level : List DeclId}
    {edges : List AncestorEdge} (hseen : ∀ i, i ∈ visited ↔ i ∈ seen)
    (hedges : s.edgeTargets excludes edges = level.flatMap (s.targets excludes))
    (h : (s.findings excludes left visited edges).2 = false) :
    ∃ N, Finding.ids (s.findings excludes left visited edges).1 =
        (List.range N).flatMap (fun n => s.levelFrom excludes seen level (n + 1)) ∧
      ∀ n, N ≤ n → s.levelFrom excludes seen level (n + 1) = [] := by
  -- a level uses up as many references as it has, and one without references is the last
  induction left using Nat.strongRecOn generalizing visited seen level edges with
  | ind left ih =>
      have hnew : freshIds visited (s.edgeTargets excludes edges) =
          freshIds seen (level.flatMap (s.targets excludes)) := by
        rw [freshIds_congr hseen, hedges]
      cases edges with
      | nil =>
          refine ⟨0, ?_, fun n _ => ?_⟩
          · cases left <;> rfl
          · rw [levelFrom_succ, ← hedges]
            exact levelFrom_nil _ n
      | cons e edges =>
          have happ : (s.findings excludes left visited (e :: edges ++ [])).2 = false := by
            rw [List.append_nil]
            exact h
          obtain ⟨hshort, hcut, hids⟩ := ids_findings_append happ
          rw [List.append_nil, hnew] at hids
          rw [hnew, List.nil_append] at hcut
          rw [List.nil_append] at hids
          have hless : left - (e :: edges).length < left := by
            rw [List.length_cons] at hshort ⊢
            omega
          -- what has been visited by then is what has been seen up to the next level
          have hvisited : ∀ i,
              i ∈ (freshIds seen (level.flatMap (s.targets excludes))).reverse ++ visited ↔
                i ∈ seen ++ freshIds seen (level.flatMap (s.targets excludes)) := by
            intro i
            rw [List.mem_append, List.mem_reverse, hseen i, List.mem_append]
            exact Or.comm
          obtain ⟨N, hN, hempty⟩ := ih _ hless hvisited (edgeTargets_flatMap_queued _) hcut
          refine ⟨N + 1, ?_, fun n hn => ?_⟩
          · rw [hids, hN, flatMap_levelFrom_succ]
          · cases n with
            | zero => omega
            | succ n => exact hempty n (by omega)

/-! ### The ancestors of a root -/

/-- The name of the declaration with an identifier. -/
def nameOf? (s : DeclarationStore) (i : DeclId) : Option String := (s.get? i).map (·.name)

section

variable (s : DeclarationStore) (options : ResolverOptions) (root : DeclId) (excluded : List String)

/-- **The walk visits the levels one after another**, until one is empty. -/
theorem exists_levels_walked (h : s.isCut options root excluded = false) :
    ∃ N, (s.walked options root excluded).map (·.1) =
        (List.range N).flatMap (fun n => s.level (options.excludes excluded) root (n + 1)) ∧
      ∀ n, N ≤ n → s.level (options.excludes excluded) root (n + 1) = [] := by
  cases hd : s.get? root with
  | none =>
      refine ⟨0, ?_, fun n _ => ?_⟩
      · rw [walked, found, hd]
        rfl
      · rw [level, levelFrom_succ, List.flatMap_singleton, targets_of_get?_eq_none hd, freshIds_nil]
        exact levelFrom_nil _ n
  | some d =>
      rw [isCut, hd] at h
      have hwalked : (s.walked options root excluded).map (·.1) =
          Finding.ids (s.findings (options.excludes excluded) Limits.maxAncestorEdges [root]
            (d.edges true)).1 := by
        rw [walked, found, hd]
        rfl
      rw [hwalked]
      refine exists_levels_findings (fun i => Iff.rfl) ?_ h
      rw [edgeTargets_edges hd, List.flatMap_singleton]

/-- No declaration is visited twice. -/
theorem nodup_walked : ((s.walked options root excluded).map (·.1)).Nodup := by
  rw [walked, found]
  split
  · exact (nodup_ids_findings _ _ _).1
  · exact List.nodup_nil

/-- No name is visited twice, as a name stands for one declaration. -/
theorem nodup_ancestors : (s.inheritance options root excluded).ancestors.toList.Nodup := by
  rw [ancestors_inheritance]
  refine List.Nodup.of_map s.idOf? ?_
  have hids : ((s.walked options root excluded).map (·.2.name)).map s.idOf? =
      ((s.walked options root excluded).map (·.1)).map some := by
    rw [List.map_map, List.map_map]
    refine List.map_congr_left fun a ha => ?_
    exact (s.idOf?_of_mem_walked options root excluded ha).1
  rw [hids]
  exact (s.nodup_walked options root excluded).map fun _ _ h => Option.some.inj h

variable {s options root excluded}

/-- The walk does not visit its root. -/
theorem ne_root_of_mem_walked {a : DeclId × TypeDeclaration}
    (h : a ∈ s.walked options root excluded) : a.1 ≠ root := by
  rw [walked, found] at h
  split at h
  · refine fun heq => (nodup_ids_findings _ _ _).2 a.1 (List.mem_map_of_mem h) ?_
    rw [heq]
    exact List.mem_singleton_self root
  · exact absurd h List.not_mem_nil

/-- What is on one of the levels behind the root is visited, and nothing else is. -/
theorem mem_map_fst_walked_iff (h : s.isCut options root excluded = false) {i : DeclId} :
    i ∈ (s.walked options root excluded).map (·.1) ↔
      ∃ n, s.IsDistance (options.excludes excluded) root (n + 1) i := by
  obtain ⟨N, hN, hempty⟩ := s.exists_levels_walked options root excluded h
  rw [hN, List.mem_flatMap]
  constructor
  · rintro ⟨n, _, hi⟩
    exact ⟨n, mem_level_iff.1 hi⟩
  · rintro ⟨n, hn⟩
    have hi := mem_level_iff.2 hn
    refine ⟨n, List.mem_range.2 ?_, hi⟩
    by_contra hge
    rw [hempty n (by omega)] at hi
    exact absurd hi List.not_mem_nil

/-- What has a positive distance is reached from the root, and is not the root. -/
theorem exists_isDistance_succ_iff {excludes : String → Bool} {i : DeclId} :
    (∃ n, s.IsDistance excludes root (n + 1) i) ↔
      i ≠ root ∧ Relation.TransGen (s.LeadsTo excludes) root i := by
  rw [transGen_leadsTo_iff]
  constructor
  · rintro ⟨n, hn⟩
    refine ⟨?_, n, hn.path⟩
    rintro rfl
    have := hn.least 0 .nil
    omega
  · rintro ⟨hne, n, hpath⟩
    obtain ⟨m, _, hm⟩ := hpath.exists_isDistance
    cases m with
    | zero => exact absurd hm.eq_root hne
    | succ m => exact ⟨m, hm⟩

/-- **The walk visits what can be reached** from the root, apart from the root. -/
theorem mem_walked_iff (h : s.isCut options root excluded = false)
    {a : DeclId × TypeDeclaration} :
    a ∈ s.walked options root excluded ↔
      s.get? a.1 = some a.2 ∧ a.1 ≠ root ∧
        Relation.TransGen (s.LeadsTo (options.excludes excluded)) root a.1 := by
  rw [← exists_isDistance_succ_iff, ← mem_map_fst_walked_iff h]
  constructor
  · intro ha
    exact ⟨(s.idOf?_of_mem_walked options root excluded ha).2, List.mem_map_of_mem ha⟩
  · rintro ⟨hd, hid⟩
    obtain ⟨b, hb, hfst⟩ := List.mem_map.1 hid
    -- the declaration with an identifier is the one that is visited under it
    have hb' := (s.idOf?_of_mem_walked options root excluded hb).2
    rw [hfst, hd] at hb'
    have hab : a = b := Prod.ext hfst.symm (Option.some.inj hb')
    rw [hab]
    exact hb

/-- **The distance from the root never decreases** along the walk. -/
theorem pairwise_isDistance_walked (h : s.isCut options root excluded = false) :
    (s.walked options root excluded).Pairwise fun a b =>
      ∃ m n, s.IsDistance (options.excludes excluded) root m a.1 ∧
        s.IsDistance (options.excludes excluded) root n b.1 ∧ m ≤ n := by
  obtain ⟨N, hN, _⟩ := s.exists_levels_walked options root excluded h
  have hids : ((s.walked options root excluded).map (·.1)).Pairwise fun i j =>
      ∃ m n, s.IsDistance (options.excludes excluded) root m i ∧
        s.IsDistance (options.excludes excluded) root n j ∧ m ≤ n := by
    rw [hN, List.pairwise_flatMap]
    constructor
    · intro n _
      refine List.pairwise_of_forall_mem_list fun i hi j hj => ?_
      exact ⟨n + 1, n + 1, mem_level_iff.1 hi, mem_level_iff.1 hj, Nat.le_refl _⟩
    · refine List.pairwise_lt_range.imp fun hlt i hi j hj => ?_
      exact ⟨_, _, mem_level_iff.1 hi, mem_level_iff.1 hj, by omega⟩
  exact List.pairwise_map.1 hids

/-- The same for the names of the ancestors. -/
theorem pairwise_isDistance_ancestors (h : s.isCut options root excluded = false) :
    (s.inheritance options root excluded).ancestors.toList.Pairwise fun a b =>
      ∃ i j m n, s.idOf? a = some i ∧ s.idOf? b = some j ∧
        s.IsDistance (options.excludes excluded) root m i ∧
        s.IsDistance (options.excludes excluded) root n j ∧ m ≤ n := by
  rw [ancestors_inheritance, List.pairwise_map]
  refine (pairwise_isDistance_walked h).imp_of_mem ?_
  rintro a b ha hb ⟨m, n, hm, hn, hle⟩
  have hia := (s.idOf?_of_mem_walked options root excluded ha).1
  have hib := (s.idOf?_of_mem_walked options root excluded hb).1
  exact ⟨a.1, b.1, m, n, hia, hib, hm, hn, hle⟩

end

/-! ### What the ancestors of a context are -/

/-- A hierarchy with a diamond above the root, a cycle back to the root, a name that is registered
twice, and a reference to a name that is not registered. -/
def cyclicDiamond : DeclarationStore :=
  .ofList
    [{ name := "Top", kind := .interfaceType, interfaces := [.named "Root"] },
      { name := "Left", kind := .interfaceType, interfaces := [.named "Top"] },
      { name := "Right", kind := .interfaceType },
      { name := "Right", kind := .interfaceType, interfaces := [.named "Top"] },
      { name := "Root", interfaces := [.named "Left", .named "Right", .named "Missing"] }]

theorem truncated_cyclicDiamond : (cyclicDiamond.inheritance {} ⟨5⟩ []).truncated = none := by
  rw [truncated_inheritance_eq_none_iff]
  decide

/-- **The ancestors of a context are what can be reached from the root**, once each.  A step of a path
follows a nominal reference to the declaration that stands for a registered name which is not passed
over; the path may go through the root, but the root is no ancestor. -/
theorem ancestors_eq_reachable (s : DeclarationStore) (options : ResolverOptions) (root : DeclId)
    (excluded : List String) (h : (s.inheritance options root excluded).truncated = none) :
    (s.inheritance options root excluded).ancestors.toList.Nodup ∧
      ∀ name, name ∈ (s.inheritance options root excluded).ancestors.toList ↔
        ∃ i d, i ≠ root ∧ s.get? i = some d ∧ d.name = name ∧
          Relation.TransGen (s.LeadsTo (options.excludes excluded)) root i := by
  have hcut := (s.truncated_inheritance_eq_none_iff options root excluded).1 h
  refine ⟨s.nodup_ancestors options root excluded, fun name => ?_⟩
  rw [ancestors_inheritance, List.mem_map]
  constructor
  · rintro ⟨⟨i, d⟩, ha, hname⟩
    obtain ⟨hd, hne, hreach⟩ := (mem_walked_iff hcut).1 ha
    exact ⟨i, d, hne, hd, hname, hreach⟩
  · rintro ⟨i, d, hne, hd, hname, hreach⟩
    exact ⟨(i, d), (mem_walked_iff hcut).2 ⟨hd, hne, hreach⟩, hname⟩

/-- In the cyclic diamond nothing is visited twice, and the root is no ancestor of itself. -/
theorem ancestors_reachable_cyclicDiamond :
    (cyclicDiamond.inheritance {} ⟨5⟩ []).truncated = none ∧
      (cyclicDiamond.inheritance {} ⟨5⟩ []).ancestors.toList.Nodup ∧
      ∀ name, name ∈ (cyclicDiamond.inheritance {} ⟨5⟩ []).ancestors.toList ↔
        ∃ i d, i ≠ ⟨5⟩ ∧ cyclicDiamond.get? i = some d ∧ d.name = name ∧
          Relation.TransGen
            (cyclicDiamond.LeadsTo (({} : ResolverOptions).excludes [])) ⟨5⟩ i :=
  ⟨truncated_cyclicDiamond, ancestors_eq_reachable cyclicDiamond {} ⟨5⟩ [] truncated_cyclicDiamond⟩

/-- **The ancestors of a context, level by level.**  The levels start from the root; the next one is
what the references of a level lead to, in their order and without what is on a level already, each
declaration where it comes first.  The ancestors are the levels behind the root up to one from which
on all are empty, and the length of a shortest path from the root never decreases along them. -/
theorem ancestors_eq_levels (s : DeclarationStore) (options : ResolverOptions) (root : DeclId)
    (excluded : List String) (h : (s.inheritance options root excluded).truncated = none) :
    let excludes := options.excludes excluded
    let level := s.level excludes root
    let ancestors := (s.inheritance options root excluded).ancestors.toList
    level 0 = [root] ∧
    (∀ n, level (n + 1) =
      (((level n).flatMap (s.targets excludes)).filter
        (· ∉ (List.range (n + 1)).flatMap level)).eraseDups) ∧
    (∃ N, ancestors.map some = ((List.range N).flatMap fun n => level (n + 1)).map s.nameOf? ∧
      ∀ n, N < n → level n = []) ∧
    ancestors.Pairwise fun a b =>
      ∃ i j m n, s.idOf? a = some i ∧ s.idOf? b = some j ∧
        s.IsDistance excludes root m i ∧ s.IsDistance excludes root n j ∧ m ≤ n := by
  have hcut := (s.truncated_inheritance_eq_none_iff options root excluded).1 h
  refine ⟨rfl, level_succ root, ?_, pairwise_isDistance_ancestors hcut⟩
  obtain ⟨N, hN, hempty⟩ := s.exists_levels_walked options root excluded hcut
  refine ⟨N, ?_, fun n hn => ?_⟩
  · rw [ancestors_inheritance, ← hN, List.map_map, List.map_map]
    refine List.map_congr_left fun a ha => ?_
    have hd := (s.idOf?_of_mem_walked options root excluded ha).2
    simp only [Function.comp_apply, nameOf?, hd, Option.map_some]
  · cases n with
    | zero => omega
    | succ n => exact hempty n (by omega)

/-- In the cyclic diamond the two sides come first, and then the top, which both of them mention. -/
theorem ancestors_levels_cyclicDiamond :
    (cyclicDiamond.inheritance {} ⟨5⟩ []).truncated = none ∧
      ∃ N, (cyclicDiamond.inheritance {} ⟨5⟩ []).ancestors.toList.map some =
          ((List.range N).flatMap fun n =>
            cyclicDiamond.level (({} : ResolverOptions).excludes []) ⟨5⟩ (n + 1)).map
              cyclicDiamond.nameOf? ∧
        ∀ n, N < n → cyclicDiamond.level (({} : ResolverOptions).excludes []) ⟨5⟩ n = [] :=
  ⟨truncated_cyclicDiamond,
    (ancestors_eq_levels cyclicDiamond {} ⟨5⟩ [] truncated_cyclicDiamond).2.2.1⟩

end DeclarationStore

end ActionSignatures
