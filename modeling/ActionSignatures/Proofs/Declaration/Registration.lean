/-
**A store after a run of registrations.**

A run registers declarations one after another on a new store and keeps the identifiers that the
registrations answer with.  One registration adds a declaration behind the others and changes what
one name stands for; so a store is known at every moment from the list of what was registered, in
which an identifier is a place and a name stands for the last declaration that has it.

Main definitions:

* `ActionSignatures.idsNamed` — the identifiers of the declarations that have a name;
* `ActionSignatures.DeclarationStore.registration` — **one registration** with its answer;
* `ActionSignatures.DeclarationStore.Holds` — **what a store holds** after a run.

Main results:

* `ActionSignatures.DeclarationStore.Holds.register` — one registration;
* `ActionSignatures.DeclarationStore.run_registrations` — **a run** with its answers;
* `ActionSignatures.DeclarationStore.Holds.idOf?_eq_some_iff` — a name stands for the greatest
  identifier of its declarations;
* `ActionSignatures.DeclarationStore.registrations_kept` — **everything that was registered can be
  read back**.
-/

import ActionSignatures.Proofs.Inheritance.Unresolved
import Mathlib.Order.Bounds.Basic

set_option relaxedAutoImplicit false
set_option autoImplicit false

namespace ActionSignatures

/-! ### The last declaration of a name -/

/-- The identifiers of the declarations of a name in a list that was registered in order. -/
def idsNamed (name : String) (ds : List TypeDeclaration) : Set Nat :=
  {id | ∃ i d, id = i + 1 ∧ ds[i]? = some d ∧ d.name = name}

/-- A declaration of another name adds no identifier. -/
theorem idsNamed_concat_of_ne {name : String} {ds : List TypeDeclaration} {d : TypeDeclaration}
    (h : d.name ≠ name) : idsNamed name (ds ++ [d]) = idsNamed name ds := by
  ext id
  constructor
  · rintro ⟨i, e, rfl, he, hname⟩
    have hlt : i < ds.length := by
      by_contra hge
      rw [List.getElem?_append_right (Nat.not_lt.1 hge), List.getElem?_singleton] at he
      split at he
      · exact h (Option.some.inj he ▸ hname)
      · cases he
    exact ⟨i, e, rfl, by rwa [List.getElem?_append_left hlt] at he, hname⟩
  · rintro ⟨i, e, rfl, he, hname⟩
    obtain ⟨hlt, -⟩ := List.getElem?_eq_some_iff.1 he
    exact ⟨i, e, rfl, by rwa [List.getElem?_append_left hlt], hname⟩

/-- The declaration registered last has the greatest identifier. -/
theorem isGreatest_idsNamed_concat (ds : List TypeDeclaration) (d : TypeDeclaration) :
    IsGreatest (idsNamed d.name (ds ++ [d])) (ds.length + 1) := by
  refine ⟨⟨ds.length, d, rfl, List.getElem?_concat_length .., rfl⟩, ?_⟩
  rintro id ⟨i, e, rfl, he, -⟩
  obtain ⟨hlt, -⟩ := List.getElem?_eq_some_iff.1 he
  rw [List.length_append, List.length_singleton] at hlt
  omega

/-- **A name stands for the greatest identifier** of its declarations. -/
theorem latestId?_eq_some_iff {name : String} {ds : List TypeDeclaration} {id : DeclId} :
    latestId? name ds = some id ↔ IsGreatest (idsNamed name ds) id.index := by
  induction ds using List.reverseRecOn with
  | nil =>
      constructor
      · intro h
        cases h
      · rintro ⟨⟨i, d, -, hd, -⟩, -⟩
        cases hd
  | append_singleton ds d ih =>
      rw [latestId?_concat]
      by_cases hname : d.name = name
      · subst hname
        rw [if_pos rfl, Option.some.injEq]
        have hgreatest := isGreatest_idsNamed_concat ds d
        constructor
        · rintro rfl
          exact hgreatest
        · intro h
          rw [hgreatest.unique h]
      · rw [if_neg hname, ih, idsNamed_concat_of_ne hname]

namespace DeclarationStore

/-! ### What a store holds -/

/-- **One registration**: it answers with the identifier of the declaration. -/
def registration (d : TypeDeclaration) : StateM DeclarationStore DeclId :=
  modifyGet fun s => (s.nextId, s.register d)

/-- **What a store holds** after a run: the declarations that were registered, in their order. -/
def Holds (s : DeclarationStore) (ds : List TypeDeclaration) : Prop := s.declarations.toList = ds

namespace Holds

variable {s : DeclarationStore} {ds : List TypeDeclaration}

theorem empty : Holds default [] := rfl

/-- **One registration** adds a declaration behind those that were registered before. -/
theorem register (h : s.Holds ds) (d : TypeDeclaration) : (s.register d).Holds (ds ++ [d]) := by
  rw [Holds, DeclarationStore.register, Array.toList_push, h]

theorem size_eq (h : s.Holds ds) : s.size = ds.length := by
  rw [size, ← Array.length_toList, h]

theorem nextId_eq (h : s.Holds ds) : s.nextId = ⟨ds.length + 1⟩ := by
  rw [nextId, h.size_eq]

theorem ids_eq (h : s.Holds ds) : s.ids = (List.range' 1 ds.length).map DeclId.mk := by
  rw [ids, h.size_eq]

/-- An identifier is the place of its declaration, counted from one. -/
theorem get?_succ (h : s.Holds ds) (i : Nat) : s.get? ⟨i + 1⟩ = ds[i]? := by
  rw [get?, if_neg (Nat.succ_ne_zero i), ← Array.getElem?_toList, h]
  rfl

theorem get?_eq_some_iff (h : s.Holds ds) {id : DeclId} {d : TypeDeclaration} :
    s.get? id = some d ↔ ∃ i, id = ⟨i + 1⟩ ∧ ds[i]? = some d := by
  obtain ⟨_ | i⟩ := id
  · simp [get?]
  · rw [h.get?_succ]
    simp

theorem mem_declarations_iff (h : s.Holds ds) {d : TypeDeclaration} :
    d ∈ s.declarations ↔ d ∈ ds := by
  rw [← Array.mem_toList_iff, h]

/-- A name stands for nothing if nothing of that name was registered. -/
theorem idOf?_eq_none_iff (h : s.Holds ds) {name : String} :
    s.idOf? name = none ↔ ∀ d ∈ ds, d.name ≠ name := by
  simp only [DeclarationStore.idOf?_eq_none_iff, h.mem_declarations_iff]

/-- **A name stands for the greatest identifier** of its declarations. -/
theorem idOf?_eq_some_iff (h : s.Holds ds) {name : String} {id : DeclId} :
    s.idOf? name = some id ↔
      IsGreatest {i | ∃ d, s.get? ⟨i⟩ = some d ∧ d.name = name} id.index := by
  have hids : {i | ∃ d, s.get? ⟨i⟩ = some d ∧ d.name = name} = idsNamed name ds := by
    ext i
    simp only [h.get?_eq_some_iff, Set.mem_ofPred_eq, DeclId.mk.injEq]
    constructor
    · rintro ⟨d, ⟨j, rfl, hd⟩, hname⟩
      exact ⟨j, d, rfl, hd, hname⟩
    · rintro ⟨j, d, rfl, hd, hname⟩
      exact ⟨d, ⟨j, rfl, hd⟩, hname⟩
  rw [idOf?_eq, h, hids, latestId?_eq_some_iff]

end Holds

/-- What is found under a name has the name. -/
theorem name_of_lookup? {s : DeclarationStore} {name : String} {d : TypeDeclaration}
    (hd : s.lookup? name = some d) : d.name = name := by
  obtain ⟨id, hid, hget⟩ := Option.bind_eq_some_iff.1 hd
  obtain ⟨e, he, hname⟩ := get?_of_idOf? hid
  obtain rfl := Option.some.inj (he.symm.trans hget)
  exact hname

/-- Nothing is found under a name exactly if the name stands for nothing. -/
theorem lookup?_eq_none_iff {s : DeclarationStore} {name : String} :
    s.lookup? name = none ↔ s.idOf? name = none := by
  cases hid : s.idOf? name with
  | none => simp [lookup?, hid]
  | some id =>
      obtain ⟨d, hd, -⟩ := get?_of_idOf? hid
      simp [lookup?_of_idOf? hid hd]

namespace Holds

variable {s : DeclarationStore} {ds : List TypeDeclaration}

/-- **A reference leads to a declaration** exactly if it is nominal and its name was registered. -/
theorem isSome_resolveType?_iff (h : s.Holds ds) {t : TypeRef} :
    (s.resolveType? t).isSome = true ↔
      ∃ d ∈ ds, t = .named d.name ∨ ∃ args, t = .generic d.name args := by
  have hsome : ∀ name, (s.idOf? name).isSome = true ↔ ∃ d ∈ ds, d.name = name := by
    intro name
    rw [Option.isSome_iff_ne_none, Ne, h.idOf?_eq_none_iff]
    simp
  cases t with
  | named name => simp [resolveType?, TypeRef.declaredName?, hsome, eq_comm]
  | param owner name bound => simp [resolveType?, TypeRef.declaredName?]
  | array element => simp [resolveType?, TypeRef.declaredName?]
  | generic base args => simp [resolveType?, TypeRef.declaredName?, hsome, eq_comm]

/-- A reference leads to an identifier that has been given. -/
theorem index_lt_of_resolveType? (h : s.Holds ds) {t : TypeRef} {id : DeclId}
    (hid : s.resolveType? t = some id) : id.index < s.graph.idBound := by
  obtain ⟨name, -, hname⟩ := Option.bind_eq_some_iff.1 hid
  obtain ⟨d, hd, -⟩ := get?_of_idOf? hname
  obtain ⟨i, rfl, hi⟩ := h.get?_eq_some_iff.1 hd
  obtain ⟨hlt, -⟩ := List.getElem?_eq_some_iff.1 hi
  rw [graph, h.nextId_eq]
  exact Nat.succ_lt_succ hlt

end Holds

/-! ### Runs -/

theorem nextId_register (s : DeclarationStore) (d : TypeDeclaration) :
    (s.register d).nextId = ⟨s.nextId.index + 1⟩ := by
  rw [nextId, size, register, Array.size_push]
  rfl

/-- **A run of registrations** answers with the identifiers in order, from the next one on. -/
theorem run_registrations (s : DeclarationStore) (ds : List TypeDeclaration) :
    (ds.mapM registration).run s =
      ((List.range' s.nextId.index ds.length).map DeclId.mk, ds.foldl register s) := by
  induction ds generalizing s with
  | nil => rfl
  | cons d ds ih =>
      rw [List.mapM_cons, StateT.run_bind]
      change ((ds.mapM registration >>= fun ids => pure (s.nextId :: ids)).run (s.register d)) = _
      rw [StateT.run_bind, ih, nextId_register, List.length_cons, List.range'_succ, List.map_cons,
        List.foldl_cons]
      rfl

/-- A run adds all its declarations behind those that were registered before. -/
theorem Holds.foldl_register {s : DeclarationStore} {before : List TypeDeclaration}
    (h : s.Holds before) (ds : List TypeDeclaration) :
    (ds.foldl DeclarationStore.register s).Holds (before ++ ds) := by
  induction ds generalizing s before with
  | nil => rwa [List.foldl_nil, List.append_nil]
  | cons d ds ih =>
      rw [List.foldl_cons, List.append_cons]
      exact ih (h.register d)

/-- **Everything that was registered can be read back.**  The registrations of a run on a new store
answer with 1, 2, 3, …, and these are the identifiers of the store behind the run, each with the
declaration that was registered, and no other number has one.  A name stands for the greatest
identifier of its declarations.  The references that lead somewhere are the nominal ones to names
that were registered, and they lead below the bound.  In a run of fewer than `2 ^ 32 - 1`
registrations the bound, and with it every identifier, is a number of 32 bits. -/
theorem registrations_kept (ds : List TypeDeclaration) (hcount : ds.length < UInt32.size - 1) :
    ∃ s : DeclarationStore,
      (ds.mapM registration).run default = ((List.range' 1 ds.length).map DeclId.mk, s) ∧
      s.ids = (List.range' 1 ds.length).map DeclId.mk ∧
      s.size = ds.length ∧
      (∀ i d, ds[i]? = some d → s.get? ⟨i + 1⟩ = some d) ∧
      (∀ id : DeclId, id.index = 0 ∨ ds.length < id.index → s.get? id = none) ∧
      (∀ name id, s.idOf? name = some id ↔
        IsGreatest {i | ∃ d, s.get? ⟨i⟩ = some d ∧ d.name = name} id.index) ∧
      (∀ name, s.idOf? name = none ↔ ∀ d ∈ ds, d.name ≠ name) ∧
      (∀ name d, s.lookup? name = some d → d.name = name) ∧
      (∀ name, s.lookup? name = none ↔ ∀ d ∈ ds, d.name ≠ name) ∧
      (∀ t, (s.resolveType? t).isSome = true ↔
        ∃ d ∈ ds, t = .named d.name ∨ ∃ args, t = .generic d.name args) ∧
      (∀ t id, s.resolveType? t = some id → id.index < s.graph.idBound) ∧
      s.graph.idBound = ds.length + 1 ∧ s.graph.idBound < UInt32.size := by
  have h : (ds.foldl register default).Holds ds := Holds.empty.foldl_register ds
  have hbound : (ds.foldl register default).graph.idBound = ds.length + 1 := by
    rw [graph, h.nextId_eq]
  refine ⟨_, run_registrations default ds, h.ids_eq, h.size_eq, fun i d hd => (h.get?_succ i).trans hd,
    fun id hid => ?_, fun name id => h.idOf?_eq_some_iff, fun name => h.idOf?_eq_none_iff,
    fun name d => name_of_lookup?, fun name => ?_, fun t => h.isSome_resolveType?_iff,
    fun t id => h.index_lt_of_resolveType?, hbound,
    hbound.trans_lt (Nat.lt_sub_iff_add_lt.1 hcount)⟩
  · rw [Option.eq_none_iff_forall_ne_some]
    intro d hd
    obtain ⟨i, rfl, hi⟩ := h.get?_eq_some_iff.1 hd
    obtain ⟨hlt, -⟩ := List.getElem?_eq_some_iff.1 hi
    obtain hzero | hbeyond := hid
    · cases hzero
    · exact absurd hlt (Nat.not_lt.2 (Nat.le_of_lt_succ hbeyond))
  · rw [← h.idOf?_eq_none_iff]
    exact lookup?_eq_none_iff

/-- An agent, a capacity, and another declaration of the agent. -/
def agentTwice : List TypeDeclaration :=
  [{ name := "Agent" }, { name := "Capacity", kind := .interfaceType },
    { name := "Agent", superclass := some (.named "Capacity") }]

/-- The second declaration takes over the name, and the first one stays under its identifier. -/
theorem registrations_agentTwice :
    agentTwice.length < UInt32.size - 1 ∧
      ∃ s : DeclarationStore, (agentTwice.mapM registration).run default = ([⟨1⟩, ⟨2⟩, ⟨3⟩], s) ∧
        s.get? ⟨1⟩ = some { name := "Agent" } ∧ s.idOf? "Agent" = some ⟨3⟩ ∧
        s.get? ⟨4⟩ = none ∧ s.idOf? "Behavior" = none ∧
        (s.resolveType? (.generic "Capacity" [.object])).isSome = true := by
  obtain ⟨s, hrun, -, -, hget, hnone, hname, hunknown, -, -, hresolve, -, -, -⟩ :=
    registrations_kept agentTwice (by decide)
  have hthird : s.get? ⟨3⟩ = some { name := "Agent", superclass := some (.named "Capacity") } :=
    hget 2 _ rfl
  refine ⟨by decide, s, hrun, hget 0 _ rfl, (hname _ _).2 ⟨⟨_, hthird, rfl⟩, ?_⟩,
    hnone _ (.inr (by decide)), (hunknown _).2 (by decide),
    (hresolve _).2 ⟨_, .tail _ (.head _), .inr ⟨_, rfl⟩⟩⟩
  rintro i ⟨d, hd, -⟩
  by_contra hbeyond
  rw [hnone ⟨i⟩ (.inr (Nat.not_le.1 hbeyond))] at hd
  cases hd

end DeclarationStore

end ActionSignatures
