/-
**How one prototype stands in a context.**

The three operation maps of a context are written together: a final operation takes its prototype
out of the operations to implement, a concrete one does so as well, and either keeps later ones out.
All of this happens at a single prototype at a time.  This module looks at one prototype through its
*standing*, the three entries that the maps hold for it, shows that recording an operation is a step
on the standing of its own prototype and leaves all others alone, and says in closed form what the
standing is after any sequence of operations.

Main definitions:

* `ActionSignatures.InheritedOperation.isConcrete`, `ActionSignatures.InheritedOperation.isPending`
  — operations that can be overridden, and those that are to be implemented;
* `ActionSignatures.Standing`, `ActionSignatures.Standing.after` — the entries of one prototype, and
  the step that an operation makes on them;
* `ActionSignatures.Standing.ofList` — **the standing that a sequence of operations leaves**;
* `ActionSignatures.InheritanceContext.InheritsOperation` — an operation with a prototype is inherited,
  however it stands.

Main results:

* `ActionSignatures.InheritanceContext.standing_recordOperation` — recording an operation is a step
  at its own prototype;
* `ActionSignatures.Standing.foldl_after` — **the closed form**;
* `ActionSignatures.InheritanceContext.standing_foldl` — the same for the context that is left when a
  sequence of operations has been recorded;
* `ActionSignatures.InheritanceContext.inheritsOperation_iff_of_standing_eq` — every operation leaves
  its prototype inherited.
-/

import ActionSignatures.Inheritance.Context
import Mathlib.Data.List.Induction
import Mathlib.Data.List.TakeWhile

set_option relaxedAutoImplicit false
set_option autoImplicit false

namespace ActionSignatures

/-! ### Sorts of operations -/

namespace InheritedOperation

/-- Whether the operation has a body and can be overridden. -/
def isConcrete (op : InheritedOperation) : Bool := !op.isAbstract && !op.isFinal

/-- Whether the operation waits for a body. -/
def isPending (op : InheritedOperation) : Bool := op.isAbstract && !op.isFinal

theorem isConcrete_eq_true_iff {op : InheritedOperation} :
    op.isConcrete = true ↔ op.isAbstract = false ∧ op.isFinal = false := by
  simp [isConcrete]

theorem isPending_eq_true_iff {op : InheritedOperation} :
    op.isPending = true ↔ op.isAbstract = true ∧ op.isFinal = false := by
  simp [isPending]

end InheritedOperation

/-! ### Standings -/

/-- **How a prototype stands**: the final operation, the overridable one and the one to implement
that are known for it. -/
@[ext]
structure Standing where
  final : Option InheritedOperation := none
  overridable : Option InheritedOperation := none
  toImplement : Option InheritedOperation := none

/-- How a prototype stands in a context. -/
def InheritanceContext.standing (c : InheritanceContext) (p : Prototype) : Standing where
  final := c.finalOperations[p]?
  overridable := c.overridableOperations[p]?
  toImplement := c.operationsToImplement[p]?

/-- An operation with a prototype is inherited: it is final, overridable, or to be implemented. -/
def InheritanceContext.InheritsOperation (c : InheritanceContext) (p : Prototype) : Prop :=
  p ∈ c.finalOperations ∨ p ∈ c.overridableOperations ∨ p ∈ c.operationsToImplement

namespace Standing

/-- The standing of a prototype after one more operation with it. -/
def after (t : Standing) (op : InheritedOperation) : Standing :=
  if op.isFinal then
    { t with final := t.final.or (some op), toImplement := none }
  else if t.final.isSome then
    t
  else if op.isAbstract then
    if t.overridable.isSome then t
    else { t with toImplement := t.toImplement.or (some op) }
  else
    { t with overridable := t.overridable.or (some op), toImplement := none }

/-- **The standing that a sequence of operations with one prototype leaves**: the first final one,
the first concrete one unless a final one comes before it, and the first one of all where all of them
wait for a body. -/
def ofList (ops : List InheritedOperation) : Standing where
  final := ops.find? (·.isFinal)
  overridable := (ops.takeWhile (!·.isFinal)).find? (·.isConcrete)
  toImplement := if ops.all (·.isPending) then ops.head? else none

end Standing

/-! ### Recording an operation -/

/-- What a map holds for a key when a value is inserted for another key unless that is known. -/
theorem getElem?_insertIfNew {κ α : Type} [Ord κ] [Std.TransOrd κ] [Std.LawfulEqOrd κ]
    [DecidableEq κ] (m : Std.ExtTreeMap κ α) (k : κ) (a : α) (l : κ) :
    (m.insertIfNew k a)[l]? = if k = l then m[l]?.or (some a) else m[l]? := by
  rw [Std.ExtTreeMap.getElem?_insertIfNew]
  simp only [Std.LawfulEqCmp.compare_eq_iff_eq]
  by_cases h : k = l
  · subst h
    by_cases hmem : k ∈ m <;> simp [hmem]
  · simp [h]

namespace InheritanceContext

theorem getElem?_erase (m : OperationMap) (k p : Prototype) :
    (m.erase k)[p]? = if k = p then none else m[p]? := by
  rw [Std.ExtTreeMap.getElem?_erase]
  simp only [Std.LawfulEqCmp.compare_eq_iff_eq]

/-- **Recording an operation** is a step at its own prototype; every other prototype stands as it
did. -/
theorem standing_recordOperation (c : InheritanceContext) (op : InheritedOperation)
    (p : Prototype) :
    (c.recordOperation op).standing p =
      if op.prototype = p then (c.standing p).after op else c.standing p := by
  have hfinal : c.finalOperations.contains op.prototype = (c.standing op.prototype).final.isSome :=
    Std.ExtTreeMap.contains_eq_isSome_getElem?
  have hoverridable : c.overridableOperations.contains op.prototype =
      (c.standing op.prototype).overridable.isSome :=
    Std.ExtTreeMap.contains_eq_isSome_getElem?
  by_cases hp : op.prototype = p
  · subst hp
    rw [if_pos rfl, recordOperation, Standing.after, hfinal, hoverridable]
    split_ifs <;> simp only [standing, getElem?_insertIfNew, getElem?_erase, if_true]
  · rw [if_neg hp, recordOperation]
    split_ifs <;> simp only [standing, getElem?_insertIfNew, getElem?_erase, if_neg hp]

end InheritanceContext

/-! ### The closed form -/

namespace Standing

/-- All operations wait for a body exactly where none is final and none is concrete before a final
one. -/
theorem all_isPending_iff {ops : List InheritedOperation} :
    ops.all (·.isPending) = true ↔
      (ofList ops).final = none ∧ (ofList ops).overridable = none := by
  simp only [ofList, List.all_eq_true, List.find?_eq_none]
  constructor
  · intro h
    refine ⟨fun op hop => ?_, fun op hop => ?_⟩
    · simp [(InheritedOperation.isPending_eq_true_iff.1 (h op hop)).2]
    · have hpending := h op ((List.takeWhile_prefix _).subset hop)
      simp [InheritedOperation.isConcrete, (InheritedOperation.isPending_eq_true_iff.1 hpending).1]
  · rintro ⟨hfinal, hconcrete⟩ op hop
    -- nothing is final, so that the search for a concrete operation goes through all of them
    have hall : ops.takeWhile (!·.isFinal) = ops := by
      rw [List.takeWhile_eq_self_iff]
      intro op hop
      simpa using hfinal op hop
    rw [hall] at hconcrete
    have hnot := hconcrete op hop
    have hopen := hfinal op hop
    simp only [InheritedOperation.isConcrete, InheritedOperation.isPending] at hnot ⊢
    simp_all

/-- Whatever a sequence of operations is, it leaves something, unless it is empty. -/
theorem ofList_eq_empty_iff {ops : List InheritedOperation} : ofList ops = {} ↔ ops = [] := by
  constructor
  · intro h
    have hpending : ops.all (·.isPending) = true :=
      all_isPending_iff.2 ⟨congrArg final h, congrArg overridable h⟩
    have hhead : (ofList ops).toImplement = ops.head? := if_pos hpending
    rw [h] at hhead
    exact List.head?_eq_none_iff.1 hhead.symm
  · rintro rfl
    rfl

/-! What one more operation at the end of a sequence does to each of the three entries. -/

theorem final_ofList_concat (ops : List InheritedOperation) (op : InheritedOperation) :
    (ofList (ops ++ [op])).final =
      (ofList ops).final.or (if op.isFinal then some op else none) := by
  cases hop : op.isFinal <;> simp [ofList, List.find?_append, hop]

theorem overridable_ofList_concat (ops : List InheritedOperation) (op : InheritedOperation) :
    (ofList (ops ++ [op])).overridable =
      if (ofList ops).final.isSome then (ofList ops).overridable
      else (ofList ops).overridable.or (if op.isConcrete then some op else none) := by
  by_cases hfinal : (ofList ops).final.isSome = true
  · -- a final operation stops the search in front of the one that is added
    rw [if_pos hfinal]
    obtain ⟨f, hf, hff⟩ := List.find?_isSome.1 hfinal
    have hshort : ¬(ops.takeWhile (!·.isFinal)).length = ops.length := by
      intro hlen
      have hself := (List.takeWhile_prefix (l := ops) (!·.isFinal)).eq_of_length hlen
      simpa [hff] using List.takeWhile_eq_self_iff.1 hself f hf
    simp only [ofList, List.takeWhile_append, if_neg hshort]
  · rw [if_neg hfinal]
    have hopen : ∀ f ∈ ops, (!f.isFinal) = true := by
      simpa [ofList, List.find?_isSome] using hfinal
    simp only [ofList, List.takeWhile_append_of_pos hopen, List.takeWhile_eq_self_iff.2 hopen,
      List.find?_append]
    cases hop : op.isFinal <;> cases hab : op.isAbstract <;>
      simp [InheritedOperation.isConcrete, hop, hab]

theorem toImplement_ofList_concat (ops : List InheritedOperation) (op : InheritedOperation) :
    (ofList (ops ++ [op])).toImplement =
      if ops.all (·.isPending) = true ∧ op.isPending = true then ops.head?.or (some op)
      else none := by
  simp [ofList, List.head?_append]

/-- What is to be implemented, after a step from the closed form: the first operation of all, where
each of them waits for a body. -/
theorem toImplement_after_ofList (ops : List InheritedOperation) (op : InheritedOperation) :
    ((ofList ops).after op).toImplement =
      if ops.all (·.isPending) = true ∧ op.isPending = true then ops.head?.or (some op)
      else none := by
  have hold : (ofList ops).toImplement = if ops.all (·.isPending) then ops.head? else none := rfl
  by_cases hall : ops.all (·.isPending) = true
  · obtain ⟨hfinal, hoverridable⟩ := all_isPending_iff.1 hall
    rw [if_pos hall] at hold
    simp only [hall, true_and]
    cases hop : op.isFinal <;> cases hab : op.isAbstract <;>
      simp [after, InheritedOperation.isPending, hfinal, hoverridable, hold, hop, hab]
  · -- something is final or concrete before, so that nothing is to be implemented any more
    rw [if_neg hall] at hold
    rw [if_neg fun h => hall h.1, after]
    split_ifs with hfinal hblocked habstract hknown
    · rfl
    · exact hold
    · exact hold
    · exact absurd (all_isPending_iff.2 ⟨by simpa using hblocked, by simpa using hknown⟩) hall
    · rfl

/-- One more operation at the end of a sequence is a step. -/
theorem ofList_concat (ops : List InheritedOperation) (op : InheritedOperation) :
    ofList (ops ++ [op]) = (ofList ops).after op := by
  ext1
  · rw [final_ofList_concat, after]
    split_ifs <;> simp_all
  · rw [overridable_ofList_concat, after]
    split_ifs <;> simp_all [InheritedOperation.isConcrete]
  · rw [toImplement_ofList_concat, toImplement_after_ofList]

/-- **The closed form** of the standing after a sequence of operations. -/
theorem foldl_after (ops : List InheritedOperation) : ops.foldl after {} = ofList ops := by
  -- the fold makes its last step at the end of the sequence, and so does the induction
  induction ops using List.reverseRecOn with
  | nil => rfl
  | append_singleton ops op ih =>
      rw [List.foldl_append, ih, ofList_concat]
      rfl

end Standing

namespace InheritanceContext

/-- Where a sequence of operations has left the standing of a prototype, an operation with it is
inherited if and only if there is one in the sequence. -/
theorem inheritsOperation_iff_of_standing_eq {c : InheritanceContext} {p : Prototype}
    {ops : List InheritedOperation}
    (h : c.standing p = Standing.ofList (ops.filter (·.prototype = p))) :
    c.InheritsOperation p ↔ ∃ op ∈ ops, op.prototype = p := by
  have hstands : c.InheritsOperation p ↔ c.standing p ≠ {} := by
    simp only [InheritsOperation, Std.ExtTreeMap.mem_iff_isSome_getElem?,
      Option.isSome_iff_ne_none, ne_eq, Standing.ext_iff, standing]
    tauto
  rw [hstands, h, ne_eq, Standing.ofList_eq_empty_iff, List.filter_eq_nil_iff]
  simp only [decide_eq_true_eq, not_forall, not_not, exists_prop]

/-- How a prototype stands after a sequence of operations: those with another prototype do not
count. -/
theorem standing_foldl (ops : List InheritedOperation) (c : InheritanceContext) (p : Prototype) :
    (ops.foldl recordOperation c).standing p =
      (ops.filter (·.prototype = p)).foldl Standing.after (c.standing p) := by
  induction ops generalizing c with
  | nil => rfl
  | cons op ops ih =>
      rw [List.foldl_cons, ih, standing_recordOperation, List.filter_cons]
      by_cases hp : op.prototype = p
      · simp [hp]
      · simp [hp]

end InheritanceContext

end ActionSignatures
