/-
**The members that hold default values.**

Where an overload leaves a parameter out, its plan names the member that holds the default value
declared.  The member is known by the type, the action and the position of the parameter, and by
nothing of the declaration that has the parameter.  So within one declaration of an action a member
holds one default value; but a type may declare an action several times, and parameters of two
declarations at one position have the same member.

Main definitions:

* `ActionSignatures.Argument.member?` — the member that an argument names;
* `ActionSignatures.TypeDeclaration.LeavesOut` — **an argument for a parameter that is left out** in
  an overload reported for one declaration of an action;
* `ActionSignatures.TypeDeclaration.MembersUnshared` — **no two default values have one member**.

Main results:

* `ActionSignatures.exists_default_argument_iff` — the arguments for the parameters that the
  overloads of a signature leave out are those of the default positions;
* `ActionSignatures.TypeDeclaration.membersUnshared_iff` — **members are shared exactly where
  default positions are**;
* `ActionSignatures.TypeDeclaration.members_by_position` — **what a member tells** about the
  argument that names it.
-/

import ActionSignatures.CommandLine.Run
import ActionSignatures.Proofs.Overload.Delegation
import Std.Data.String.ToNat

set_option relaxedAutoImplicit false
set_option autoImplicit false

namespace ActionSignatures

/-! ### The names of members -/

/-- The names of the members of one action tell the positions apart. -/
theorem DefaultValueId.memberName_inj {owner action : String} {i j : Nat} :
    memberName ⟨owner, action, i⟩ = memberName ⟨owner, action, j⟩ ↔ i = j := by
  refine ⟨fun h => ?_, fun h => by rw [h]⟩
  rw [memberName, memberName, String.append_right_inj, key, key, String.append_right_inj] at h
  exact Nat.repr_inj.1 h

namespace Argument

/-- The member that an argument names, if it stands for a parameter left out. -/
def member? : Argument → Option DefaultValueId
  | .forward .. => none
  | .default _ _ _ _ defaultId => defaultId

/-- The expression of the default value that is declared, if the argument stands for a parameter
left out. -/
def declared? : Argument → Option Expr
  | .forward .. => none
  | .default _ _ _ declared _ => declared

variable {omitted : List Nat} {origin : Option ActionOrigin} {p : Parameter} {i : Nat}

/-- The argument for a parameter left out does not depend on what else is left out. -/
theorem ofParameter_of_mem (h : i ∈ omitted) :
    ofParameter omitted origin p i = ofParameter [i] origin p i := by
  rw [ofParameter, ofParameter, if_pos (List.contains_iff_mem.2 h), if_pos (by simp)]

/-- The member of a parameter left out. -/
theorem member?_ofParameter {owner action : String} :
    (ofParameter [i] (some ⟨owner, action⟩) p i).member? = some ⟨owner, action, i⟩ := by
  rw [ofParameter, if_pos (by simp)]
  rfl

end Argument

/-! ### The arguments for parameters left out -/

section

variable {β : Type} {s : Signature} {options : SynthesisOptions} {origin : Option ActionOrigin}
  {body : β} {set : OverloadSet β}

/-- Where the synthesis succeeds it makes the overload of every omission. -/
theorem ofOmitted_mem_overloads (h : synthesizeFor options origin s body = .ok set)
    {omitted : List Nat} (ho : s.IsOmission omitted) :
    .ofOmitted s origin omitted ∈ set.overloads := by
  have hmax := options.effectiveMax_le
  obtain ⟨hlimit, -, rfl⟩ := synthesizeFor_eq_ok_iff.1 h
  obtain ⟨mask, ⟨hmask, rfl⟩, -⟩ :=
    Signature.existsUnique_mask_of_isOmission (by omega) ho
  exact List.mem_toArray.2 (List.mem_map.2 ⟨mask, List.mem_range.2 hmask, rfl⟩)

/-- **The arguments for parameters left out** in the overloads of a signature are those of its
default positions. -/
theorem exists_default_argument_iff (h : synthesizeFor options origin s body = .ok set)
    {a : Argument} :
    (∃ o ∈ set.overloads, a ∈ o.plan ∧ a.isDefault = true) ↔
      ∃ i p, i ∈ s.defaultPositions ∧ s.params[i]? = some p ∧ a = .ofParameter [i] origin p i := by
  constructor
  · rintro ⟨o, ho, ha, hdefault⟩
    obtain ⟨omitted, homission, rfl⟩ := exists_isOmission_of_mem_overloads h ho
    obtain ⟨⟨p, i⟩, hp, rfl⟩ := List.mem_map.1 ha
    have hi : i ∈ omitted := by simpa using hdefault
    exact ⟨i, p, homission.optional i hi, List.mem_zipIdx_iff_getElem?.1 hp,
      Argument.ofParameter_of_mem hi⟩
  · rintro ⟨i, p, hi, hp, rfl⟩
    have homission : s.IsOmission [i] :=
      ⟨List.cons_ne_nil _ _, List.pairwise_singleton .., by simpa using hi⟩
    refine ⟨_, ofOmitted_mem_overloads h homission, ?_, by simp⟩
    exact List.mem_map.2 ⟨(p, i), List.mem_zipIdx_iff_getElem?.2 hp, rfl⟩

end

/-! ### The declarations of an action -/

/-- The report on an operation holds the overloads that the synthesis makes. -/
theorem Operation.report_eq_ok_iff {op : Operation} {options : SynthesisOptions}
    {owner file : String} {r : ActionReport} :
    op.report options owner file = .ok r ↔ ∃ set,
      synthesizeAction options owner op.name op.signature () = .ok set ∧
        r = ⟨.ofSignature op.name op.signature, set⟩ := by
  rw [report]
  cases synthesizeAction options owner op.name op.signature () with
  | ok set =>
      constructor
      · rintro ⟨⟩
        exact ⟨set, rfl, rfl⟩
      · rintro ⟨set, ⟨⟩, rfl⟩
        rfl
  | error e =>
      constructor
      · rintro ⟨⟩
      · rintro ⟨set, ⟨⟩, -⟩

namespace TypeDeclaration

variable (d : TypeDeclaration) (options : SynthesisOptions) (action : String)

/-- The declaration of an action with a number is an operation, and there is a report on it. -/
structure Reports (n : Nat) (op : Operation) : Prop where
  declared : (d.declaredActions action)[n]? = some op
  reported : ∃ file report, op.report options d.name file = .ok report

/-- **An argument for a parameter that is left out** in an overload which is reported for the
declaration of an action with a number. -/
def LeavesOut (n : Nat) (a : Argument) : Prop :=
  ∃ op file report, (d.declaredActions action)[n]? = some op ∧
    op.report options d.name file = .ok report ∧
      ∃ o ∈ report.set.overloads, a ∈ o.plan ∧ a.isDefault = true

/-- **No two default values have one member**: an action names a member only for one position of one
of its declarations. -/
def MembersUnshared : Prop :=
  ∀ n a m b, d.LeavesOut options action n a → d.LeavesOut options action m b →
    a.member? = b.member? → n = m ∧ a.position = b.position

variable {d options action}

theorem name_of_mem_declaredActions {op : Operation} (h : op ∈ d.declaredActions action) :
    op.name = action := by
  have hnamed := (List.mem_filter.1 (List.mem_filter.1 h).1).2
  exact eq_of_beq hnamed

/-- The arguments for parameters left out are those of the default positions of the declarations
that are reported. -/
theorem leavesOut_iff {n : Nat} {a : Argument} :
    d.LeavesOut options action n a ↔ ∃ op, d.Reports options action n op ∧
      ∃ i p, i ∈ op.signature.defaultPositions ∧ op.signature.params[i]? = some p ∧
        a = .ofParameter [i] (some ⟨d.name, action⟩) p i := by
  constructor
  · rintro ⟨op, file, report, hop, hreport, ha⟩
    obtain ⟨set, hset, rfl⟩ := Operation.report_eq_ok_iff.1 hreport
    have hname := name_of_mem_declaredActions (List.mem_of_getElem? hop)
    rw [exists_default_argument_iff hset, hname] at ha
    exact ⟨op, ⟨hop, file, _, hreport⟩, ha⟩
  · rintro ⟨op, ⟨hop, file, report, hreport⟩, ha⟩
    obtain ⟨set, hset, rfl⟩ := Operation.report_eq_ok_iff.1 hreport
    have hname := name_of_mem_declaredActions (List.mem_of_getElem? hop)
    refine ⟨op, file, _, hop, hreport, (exists_default_argument_iff hset).2 ?_⟩
    rwa [hname]

/-- The member of a parameter left out is that of its position. -/
theorem LeavesOut.member?_eq {n : Nat} {a : Argument} (h : d.LeavesOut options action n a) :
    a.member? = some ⟨d.name, action, a.position⟩ := by
  obtain ⟨op, -, i, p, -, -, rfl⟩ := leavesOut_iff.1 h
  rw [Argument.member?_ofParameter, Argument.position_ofParameter]

/-- A position tells the parameters left out in the overloads of one declaration apart. -/
theorem LeavesOut.eq_of_position_eq {n : Nat} {a b : Argument}
    (ha : d.LeavesOut options action n a) (hb : d.LeavesOut options action n b)
    (heq : a.position = b.position) : a = b := by
  obtain ⟨op, hop, i, p, -, hp, rfl⟩ := leavesOut_iff.1 ha
  obtain ⟨op', hop', j, q, -, hq, rfl⟩ := leavesOut_iff.1 hb
  obtain rfl : op = op' := Option.some.inj (hop.declared.symm.trans hop'.declared)
  rw [Argument.position_ofParameter, Argument.position_ofParameter] at heq
  subst heq
  rw [Option.some.inj (hp.symm.trans hq)]

/-- **Members are shared exactly where default positions are.** -/
theorem membersUnshared_iff :
    d.MembersUnshared options action ↔ ∀ n op m op', d.Reports options action n op →
      d.Reports options action m op' → n ≠ m →
        op.signature.defaultPositions.Disjoint op'.signature.defaultPositions := by
  constructor
  · intro h n op m op' hop hop' hne i hi hi'
    obtain ⟨p, hp, -⟩ := Signature.mem_defaultPositions_iff.1 hi
    obtain ⟨q, hq, -⟩ := Signature.mem_defaultPositions_iff.1 hi'
    have ha := leavesOut_iff.2 ⟨op, hop, i, p, hi, hp, rfl⟩
    have hb := leavesOut_iff.2 ⟨op', hop', i, q, hi', hq, rfl⟩
    refine hne (h n _ m _ ha hb ?_).1
    rw [Argument.member?_ofParameter, Argument.member?_ofParameter]
  · intro h n a m b ha hb heq
    rw [ha.member?_eq, hb.member?_eq, Option.some.injEq, DefaultValueId.mk.injEq] at heq
    refine ⟨?_, heq.2.2⟩
    by_contra hne
    obtain ⟨op, hop, i, p, hi, -, rfl⟩ := leavesOut_iff.1 ha
    obtain ⟨op', hop', j, q, hj, -, rfl⟩ := leavesOut_iff.1 hb
    rw [Argument.position_ofParameter, Argument.position_ofParameter] at heq
    exact h n op m op' hop hop' hne hi (heq.2.2 ▸ hj)

/-- **What a member tells.**  Of the arguments that stand for parameters left out in the overloads
of an action, those with one member, or with members of one name, are those for one position.  In
the overloads of one declaration they are the same argument, with the same default value; and across
the declarations a member belongs to one of them exactly if no two of those that are reported have a
default value at the same position. -/
theorem members_by_position (d : TypeDeclaration) (options : SynthesisOptions) (action : String) :
    (∀ n a, d.LeavesOut options action n a → a.member? = some ⟨d.name, action, a.position⟩) ∧
    (∀ n a m b, d.LeavesOut options action n a → d.LeavesOut options action m b →
      (a.member? = b.member? ↔ a.position = b.position) ∧
      (a.member?.map (·.memberName) = b.member?.map (·.memberName) ↔ a.position = b.position)) ∧
    (∀ n a b, d.LeavesOut options action n a → d.LeavesOut options action n b →
      a.member? = b.member? → a = b) ∧
    (d.MembersUnshared options action ↔ ∀ n op m op', d.Reports options action n op →
      d.Reports options action m op' → n ≠ m →
        op.signature.defaultPositions.Disjoint op'.signature.defaultPositions) := by
  have hmember : ∀ n a m b, d.LeavesOut options action n a → d.LeavesOut options action m b →
      (a.member? = b.member? ↔ a.position = b.position) := by
    intro n a m b ha hb
    rw [ha.member?_eq, hb.member?_eq]
    simp
  refine ⟨fun n a ha => ha.member?_eq, fun n a m b ha hb => ⟨hmember n a m b ha hb, ?_⟩,
    fun n a b ha hb heq => ha.eq_of_position_eq hb ((hmember n a n b ha hb).1 heq),
    membersUnshared_iff⟩
  rw [ha.member?_eq, hb.member?_eq, Option.map_some, Option.map_some, Option.some.injEq,
    DefaultValueId.memberName_inj]

/-- A canvas that draws a text in a size, or a picture with or without a frame. -/
def canvas : TypeDeclaration where
  name := "Canvas"
  operations :=
    [{ name := "draw"
       signature :=
         { params :=
             [{ name := "text", type := .named "java.lang.String" },
               { name := "size", type := .primitive .int, hasDefaultValue := true,
                 defaultValue := some (.literal (.integer 12)) }]
           variadicLast := ⟨nofun, nofun, trivial⟩ } },
      { name := "draw"
        signature :=
          { params :=
              [{ name := "picture", type := .named "Picture" },
                { name := "frame", type := .primitive .boolean, hasDefaultValue := true,
                  defaultValue := some (.literal (.boolean true)) }]
            variadicLast := ⟨nofun, nofun, trivial⟩ } }]

/-- The size and the frame share a member, which would have to hold a number and a truth value.  The
overloads that name it, for a text and for a picture, are different. -/
theorem member_shared_canvas :
    ¬canvas.MembersUnshared {} "draw" ∧
      ∃ a b, canvas.LeavesOut {} "draw" 0 a ∧ canvas.LeavesOut {} "draw" 1 b ∧
        a.member? = b.member? ∧ a.declared? = some (.literal (.integer 12)) ∧
          b.declared? = some (.literal (.boolean true)) := by
  have hreports : ∀ n op, (canvas.declaredActions "draw")[n]? = some op →
      op.signature.defaultPositions.length ≤ ({} : SynthesisOptions).effectiveMax.toNat →
        (op.signature.typesBelow op.signature.overloadCount).Nodup →
          canvas.Reports {} "draw" n op := by
    intro n op hop hlimit hnodup
    have hset := synthesizeFor_of_nodup (some ⟨canvas.name, op.name⟩) () hlimit hnodup
    exact ⟨hop, "", _, Operation.report_eq_ok_iff.2 ⟨_, hset, rfl⟩⟩
  have htext := hreports 0 _ rfl (by decide) (by decide)
  have hpicture := hreports 1 _ rfl (by decide) (by decide)
  have ha := leavesOut_iff.2 ⟨_, htext, 1, _, by decide, rfl, rfl⟩
  have hb := leavesOut_iff.2 ⟨_, hpicture, 1, _, by decide, rfl, rfl⟩
  exact ⟨fun h => absurd (h 0 _ 1 _ ha hb rfl).1 (by decide), _, _, ha, hb, rfl, rfl, rfl⟩

end TypeDeclaration

end ActionSignatures
