/-
**Naming the members that hold default values.**

The synthesis can be told the owner and the name of the action, and then it names the member that
holds the default value of every parameter left out.  It runs through the same masks either way, and
what decides about the next overload, the parameter types seen so far, knows nothing of members.  So
the two runs go side by side, mask by mask, and end in the same error or in overloads that are the
same but for the members.

Main definitions:

* `ActionSignatures.Argument.unnamed`, `ActionSignatures.Overload.unnamed`,
  `ActionSignatures.OverloadSet.unnamed` — **forgetting the members**;
* `ActionSignatures.Overload.DefaultAt` — **the argument at a position** that is left out;
* `ActionSignatures.Synthesized.unnamed` — what has been made, with the members forgotten.

Main results:

* `ActionSignatures.Synthesized.map_unnamed_add`, `ActionSignatures.Synthesized.map_unnamed_addFrom`
  — one mask, and **the run**, with and without members;
* `ActionSignatures.synthesizeFor_unnamed` — the synthesis with its members forgotten is the one
  without them;
* `ActionSignatures.Overload.DefaultAt.member?_eq` — the member of a parameter left out;
* `ActionSignatures.naming_changes_members_only` — **naming the members changes nothing else**.
-/

import ActionSignatures.Proofs.Overload.DefaultMembers

set_option relaxedAutoImplicit false
set_option autoImplicit false

namespace ActionSignatures

/-! ### Forgetting the members -/

/-- The argument without the member that it names. -/
def Argument.unnamed : Argument → Argument
  | .forward position name => .forward position name
  | .default position name value declared _ => .default position name value declared none

/-- The overload with a plan that names no member. -/
def Overload.unnamed (o : Overload) : Overload :=
  { o with plan := o.plan.map Argument.unnamed }

/-- The argument of an overload that stands at a position for the parameter left out there. -/
def Overload.DefaultAt (o : Overload) (i : Nat) (a : Argument) : Prop :=
  o.plan[i]? = some a ∧ a.isDefault = true

/-- The action with overloads that name no member. -/
def OverloadSet.unnamed {β : Type} (set : OverloadSet β) : OverloadSet β :=
  { set with overloads := set.overloads.map Overload.unnamed }

section

variable (omitted : List Nat) (origin : Option ActionOrigin)

theorem Argument.unnamed_ofParameter (p : Parameter) (i : Nat) :
    (ofParameter omitted origin p i).unnamed = ofParameter omitted none p i := by
  simp only [ofParameter]
  split <;> rfl

/-- An argument that passes a parameter on names no member. -/
theorem Argument.member?_of_forward {a : Argument} (h : a.isDefault = false) : a.member? = none := by
  cases a with
  | forward position name => rfl
  | default position name value declared defaultId => cases h

/-- An overload without its members is the one that is made without an origin. -/
theorem Overload.unnamed_ofOmitted (s : Signature) :
    (ofOmitted s origin omitted).unnamed = ofOmitted s none omitted := by
  simp only [unnamed, ofOmitted, List.map_map, Function.comp_def, Argument.unnamed_ofParameter]

end

/-! ### The two runs side by side -/

/-- The action with its origin forgotten. -/
def PreparedAction.unnamed (a : PreparedAction) : PreparedAction where
  canonical := a.canonical
  origin := none

namespace Synthesized

/-- What has been made, with the members forgotten; what has been seen has none. -/
def unnamed (made : Synthesized) : Synthesized :=
  { made with overloads := made.overloads.map Overload.unnamed }

/-- **One mask** adds the same overload but for its members, or ends both runs with one error. -/
theorem map_unnamed_add (made : Synthesized) (a : PreparedAction) (mask : UInt32) :
    (made.add a mask).map unnamed = made.unnamed.add a.unnamed mask := by
  -- what decides is the parameter types of the overload, which know nothing of the origin
  have hseen : made.unnamed.seen[(Overload.ofOmitted a.unnamed.canonical a.unnamed.origin
      (omittedBy a.unnamed.canonical.defaultPositions mask)).parameterTypes]? =
    made.seen[(Overload.ofOmitted a.canonical a.origin
      (omittedBy a.canonical.defaultPositions mask)).parameterTypes]? := rfl
  rw [add_eq, add_eq]
  simp only [hseen]
  cases made.seen[(Overload.ofOmitted a.canonical a.origin
      (omittedBy a.canonical.defaultPositions mask)).parameterTypes]? with
  | some first => rfl
  | none =>
      simp only [Except.map, unnamed, Array.map_push, Overload.unnamed_ofOmitted]
      rfl

/-- **The runs** through the same masks end alike. -/
theorem map_unnamed_addFrom (a : PreparedAction) (left next : Nat) (made : Synthesized) :
    (addFrom a left next made).map unnamed = addFrom a.unnamed left next made.unnamed := by
  induction left generalizing next made with
  | zero => rfl
  | succ left ih =>
      rw [addFrom, addFrom, ← map_unnamed_add]
      cases made.add a (.ofNat next) with
      | error e => rfl
      | ok made => exact ih (next + 1) made

end Synthesized

/-! ### The synthesis -/

section

variable {β : Type} {options : SynthesisOptions} {origin : Option ActionOrigin} {s : Signature}
  {body : β} {set : OverloadSet β}

/-- **The synthesis with its members forgotten** is the one without them. -/
theorem synthesizeFor_unnamed (options : SynthesisOptions) (origin : Option ActionOrigin)
    (s : Signature) (body : β) :
    (synthesizeFor options origin s body).map OverloadSet.unnamed =
      synthesizeFor options none s body := by
  by_cases hlimit : s.defaultPositions.length ≤ options.effectiveMax.toNat
  · rw [synthesizeFor_of_le origin body hlimit, synthesizeFor_of_le none body hlimit]
    have hstart : Synthesized.unnamed {} = {} := by simp [Synthesized.unnamed]
    have hrun : Synthesized.addFrom { canonical := s, origin := none } s.overloadCount 0 {} =
        (Synthesized.addFrom { canonical := s, origin } s.overloadCount 0 {}).map
          Synthesized.unnamed :=
      (hstart ▸ Synthesized.map_unnamed_addFrom { canonical := s, origin } s.overloadCount 0 {}).symm
    rw [hrun]
    cases Synthesized.addFrom { canonical := s, origin } s.overloadCount 0 {} with
    | error e => rfl
    | ok made => rfl
  · rw [synthesizeFor_of_lt origin body (Nat.not_le.1 hlimit),
      synthesizeFor_of_lt none body (Nat.not_le.1 hlimit)]
    rfl

/-- **The member of a parameter left out** is that of its position. -/
theorem Overload.DefaultAt.member?_eq (h : synthesizeFor options origin s body = .ok set)
    {o : Overload} (ho : o ∈ set.overloads) {i : Nat} {a : Argument} (hdefault : o.DefaultAt i a) :
    a.position = i ∧ a.member? = origin.map fun o => ⟨o.owner, o.action, i⟩ := by
  obtain ⟨omitted, -, rfl⟩ := exists_isOmission_of_mem_overloads h ho
  obtain ⟨ha, hdefault⟩ := hdefault
  rw [Overload.ofOmitted, List.getElem?_map, List.getElem?_zipIdx, Option.map_map,
    Option.map_eq_some_iff] at ha
  obtain ⟨p, -, rfl⟩ := ha
  simp only [Function.comp_apply, Nat.zero_add] at hdefault ⊢
  rw [Argument.isDefault_ofParameter] at hdefault
  refine ⟨Argument.position_ofParameter .., ?_⟩
  rw [Argument.ofParameter, if_pos hdefault]
  rfl

end

/-- **Naming the members changes nothing else.**  With an owner and the name of the action the
synthesis is refused exactly where it is without them, and with the same error.  Otherwise the two
sets of overloads are the same when their members are forgotten; without an owner no member is named,
and with one every parameter left out has the member of its position.  So one parameter has one
member in all the overloads that leave it out, and different parameters have different members. -/
theorem naming_changes_members_only {β : Type} (options : SynthesisOptions)
    (owner action : String) (s : Signature) (body : β) :
    (∀ e, synthesizeAction options owner action s body = .error e ↔
      synthesize options s body = .error e) ∧
    ∀ named plain, synthesizeAction options owner action s body = .ok named →
      synthesize options s body = .ok plain →
      named.unnamed = plain.unnamed ∧ plain.unnamed = plain ∧
      (∀ o ∈ plain.overloads, ∀ a ∈ o.plan, a.member? = none) ∧
      (∀ o ∈ named.overloads, ∀ i a, o.DefaultAt i a →
        a.position = i ∧ a.member? = some ⟨owner, action, i⟩) ∧
      ∀ o ∈ named.overloads, ∀ o' ∈ named.overloads, ∀ i a j b,
        o.DefaultAt i a → o'.DefaultAt j b → (a.member? = b.member? ↔ i = j) := by
  have hforget : (synthesizeAction options owner action s body).map OverloadSet.unnamed =
      synthesize options s body := synthesizeFor_unnamed options (some ⟨owner, action⟩) s body
  refine ⟨fun e => ?_, fun named plain hnamed hplain => ?_⟩
  · rw [← hforget]
    cases synthesizeAction options owner action s body <;> simp [Except.map]
  have hsame : named.unnamed = plain := by
    rw [hnamed, hplain] at hforget
    exact Except.ok.inj hforget
  have hself : plain.unnamed = plain := by
    have hforget' : (synthesize options s body).map OverloadSet.unnamed = synthesize options s body :=
      synthesizeFor_unnamed options none s body
    rw [hplain] at hforget'
    exact Except.ok.inj hforget'
  have hmember : ∀ o ∈ named.overloads, ∀ i a, o.DefaultAt i a →
      a.position = i ∧ a.member? = some ⟨owner, action, i⟩ := fun o ho i a hdefault =>
    hdefault.member?_eq hnamed ho
  refine ⟨hsame.trans hself.symm, hself, fun o ho a ha => ?_, hmember, ?_⟩
  · obtain ⟨i, hi⟩ := List.getElem?_of_mem ha
    cases hdefault : a.isDefault with
    | true => exact (Overload.DefaultAt.member?_eq hplain ho ⟨hi, hdefault⟩).2
    | false => exact Argument.member?_of_forward hdefault
  · intro o ho o' ho' i a j b ha hb
    rw [(hmember o ho i a ha).2, (hmember o' ho' j b hb).2]
    simp

/-- The width has one member in the overload without it and in the one without width and scale, and
the scale has another. -/
theorem naming_openWindow :
    ∃ named plain o o' a b c, synthesizeAction {} "Screen" "open" openWindow () = .ok named ∧
      synthesize {} openWindow () = .ok plain ∧ named.unnamed = plain.unnamed ∧
      (o ∈ named.overloads ∧ o.omitted = [1, 2] ∧ o' ∈ named.overloads ∧ o'.omitted = [1]) ∧
      (o.DefaultAt 1 a ∧ o'.DefaultAt 1 b ∧ o.DefaultAt 2 c) ∧
      a.member? = b.member? ∧ a.member? ≠ c.member? := by
  have hnamed : synthesizeAction {} "Screen" "open" openWindow () =
      .ok (.ofMasks (some ⟨"Screen", "open"⟩) openWindow ()) :=
    synthesizeFor_of_nodup _ () (by decide) (by decide)
  have hplain : synthesize {} openWindow () = .ok (.ofMasks none openWindow ()) :=
    synthesizeFor_of_nodup none () (by decide) (by decide)
  obtain ⟨-, hsets⟩ := naming_changes_members_only {} "Screen" "open" openWindow ()
  obtain ⟨hsame, -, -, -, hidentified⟩ := hsets _ _ hnamed hplain
  have hsize : 1 < (OverloadSet.ofMasks (some ⟨"Screen", "open"⟩) openWindow ()).overloads.size := by
    decide
  have ho := Array.getElem_mem (Nat.lt_trans Nat.zero_lt_one hsize)
  have ho' := Array.getElem_mem hsize
  have ha : (Overload.ofOmitted openWindow (some ⟨"Screen", "open"⟩) [1, 2]).DefaultAt 1 _ :=
    ⟨rfl, rfl⟩
  have hb : (Overload.ofOmitted openWindow (some ⟨"Screen", "open"⟩) [1]).DefaultAt 1 _ :=
    ⟨rfl, rfl⟩
  have hc : (Overload.ofOmitted openWindow (some ⟨"Screen", "open"⟩) [1, 2]).DefaultAt 2 _ :=
    ⟨rfl, rfl⟩
  exact ⟨_, _, _, _, _, _, _, hnamed, hplain, hsame, ⟨ho, rfl, ho', rfl⟩, ⟨ha, hb, hc⟩,
    (hidentified _ ho _ ho' 1 _ 1 _ ha hb).2 rfl,
    fun heq => absurd ((hidentified _ ho _ ho 1 _ 2 _ ha hc).1 heq) (by decide)⟩

end ActionSignatures
