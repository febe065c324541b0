/-
**The written form of prototypes.**

A prototype is written as its name with the parameter types in parentheses behind it.  Reading looks
for the first opening parenthesis and wants the trimmed text to end in a closing one.  So a name with
an opening parenthesis is cut off there, while any parentheses among the parameter types are theirs.
This module splits all texts into those without an opening parenthesis, those that are not closed,
and those that are read, and tells which prototypes are read back.

Main definitions:

* `ActionSignatures.PrototypeFault.position?` — the position that a fault is about;
* `ActionSignatures.Prototype.Form` — **the three forms of a trimmed text**;
* `ActionSignatures.Prototype.WrittenName` — the names that are read back.

Main results:

* `ActionSignatures.ParameterTypes.position?_of_ofParts` — faults of parameter types have a position;
* `ActionSignatures.Prototype.form` — every text is of one of the forms;
* `ActionSignatures.Prototype.parse_of_delimited` — what a text in its two parentheses writes;
* `ActionSignatures.Prototype.parse_eq_missing_iff` — **which texts have no parameter list**;
* `ActionSignatures.Prototype.parse_display_iff` — **which prototypes are read back**;
* `ActionSignatures.Prototype.parse_accepts_written_form` — reading accepts the written form and
  nothing else.
-/

import ActionSignatures.Prototype
import ActionSignatures.Proofs.Prototype.WrittenNames
import Mathlib.Data.List.TakeWhile

set_option relaxedAutoImplicit false
set_option autoImplicit false

namespace ActionSignatures

/-! ### Faults of parameter types -/

/-- The position of the part that a fault is about. -/
def PrototypeFault.position? : PrototypeFault → Option Nat
  | .emptyType position => some position
  | .misplacedVarargs position => some position
  | .missingParameterList _ => none

namespace ParameterTypes

/-- The fault of a mapped computation is that of the computation. -/
theorem error_of_map {ε α β : Type} {e : Except ε α} {f : α → β} {fault : ε}
    (h : e.map f = .error fault) : e = .error fault := by
  cases e with
  | error other =>
      cases h
      rfl
  | ok a => cases h

/-- The fault of two computations one after the other is that of either. -/
theorem error_of_bind {ε α β : Type} {e : Except ε α} {f : α → Except ε β} {fault : ε}
    (h : e >>= f = .error fault) : e = .error fault ∨ ∃ a, e = .ok a ∧ f a = .error fault := by
  cases e with
  | error other =>
      cases h
      exact .inl rfl
  | ok a => exact .inr ⟨a, rfl, h⟩

theorem position?_of_nameOf {position : Nat} {part : List Char} {fault : PrototypeFault}
    (h : nameOf position part = .error fault) : fault.position? = some position := by
  rw [nameOf] at h
  split at h <;> cases h
  rfl

/-- **Every fault is about one of the parts.** -/
theorem position?_of_ofParts {position : Nat} {parts : List (List Char)} {fault : PrototypeFault}
    (h : ofParts position parts = .error fault) :
    ∃ k < parts.length, fault.position? = some (position + k) := by
  induction parts generalizing position with
  | nil => cases h
  | cons part parts ih =>
      cases parts with
      | nil =>
          refine ⟨0, Nat.one_pos, ?_⟩
          cases hstar : unstarred part <;> rw [ofParts, hstar] at h <;>
            exact position?_of_nameOf (error_of_map h)
      | cons next parts =>
          cases hstar : unstarred part with
          | some bare =>
              refine ⟨0, Nat.succ_pos _, ?_⟩
              simp only [ofParts, hstar] at h
              cases h
              rfl
          | none =>
              rw [ofParts_cons_of_unstarred_eq_none hstar (List.cons_ne_nil next parts)] at h
              rcases error_of_bind h with hname | ⟨name, -, h⟩
              · exact ⟨0, Nat.succ_pos _, position?_of_nameOf hname⟩
              · rcases error_of_bind h with hrest | ⟨rest, -, h⟩
                · obtain ⟨k, hk, hfault⟩ := ih hrest
                  refine ⟨k + 1, Nat.succ_lt_succ hk, ?_⟩
                  rw [hfault, Nat.add_right_comm, Nat.add_assoc]
                · cases h

/-- Parameter types never lack their list. -/
theorem parse_ne_missingParameterList (text missing : String) :
    parse text ≠ .error (.missingParameterList missing) := by
  intro h
  simp only [parse, parseChars] at h
  split at h
  · cases h
  · obtain ⟨k, -, hfault⟩ := position?_of_ofParts h
    cases hfault

end ParameterTypes

namespace Prototype

open Text

/-! ### The forms of a text -/

/-- **The three forms of a trimmed text**: it has no opening parenthesis, or what follows the first
one does not end in a closing parenthesis, or it does. -/
inductive Form : List Char → Prop
  | unopened {cs : List Char} (h : '(' ∉ cs) : Form cs
  | unclosed {name rest : List Char} (hname : '(' ∉ name) (hrest : rest.getLast? ≠ some ')') :
      Form (name ++ '(' :: rest)
  | delimited {name inner : List Char} (hname : '(' ∉ name) : Form (name ++ '(' :: (inner ++ [')']))

/-- Every text is of one of the forms. -/
theorem form (cs : List Char) : Form cs := by
  by_cases hopen : '(' ∈ cs
  · obtain ⟨name, rest, rfl, hname⟩ := List.eq_append_cons_of_mem hopen
    by_cases hclose : rest.getLast? = some ')'
    · rw [← List.dropLast_append_getLast? ')' hclose]
      exact .delimited hname
    · exact .unclosed hname hclose
  · exact .unopened hopen

/-- The text from the first opening parenthesis on. -/
theorem dropWhile_of_notMem {name : List Char} (h : '(' ∉ name) (rest : List Char) :
    (name ++ '(' :: rest).dropWhile (· ≠ '(') = '(' :: rest := by
  have hpass : ∀ c ∈ name, decide (c ≠ '(') = true := fun c hc =>
    decide_eq_true fun he => h (he ▸ hc)
  rw [List.dropWhile_append_of_pos hpass]
  rfl

/-- The text in front of the first opening parenthesis. -/
theorem takeWhile_of_notMem {name : List Char} (h : '(' ∉ name) (rest : List Char) :
    (name ++ '(' :: rest).takeWhile (· ≠ '(') = name := by
  have hpass : ∀ c ∈ name, decide (c ≠ '(') = true := fun c hc =>
    decide_eq_true fun he => h (he ▸ hc)
  rw [List.takeWhile_append_of_pos hpass]
  exact List.append_nil name

section

variable {text : String}

theorem parse_of_unopened (h : '(' ∉ trim text.toList) :
    parse text = .error (.missingParameterList (trimmed text)) := by
  have hnone : (trim text.toList).dropWhile (· ≠ '(') = [] :=
    List.dropWhile_eq_nil_iff.2 fun c hc => decide_eq_true fun he => h (he ▸ hc)
  rw [parse, parseChars, hnone]
  rfl

variable {name : List Char} (hname : '(' ∉ name)
include hname

theorem parse_of_unclosed {rest : List Char} (htext : trim text.toList = name ++ '(' :: rest)
    (hrest : rest.getLast? ≠ some ')') :
    parse text = .error (.missingParameterList (trimmed text)) := by
  rw [parse, parseChars, trimmed, htext, dropWhile_of_notMem hname]
  exact if_neg hrest

/-- **What a text in its two parentheses writes**: the name in front of the first opening one, and
the parameter types between it and the closing one at the end. -/
theorem parse_of_delimited {inner : List Char}
    (htext : trim text.toList = name ++ '(' :: (inner ++ [')'])) :
    parse text = (ParameterTypes.parse (String.ofList inner)).map fun params =>
      ⟨String.ofList (trim name), params⟩ := by
  rw [parse, parseChars, htext, dropWhile_of_notMem hname, takeWhile_of_notMem hname,
    ParameterTypes.parse, String.toList_ofList]
  refine (if_pos List.getLast?_concat).trans ?_
  rw [List.dropLast_concat]

end

/-- **Which texts have no parameter list**: those without an opening parenthesis, and those that do
not end in a closing one behind it. -/
theorem parse_eq_missing_iff (text missing : String) :
    parse text = .error (.missingParameterList missing) ↔
      missing = trimmed text ∧
        ('(' ∉ trim text.toList ∨
          ∃ name rest, trim text.toList = name ++ '(' :: rest ∧ '(' ∉ name ∧
            rest.getLast? ≠ some ')') := by
  constructor
  · intro h
    have hmissing {other : String} (hother : parse text = .error (.missingParameterList other)) :
        missing = other := by
      rw [h] at hother
      cases hother
      rfl
    generalize htext : trim text.toList = cs
    cases form cs with
    | unopened hopen =>
        subst htext
        exact ⟨hmissing (parse_of_unopened hopen), .inl hopen⟩
    | unclosed hname hrest =>
        exact ⟨hmissing (parse_of_unclosed hname htext hrest), .inr ⟨_, _, rfl, hname, hrest⟩⟩
    | delimited hname =>
        rw [parse_of_delimited hname htext] at h
        exact absurd (ParameterTypes.error_of_map h)
          (ParameterTypes.parse_ne_missingParameterList _ missing)
  · rintro ⟨rfl, hopen | ⟨name, rest, htext, hname, hrest⟩⟩
    · exact parse_of_unopened hopen
    · exact parse_of_unclosed hname htext hrest

/-! ### Names that are read back -/

/-- **The names that are read back**: they have no opening parenthesis, and no blank at either
end. -/
structure WrittenName (name : List Char) : Prop where
  noParenthesis : '(' ∉ name
  head : ∀ c, name.head? = some c → isBlank c = false
  last : ∀ c, name.getLast? = some c → isBlank c = false

/-- Whatever is read has a name that is read back. -/
theorem writtenName_of_parse {text : String} {p : Prototype} (h : parse text = .ok p) :
    WrittenName p.name.toList := by
  generalize htext : trim text.toList = cs
  cases form cs with
  | unopened hopen =>
      subst htext
      rw [parse_of_unopened hopen] at h
      cases h
  | unclosed hname hrest =>
      rw [parse_of_unclosed hname htext hrest] at h
      cases h
  | @delimited name inner hname =>
      rw [parse_of_delimited hname htext] at h
      obtain ⟨params, -, rfl⟩ := ParameterTypes.exists_of_map_eq_ok h
      rw [String.toList_ofList]
      exact ⟨fun hmem => hname ((isInfix_trim name).subset hmem),
        fun _ => isBlank_of_head?_trim, fun _ => isBlank_of_getLast?_trim⟩

/-- The written form in characters. -/
theorem toList_display (p : Prototype) :
    p.display.toList = p.name.toList ++ '(' :: (p.params.display.toList ++ [')']) := by
  simp [display]

/-- **A name that is read back** is read from the written form, and so are the parameter types if
they can be. -/
theorem parse_display_of_writtenName {p : Prototype} (h : WrittenName p.name.toList) :
    parse p.display =
      (ParameterTypes.parse p.params.display).map fun params => ⟨p.name, params⟩ := by
  have htext : trim p.display.toList =
      p.name.toList ++ '(' :: (p.params.display.toList ++ [')']) := by
    rw [toList_display]
    refine trim_of_not_blank (fun c hc => ?_) fun c hc => ?_
    · cases hname : p.name.toList with
      | nil =>
          rw [hname] at hc
          cases hc
          decide
      | cons first name =>
          rw [hname] at hc
          exact h.head c (hname ▸ hc)
    · rw [← List.cons_append, ← List.append_assoc, List.getLast?_concat] at hc
      cases hc
      decide
  rw [parse_of_delimited h.noParenthesis htext, trim_of_not_blank h.head h.last,
    String.ofList_toList, String.ofList_toList]

/-- **Which prototypes are read back** from their written form: those whose name is, and whose
parameter types are. -/
theorem parse_display_iff (p : Prototype) :
    parse p.display = .ok p ↔
      WrittenName p.name.toList ∧ ParameterTypes.parse p.params.display = .ok p.params := by
  constructor
  · intro h
    have hname := writtenName_of_parse h
    rw [parse_display_of_writtenName hname] at h
    obtain ⟨params, hparams, hp⟩ := ParameterTypes.exists_of_map_eq_ok h
    refine ⟨hname, ?_⟩
    rw [hparams, ← hp]
  · rintro ⟨hname, hparams⟩
    rw [parse_display_of_writtenName hname, hparams]
    rfl

/-- **Reading accepts the written form and nothing else.**  A prototype is read back from its written
form if and only if its name has no opening parenthesis and no blank at either end, and its parameter
types are read back from theirs.  Reading fails for want of a parameter list, and names the trimmed
text, if and only if the trimmed text has no opening parenthesis, or what follows the first one does
not end in a closing one.  In any other case the name in front of the first opening parenthesis is
read, trimmed, together with what stands between the parentheses as parameter types. -/
theorem parse_accepts_written_form :
    (∀ p : Prototype, parse p.display = .ok p ↔
      ('(' ∉ p.name.toList ∧ (∀ c, p.name.toList.head? = some c → isBlank c = false) ∧
        ∀ c, p.name.toList.getLast? = some c → isBlank c = false) ∧
      ParameterTypes.parse p.params.display = .ok p.params) ∧
    (∀ text missing : String, parse text = .error (.missingParameterList missing) ↔
      missing = trimmed text ∧
        ('(' ∉ trim text.toList ∨
          ∃ name rest, trim text.toList = name ++ '(' :: rest ∧ '(' ∉ name ∧
            rest.getLast? ≠ some ')')) ∧
    ∀ (text : String) (name inner : List Char),
      trim text.toList = name ++ '(' :: (inner ++ [')']) → '(' ∉ name →
      parse text = (ParameterTypes.parse (String.ofList inner)).map fun params =>
        ⟨String.ofList (trim name), params⟩ := by
  refine ⟨fun p => ?_, parse_eq_missing_iff, fun text name inner htext hname => ?_⟩
  · rw [parse_display_iff]
    exact and_congr_left fun _ => ⟨fun h => ⟨h.noParenthesis, h.head, h.last⟩,
      fun ⟨hopen, hhead, hlast⟩ => ⟨hopen, hhead, hlast⟩⟩
  · exact parse_of_delimited hname htext

/-! Only the first opening parenthesis and the closing one at the end count. -/

example : parse " run) ( f(A), B) ) " = .ok ⟨"run)", .of ["f(A)", "B)"] false⟩ := by decide

end Prototype

end ActionSignatures
