/-
**Message templates.**

A template is a text with numbered placeholders: `0`, `1`, … in braces.  Formatting replaces the
placeholders of the first argument everywhere, then those of the second in the text so obtained,
and so on, so that text which came in with an argument is itself open to the later arguments.

Main definitions:

* `ActionSignatures.Text.replaceAll` — replacing the occurrences of one text by another;
* `ActionSignatures.Text.placeholder` — the placeholder with a given number;
* `ActionSignatures.Text.format` — **formatting** a template.

Main results:

* `ActionSignatures.Text.replaceAll_of_not_infix` — a text without the pattern is left alone;
* `ActionSignatures.Text.format_nil` — a template with no arguments is left alone.
-/

set_option relaxedAutoImplicit false
set_option autoImplicit false

namespace ActionSignatures.Text

/-! ### Replacing -/

/-- Replaces the occurrences of `pattern` that do not overlap, from left to right; the first `skip`
characters belong to an occurrence already replaced. -/
def replaceFrom (pattern value : List Char) : Nat → List Char → List Char
  | _, [] => []
  | skip + 1, _ :: cs => replaceFrom pattern value skip cs
  | 0, c :: cs =>
      if pattern.isPrefixOf (c :: cs) then
        value ++ replaceFrom pattern value (pattern.length - 1) cs
      else
        c :: replaceFrom pattern value 0 cs

/-- Replaces every occurrence of a non-empty pattern, from left to right and without overlaps. -/
def replaceAll (pattern value cs : List Char) : List Char := replaceFrom pattern value 0 cs

/-- A text in which the pattern does not occur is left alone. -/
theorem replaceAll_of_not_infix {pattern value cs : List Char} (h : ¬ pattern <:+: cs) :
    replaceAll pattern value cs = cs := by
  rw [replaceAll]
  induction cs with
  | nil => rfl
  | cons c cs ih =>
      have here : pattern.isPrefixOf (c :: cs) = false := by
        rw [Bool.eq_false_iff]
        exact fun hp => h (List.isPrefixOf_iff_prefix.1 hp).isInfix
      rw [replaceFrom, here, ih fun hi => h (hi.trans (List.suffix_cons c cs).isInfix)]
      rfl

/-! ### Placeholders -/

/-- The placeholder of the argument with number `i`: the number in braces. -/
def placeholder (i : Nat) : String := "\x7b" ++ toString i ++ "\x7d"

/-- Replaces the placeholders of the arguments, which are numbered from `i` on, one after
another. -/
def formatFrom (i : Nat) : List String → List Char → List Char
  | [], cs => cs
  | arg :: args, cs =>
      formatFrom (i + 1) args (replaceAll (placeholder i).toList arg.toList cs)

/-- **Formatting**: the template with the placeholder of each argument replaced by the argument, one
argument after another. -/
def format (template : String) (args : List String) : String :=
  String.ofList (formatFrom 0 args template.toList)

@[simp] theorem format_nil (template : String) : format template [] = template := by
  simp [format, formatFrom]

end ActionSignatures.Text
