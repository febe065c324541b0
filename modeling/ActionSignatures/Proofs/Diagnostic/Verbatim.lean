/-
**What diagnostics name.**

The templates of the known kinds part their placeholders by plain words, so that no text which is
filled in can run together with another one to make a placeholder.  What remains is a placeholder
within an argument: a name may be any text, and a diagnostic about it has the name as it is declared
exactly if the name does not hold the placeholder of a later argument.

Main definitions:

* `ActionSignatures.Text.IsSpacer`, `ActionSignatures.Text.parted` — plain words between
  placeholders;
* `ActionSignatures.Text.MentionsLater` — **an argument holds the placeholder** of a later one;
* `ActionSignatures.InvalidSignature.args`, `ActionSignatures.SynthesisError.args`,
  `ActionSignatures.UnresolvedAncestor.args`, `ActionSignatures.TruncatedWalk.args` — what the
  diagnostics name.

Main results:

* `ActionSignatures.Text.undisturbed_parted_iff` — where words part the placeholders the arguments
  alone decide;
* `ActionSignatures.DiagnosticKind.template_eq_parted` — words part the placeholders of all known
  kinds;
* `ActionSignatures.InvalidSignature.text_ne_fill_iff` — which offences are reported with a wrong
  name;
* `ActionSignatures.Diagnostic.names_verbatim` — **when a diagnostic names things as they are
  declared**.
-/

import ActionSignatures.Inheritance.Context
import ActionSignatures.Overload.Synthesis
import ActionSignatures.Proofs.Text.Filling
import Mathlib.Algebra.Order.BigOperators.Group.List

set_option relaxedAutoImplicit false
set_option autoImplicit false

namespace ActionSignatures

namespace Text

/-! ### Words between placeholders -/

/-- A character that no placeholder has: neither a brace nor a digit. -/
def isPlain (c : Char) : Bool := c != '\x7b' && c != '\x7d' && !c.isDigit

/-- Plain words: a text that is not empty and has plain characters only. -/
def IsSpacer (s : String) : Prop := s.toList ≠ [] ∧ s.toList.all isPlain = true

instance (s : String) : Decidable (IsSpacer s) := inferInstanceAs (Decidable (_ ∧ _))

/-- Contents by number, with plain words behind each of them. -/
def parted (content : Nat → String) : List (Nat × String) → String
  | [] => ""
  | (i, words) :: rest => content i ++ words ++ parted content rest

section

variable {s x y : String} {content : Nat → String} {rest : List (Nat × String)} {n : Nat}

theorem notMem_placeholder_of_isPlain {c : Char} (hc : isPlain c = true) (i : Nat) :
    c ∉ (placeholder i).toList := by
  simp only [isPlain, Bool.and_eq_true, bne_iff_ne, Bool.not_eq_true'] at hc
  rw [toList_placeholder, List.mem_cons, List.mem_append, List.mem_singleton]
  rintro (h | h | h)
  · exact hc.1.1 h
  · have hdigit := Nat.isDigit_of_mem_toDigits (by decide) (by decide) h
    simp [hc.2] at hdigit
  · exact hc.1.2 h

theorem IsSpacer.isPlain (hs : IsSpacer s) {c : Char} (hc : c ∈ s.toList) : isPlain c = true :=
  List.all_eq_true.1 hs.2 c hc

theorem IsSpacer.open_notMem (hs : IsSpacer s) : '\x7b' ∉ s.toList :=
  fun h => absurd (hs.isPlain h) (by decide)

theorem mentions_spacer_append (hs : IsSpacer s) : mentions n (s ++ y) = mentions n y := by
  rw [mentions, String.toList_append,
    occurrences_append_of_notMem (isBraced_placeholder n) hs.open_notMem, mentions]

/-- Plain words part the placeholders before them from those behind them. -/
theorem mentions_append_spacer_append (hs : IsSpacer s) :
    mentions n (x ++ s ++ y) = mentions n x + mentions n y := by
  obtain ⟨c, cs, hcs⟩ := List.exists_cons_of_ne_nil hs.1
  have hc : c ∉ (placeholder n).toList :=
    notMem_placeholder_of_isPlain (hs.isPlain (by simp [hcs])) n
  have hstart : mentions n (s ++ y) = mentions n y := mentions_spacer_append hs
  rw [mentions, String.toList_append, hcs] at hstart
  rw [mentions, String.append_assoc, String.toList_append, String.toList_append, hcs,
    List.cons_append, occurrences_append_cons hc]
  rw [List.cons_append] at hstart
  rw [hstart]
  rfl

theorem mentions_parted (h : ∀ a ∈ rest, IsSpacer a.2) :
    mentions n (parted content rest) = (rest.map fun a => mentions n (content a.1)).sum := by
  induction rest with
  | nil => rfl
  | cons a rest ih =>
    rw [List.forall_mem_cons] at h
    rw [parted, mentions_append_spacer_append h.1, ih h.2, List.map_cons, List.sum_cons]

theorem filled_parted {args : List String} (h : ∀ a ∈ rest, IsSpacer a.2) :
    filled args (parted placeholder rest).toList =
      (parted (fun i => args.getD i (placeholder i)) rest).toList := by
  induction rest with
  | nil => rfl
  | cons a rest ih =>
    rw [List.forall_mem_cons] at h
    rw [parted, parted, String.append_assoc, String.toList_append, String.toList_append,
      filled_placeholder_append, filled_append_of_notMem h.1.open_notMem, ih h.2]
    simp [String.toList_append, List.append_assoc]

/-- Filling puts every argument, as it is, where its placeholder stands. -/
theorem fill_parted {args : List String} (hs : IsSpacer s) (h : ∀ a ∈ rest, IsSpacer a.2) :
    fill (s ++ parted placeholder rest) args =
      s ++ parted (fun i => args.getD i (placeholder i)) rest := by
  rw [fill, String.toList_append, filled_append_of_notMem hs.open_notMem, filled_parted h,
    ← String.toList_append, String.ofList_toList]

end

/-! ### Placeholders of later arguments -/

/-- **An argument holds the placeholder** of a later one, which is not that placeholder itself. -/
def MentionsLater (args : List String) : Prop :=
  ∃ i j a b, i < j ∧ args[i]? = some a ∧ args[j]? = some b ∧ b ≠ placeholder j ∧
    (placeholder j).toList <:+: a.toList

theorem not_mentionsLater_singleton (a : String) : ¬MentionsLater [a] := by
  rintro ⟨i, j, a, b, hij, -, hb, -⟩
  have hj : j < 1 := (List.getElem?_eq_some_iff.1 hb).1
  omega

theorem mentionsLater_pair_iff {a b : String} :
    MentionsLater [a, b] ↔ b ≠ placeholder 1 ∧ (placeholder 1).toList <:+: a.toList := by
  constructor
  · rintro ⟨i, j, a', b', hij, ha, hb, hne, hin⟩
    have hj : j < 2 := (List.getElem?_eq_some_iff.1 hb).1
    obtain rfl : i = 0 := by omega
    obtain rfl : j = 1 := by omega
    cases ha
    cases hb
    exact ⟨hne, hin⟩
  · rintro ⟨hne, hin⟩
    exact ⟨0, 1, a, b, by omega, rfl, rfl, hne, hin⟩

/-- Two sums are the same only if the terms are, where those of one are never the smaller ones. -/
theorem sum_map_eq_iff {α : Type} {l : List α} {f g : α → Nat} (h : ∀ a ∈ l, f a ≤ g a) :
    (l.map g).sum = (l.map f).sum ↔ ∀ a ∈ l, g a = f a := by
  induction l with
  | nil => simp
  | cons a l ih =>
    rw [List.forall_mem_cons] at h
    have hsum : (l.map f).sum ≤ (l.map g).sum := List.sum_le_sum h.2
    rw [List.forall_mem_cons, ← ih h.2, List.map_cons, List.map_cons, List.sum_cons, List.sum_cons]
    omega

section

variable {s : String} {rest : List (Nat × String)} {args : List String}

/-- Where plain words part the placeholders, the text filled so far has no more of the next
placeholder than the template exactly if no argument filled in holds it. -/
theorem mentions_fill_parted_iff (args : List String) (hs : IsSpacer s)
    (h : ∀ a ∈ rest, IsSpacer a.2) :
    mentions args.length (fill (s ++ parted placeholder rest) args) =
        mentions args.length (s ++ parted placeholder rest) ↔
      ∀ i ∈ rest.map Prod.fst, ∀ a, args[i]? = some a → mentions args.length a = 0 := by
  have hkept : ∀ i, args.length ≤ i → args.getD i (placeholder i) = placeholder i :=
    fun i hi => List.getD_eq_default _ _ hi
  have hnone : ∀ i < args.length, mentions args.length (placeholder i) = 0 :=
    fun i hi => mentions_placeholder (by omega)
  rw [fill_parted hs h, mentions_spacer_append hs, mentions_spacer_append hs, mentions_parted h,
    mentions_parted h, sum_map_eq_iff, List.forall_mem_map]
  · refine forall₂_congr fun p _ => ?_
    rcases Nat.lt_or_ge p.1 args.length with hi | hi
    · rw [hnone p.1 hi, List.getD_eq_getElem _ _ hi, List.getElem?_eq_getElem hi]
      simp
    · rw [hkept p.1 hi, List.getElem?_eq_none hi]
      simp
  · intro p _
    rcases Nat.lt_or_ge p.1 args.length with hi | hi
    · rw [hnone p.1 hi]
      exact Nat.zero_le _
    · rw [hkept p.1 hi]

/-- **Where plain words part the placeholders the arguments alone decide**: no argument brings a
placeholder of a later one exactly if none holds it. -/
theorem undisturbed_parted_iff (hs : IsSpacer s) (h : ∀ a ∈ rest, IsSpacer a.2)
    (hall : ∀ i < args.length, i ∈ rest.map Prod.fst) :
    Undisturbed (s ++ parted placeholder rest) args ↔ ¬MentionsLater args := by
  constructor
  · rintro hund ⟨i, j, a, b, hij, ha, hb, hne, hin⟩
    have hj : j < args.length := (List.getElem?_eq_some_iff.1 hb).1
    have hlen : (args.take j).length = j := List.length_take_of_le hj.le
    have hfirst : args.take j ++ [b] <+: args := by
      have hnext := List.take_add_one (l := args) (i := j)
      rw [hb] at hnext
      exact hnext ▸ List.take_prefix (j + 1) args
    have hstep := hund (args.take j) b hfirst
    rw [hlen] at hstep
    have hmentions := (mentions_fill_parted_iff (args.take j) hs h).1
      (by rw [hlen]; exact hstep.resolve_left hne)
    have hzero := hmentions i (hall i (by omega)) a (by rw [List.getElem?_take_of_lt hij, ha])
    rw [hlen, mentions_eq_zero_iff] at hzero
    exact hzero hin
  · intro hnot first arg hfirst
    refine or_iff_not_imp_left.2 fun hne => (mentions_fill_parted_iff first hs h).2 fun i _ a ha => ?_
    have hi : i < first.length := (List.getElem?_eq_some_iff.1 ha).1
    obtain ⟨later, rfl⟩ := hfirst
    rw [mentions_eq_zero_iff]
    refine fun hin => hnot ⟨i, first.length, a, arg, hi, ?_, ?_, hne, hin⟩
    · rw [List.append_assoc, List.getElem?_append_left hi, ha]
    · simp

end

end Text

/-! ### The known kinds -/

namespace DiagnosticKind

/-- How many arguments a kind names. -/
def arity : DiagnosticKind → Nat
  | .variadicParameterNotLast => 1
  | .variadicParameterWithDefault => 1
  | .tooManyDefaultParameters => 3
  | _ => 2

/-- **Plain words part the placeholders** of every known kind, and there is one for each argument. -/
theorem template_eq_parted (k : DiagnosticKind) :
    ∃ s rest, k.template = s ++ Text.parted Text.placeholder rest ∧ Text.IsSpacer s ∧
      (∀ a ∈ rest, Text.IsSpacer a.2) ∧ rest.map Prod.fst = List.range k.arity := by
  cases k with
  | multipleVariadicParameters =>
    exact ⟨"Formal parameters '", [(0, "' and '"),
      (1, "' are both variadic; only the last parameter may be variadic.")], by decide +kernel⟩
  | variadicParameterNotLast =>
    exact ⟨"Variadic parameter '", [(0, "' must be the last formal parameter.")], by decide +kernel⟩
  | variadicParameterWithDefault =>
    exact ⟨"Variadic parameter '", [(0, "' cannot have a default value.")], by decide +kernel⟩
  | duplicateOverload =>
    exact ⟨"The default values of '", [(0, "' produce the overload '"), (1, "' more than once.")],
      by decide +kernel⟩
  | tooManyDefaultParameters =>
    exact ⟨"'", [(0, "' declares "), (1, " default-valued parameters; at most "),
      (2, " are supported.")], by decide +kernel⟩
  | unresolvedAncestor =>
    exact ⟨"Cannot resolve the super-type '", [(0, "' of '"),
      (1, "'; members inherited through it are ignored.")], by decide +kernel⟩
  | truncatedWalk =>
    exact ⟨"The ancestors of '", [(0, "' span more than "),
      (1, " super-type edges; members beyond the limit are ignored.")], by decide +kernel⟩

variable {k : DiagnosticKind} {args : List String}

theorem undisturbed_iff (hlen : args.length ≤ k.arity) :
    Text.Undisturbed k.template args ↔ ¬Text.MentionsLater args := by
  obtain ⟨s, rest, ht, hs, hrest, hnumbers⟩ := k.template_eq_parted
  rw [ht]
  refine Text.undisturbed_parted_iff hs hrest fun i hi => ?_
  rw [hnumbers, List.mem_range]
  omega

/-- The text of a known kind has its arguments as they are exactly if none of them holds the
placeholder of a later one, if the kind names two things at most or only the first of them has opening
braces. -/
theorem format_eq_fill_iff (hlen : args.length ≤ k.arity)
    (h : args.length ≤ 2 ∨ ∀ a ∈ args.tail, '\x7b' ∉ a.toList) :
    Text.format k.template args = Text.fill k.template args ↔ ¬Text.MentionsLater args := by
  rw [← undisturbed_iff hlen]
  rcases h with h | h
  · exact Text.format_eq_fill_iff_of_length_le_two h
  · exact Text.format_eq_fill_iff_of_unbraced h

end DiagnosticKind

/-! ### What the diagnostics name -/

/-- The parameters that an offence names. -/
def InvalidSignature.args : InvalidSignature → List String
  | .multipleVarargs first second => [first, second]
  | .varargsNotLast name _ => [name]
  | .varargsWithDefault name _ => [name]

/-- The prototypes and numbers that a refused declaration of an action is reported with. -/
def SynthesisError.args (e : SynthesisError) (action : String) : List String :=
  match e with
  | .duplicateOverload declared parameterTypes _ _ =>
      [Prototype.display ⟨action, declared⟩, Prototype.display ⟨action, parameterTypes⟩]
  | .tooManyDefaultParameters declared count max =>
      [Prototype.display ⟨action, declared⟩, toString count, toString max.toNat]

/-- The types that an unresolved reference is reported with. -/
def UnresolvedAncestor.args (u : UnresolvedAncestor) : List String :=
  [u.reference.display, u.referencedBy]

/-- The type and the limit that a truncated walk is reported with. -/
def TruncatedWalk.args (t : TruncatedWalk) : List String := [t.root, toString t.edgeLimit]

section

variable (place : Place) (file : String)

/-- A diagnostic about a parameter list has the names as they are exactly if none of them holds the
placeholder of a later one. -/
theorem InvalidSignature.text_eq_fill_iff (e : InvalidSignature) :
    (e.toDiagnostic place).text = Text.fill e.kind.template e.args ↔ ¬Text.MentionsLater e.args := by
  have htext : (e.toDiagnostic place).text = Text.format e.kind.template e.args := by
    cases e <;> rfl
  rw [htext]
  refine DiagnosticKind.format_eq_fill_iff ?_ (.inl ?_) <;> cases e <;>
    simp [args, kind, DiagnosticKind.arity]

/-- **Only of two variadic parameters** can the first be named wrongly: if it holds the placeholder of
the second, and the second is not called by that very placeholder. -/
theorem InvalidSignature.text_ne_fill_iff (e : InvalidSignature) :
    (e.toDiagnostic place).text ≠ Text.fill e.kind.template e.args ↔
      ∃ first second, e = .multipleVarargs first second ∧ second ≠ Text.placeholder 1 ∧
        (Text.placeholder 1).toList <:+: first.toList := by
  rw [ne_eq, e.text_eq_fill_iff place, not_not]
  cases e with
  | multipleVarargs first second =>
    rw [args, Text.mentionsLater_pair_iff]
    constructor
    · exact fun h => ⟨first, second, rfl, h⟩
    · rintro ⟨_, _, he, h⟩
      cases he
      exact h
  | varargsNotLast name position =>
    simp [args, Text.not_mentionsLater_singleton]
  | varargsWithDefault name position =>
    simp [args, Text.not_mentionsLater_singleton]

/-- A diagnostic about a refused action has the prototypes as they are exactly if none of them holds
the placeholder of what comes later. -/
theorem SynthesisError.text_eq_fill_iff (e : SynthesisError) (action : String) :
    (e.toDiagnostic action place).text = Text.fill e.kind.template (e.args action) ↔
      ¬Text.MentionsLater (e.args action) := by
  cases e with
  | duplicateOverload declared parameterTypes first second =>
    exact DiagnosticKind.format_eq_fill_iff (Nat.le_refl 2) (.inl (Nat.le_refl 2))
  | tooManyDefaultParameters declared count max =>
    refine DiagnosticKind.format_eq_fill_iff (Nat.le_refl 3) (.inr ?_)
    simp only [List.tail_cons, List.forall_mem_cons]
    exact ⟨Text.notMem_toString rfl count, Text.notMem_toString rfl max.toNat, by simp⟩

/-- A warning about a reference has the types as they are exactly if the one referred to does not hold
the placeholder of the other. -/
theorem UnresolvedAncestor.text_eq_fill_iff (u : UnresolvedAncestor) :
    (u.toDiagnostic file).text = Text.fill DiagnosticKind.unresolvedAncestor.template u.args ↔
      ¬Text.MentionsLater u.args :=
  DiagnosticKind.format_eq_fill_iff (Nat.le_refl 2) (.inl (Nat.le_refl 2))

/-- A warning about a walk has its type as it is exactly if it does not hold the placeholder of the
limit. -/
theorem TruncatedWalk.text_eq_fill_iff (t : TruncatedWalk) :
    (t.toDiagnostic file).text = Text.fill DiagnosticKind.truncatedWalk.template t.args ↔
      ¬Text.MentionsLater t.args :=
  DiagnosticKind.format_eq_fill_iff (Nat.le_refl 2) (.inl (Nat.le_refl 2))

end

namespace Diagnostic

/-- **When diagnostics name things as they are declared.**  Formatting, after each argument, is the
template with the arguments so far in the place of their placeholders, exactly if none of them brings
a placeholder of a later one; with two arguments at most, or if only the first has opening braces, the
same holds of the finished text.  And the text of a diagnostic, about a parameter list, a refused
action, an ancestor or a walk, has the names, types and prototypes as they are exactly if none of them
holds the placeholder of one that comes after it. -/
theorem names_verbatim (template : String) (args : List String) (place : Place) (file : String) :
    ((∀ first, first <+: args → Text.format template first = Text.fill template first) ↔
        Text.Undisturbed template args) ∧
      (args.length ≤ 2 ∨ (∀ a ∈ args.tail, '\x7b' ∉ a.toList) →
        (Text.format template args = Text.fill template args ↔ Text.Undisturbed template args)) ∧
      (∀ e : InvalidSignature,
        (e.toDiagnostic place).text = Text.fill e.kind.template e.args ↔
          ¬Text.MentionsLater e.args) ∧
      (∀ (e : SynthesisError) (action : String),
        (e.toDiagnostic action place).text = Text.fill e.kind.template (e.args action) ↔
          ¬Text.MentionsLater (e.args action)) ∧
      (∀ u : UnresolvedAncestor,
        (u.toDiagnostic file).text = Text.fill DiagnosticKind.unresolvedAncestor.template u.args ↔
          ¬Text.MentionsLater u.args) ∧
      (∀ t : TruncatedWalk,
        (t.toDiagnostic file).text = Text.fill DiagnosticKind.truncatedWalk.template t.args ↔
          ¬Text.MentionsLater t.args) :=
  ⟨Text.format_eq_fill_iff template args,
    fun h => h.elim Text.format_eq_fill_iff_of_length_le_two Text.format_eq_fill_iff_of_unbraced,
    fun e => e.text_eq_fill_iff place, fun e action => e.text_eq_fill_iff place action,
    fun u => u.text_eq_fill_iff file, fun t => t.text_eq_fill_iff file⟩

/-- A variadic list of texts with a name. -/
def variadicTexts (name : String) : Parameter where
  name
  type := .named "java.lang.String"
  isVarargs := true

/-- **A name that is a placeholder.**  Of two variadic parameters the first is called by the
placeholder of the second: the diagnostic names the second one twice, while the offence in its own
wording names both. -/
theorem second_named_twice_bracedTexts :
    let e : InvalidSignature := .multipleVarargs "\x7b1\x7d" "b"
    Signature.ofParams [variadicTexts "\x7b1\x7d", variadicTexts "b"] = .error e ∧
      (e.toDiagnostic ⟨"Sig.sarl", 3, 9⟩).text =
        "Formal parameters 'b' and 'b' are both variadic; only the last parameter may be variadic." ∧
      Text.fill e.kind.template e.args =
        "Formal parameters '\x7b1\x7d' and 'b' are both variadic; only the last parameter may be " ++
          "variadic." ∧
      e.message = "formal parameters '\x7b1\x7d' and 'b' are both variadic" ∧
      ¬∀ template args, Text.format template args = Text.fill template args := by
  intro e
  have hwrong : (e.toDiagnostic ⟨"Sig.sarl", 3, 9⟩).text ≠ Text.fill e.kind.template e.args :=
    (e.text_ne_fill_iff _).2 ⟨_, _, rfl, by decide, by decide⟩
  exact ⟨rfl, by decide +kernel, by decide +kernel, by decide +kernel,
    fun h => hwrong (h e.kind.template e.args)⟩

end Diagnostic

end ActionSignatures
