/-
**Filling all placeholders at once.**

A template with arguments means a text in which every placeholder of the template has given way to
its argument, and every argument stands as it is.  Formatting goes through the arguments one after
another, each time over the text as it has become.  The two agree after every argument exactly if no
argument brings a further placeholder of a later one, itself excepted, into the text.

Main definitions:

* `ActionSignatures.Text.fill` — **filling**: all placeholders of a template at once;
* `ActionSignatures.Text.mentions` — how often a text holds the placeholder of a number;
* `ActionSignatures.Text.Undisturbed` — **no argument brings a placeholder** of a later one.

Main results:

* `ActionSignatures.Text.replacesSome_filled` — what one more argument changes in a filled template;
* `ActionSignatures.Text.format_eq_fill_iff` — **formatting is filling**, argument by argument, for
  undisturbed arguments and for no others;
* `ActionSignatures.Text.format_eq_fill_iff_of_length_le_two`,
  `ActionSignatures.Text.format_eq_fill_iff_of_unbraced` — the same for the finished text, if there
  are two arguments at most or only the first has opening braces.
-/

import ActionSignatures.Proofs.Text.Replacing
import Mathlib.Data.List.GetD
import Mathlib.Data.List.Induction
import Std.Data.String.ToNat

set_option relaxedAutoImplicit false
set_option autoImplicit false

namespace ActionSignatures.Text

/-! ### Placeholders -/

theorem toList_placeholder (i : Nat) :
    (placeholder i).toList = '\x7b' :: (Nat.toDigits 10 i ++ ['\x7d']) := by
  simp [placeholder, Nat.toList_repr]

theorem isBraced_placeholder (i : Nat) : IsBraced (placeholder i).toList := by
  refine ⟨Nat.toDigits 10 i, toList_placeholder i, fun h => ?_, fun h => ?_⟩
  all_goals
    have hdigit := Nat.isDigit_of_mem_toDigits (by decide) (by decide) h
    exact absurd hdigit (by decide)

theorem placeholder_inj {i j : Nat} : (placeholder i).toList = (placeholder j).toList ↔ i = j := by
  refine ⟨fun h => ?_, fun h => by rw [h]⟩
  rw [toList_placeholder, toList_placeholder, List.cons_inj_right, List.append_left_inj,
    ← Nat.toList_repr, ← Nat.toList_repr, String.toList_inj] at h
  exact Nat.repr_inj.1 h

/-- How often a text holds the placeholder of a number. -/
def mentions (i : Nat) (text : String) : Nat := occurrences (placeholder i).toList text.toList

theorem mentions_eq_zero_iff {i : Nat} {text : String} :
    mentions i text = 0 ↔ ¬ (placeholder i).toList <:+: text.toList :=
  occurrences_eq_zero_iff (isBraced_placeholder i).ne_nil

/-- Placeholders hold no others. -/
theorem mentions_placeholder {i n : Nat} (h : n ≠ i) : mentions n (placeholder i) = 0 := by
  have hne : (placeholder n).toList ≠ (placeholder i).toList := fun he => h (placeholder_inj.1 he)
  simpa [mentions, hne] using
    occurrences_braced_append (x := []) (isBraced_placeholder n) (isBraced_placeholder i)

/-! ### Filling -/

/-- The argument whose placeholder begins a text, with its number. -/
def placeholderAt? (args : List String) (cs : List Char) : Option (String × Nat) :=
  args.zipIdx.find? fun a => (placeholder a.2).toList.isPrefixOf cs

/-- Fills the placeholders of a text; the first `skip` characters belong to a placeholder already
filled. -/
def fillFrom (args : List String) : Nat → List Char → List Char
  | _, [] => []
  | skip + 1, _ :: cs => fillFrom args skip cs
  | 0, c :: cs =>
      match placeholderAt? args (c :: cs) with
      | some (arg, i) => arg.toList ++ fillFrom args ((placeholder i).toList.length - 1) cs
      | none => c :: fillFrom args 0 cs

/-- The text with all placeholders filled. -/
def filled (args : List String) (cs : List Char) : List Char := fillFrom args 0 cs

/-- **Filling**: the template with every placeholder of an argument replaced by the argument, where
only the template is looked through for placeholders. -/
def fill (template : String) (args : List String) : String :=
  String.ofList (filled args template.toList)

section

variable {args : List String} {x : List Char} {c : Char} {i : Nat}

theorem placeholderAt?_eq_none_iff :
    placeholderAt? args x = none ↔ ∀ i < args.length, ¬ (placeholder i).toList <+: x := by
  simp only [placeholderAt?, List.find?_eq_none, List.isPrefixOf_iff_prefix]
  constructor
  · intro h i hi
    exact h (args[i], i) (List.mk_mem_zipIdx_iff_getElem?.2 (List.getElem?_eq_getElem hi))
  · rintro h ⟨arg, i⟩ hmem
    have harg := List.mk_mem_zipIdx_iff_getElem?.1 hmem
    exact h i (List.getElem?_eq_some_iff.1 harg).1

/-- At a placeholder stands its own argument. -/
theorem placeholderAt?_placeholder (hi : i < args.length) :
    placeholderAt? args ((placeholder i).toList ++ x) = some (args[i], i) := by
  cases h : placeholderAt? args ((placeholder i).toList ++ x) with
  | none => exact absurd (List.prefix_append ..) (placeholderAt?_eq_none_iff.1 h i hi)
  | some a =>
    obtain ⟨arg, j⟩ := a
    have hpre := List.find?_some h
    have hmem := List.mk_mem_zipIdx_iff_getElem?.1 (List.mem_of_find?_eq_some h)
    have hji : j = i := placeholder_inj.1 <|
      (isBraced_placeholder j).eq_of_isPrefix (isBraced_placeholder i)
        (List.isPrefixOf_iff_prefix.1 hpre)
    subst hji
    rw [List.getElem?_eq_getElem hi] at hmem
    rw [Option.some.inj hmem]

@[simp] theorem filled_nil : filled args [] = [] := rfl

theorem filled_cons_of_not_isPrefix
    (h : ∀ i < args.length, ¬ (placeholder i).toList <+: c :: x) :
    filled args (c :: x) = c :: filled args x := by
  rw [filled, fillFrom, placeholderAt?_eq_none_iff.2 h, filled]

theorem filled_append_of_notMem {a : List Char} (ha : '\x7b' ∉ a) :
    filled args (a ++ x) = a ++ filled args x := by
  induction a with
  | nil => rfl
  | cons c a ih =>
    rw [List.mem_cons, not_or] at ha
    obtain ⟨hc, ha⟩ := ha
    rw [List.cons_append, List.cons_append,
      filled_cons_of_not_isPrefix fun i _ => (isBraced_placeholder i).not_isPrefix_cons hc, ih ha]

theorem fillFrom_length_append (a : List Char) :
    fillFrom args a.length (a ++ x) = filled args x := by
  induction a with
  | nil => rfl
  | cons c a ih => rw [List.length_cons, List.cons_append, fillFrom, ih]

/-- **A placeholder gives way to its argument**; one that has none stays. -/
theorem filled_placeholder_append (i : Nat) :
    filled args ((placeholder i).toList ++ x) =
      (args.getD i (placeholder i)).toList ++ filled args x := by
  obtain ⟨body, hbody, hopen, -⟩ := isBraced_placeholder i
  have hcons : (placeholder i).toList ++ x = '\x7b' :: ((body ++ ['\x7d']) ++ x) := by
    rw [hbody]
    rfl
  by_cases hi : i < args.length
  · have hat := placeholderAt?_placeholder (x := x) hi
    rw [hcons] at hat
    rw [hcons, filled, fillFrom, hat, List.getD_eq_getElem _ _ hi]
    simp only [hbody, List.length_cons, Nat.add_sub_cancel]
    rw [fillFrom_length_append]
  · have hnone : ∀ j < args.length, ¬ (placeholder j).toList <+: (placeholder i).toList ++ x := by
      intro j hj hpre
      have hji := (isBraced_placeholder j).eq_of_isPrefix (isBraced_placeholder i) hpre
      exact absurd (placeholder_inj.1 hji) (by omega)
    rw [hcons] at hnone
    rw [hcons, filled_cons_of_not_isPrefix hnone, filled_append_of_notMem (by simp [hopen]),
      List.getD_eq_default _ _ (Nat.not_lt.1 hi), hbody]
    rfl

@[simp] theorem filled_no_args : filled [] x = x := by
  induction x with
  | nil => rfl
  | cons c x ih => rw [filled_cons_of_not_isPrefix (by simp), ih]

/-- **What one more argument changes**: in the template filled with the arguments before it, as many
occurrences of its placeholder give way to it as the template has. -/
theorem replacesSome_filled (args : List String) (arg : String) (x : List Char) :
    ReplacesSome (placeholder args.length).toList arg.toList
      (occurrences (placeholder args.length).toList x) (filled args x)
      (filled (args ++ [arg]) x) := by
  have hself := isBraced_placeholder args.length
  induction x using pattern_induction (fun p => ∃ i ≤ args.length, p = (placeholder i).toList)
    (by rintro _ ⟨i, -, rfl⟩; exact (isBraced_placeholder i).ne_nil) with
  | nil => exact .nil
  | found p x hp ih =>
    obtain ⟨i, hi, rfl⟩ := hp
    rw [filled_placeholder_append, filled_placeholder_append,
      occurrences_braced_append hself (isBraced_placeholder i)]
    rcases Nat.lt_or_eq_of_le hi with hlt | heq
    · have hne : (placeholder args.length).toList ≠ (placeholder i).toList :=
        fun h => absurd (placeholder_inj.1 h) (by omega)
      have hget : (args ++ [arg]).getD i (placeholder i) = args.getD i (placeholder i) :=
        List.getD_append _ _ _ _ hlt
      rw [if_neg hne, Nat.zero_add, hget]
      exact ih.append _
    · subst heq
      have hget : (args ++ [arg]).getD args.length (placeholder args.length) = arg := by simp
      have hkept : args.getD args.length (placeholder args.length) = placeholder args.length := by
        simp
      rw [if_pos rfl, hget, hkept, Nat.add_comm]
      exact ih.replace
  | other c x h ih =>
    rw [filled_cons_of_not_isPrefix fun i hi => h _ ⟨i, hi.le, rfl⟩,
      filled_cons_of_not_isPrefix fun i hi =>
        h _ ⟨i, by simpa [Nat.lt_succ_iff] using hi, rfl⟩,
      occurrences_cons_of_not_isPrefix (h _ ⟨_, Nat.le_refl _, rfl⟩)]
    exact ih.keep c

end

/-! ### Formatting -/

theorem formatFrom_append (args : List String) (arg : String) (i : Nat) (cs : List Char) :
    formatFrom i (args ++ [arg]) cs =
      replaceAll (placeholder (i + args.length)).toList arg.toList (formatFrom i args cs) := by
  induction args generalizing i cs with
  | nil => rfl
  | cons a args ih =>
    rw [List.cons_append, formatFrom, ih, formatFrom, List.length_cons, Nat.add_right_comm,
      Nat.add_assoc]

section

variable {template : String} {args : List String}

@[simp] theorem fill_nil : fill template [] = template := by simp [fill]

/-- One more argument replaces its placeholder in the text as it has become. -/
theorem format_append (arg : String) :
    (format template (args ++ [arg])).toList =
      replaceAll (placeholder args.length).toList arg.toList (format template args).toList := by
  rw [format, formatFrom_append, Nat.zero_add, String.toList_ofList, format, String.toList_ofList]

theorem replacesSome_fill (template : String) (args : List String) (arg : String) :
    ReplacesSome (placeholder args.length).toList arg.toList (mentions args.length template)
      (fill template args).toList (fill template (args ++ [arg])).toList := by
  rw [fill, fill, String.toList_ofList, String.toList_ofList]
  exact replacesSome_filled args arg template.toList

/-- **The step**: where formatting is filling so far, it stays so exactly if the next argument is its
own placeholder, or the text has no more of its placeholders than the template. -/
theorem format_append_eq_fill_iff {arg : String} (h : format template args = fill template args) :
    format template (args ++ [arg]) = fill template (args ++ [arg]) ↔
      arg = placeholder args.length ∨
        mentions args.length (fill template args) = mentions args.length template := by
  rw [← String.toList_inj, format_append, h,
    (replacesSome_fill template args arg).replaceAll_eq_iff (isBraced_placeholder _), String.toList_inj]
  rfl

/-- **No argument brings a placeholder** of a later one: the template filled with the arguments before
any argument has no more of its placeholders than the template, unless it is its own placeholder. -/
def Undisturbed (template : String) (args : List String) : Prop :=
  ∀ first arg, first ++ [arg] <+: args → arg = placeholder first.length ∨
    mentions first.length (fill template first) = mentions first.length template

/-- **Formatting is filling**, argument by argument, for undisturbed arguments and for no others. -/
theorem format_eq_fill_iff (template : String) (args : List String) :
    (∀ first, first <+: args → format template first = fill template first) ↔
      Undisturbed template args := by
  constructor
  · intro h first arg hfirst
    have hbefore : first <+: args := (List.prefix_append ..).trans hfirst
    exact (format_append_eq_fill_iff (h first hbefore)).1 (h _ hfirst)
  · intro h first
    induction first using List.reverseRecOn with
    | nil => simp
    | append_singleton first arg ih =>
      intro hfirst
      have hbefore : first <+: args := (List.prefix_append ..).trans hfirst
      exact (format_append_eq_fill_iff (ih hbefore)).2 (h first arg hfirst)

/-- A single argument is filled in. -/
theorem format_singleton (arg : String) : format template [arg] = fill template [arg] := by
  have hnone : format template [] = fill template [] := by simp
  exact (format_append_eq_fill_iff hnone).2 (.inr (by simp))

/-- With two arguments at most the finished text tells. -/
theorem format_eq_fill_iff_of_length_le_two (hlen : args.length ≤ 2) :
    format template args = fill template args ↔ Undisturbed template args := by
  rw [← format_eq_fill_iff]
  refine ⟨fun h first hfirst => ?_, fun h => h args (List.prefix_refl _)⟩
  obtain ⟨rest, rfl⟩ := hfirst
  cases rest with
  | nil => simpa using h
  | cons a rest =>
    cases first with
    | nil => simp
    | cons b first =>
      have hnil : first = [] := by
        rw [List.length_append, List.length_cons, List.length_cons] at hlen
        exact List.length_eq_zero_iff.1 (by omega)
      rw [hnil]
      exact format_singleton b

end

/-! ### Arguments without opening braces -/

section

variable {template : String} {args : List String}

/-- No placeholder of a later argument is lost. -/
theorem mentions_le_format {n : Nat} (hn : args.length ≤ n) :
    mentions n template ≤ mentions n (format template args) := by
  induction args using List.reverseRecOn with
  | nil => simp
  | append_singleton args arg ih =>
    rw [List.length_append, List.length_singleton] at hn
    have hne : (placeholder args.length).toList ≠ (placeholder n).toList :=
      fun h => absurd (placeholder_inj.1 h) (by omega)
    have hstep := occurrences_le_replaceAll (v := arg.toList) (x := (format template args).toList)
      (isBraced_placeholder args.length) (isBraced_placeholder n) hne
    rw [← format_append] at hstep
    exact le_trans (ih (by omega)) hstep

/-- An argument without opening braces takes one away for each of its placeholders in the text as it
has become. -/
theorem count_format_append (template : String) (args : List String) {arg : String}
    (harg : '\x7b' ∉ arg.toList) :
    (format template (args ++ [arg])).toList.count '\x7b' +
        mentions args.length (format template args) =
      (format template args).toList.count '\x7b' := by
  have hp := isBraced_placeholder args.length
  have hcount := countP_replaceAll (v := arg.toList) (x := (format template args).toList) hp
    (· == '\x7b')
  rw [← format_append] at hcount
  simp only [← List.count_eq_countP, List.count_eq_zero_of_not_mem harg, hp.count_open, Nat.mul_one,
    Nat.mul_zero, Nat.add_zero] at hcount
  exact hcount

/-- Filled in, it takes one away for each of its placeholders in the template. -/
theorem count_fill_append (template : String) (args : List String) {arg : String}
    (harg : '\x7b' ∉ arg.toList) :
    (fill template (args ++ [arg])).toList.count '\x7b' + mentions args.length template =
      (fill template args).toList.count '\x7b' := by
  have hp := isBraced_placeholder args.length
  have hcount := (replacesSome_fill template args arg).countP (· == '\x7b')
  simp only [← List.count_eq_countP, List.count_eq_zero_of_not_mem harg, hp.count_open, Nat.mul_one,
    Nat.mul_zero, Nat.add_zero] at hcount
  exact hcount

/-- Where the arguments behind the first have no opening braces, formatting leaves no more of them
than filling, and as many only if it has been filling all along. -/
theorem count_format_le (hlater : ∀ a ∈ args.tail, '\x7b' ∉ a.toList) :
    (format template args).toList.count '\x7b' ≤ (fill template args).toList.count '\x7b' ∧
      ((format template args).toList.count '\x7b' = (fill template args).toList.count '\x7b' →
        ∀ first, first <+: args → format template first = fill template first) := by
  induction args using List.reverseRecOn with
  | nil => simp
  | append_singleton args arg ih =>
    by_cases hargs : args = []
    · subst hargs
      have hone : format template [arg] = fill template [arg] := format_singleton arg
      refine ⟨by rw [List.nil_append, hone], fun _ => ?_⟩
      exact (format_eq_fill_iff template [arg]).2
        ((format_eq_fill_iff_of_length_le_two (by simp)).1 hone)
    · rw [List.tail_append_of_ne_nil hargs] at hlater
      have harg : '\x7b' ∉ arg.toList := hlater arg (by simp)
      obtain ⟨hle, hexact⟩ := ih fun a ha => hlater a (List.mem_append_left _ ha)
      have hformat := count_format_append template args harg
      have hfill := count_fill_append template args harg
      have hkept : mentions args.length template ≤ mentions args.length (format template args) :=
        mentions_le_format (Nat.le_refl _)
      refine ⟨by omega, fun heq first hfirst => ?_⟩
      -- as many are left, so as many were left before, and the last argument met its own only
      have hall := hexact (by omega)
      have hargs := hall args (List.prefix_refl _)
      rcases List.prefix_concat_iff.1 hfirst with rfl | hbefore
      · refine (format_append_eq_fill_iff hargs).2 (.inr ?_)
        rw [← hargs]
        omega
      · exact hall first hbefore

/-- **Only the first argument has opening braces**: then the finished text tells whether formatting was
filling. -/
theorem format_eq_fill_iff_of_unbraced (hlater : ∀ a ∈ args.tail, '\x7b' ∉ a.toList) :
    format template args = fill template args ↔ Undisturbed template args := by
  rw [← format_eq_fill_iff]
  refine ⟨fun h => ?_, fun h => h args (List.prefix_refl _)⟩
  exact (count_format_le hlater).2 (by rw [h])

end

end ActionSignatures.Text
