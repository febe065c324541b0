/-
**The written form of parameter types.**

Parameter types are written as names with commas between them, and a star behind the last one of a
variadic list.  Any names can be put together that way, but not all of them are read back: blanks
around a name are ignored, a comma ends a name, and a star at the end of the last one is the mark of
a variadic list.  This module describes the lists of names that are read back, and proves that
reading gives no other ones.

Main definitions:

* `ActionSignatures.ParameterTypes.OpensName`, `ActionSignatures.ParameterTypes.ClosesName` — how a
  name may begin, and how one may end that no star follows;
* `ActionSignatures.ParameterTypes.WrittenNames` — **the lists of names that are read back**;
* `ActionSignatures.ParameterTypes.parts` — what stands between the commas.

Main results:

* `ActionSignatures.Text.pieces_intercalate` — splitting gives back what was joined;
* `ActionSignatures.ParameterTypes.ofParts_parts` — the parts of names that are read back write
  these names;
* `ActionSignatures.ParameterTypes.writtenNames_of_ofParts` — trimmed parts write no other names;
* `ActionSignatures.ParameterTypes.parse_display_eq_ok_iff` — **which parameter types are read
  back**.
-/

import ActionSignatures.ParameterTypes
import ActionSignatures.Text.Pieces
import Mathlib.Data.List.Basic

set_option relaxedAutoImplicit false
set_option autoImplicit false

namespace ActionSignatures

/-! ### Trimmed texts -/

namespace Text

theorem isPrefix_trimEnd (cs : List Char) : trimEnd cs <+: cs := by
  have h := List.reverse_prefix.2 (List.dropWhile_suffix isBlank (l := cs.reverse))
  rwa [List.reverse_reverse] at h

theorem isInfix_trim (cs : List Char) : trim cs <:+: cs :=
  (isPrefix_trimEnd _).isInfix.trans (List.dropWhile_suffix _).isInfix

theorem isBlank_of_head?_dropWhile {cs : List Char} {c : Char}
    (h : (cs.dropWhile isBlank).head? = some c) : isBlank c = false := by
  have hhead := List.head?_dropWhile_not isBlank cs
  rw [h] at hhead
  simpa using hhead

/-- A trimmed text does not begin with a blank. -/
theorem isBlank_of_head?_trim {cs : List Char} {c : Char} (h : (trim cs).head? = some c) :
    isBlank c = false := by
  obtain ⟨later, hlater⟩ := isPrefix_trimEnd (trimStart cs)
  have hstart : (cs.dropWhile isBlank).head? = some c := by
    rw [← trimStart, ← hlater, List.head?_append, ← trim, h, Option.some_or]
  exact isBlank_of_head?_dropWhile hstart

/-- A trimmed text does not end with a blank. -/
theorem isBlank_of_getLast?_trim {cs : List Char} {c : Char} (h : (trim cs).getLast? = some c) :
    isBlank c = false := by
  rw [trim, trimEnd, List.getLast?_reverse] at h
  exact isBlank_of_head?_dropWhile h

/-! ### Splitting what was joined -/

variable {sep : Char}

theorem pieces_of_notMem {cs : List Char} (h : sep ∉ cs) : pieces sep cs = [cs] := by
  induction cs with
  | nil => rfl
  | cons c cs ih =>
      rw [List.mem_cons, not_or] at h
      exact pieces_cons_of_ne (Ne.symm h.1) (ih h.2)

theorem pieces_append_cons {p : List Char} (h : sep ∉ p) (cs : List Char) :
    pieces sep (p ++ sep :: cs) = p :: pieces sep cs := by
  induction p with
  | nil => exact pieces_cons_self sep cs
  | cons c p ih =>
      rw [List.mem_cons, not_or] at h
      exact pieces_cons_of_ne (Ne.symm h.1) (ih h.2)

/-- **Splitting gives back what was joined**, if there was something and no part of it holds the
separator. -/
theorem pieces_intercalate {ps : List (List Char)} (hne : ps ≠ []) (h : ∀ p ∈ ps, sep ∉ p) :
    pieces sep ([sep].intercalate ps) = ps := by
  induction ps with
  | nil => exact absurd rfl hne
  | cons p ps ih =>
      obtain ⟨hp, hps⟩ := List.forall_mem_cons.1 h
      cases ps with
      | nil =>
          rw [List.intercalate_singleton]
          exact pieces_of_notMem hp
      | cons q qs =>
          rw [List.intercalate_cons_cons, List.append_assoc, List.singleton_append,
            pieces_append_cons hp, ih (List.cons_ne_nil q qs) hps]

section

variable {glue : List Char}

/-- What is joined of parts begins as the first one does. -/
theorem head?_intercalate_cons {p : List Char} (hp : p ≠ []) (ps : List (List Char)) :
    (glue.intercalate (p :: ps)).head? = p.head? := by
  obtain ⟨c, p, rfl⟩ := List.exists_cons_of_ne_nil hp
  cases ps with
  | nil => rw [List.intercalate_singleton]
  | cons q qs =>
      rw [List.intercalate_cons_cons]
      rfl

theorem intercalate_cons_ne_nil {p : List Char} (hp : p ≠ []) (ps : List (List Char)) :
    glue.intercalate (p :: ps) ≠ [] := by
  intro hnil
  have hhead : (glue.intercalate (p :: ps)).head? = p.head? := head?_intercalate_cons hp ps
  rw [hnil] at hhead
  exact hp (List.head?_eq_none_iff.1 hhead.symm)

/-- What is joined of parts ends as one of them does. -/
theorem exists_getLast?_of_intercalate {ps : List (List Char)} (hps : ∀ p ∈ ps, p ≠ []) {c : Char}
    (h : (glue.intercalate ps).getLast? = some c) : ∃ p ∈ ps, p.getLast? = some c := by
  induction ps with
  | nil => cases h
  | cons p ps ih =>
      obtain ⟨_, hps⟩ := List.forall_mem_cons.1 hps
      cases ps with
      | nil =>
          rw [List.intercalate_singleton] at h
          exact ⟨p, List.mem_cons_self, h⟩
      | cons q qs =>
          have hne : glue.intercalate (q :: qs) ≠ [] :=
            intercalate_cons_ne_nil (hps q List.mem_cons_self) qs
          rw [List.intercalate_cons_cons, List.getLast?_append_of_ne_nil _ hne] at h
          obtain ⟨r, hr, hlast⟩ := ih hps h
          exact ⟨r, List.mem_cons_of_mem p hr, hlast⟩

/-- What is joined of trimmed parts is trimmed, if none of them is empty. -/
theorem trim_intercalate {ps : List (List Char)} (hne : ∀ p ∈ ps, p ≠ [])
    (htrim : ∀ p ∈ ps, trim p = p) : trim (glue.intercalate ps) = glue.intercalate ps := by
  cases ps with
  | nil => rfl
  | cons p ps =>
      refine trim_of_not_blank (fun c hc => ?_) fun c hc => ?_
      · rw [head?_intercalate_cons (hne p List.mem_cons_self), ← htrim p List.mem_cons_self] at hc
        exact isBlank_of_head?_trim hc
      · obtain ⟨q, hq, hlast⟩ := exists_getLast?_of_intercalate hne hc
        rw [← htrim q hq] at hlast
        exact isBlank_of_getLast?_trim hlast

end

end Text

namespace ParameterTypes

open Text

/-! ### Names that are read back -/

/-- How a name may begin: there is a first character, it is not blank, and no comma follows. -/
def OpensName (name : List Char) : Prop :=
  name ≠ [] ∧ ',' ∉ name ∧ ∀ c, name.head? = some c → isBlank c = false

/-- How a name may end that no star follows: neither in a blank nor in a star. -/
def ClosesName (name : List Char) : Prop :=
  ∀ c, name.getLast? = some c → isBlank c = false ∧ c ≠ '*'

/-- **The lists of names that are read back**: every name begins as a name may begin, and every one
but the last of a variadic list ends as a name may end that no star follows. -/
structure WrittenNames (names : List ErasedType) (varargs : Bool) : Prop where
  opens : ∀ name ∈ names, OpensName name.toList
  closes : ∀ name ∈ (if varargs then names.dropLast else names), ClosesName name.toList

theorem writtenNames_nil (varargs : Bool) : WrittenNames [] varargs where
  opens := by simp
  closes := by cases varargs <;> simp

theorem writtenNames_singleton_iff {name : ErasedType} {varargs : Bool} :
    WrittenNames [name] varargs ↔
      OpensName name.toList ∧ (varargs = false → ClosesName name.toList) := by
  constructor
  · rintro ⟨hopens, hcloses⟩
    refine ⟨hopens name List.mem_cons_self, ?_⟩
    rintro rfl
    exact hcloses name List.mem_cons_self
  · rintro ⟨hopens, hcloses⟩
    refine ⟨by simpa using hopens, ?_⟩
    cases varargs with
    | true => simp
    | false => simpa using hcloses rfl

theorem writtenNames_cons_cons_iff {name next : ErasedType} {names : List ErasedType}
    {varargs : Bool} :
    WrittenNames (name :: next :: names) varargs ↔
      (OpensName name.toList ∧ ClosesName name.toList) ∧ WrittenNames (next :: names) varargs := by
  have hlast : (if varargs then (name :: next :: names).dropLast else name :: next :: names) =
      name :: if varargs then (next :: names).dropLast else next :: names := by
    cases varargs <;> rfl
  constructor
  · rintro ⟨hopens, hcloses⟩
    rw [hlast] at hcloses
    obtain ⟨hopen, hopens⟩ := List.forall_mem_cons.1 hopens
    obtain ⟨hclose, hcloses⟩ := List.forall_mem_cons.1 hcloses
    exact ⟨⟨hopen, hclose⟩, hopens, hcloses⟩
  · rintro ⟨⟨hopen, hclose⟩, hopens, hcloses⟩
    refine ⟨List.forall_mem_cons.2 ⟨hopen, hopens⟩, ?_⟩
    rw [hlast]
    exact List.forall_mem_cons.2 ⟨hclose, hcloses⟩

/-! ### Parts -/

/-- What may stand between the commas after trimming: a text without commas and without blanks at
its ends. -/
structure IsPart (part : List Char) : Prop where
  noComma : ',' ∉ part
  head : ∀ c, part.head? = some c → isBlank c = false
  last : ∀ c, part.getLast? = some c → isBlank c = false

theorem IsPart.trim_eq {part : List Char} (h : IsPart part) : trim part = part :=
  trim_of_not_blank h.head h.last

/-- Trimming a text without commas makes it a part. -/
theorem isPart_trim {piece : List Char} (h : ',' ∉ piece) : IsPart (trim piece) where
  noComma hmem := h ((isInfix_trim piece).subset hmem)
  head _ := isBlank_of_head?_trim
  last _ := isBlank_of_getLast?_trim

/-- What stands between the commas of the written form. -/
def parts : List ErasedType → Bool → List (List Char)
  | [], _ => []
  | [name], varargs => [name.toList ++ if varargs then ['*'] else []]
  | name :: names, varargs => name.toList :: parts names varargs

theorem parts_cons_cons (name next : ErasedType) (names : List ErasedType) (varargs : Bool) :
    parts (name :: next :: names) varargs = name.toList :: parts (next :: names) varargs := rfl

theorem parts_ne_nil {names : List ErasedType} (h : names ≠ []) (varargs : Bool) :
    parts names varargs ≠ [] := by
  cases names with
  | nil => exact absurd rfl h
  | cons name names => cases names <;> simp [parts]

/-- The parts, joined by commas, are the joined names with a star behind the last one of a variadic
list. -/
theorem intercalate_parts {names : List ErasedType} {varargs : Bool}
    (h : varargs = true → names ≠ []) :
    [','].intercalate (parts names varargs) =
      [','].intercalate (names.map String.toList) ++ if varargs then ['*'] else [] := by
  induction names with
  | nil =>
      cases varargs with
      | true => exact absurd rfl (h rfl)
      | false => rfl
  | cons name names ih =>
      cases names with
      | nil =>
          rw [parts, List.map_singleton, List.intercalate_singleton, List.intercalate_singleton]
      | cons next names =>
          have hne := List.cons_ne_nil next names
          obtain ⟨q, qs, hq⟩ := List.exists_cons_of_ne_nil (parts_ne_nil hne varargs)
          rw [parts_cons_cons, hq, List.intercalate_cons_cons, ← hq, ih fun _ => hne,
            ← List.append_assoc]
          exact congrArg (· ++ _) List.intercalate_cons_cons.symm

/-- **The written form** of parameter types joins the parts by commas. -/
theorem toList_display (p : ParameterTypes) :
    p.display.toList = [','].intercalate (parts p.types p.varargs) := by
  have hstar : (if p.varargs then "*" else "").toList = if p.varargs then ['*'] else [] := by
    cases p.varargs <;> rfl
  rw [display, String.toList_append, String.toList_intercalate, hstar,
    intercalate_parts p.nonempty]
  rfl

/-- A part of names that are read back is one, and is not empty. -/
theorem WrittenNames.isPart_of_mem_parts {names : List ErasedType} {varargs : Bool}
    (h : WrittenNames names varargs) : ∀ part ∈ parts names varargs, part ≠ [] ∧ IsPart part := by
  induction names with
  | nil => simp [parts]
  | cons name names ih =>
      cases names with
      | nil =>
          obtain ⟨⟨hne, hcomma, hhead⟩, hcloses⟩ := writtenNames_singleton_iff.1 h
          simp only [parts, List.mem_singleton, forall_eq]
          cases varargs with
          | true =>
              refine ⟨by simp, by simp [hcomma], fun c hc => ?_, fun c hc => ?_⟩
              · rw [if_pos rfl, List.head?_append_of_ne_nil _ hne] at hc
                exact hhead c hc
              · rw [if_pos rfl, List.getLast?_concat] at hc
                obtain rfl := Option.some.inj hc
                decide
          | false =>
              rw [if_neg Bool.false_ne_true, List.append_nil]
              exact ⟨hne, hcomma, hhead, fun c hc => (hcloses rfl c hc).1⟩
      | cons next names =>
          obtain ⟨⟨⟨hne, hcomma, hhead⟩, hclose⟩, hrest⟩ := writtenNames_cons_cons_iff.1 h
          rw [parts_cons_cons, List.forall_mem_cons]
          exact ⟨⟨hne, hcomma, hhead, fun c hc => (hclose c hc).1⟩, ih hrest⟩

/-! ### Reading parts -/

/-- What a mapped computation gives comes from what the computation gives. -/
theorem exists_of_map_eq_ok {ε α β : Type} {e : Except ε α} {f : α → β} {b : β}
    (h : e.map f = .ok b) : ∃ a, e = .ok a ∧ f a = b := by
  cases e with
  | error fault => cases h
  | ok a =>
      cases h
      exact ⟨a, rfl, rfl⟩

/-- What two computations one after the other give comes from what the first one gives. -/
theorem exists_of_bind_eq_ok {ε α β : Type} {e : Except ε α} {f : α → Except ε β} {b : β}
    (h : e >>= f = .ok b) : ∃ a, e = .ok a ∧ f a = .ok b := by
  cases e with
  | error fault => cases h
  | ok a => exact ⟨a, rfl, h⟩

theorem nameOf_eq_ok_iff {position : Nat} {part : List Char} {name : ErasedType} :
    nameOf position part = .ok name ↔ part ≠ [] ∧ String.ofList part = name := by
  rw [nameOf]
  split
  · simp_all
  · simp_all

theorem nameOf_toList {name : ErasedType} (h : name.toList ≠ []) (position : Nat) :
    nameOf position name.toList = .ok name :=
  nameOf_eq_ok_iff.2 ⟨h, String.ofList_toList⟩

theorem unstarred_concat (bare : List Char) : unstarred (bare ++ ['*']) = some bare := by
  rw [unstarred, List.getLast?_concat, if_pos rfl, List.dropLast_concat]

theorem unstarred_eq_some_iff {part bare : List Char} :
    unstarred part = some bare ↔ part = bare ++ ['*'] := by
  constructor
  · intro h
    rw [unstarred] at h
    split at h
    · rename_i hlast
      obtain ⟨front, rfl⟩ := List.getLast?_eq_some_iff.1 hlast
      rw [List.dropLast_concat] at h
      rw [Option.some.inj h]
    · cases h
  · rintro rfl
    exact unstarred_concat bare

theorem unstarred_eq_none_iff {part : List Char} :
    unstarred part = none ↔ part.getLast? ≠ some '*' := by
  rw [unstarred]
  split <;> simp_all

theorem ofParts_cons_of_unstarred_eq_none {part : List Char} (h : unstarred part = none)
    {parts : List (List Char)} (hne : parts ≠ []) (position : Nat) :
    ofParts position (part :: parts) =
      nameOf position part >>= fun name =>
        ofParts (position + 1) parts >>= fun rest =>
          .ok (of (name :: rest.types) rest.varargs) := by
  obtain ⟨next, parts, rfl⟩ := List.exists_cons_of_ne_nil hne
  rw [ofParts]
  · rw [h]
    rfl
  · simp

/-- **The parts of names that are read back write these names.** -/
theorem ofParts_parts {names : List ErasedType} {varargs : Bool} (hne : names ≠ [])
    (h : WrittenNames names varargs) (position : Nat) :
    ofParts position (parts names varargs) = .ok (of names varargs) := by
  induction names generalizing position with
  | nil => exact absurd rfl hne
  | cons name names ih =>
      cases names with
      | nil =>
          obtain ⟨⟨hname, _, _⟩, hcloses⟩ := writtenNames_singleton_iff.1 h
          cases varargs with
          | true =>
              rw [parts, if_pos rfl, ofParts, unstarred_concat]
              simp only [nameOf_toList hname]
              rfl
          | false =>
              have hplain : unstarred name.toList = none :=
                unstarred_eq_none_iff.2 fun hlast => (hcloses rfl '*' hlast).2 rfl
              rw [parts, if_neg Bool.false_ne_true, List.append_nil, ofParts, hplain]
              simp only [nameOf_toList hname]
              rfl
      | cons next names =>
          obtain ⟨⟨⟨hname, _, _⟩, hclose⟩, hrest⟩ := writtenNames_cons_cons_iff.1 h
          have hnext := List.cons_ne_nil next names
          have hplain : unstarred name.toList = none :=
            unstarred_eq_none_iff.2 fun hlast => (hclose '*' hlast).2 rfl
          have hparts := parts_ne_nil hnext varargs
          rw [parts_cons_cons, ofParts_cons_of_unstarred_eq_none hplain hparts,
            nameOf_toList hname, ih hnext hrest]
          cases varargs <;> rfl

/-- A name in front of names that are read back, which may begin and end like a name that no star
follows, makes names that are read back. -/
theorem WrittenNames.cons {name : ErasedType} {names : List ErasedType} {varargs : Bool}
    (h : WrittenNames names varargs) (hopens : OpensName name.toList)
    (hcloses : ClosesName name.toList) : WrittenNames (name :: names) varargs := by
  cases names with
  | nil => exact writtenNames_singleton_iff.2 ⟨hopens, fun _ => hcloses⟩
  | cons next names => exact writtenNames_cons_cons_iff.2 ⟨⟨hopens, hcloses⟩, h⟩

/-- A part that does not end in a star writes a name that no star follows. -/
theorem IsPart.closes {part : List Char} (h : IsPart part) (hplain : unstarred part = none) :
    ClosesName part := by
  intro c hc
  refine ⟨h.last c hc, ?_⟩
  rintro rfl
  exact unstarred_eq_none_iff.1 hplain hc

/-- **Parts write no other names** than those that are read back. -/
theorem writtenNames_of_ofParts {position : Nat} {parts : List (List Char)}
    (hparts : ∀ part ∈ parts, IsPart part) {p : ParameterTypes}
    (h : ofParts position parts = .ok p) : WrittenNames p.types p.varargs := by
  induction parts generalizing position p with
  | nil =>
      cases h
      exact writtenNames_nil _
  | cons part parts ih =>
      obtain ⟨hpart, hparts⟩ := List.forall_mem_cons.1 hparts
      cases hstar : unstarred part with
      | some bare =>
          obtain rfl := unstarred_eq_some_iff.1 hstar
          cases parts with
          | nil =>
              rw [ofParts, hstar] at h
              obtain ⟨name, hname, rfl⟩ := exists_of_map_eq_ok h
              obtain ⟨hne, rfl⟩ := nameOf_eq_ok_iff.1 hname
              refine writtenNames_singleton_iff.2 ⟨?_, fun hplain => absurd hplain (by simp [of])⟩
              rw [String.toList_ofList]
              refine ⟨hne, fun hmem => hpart.noComma (List.mem_append_left _ hmem), fun c hc => ?_⟩
              exact hpart.head c (by rw [List.head?_append_of_ne_nil _ hne, hc])
          | cons next parts => simp [ofParts, hstar] at h
      | none =>
          have hclose := hpart.closes hstar
          cases parts with
          | nil =>
              rw [ofParts, hstar] at h
              obtain ⟨name, hname, rfl⟩ := exists_of_map_eq_ok h
              obtain ⟨hne, rfl⟩ := nameOf_eq_ok_iff.1 hname
              refine writtenNames_singleton_iff.2 ?_
              rw [String.toList_ofList]
              exact ⟨⟨hne, hpart.noComma, hpart.head⟩, fun _ => hclose⟩
          | cons next parts =>
              rw [ofParts_cons_of_unstarred_eq_none hstar (List.cons_ne_nil next parts)] at h
              obtain ⟨name, hname, h⟩ := exists_of_bind_eq_ok h
              obtain ⟨rest, hrest, h⟩ := exists_of_bind_eq_ok h
              cases h
              obtain ⟨hne, rfl⟩ := nameOf_eq_ok_iff.1 hname
              have hvarargs : (of (String.ofList part :: rest.types) rest.varargs).varargs =
                  rest.varargs := Bool.and_true _
              rw [hvarargs]
              refine (ih hparts hrest).cons ?_ ?_
              · rw [String.toList_ofList]
                exact ⟨hne, hpart.noComma, hpart.head⟩
              · rw [String.toList_ofList]
                exact hclose

/-! ### Reading the written form -/

/-- Whatever is read has names that are read back. -/
theorem writtenNames_of_parse {text : String} {p : ParameterTypes} (h : parse text = .ok p) :
    WrittenNames p.types p.varargs := by
  simp only [parse, parseChars] at h
  split at h
  · cases h
    exact writtenNames_nil _
  · refine writtenNames_of_ofParts (List.forall_mem_map.2 fun piece hpiece => ?_) h
    exact isPart_trim (not_mem_of_mem_pieces piece hpiece)

/-- Parameter types are those of their names and their mark. -/
theorem of_types_varargs (p : ParameterTypes) : of p.types p.varargs = p := by
  refine ext rfl ?_
  cases hv : p.varargs with
  | false => rfl
  | true => simp [of, p.nonempty hv]

/-- What is written with names that are read back is read back. -/
theorem parse_display_of_writtenNames {p : ParameterTypes}
    (h : WrittenNames p.types p.varargs) : parse p.display = .ok p := by
  have hparts := h.isPart_of_mem_parts
  by_cases hnames : p.types = []
  · have hp : p = empty := by
      refine ext hnames ?_
      cases hv : p.varargs with
      | false => rfl
      | true => exact absurd hnames (p.nonempty hv)
    rw [hp]
    rfl
  · obtain ⟨first, later, hfirst⟩ := List.exists_cons_of_ne_nil (parts_ne_nil hnames p.varargs)
    obtain ⟨hne, -⟩ := hparts first (hfirst ▸ List.mem_cons_self)
    have hstays : ∀ part ∈ parts p.types p.varargs, trim part = part :=
      fun part hmem => (hparts part hmem).2.trim_eq
    have htrim : trim ([','].intercalate (parts p.types p.varargs)) =
        [','].intercalate (parts p.types p.varargs) :=
      trim_intercalate (fun part hmem => (hparts part hmem).1) hstays
    have htext : [','].intercalate (parts p.types p.varargs) ≠ [] := by
      rw [hfirst]
      exact intercalate_cons_ne_nil hne later
    have hpieces : pieces ',' ([','].intercalate (parts p.types p.varargs)) =
        parts p.types p.varargs :=
      pieces_intercalate (parts_ne_nil hnames _) fun part hmem => (hparts part hmem).2.noComma
    have hmap : (parts p.types p.varargs).map trim = parts p.types p.varargs :=
      (List.map_congr_left hstays).trans (List.map_id _)
    rw [parse, toList_display, parseChars, htrim, if_neg htext, hpieces, hmap,
      ofParts_parts hnames h, of_types_varargs]

/-- **Which parameter types are read back** from their written form: those whose names begin, and
except for the last of a variadic list end, as names are read.  Whatever is read is of this kind, so
that writing and reading again changes nothing. -/
theorem parse_display_eq_ok_iff :
    (∀ p : ParameterTypes, parse p.display = .ok p ↔ WrittenNames p.types p.varargs) ∧
      ∀ text p, parse text = .ok p →
        WrittenNames p.types p.varargs ∧ parse p.display = parse text := by
  refine ⟨fun p => ⟨writtenNames_of_parse, parse_display_of_writtenNames⟩, fun text p h => ?_⟩
  have hwritten := writtenNames_of_parse h
  exact ⟨hwritten, (parse_display_of_writtenNames hwritten).trans h.symm⟩

/-! The star behind the last name of a variadic list keeps a blank in front of it; without the star
the blank is lost. -/

example : parse (of ["A", "B "] true).display = .ok (of ["A", "B "] true) := by decide

example : parse (of ["A", "B "] false).display = .ok (of ["A", "B"] false) := by decide

end ParameterTypes

end ActionSignatures
