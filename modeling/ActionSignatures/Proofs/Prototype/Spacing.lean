/-
**Blanks around the tokens of parameter types.**

Blanks may stand around the names, the commas and the star of parameter types.  The parts between
the commas are trimmed, and the star is taken off the last part after that.  So blanks make no
difference, except for those between the last name and the star: they are inside the last part when
it is trimmed, and are left at the end of the name when the star is gone.

Main definitions:

* `ActionSignatures.ParameterTypes.SpacedName` — a name with blanks around it;
* `ActionSignatures.ParameterTypes.SpacedList` — **a list with blanks around its tokens**;
* `ActionSignatures.ParameterTypes.SpacedList.gap` — the blanks in front of the star.

Main results:

* `ActionSignatures.ParameterTypes.SpacedList.textParts_text` — the trimmed parts of such a text;
* `ActionSignatures.ParameterTypes.SpacedList.parse_text` — what is read from it;
* `ActionSignatures.ParameterTypes.SpacedList.parse_text_eq_parse_tight_iff` — **when the blanks
  make no difference**;
* `ActionSignatures.ParameterTypes.blanks_matter_before_star` — which blanks are left in the names
  that are read.
-/

import ActionSignatures.Proofs.Prototype.FirstOffence

set_option relaxedAutoImplicit false
set_option autoImplicit false

namespace ActionSignatures.ParameterTypes

open Text

/-! ### Names with blanks around them -/

theorem comma_notMem_of_blank {cs : List Char} (h : ∀ c ∈ cs, isBlank c = true) : ',' ∉ cs :=
  notMem_of_blank rfl h

/-- **A name with blanks around it.**  The name is not empty, has no comma and no blanks at its
ends, and does not end in a star. -/
structure SpacedName where
  name : ErasedType
  before : List Char
  after : List Char
  opens : OpensName name.toList
  closes : ClosesName name.toList
  before_blank : ∀ c ∈ before, isBlank c = true
  after_blank : ∀ c ∈ after, isBlank c = true

namespace SpacedName

/-- The name with the blanks, as it is written. -/
def chars (n : SpacedName) : List Char := n.before ++ (n.name.toList ++ n.after)

theorem comma_notMem_chars (n : SpacedName) : ',' ∉ n.chars := by
  simp [chars, comma_notMem_of_blank n.before_blank, comma_notMem_of_blank n.after_blank,
    n.opens.2.1]

theorem trim_name (n : SpacedName) : trim n.name.toList = n.name.toList :=
  trim_of_not_blank n.opens.2.2 fun c hc => (n.closes c hc).1

theorem trim_chars (n : SpacedName) : trim n.chars = n.name.toList := by
  rw [chars, trim_append_left n.before_blank, trim_append_right n.after_blank, n.trim_name]

end SpacedName

/-- A name with more characters behind it begins as the name does. -/
theorem OpensName.append {name : List Char} (h : OpensName name) {tail : List Char}
    (htail : ',' ∉ tail) : OpensName (name ++ tail) := by
  obtain ⟨hne, hcomma, hhead⟩ := h
  refine ⟨List.append_ne_nil_of_left_ne_nil hne tail, by simp [hcomma, htail], fun c hc => ?_⟩
  rw [List.head?_append_of_ne_nil _ hne] at hc
  exact hhead c hc

/-! ### Lists with blanks around their tokens -/

/-- **Parameter types with blanks around their tokens**: at least one name, and the star of a
variadic list, with blanks behind it. -/
structure SpacedList where
  front : List SpacedName
  last : SpacedName
  varargs : Bool
  behind : List Char
  behind_blank : ∀ c ∈ behind, isBlank c = true

/-- Names that may stand in any place of a list are read back, with one more behind them that opens
as a name does, and also closes as one if no star follows. -/
theorem writtenNames_concat {front : List ErasedType} {last : ErasedType} {varargs : Bool}
    (hfront : ∀ name ∈ front, OpensName name.toList ∧ ClosesName name.toList)
    (hopens : OpensName last.toList) (hcloses : varargs = false → ClosesName last.toList) :
    WrittenNames (front ++ [last]) varargs where
  opens := List.forall_mem_append.2
    ⟨fun name hname => (hfront name hname).1, List.forall_mem_singleton.2 hopens⟩
  closes := by
    cases varargs with
    | true => simpa using fun name hname => (hfront name hname).2
    | false =>
        exact List.forall_mem_append.2
          ⟨fun name hname => (hfront name hname).2, List.forall_mem_singleton.2 (hcloses rfl)⟩

namespace SpacedList

variable (l : SpacedList)

/-- The names of the list. -/
def names : List ErasedType := (l.front ++ [l.last]).map SpacedName.name

/-- The star of a variadic list. -/
def star : List Char := if l.varargs then ['*'] else []

/-- The text of the list with all blanks. -/
def text : String :=
  String.ofList ([','].intercalate ((l.front ++ [l.last]).map SpacedName.chars) ++
    (l.star ++ l.behind))

/-- The text of the list without any blanks around its tokens. -/
def tight : String := (of l.names l.varargs).display

/-- The blanks between the last name and the star. -/
def gap : List Char := if l.varargs then l.last.after else []

/-- The last name with the blanks in front of the star. -/
def readLast : ErasedType := l.last.name ++ String.ofList l.gap

/-- The names of the list, the last one with the blanks in front of the star. -/
def readNames : List ErasedType := l.front.map SpacedName.name ++ [l.readLast]

theorem toList_readLast : l.readLast.toList = l.last.name.toList ++ l.gap := by
  rw [readLast, String.toList_append, String.toList_ofList]

theorem comma_notMem_gap : ',' ∉ l.gap := by
  rw [gap]
  split
  · exact comma_notMem_of_blank l.last.after_blank
  · exact List.not_mem_nil

theorem comma_notMem_star : ',' ∉ l.star := by
  rw [star]
  split <;> decide

/-- **The last part** keeps the blanks in front of the star when it is trimmed. -/
theorem trim_lastPart :
    trim (l.last.chars ++ (l.star ++ l.behind)) = l.last.name.toList ++ (l.gap ++ l.star) := by
  rw [SpacedName.chars, List.append_assoc, trim_append_left l.last.before_blank]
  cases hvarargs : l.varargs with
  | true =>
      have hstar : l.star = ['*'] := by rw [star, hvarargs]; rfl
      have hgap : l.gap = l.last.after := by rw [gap, hvarargs]; rfl
      have hopens : OpensName (l.last.name.toList ++ (l.last.after ++ ['*'])) :=
        l.last.opens.append (by simp [comma_notMem_of_blank l.last.after_blank])
      rw [hstar, hgap, ← List.append_assoc, trim_append_right l.behind_blank, List.append_assoc]
      refine trim_of_not_blank hopens.2.2 fun c hc => ?_
      rw [← List.append_assoc, List.getLast?_concat] at hc
      obtain rfl := Option.some.inj hc
      rfl
  | false =>
      have hstar : l.star = [] := by rw [star, hvarargs]; rfl
      have hgap : l.gap = [] := by rw [gap, hvarargs]; rfl
      rw [hstar, hgap, List.nil_append, List.append_nil, List.append_nil,
        trim_append_right l.behind_blank, trim_append_right l.last.after_blank, l.last.trim_name]

/-- **The trimmed parts** of the text are those of the names that are read. -/
theorem textParts_text : textParts l.text = parts l.readNames l.varargs := by
  have hjoined : l.text.toList =
      [','].intercalate (l.front.map SpacedName.chars ++
        [l.last.chars ++ (l.star ++ l.behind)]) := by
    rw [text, String.toList_ofList, List.map_append, List.map_singleton, intercalate_concat_append]
  have hcomma : ∀ part ∈ l.front.map SpacedName.chars ++ [l.last.chars ++ (l.star ++ l.behind)],
      ',' ∉ part := by
    refine List.forall_mem_append.2 ⟨List.forall_mem_map.2 fun n _ => n.comma_notMem_chars, ?_⟩
    simp [l.last.comma_notMem_chars, l.comma_notMem_star, comma_notMem_of_blank l.behind_blank]
  have hfront : l.front.map (trim ∘ SpacedName.chars) =
      l.front.map (String.toList ∘ SpacedName.name) :=
    List.map_congr_left fun n _ => n.trim_chars
  rw [textParts, hjoined, pieces_intercalate (List.concat_ne_nil _ _) hcomma, List.map_append,
    List.map_singleton, List.map_map, l.trim_lastPart, readNames, parts_concat, List.map_map,
    hfront, l.toList_readLast, List.append_assoc, star]

theorem opens_and_closes_front : ∀ name ∈ l.front.map SpacedName.name,
    OpensName name.toList ∧ ClosesName name.toList :=
  List.forall_mem_map.2 fun n _ => ⟨n.opens, n.closes⟩

theorem writtenNames_names : WrittenNames l.names l.varargs := by
  rw [names, List.map_append, List.map_singleton]
  exact writtenNames_concat l.opens_and_closes_front l.last.opens fun _ => l.last.closes

/-- The blanks in front of the star do not keep the names from being read back. -/
theorem writtenNames_readNames : WrittenNames l.readNames l.varargs := by
  refine writtenNames_concat l.opens_and_closes_front ?_ fun hvarargs => ?_
  · rw [l.toList_readLast]
    exact l.last.opens.append l.comma_notMem_gap
  · rw [l.toList_readLast, gap, hvarargs, if_neg Bool.false_ne_true, List.append_nil]
    exact l.last.closes

theorem not_blank_text : ¬∀ c ∈ l.text.toList, isBlank c = true := by
  intro hblank
  have hparts : textParts l.text = [[]] := by
    rw [textParts, pieces_of_notMem (comma_notMem_of_blank hblank), List.map_singleton,
      trim_eq_nil_iff.2 hblank]
  rw [l.textParts_text] at hparts
  have hempty := l.writtenNames_readNames.isPart_of_mem_parts []
  rw [hparts] at hempty
  exact (hempty List.mem_cons_self).1 rfl

/-- **What is read** from a text with blanks around its tokens. -/
theorem parse_text : parse l.text = .ok (of l.readNames l.varargs) := by
  have hne : l.readNames ≠ [] := List.concat_ne_nil _ _
  rw [parse_of_not_blank l.not_blank_text, l.textParts_text,
    ofParts_parts hne l.writtenNames_readNames]

theorem parse_tight : parse l.tight = .ok (of l.names l.varargs) := by
  have hvarargs : (of l.names l.varargs).varargs = l.varargs := by simp [of, names]
  refine parse_display_of_writtenNames ?_
  rw [hvarargs]
  exact l.writtenNames_names

/-- **The blanks make no difference** if there are none in front of the star. -/
theorem parse_text_eq_parse_tight_iff : parse l.text = parse l.tight ↔ l.gap = [] := by
  have hnames : l.names = l.front.map SpacedName.name ++ [l.last.name] := by
    rw [names, List.map_append, List.map_singleton]
  rw [l.parse_text, l.parse_tight]
  constructor
  · intro h
    have htypes : l.readNames = l.names := congrArg ParameterTypes.types (Except.ok.inj h)
    rw [readNames, hnames, List.append_right_inj, List.singleton_inj] at htypes
    exact List.append_right_eq_self.1 (l.toList_readLast.symm.trans (congrArg _ htypes))
  · intro h
    rw [readNames, readLast, h, hnames, String.ofList_nil, String.append_empty]

end SpacedList

/-! ### Blanks in the names that are read -/

section

variable {text : String} {p : ParameterTypes} {name : ErasedType}

/-- No name that is read begins with a blank. -/
theorem head_of_parse (h : parse text = .ok p) (hname : name ∈ p.types) :
    ∀ c, name.toList.head? = some c → isBlank c = false :=
  ((writtenNames_of_parse h).opens name hname).2.2

/-- No name that is read ends with a blank, if no star stands behind it. -/
theorem getLast_of_parse (h : parse text = .ok p) {i : Nat} (hname : p.types[i]? = some name)
    (hplace : i + 1 < p.length ∨ p.varargs = false) :
    ∀ c, name.toList.getLast? = some c → isBlank c = false := by
  have hmem : name ∈ if p.varargs then p.types.dropLast else p.types := by
    split
    · rename_i hvarargs
      have hlength := hplace.resolve_right (by simp [hvarargs])
      have hfront : i < p.types.length - 1 := Nat.lt_sub_of_add_lt hlength
      exact List.mem_of_getElem? (by rw [List.getElem?_dropLast, if_pos hfront, hname])
    · exact List.mem_of_getElem? hname
  exact fun c hc => ((writtenNames_of_parse h).closes name hmem c hc).1

end

/-- **Which blanks matter.**  A text that has blanks around the names, the commas and the star of
parameter types writes what it writes without the blanks, if there are none between the last name
and the star; any that are there are read as the end of the last name.  No name that is read from a
text begins with a blank, and none but the last one of a variadic list ends with one. -/
theorem blanks_matter_before_star (l : SpacedList) :
    parse l.text = .ok (of l.readNames l.varargs) ∧ parse l.tight = .ok (of l.names l.varargs) ∧
      (parse l.text = parse l.tight ↔ l.gap = []) ∧
      ∀ text p, parse text = .ok p → ∀ i name, p.types[i]? = some name →
        (∀ c, name.toList.head? = some c → isBlank c = false) ∧
          (i + 1 < p.length ∨ p.varargs = false →
            ∀ c, name.toList.getLast? = some c → isBlank c = false) := by
  refine ⟨l.parse_text, l.parse_tight, l.parse_text_eq_parse_tight_iff, ?_⟩
  intro text p h i name hname
  exact ⟨head_of_parse h (List.mem_of_getElem? hname), getLast_of_parse h hname⟩

/-- A variadic list of numbers with a blank in front of the star. -/
def numbersBeforeBlank : SpacedList where
  front := []
  last :=
    { name := "int"
      before := []
      after := [' ']
      opens := ⟨by decide, by decide, by rintro c ⟨⟩; rfl⟩
      closes := by rintro c ⟨⟩; exact ⟨rfl, by decide⟩
      before_blank := by simp
      after_blank := by simp [isBlank] }
  varargs := true
  behind := []
  behind_blank := by simp

/-- The blank becomes a part of the name, so that the list is not the one that is written without
it. -/
theorem blank_read_before_star :
    numbersBeforeBlank.text = "int *" ∧ numbersBeforeBlank.tight = "int*" ∧
      parse "int *" = .ok (of ["int "] true) ∧ parse "int*" = .ok (of ["int"] true) ∧
        ¬∀ l : SpacedList, parse l.text = parse l.tight := by
  refine ⟨by decide, by decide, by decide, by decide, fun h => ?_⟩
  exact absurd (numbersBeforeBlank.parse_text_eq_parse_tight_iff.1 (h _)) (by decide)

end ActionSignatures.ParameterTypes
