/-
**Trimming and splitting.**

A text with blanks around it has the same trimmed form as the text alone, and every text is its
trimmed form with blanks around it.  The separators of this library are no blanks.  So it makes no
difference whether a text is trimmed before it is split at a separator, if its pieces are trimmed
afterwards.

Main results:

* `ActionSignatures.Text.trim_append_left`, `ActionSignatures.Text.trim_append_right` — blanks
  around a text are trimmed away;
* `ActionSignatures.Text.exists_blanks_around_trim` — a text is its trimmed form between blanks;
* `ActionSignatures.Text.trim_eq_nil_iff` — only blanks leave nothing when they are trimmed;
* `ActionSignatures.Text.map_trim_pieces_trim` — **the trimmed pieces of a trimmed text** are those
  of the text.
-/

import ActionSignatures.Proofs.Prototype.WrittenNames
import Mathlib.Data.List.TakeWhile

set_option relaxedAutoImplicit false
set_option autoImplicit false

namespace ActionSignatures.Text

/-! ### Blanks around a text -/

section

variable {lead tail : List Char}

/-- Blanks in front of a text are trimmed away. -/
theorem trim_append_left (h : ∀ c ∈ lead, isBlank c = true) (cs : List Char) :
    trim (lead ++ cs) = trim cs := by
  rw [trim, trimStart, List.dropWhile_append_of_pos h]
  rfl

theorem trimEnd_append_right (h : ∀ c ∈ tail, isBlank c = true) (cs : List Char) :
    trimEnd (cs ++ tail) = trimEnd cs := by
  have hreverse : ∀ c ∈ tail.reverse, isBlank c = true := fun c hc => h c (List.mem_reverse.1 hc)
  rw [trimEnd, List.reverse_append, List.dropWhile_append_of_pos hreverse]
  rfl

/-- Blanks behind a text are trimmed away. -/
theorem trim_append_right (h : ∀ c ∈ tail, isBlank c = true) (cs : List Char) :
    trim (cs ++ tail) = trim cs := by
  rw [trim, trimStart, List.dropWhile_append]
  split
  · rename_i hnil
    rw [List.dropWhile_eq_nil_iff.2 h, trim, trimStart, List.isEmpty_iff.1 hnil]
  · exact trimEnd_append_right h _

end

/-- A text is its trimmed form between blanks. -/
theorem exists_blanks_around_trim (cs : List Char) :
    ∃ lead tail, (∀ c ∈ lead, isBlank c = true) ∧ (∀ c ∈ tail, isBlank c = true) ∧
      cs = lead ++ (trim cs ++ tail) := by
  have hend : trimStart cs = trim cs ++ ((trimStart cs).reverse.takeWhile isBlank).reverse := by
    rw [trim, trimEnd, ← List.reverse_append, List.takeWhile_append_dropWhile, List.reverse_reverse]
  refine ⟨cs.takeWhile isBlank, ((trimStart cs).reverse.takeWhile isBlank).reverse,
    fun c hc => List.mem_takeWhile_imp hc,
    fun c hc => List.mem_takeWhile_imp (List.mem_reverse.1 hc), ?_⟩
  rw [← hend, trimStart, List.takeWhile_append_dropWhile]

/-- Only blanks leave nothing when they are trimmed. -/
theorem trim_eq_nil_iff {cs : List Char} : trim cs = [] ↔ ∀ c ∈ cs, isBlank c = true := by
  constructor
  · intro h
    obtain ⟨lead, tail, hlead, htail, hcs⟩ := exists_blanks_around_trim cs
    rw [h, List.nil_append] at hcs
    rw [hcs]
    exact List.forall_mem_append.2 ⟨hlead, htail⟩
  · intro h
    rw [← List.append_nil cs, trim_append_left h, trim_nil]

/-! ### Blanks around a text that is split -/

variable {sep : Char}

/-- A separator that is no blank does not occur among blanks. -/
theorem notMem_of_blank (hsep : isBlank sep = false) {cs : List Char}
    (h : ∀ c ∈ cs, isBlank c = true) : sep ∉ cs := by
  intro hmem
  rw [h sep hmem] at hsep
  cases hsep

/-- What stands in front of a text joins its first piece. -/
theorem pieces_append_left {lead : List Char} (h : sep ∉ lead) {cs p : List Char}
    {ps : List (List Char)} (hp : pieces sep cs = p :: ps) :
    pieces sep (lead ++ cs) = (lead ++ p) :: ps := by
  induction lead with
  | nil => exact hp
  | cons c lead ih =>
      rw [List.mem_cons, not_or] at h
      exact pieces_cons_of_ne (Ne.symm h.1) (ih h.2)

/-- What stands behind joined texts stands behind the last of them. -/
theorem intercalate_concat_append {glue : List Char} (front : List (List Char))
    (last tail : List Char) :
    glue.intercalate (front ++ [last]) ++ tail = glue.intercalate (front ++ [last ++ tail]) := by
  induction front with
  | nil =>
      rw [List.nil_append, List.nil_append, List.intercalate_singleton, List.intercalate_singleton]
  | cons p front ih =>
      rw [List.cons_append, List.cons_append,
        List.intercalate_cons_of_ne_nil (List.concat_ne_nil last front),
        List.intercalate_cons_of_ne_nil (List.concat_ne_nil (last ++ tail) front),
        List.append_assoc, ih]

/-- What stands behind a text joins its last piece. -/
theorem pieces_append_right {tail : List Char} (h : sep ∉ tail) {cs last : List Char}
    {front : List (List Char)} (hp : pieces sep cs = front ++ [last]) :
    pieces sep (cs ++ tail) = front ++ [last ++ tail] := by
  have hnone : ∀ p ∈ pieces sep cs, sep ∉ p := not_mem_of_mem_pieces
  have hcs := intercalate_pieces sep cs
  rw [hp] at hnone hcs
  obtain ⟨hfront, hlast⟩ := List.forall_mem_append.1 hnone
  rw [← hcs, intercalate_concat_append]
  refine pieces_intercalate (List.concat_ne_nil _ _) (List.forall_mem_append.2 ⟨hfront, ?_⟩)
  simpa [h] using hlast

/-- **The trimmed pieces of a trimmed text** are those of the text, if the separator is no blank. -/
theorem map_trim_pieces_trim (hsep : isBlank sep = false) (cs : List Char) :
    (pieces sep (trim cs)).map trim = (pieces sep cs).map trim := by
  obtain ⟨lead, tail, hlead, htail, hcs⟩ := exists_blanks_around_trim cs
  obtain ⟨front, last, hsplit⟩ := List.eq_nil_or_concat' (pieces sep (trim cs))
    |>.resolve_left (pieces_ne_nil sep (trim cs))
  have hright : pieces sep (trim cs ++ tail) = front ++ [last ++ tail] :=
    pieces_append_right (notMem_of_blank hsep htail) hsplit
  obtain ⟨p, ps, hfirst⟩ := List.exists_cons_of_ne_nil (pieces_ne_nil sep (trim cs ++ tail))
  have hleft : pieces sep cs = (lead ++ p) :: ps := by
    rw [hcs]
    exact pieces_append_left (notMem_of_blank hsep hlead) hfirst
  calc (pieces sep (trim cs)).map trim
      = (front ++ [last ++ tail]).map trim := by
        rw [hsplit, List.map_append, List.map_append, List.map_singleton, List.map_singleton,
          trim_append_right htail]
    _ = (p :: ps).map trim := by rw [← hright, hfirst]
    _ = (pieces sep cs).map trim := by
        rw [hleft, List.map_cons, List.map_cons, trim_append_left hlead]

end ActionSignatures.Text
