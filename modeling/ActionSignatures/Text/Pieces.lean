/-
**Splitting a text at a separator, and putting pieces together.**

Main definitions:

* `ActionSignatures.Text.pieces` — the pieces of a text between the occurrences of one character;
* `ActionSignatures.Text.joined` — texts written one after another with a separator between them.

Main results:

* `ActionSignatures.Text.pieces_ne_nil` — every text has at least one piece;
* `ActionSignatures.Text.intercalate_pieces` — the pieces, joined by the separator, are the text;
* `ActionSignatures.Text.not_mem_of_mem_pieces` — no piece holds the separator.
-/

set_option relaxedAutoImplicit false
set_option autoImplicit false

namespace ActionSignatures.Text

/-! ### Pieces -/

/-- The pieces of a text between the occurrences of the separator.  A text without a separator is
its own single piece, and neighbouring separators have an empty piece between them. -/
def pieces (sep : Char) : List Char → List (List Char)
  | [] => [[]]
  | c :: cs =>
      if c = sep then
        [] :: pieces sep cs
      else
        match pieces sep cs with
        | [] => [[c]]
        | p :: ps => (c :: p) :: ps

theorem pieces_ne_nil (sep : Char) (cs : List Char) : pieces sep cs ≠ [] := by
  cases cs with
  | nil => simp [pieces]
  | cons c cs =>
      rw [pieces]
      split
      · simp
      · split <;> simp

@[simp] theorem pieces_nil (sep : Char) : pieces sep [] = [[]] := rfl

@[simp] theorem pieces_cons_self (sep : Char) (cs : List Char) :
    pieces sep (sep :: cs) = [] :: pieces sep cs := by
  simp [pieces]

/-- A character other than the separator joins the first piece. -/
theorem pieces_cons_of_ne {sep c : Char} (h : c ≠ sep) {cs p : List Char} {ps : List (List Char)}
    (hp : pieces sep cs = p :: ps) : pieces sep (c :: cs) = (c :: p) :: ps := by
  rw [pieces, if_neg h, hp]

/-- No piece holds the separator. -/
theorem not_mem_of_mem_pieces {sep : Char} {cs : List Char} :
    ∀ p ∈ pieces sep cs, sep ∉ p := by
  induction cs with
  | nil => simp [pieces]
  | cons c cs ih =>
      obtain ⟨q, qs, hq⟩ := List.exists_cons_of_ne_nil (pieces_ne_nil sep cs)
      by_cases h : c = sep
      · subst h
        rw [pieces_cons_self]
        rintro p (_ | ⟨_, hp⟩)
        · simp
        · exact ih p hp
      · rw [pieces_cons_of_ne h hq]
        rw [hq] at ih
        rintro p (_ | ⟨_, hp⟩)
        · intro hs
          rcases List.mem_cons.1 hs with hs | hs
          · exact h hs.symm
          · exact ih q (List.mem_cons_self ..) hs
        · exact ih p (List.mem_cons_of_mem _ hp)

/-- The pieces, joined by the separator, are the text. -/
theorem intercalate_pieces (sep : Char) (cs : List Char) :
    [sep].intercalate (pieces sep cs) = cs := by
  induction cs with
  | nil => rfl
  | cons c cs ih =>
      obtain ⟨q, qs, hq⟩ := List.exists_cons_of_ne_nil (pieces_ne_nil sep cs)
      by_cases h : c = sep
      · subst h
        rw [pieces_cons_self, hq, List.intercalate_cons_cons, ← hq, ih]
        rfl
      · rw [pieces_cons_of_ne h hq]
        rw [hq] at ih
        cases qs with
        | nil => simpa [List.intercalate] using ih
        | cons r rs =>
            rw [List.intercalate_cons_cons] at ih ⊢
            rw [← ih]
            rfl

/-! ### Joining -/

/-- Texts one after another, with the separator between neighbours. -/
def joined (sep : String) (texts : List String) : String := sep.intercalate texts

end ActionSignatures.Text
