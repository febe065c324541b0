/-
**Blank characters and trimming.**

The textual forms of this library (parameter lists, prototypes, operation flags, log formats) ignore
blanks around their tokens.  A blank is a character with the Unicode property `White_Space`, which
has twenty-five members; the ASCII blanks are six of them.

Main definitions:

* `ActionSignatures.Text.isBlank` — the property `White_Space`;
* `ActionSignatures.Text.trim` — a text without the blanks at its two ends.

Main results:

* `ActionSignatures.Text.isBlank_of_isWhitespace` — every blank of the core library is a blank;
* `ActionSignatures.Text.trim_of_not_blank` — a text with no blank at its ends is left alone.
-/

set_option relaxedAutoImplicit false
set_option autoImplicit false

namespace ActionSignatures.Text

/-! ### Blank characters -/

/-- The Unicode property `White_Space`. -/
def isBlank (c : Char) : Bool :=
  let n := c.toNat
  (0x09 ≤ n && n ≤ 0x0D) || n == 0x20 || n == 0x85 || n == 0xA0 || n == 0x1680 ||
    (0x2000 ≤ n && n ≤ 0x200A) || n == 0x2028 || n == 0x2029 || n == 0x202F || n == 0x205F ||
    n == 0x3000

theorem isBlank_of_isWhitespace {c : Char} (h : c.isWhitespace = true) : isBlank c = true := by
  simp only [Char.isWhitespace, Bool.or_eq_true, decide_eq_true_eq] at h
  rcases h with ((rfl | rfl) | rfl) | rfl <;> rfl

/-! ### Trimming -/

/-- The text after its leading blanks. -/
def trimStart (cs : List Char) : List Char := cs.dropWhile isBlank

/-- The text before its trailing blanks. -/
def trimEnd (cs : List Char) : List Char := (cs.reverse.dropWhile isBlank).reverse

/-- **Trimming**: the text without the blanks at its two ends. -/
def trim (cs : List Char) : List Char := trimEnd (trimStart cs)

@[simp] theorem trimStart_nil : trimStart [] = [] := rfl

@[simp] theorem trimEnd_nil : trimEnd [] = [] := rfl

@[simp] theorem trim_nil : trim [] = [] := rfl

theorem trimStart_cons (c : Char) (cs : List Char) :
    trimStart (c :: cs) = if isBlank c then trimStart cs else c :: cs := by
  simp only [trimStart, List.dropWhile_cons]

theorem trimEnd_concat (cs : List Char) (c : Char) :
    trimEnd (cs ++ [c]) = if isBlank c then trimEnd cs else cs ++ [c] := by
  simp only [trimEnd, List.reverse_append, List.reverse_cons, List.reverse_nil, List.nil_append,
    List.singleton_append, List.dropWhile_cons]
  split <;> simp

/-- A text whose first and last characters are not blank is its own trimmed form. -/
theorem trim_of_not_blank {cs : List Char} (first : ∀ c, cs.head? = some c → isBlank c = false)
    (last : ∀ c, cs.getLast? = some c → isBlank c = false) : trim cs = cs := by
  have start : trimStart cs = cs := by
    cases cs with
    | nil => rfl
    | cons c cs => rw [trimStart_cons, first c rfl]; rfl
  rw [trim, start, trimEnd]
  cases h : cs.reverse with
  | nil => simpa using h.symm
  | cons c r =>
      have hc : isBlank c = false := last c (by rw [← List.head?_reverse, h]; rfl)
      rw [List.dropWhile_cons, hc]
      simp [← h]

/-- Trimming on strings. -/
def trimmed (s : String) : String := String.ofList (trim s.toList)

end ActionSignatures.Text
