/-
**Text for a terminal that understands styles.**

A style is written as a control sequence in front of the text, and a second sequence after it puts
the terminal back.  A text may itself hold such an ending; behind each of them the style is written
once more, so that the rest of the text keeps it.

Main definitions:

* `ActionSignatures.Text.Style` — weight and colour;
* `ActionSignatures.Text.Style.render` — **a text in a style**.

Main results:

* `ActionSignatures.Text.Style.render_plain` — the plain style writes the text alone.
-/

import ActionSignatures.Text.Template

set_option relaxedAutoImplicit false
set_option autoImplicit false

namespace ActionSignatures.Text

/-- The foreground colours in use. -/
inductive Color where
  | red
  | yellow
  | blue
  | cyan
deriving DecidableEq, Repr

/-- The number of a foreground colour in a control sequence. -/
def Color.code : Color → String
  | .red => "31"
  | .yellow => "33"
  | .blue => "34"
  | .cyan => "36"

/-- The weight and colour of a text. -/
structure Style where
  bold : Bool := false
  dimmed : Bool := false
  color : Option Color := none
deriving DecidableEq, Repr

namespace Style

/-- The numbers of a style: weight before colour. -/
def codes (s : Style) : List String :=
  (if s.bold then ["1"] else []) ++ (if s.dimmed then ["2"] else []) ++
    (s.color.map Color.code).toList

/-- The control sequence that starts a style. -/
def opening (s : Style) : String := "\x1b[" ++ ";".intercalate s.codes ++ "m"

/-- The control sequence that ends every style. -/
def closing : String := "\x1b[0m"

/-- **A text in a style**: the style is opened in front of the text and again behind every ending
inside it, and ended after the text. -/
def render (s : Style) (text : String) : String :=
  if s.codes.isEmpty then
    text
  else
    let inner := replaceAll closing.toList (closing ++ s.opening).toList text.toList
    s.opening ++ String.ofList inner ++ closing

/-- A style that sets nothing writes the text alone. -/
theorem render_plain (text : String) : render {} text = text := rfl

example : ({ bold := true, color := some .red } : Style).render "error" =
    "\x1b[1;31merror\x1b[0m" := by decide +kernel

end Style

/-- A text in a style, or as it is where styles are not wanted. -/
def styledIf (wanted : Bool) (s : Style) (text : String) : String :=
  if wanted then s.render text else text

end ActionSignatures.Text
