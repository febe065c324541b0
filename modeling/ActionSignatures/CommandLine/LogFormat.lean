/-
**Formats of the log.**

Main definitions:

* `ActionSignatures.LogFormat` — formats;
* `ActionSignatures.LogFormat.parse` — **the format that a text names**, whatever the text is.
-/

import ActionSignatures.Text.Blank

set_option relaxedAutoImplicit false
set_option autoImplicit false

namespace ActionSignatures

/-- A format of the log: lines of text, an indented tree, or one value per line. -/
inductive LogFormat where
  | text
  | tree
  | json
deriving DecidableEq, Repr

namespace LogFormat

/-- The name of a format. -/
def name : LogFormat → String
  | .text => "text"
  | .tree => "tree"
  | .json => "json"

/-- **The format that a text names**; blanks around the name and the case of its letters do not
matter, and any other text stands for lines of text.  No character beyond ASCII has a lower-case form
that is a letter of one of the names, so that the case of ASCII letters is all that counts. -/
def parse (text : String) : LogFormat :=
  let name := String.ofList ((Text.trim text.toList).map Char.toLower)
  if name = "tree" then .tree else if name = "json" then .json else .text

end LogFormat

end ActionSignatures
