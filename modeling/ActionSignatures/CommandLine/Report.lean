/-
**Reports of diagnostics.**

A diagnostic is reported on a line of its own: file, category, code, text; its related messages
follow on further lines.  A summary counts errors and warnings.  On a terminal the parts have styles.

Main definitions:

* `ActionSignatures.Reporter` — whether styles are used;
* `ActionSignatures.Reporter.render` — **the report** of a list of diagnostics;
* `ActionSignatures.Reporter.summary` — the summary.
-/

import ActionSignatures.Diagnostic
import ActionSignatures.Text.Styled

set_option relaxedAutoImplicit false
set_option autoImplicit false

namespace ActionSignatures

open Text (Style styledIf)

/-- The style of a category. -/
def DiagnosticCategory.style : DiagnosticCategory → Style
  | .error => { bold := true, color := some .red }
  | .warning => { bold := true, color := some .yellow }
  | .suggestion => { bold := true, color := some .blue }
  | .message => { bold := true, color := some .cyan }

/-- A way of reporting: with styles or without. -/
structure Reporter where
  styled : Bool

namespace Reporter

/-- The code of a diagnostic behind its category; code zero is not shown. -/
def code (r : Reporter) (code : Nat) : String :=
  if code = 0 then "" else " " ++ styledIf r.styled { dimmed := true } ("SARLZ" ++ toString code)

/-- The line of a related message. -/
def related (r : Reporter) (d : RelatedInformation) : String :=
  styledIf r.styled { dimmed := true } "  Related" ++ ": " ++ d.file ++ " - " ++ d.text

/-- The lines of one diagnostic. -/
def describe (r : Reporter) (d : Diagnostic) : String :=
  let head :=
    (if d.file.isEmpty then "<unknown>" else d.file) ++ " - " ++
      styledIf r.styled d.category.style d.category.label ++ r.code d.code ++ ": " ++ d.text
  "\n".intercalate (head :: d.related.map r.related)

/-- **The report** of diagnostics. -/
def render (r : Reporter) (ds : List Diagnostic) : String :=
  "\n".intercalate (ds.map r.describe)

/-- A number of things. -/
def counted (n : Nat) (word : String) : String :=
  toString n ++ " " ++ word ++ (if n = 1 then "" else "s")

/-- The summary of diagnostics, if there is an error or a warning among them. -/
def summary (r : Reporter) (ds : List Diagnostic) : Option String :=
  let errors := ds.countP (·.isError)
  let warnings := ds.countP (·.category = .warning)
  let parts :=
    (if errors = 0 then [] else [counted errors "error"]) ++
      (if warnings = 0 then [] else [counted warnings "warning"])
  if parts.isEmpty then none
  else
    some (styledIf (r.styled && 0 < errors) { color := some .red }
      ("Found " ++ " and ".intercalate parts ++ "."))

end Reporter

end ActionSignatures
