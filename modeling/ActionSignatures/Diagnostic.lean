/-
**Diagnostics.**

A diagnostic is a message at a place of a file, with a category, a code, and further messages that
it is related to.  The known kinds of diagnostics have their codes, categories and message templates
in one table; a diagnostic with another code is an error that lists its arguments.

Main definitions:

* `ActionSignatures.DiagnosticKind` — **the table** of known kinds;
* `ActionSignatures.Diagnostic` — diagnostics;
* `ActionSignatures.Diagnostic.ofCode` — the diagnostic of a code and arguments.

Main results:

* `ActionSignatures.DiagnosticKind.ofCode?_eq_some_iff` — codes tell the known kinds apart.
-/

import ActionSignatures.Text.Pieces
import ActionSignatures.Text.Template

set_option relaxedAutoImplicit false
set_option autoImplicit false

namespace ActionSignatures

/-! ### Categories -/

/-- How much a diagnostic matters. -/
inductive DiagnosticCategory where
  | warning
  | error
  | suggestion
  | message
deriving DecidableEq, Repr

namespace DiagnosticCategory

/-- The name of a category in data. -/
def name : DiagnosticCategory → String
  | .warning => "Warning"
  | .error => "Error"
  | .suggestion => "Suggestion"
  | .message => "Message"

/-- The word for a category in reports. -/
def label : DiagnosticCategory → String
  | .warning => "warning"
  | .error => "error"
  | .suggestion => "suggestion"
  | .message => "message"

end DiagnosticCategory

/-! ### Known kinds -/

/-- **The known kinds of diagnostics.** -/
inductive DiagnosticKind where
  | multipleVariadicParameters
  | variadicParameterNotLast
  | variadicParameterWithDefault
  | duplicateOverload
  | tooManyDefaultParameters
  | unresolvedAncestor
  | truncatedWalk
deriving DecidableEq, Repr

namespace DiagnosticKind

/-- The code of a kind. -/
def code : DiagnosticKind → Nat
  | .multipleVariadicParameters => 1001
  | .variadicParameterNotLast => 1002
  | .variadicParameterWithDefault => 1003
  | .duplicateOverload => 2001
  | .tooManyDefaultParameters => 2002
  | .unresolvedAncestor => 3001
  | .truncatedWalk => 3002

/-- The category of a kind: what stops the generation of code is an error. -/
def category : DiagnosticKind → DiagnosticCategory
  | .unresolvedAncestor => .warning
  | .truncatedWalk => .warning
  | _ => .error

/-- The message template of a kind, with numbered placeholders. -/
def template : DiagnosticKind → String
  | .multipleVariadicParameters =>
      "Formal parameters '\x7b0\x7d' and '\x7b1\x7d' are both variadic; only the last parameter " ++
        "may be variadic."
  | .variadicParameterNotLast =>
      "Variadic parameter '\x7b0\x7d' must be the last formal parameter."
  | .variadicParameterWithDefault =>
      "Variadic parameter '\x7b0\x7d' cannot have a default value."
  | .duplicateOverload =>
      "The default values of '\x7b0\x7d' produce the overload '\x7b1\x7d' more than once."
  | .tooManyDefaultParameters =>
      "'\x7b0\x7d' declares \x7b1\x7d default-valued parameters; at most \x7b2\x7d are supported."
  | .unresolvedAncestor =>
      "Cannot resolve the super-type '\x7b0\x7d' of '\x7b1\x7d'; members inherited through it are " ++
        "ignored."
  | .truncatedWalk =>
      "The ancestors of '\x7b0\x7d' span more than \x7b1\x7d super-type edges; members beyond the " ++
        "limit are ignored."

/-- All known kinds. -/
def all : List DiagnosticKind :=
  [.multipleVariadicParameters, .variadicParameterNotLast, .variadicParameterWithDefault,
    .duplicateOverload, .tooManyDefaultParameters, .unresolvedAncestor, .truncatedWalk]

/-- The kind with a given code. -/
def ofCode? (code : Nat) : Option DiagnosticKind := all.find? (·.code == code)

@[simp] theorem ofCode?_code (k : DiagnosticKind) : ofCode? k.code = some k := by
  cases k <;> decide

/-- Codes tell the known kinds apart. -/
theorem ofCode?_eq_some_iff {code : Nat} {k : DiagnosticKind} :
    ofCode? code = some k ↔ k.code = code := by
  constructor
  · intro h
    simpa using List.find?_some h
  · rintro rfl
    exact ofCode?_code k

end DiagnosticKind

/-! ### Diagnostics -/

/-- A stretch of a file. -/
structure Place where
  file : String
  start : Nat
  length : Nat
deriving DecidableEq, Repr

/-- A message that another diagnostic is related to, such as the other of two colliding
overloads. -/
structure RelatedInformation extends Place where
  text : String
  category : DiagnosticCategory
  code : Nat
deriving DecidableEq, Repr

/-- **A diagnostic.** -/
structure Diagnostic extends Place where
  text : String
  category : DiagnosticCategory
  code : Nat
  related : List RelatedInformation
deriving DecidableEq, Repr

namespace Diagnostic

/-- An error with a text of its own. -/
def error (place : Place) (text : String) (code : Nat) : Diagnostic :=
  { toPlace := place, text, category := .error, code, related := [] }

/-- A diagnostic of a known kind. -/
def ofKind (place : Place) (kind : DiagnosticKind) (args : List String) : Diagnostic :=
  { toPlace := place
    text := Text.format kind.template args
    category := kind.category
    code := kind.code
    related := [] }

/-- The diagnostic of a code.  An unknown code gives an error that lists its arguments. -/
def ofCode (place : Place) (code : Nat) (args : List String) : Diagnostic :=
  match DiagnosticKind.ofCode? code with
  | some kind => ofKind place kind args
  | none => error place (Text.joined " " args) code

/-- The diagnostic with one more related message. -/
def withRelated (d : Diagnostic) (place : Place) (text : String) : Diagnostic :=
  { d with
    related := d.related ++ [{ toPlace := place, text, category := .message, code := 0 }] }

/-- Whether the diagnostic stops the generation of code. -/
def isError (d : Diagnostic) : Bool := d.category = .error

theorem ofCode_code (place : Place) (kind : DiagnosticKind) (args : List String) :
    ofCode place kind.code args = ofKind place kind args := by
  simp [ofCode]

end Diagnostic

end ActionSignatures
