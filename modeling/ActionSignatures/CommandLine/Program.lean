/-
**The program as a whole.**

What the program prints is a function of its arguments, of the files, and of what the terminal can
do.  Answers go to the output; diagnostics, failures and what is wrong with the command line go to
the error stream.

Main definitions:

* `ActionSignatures.Terminal`, `ActionSignatures.Terminal.ofEnvironment` — what the terminal can do;
* `ActionSignatures.Ending` — how the program ends;
* `ActionSignatures.program` — **the program**.
-/

import ActionSignatures.CommandLine.Run

set_option relaxedAutoImplicit false
set_option autoImplicit false

namespace ActionSignatures

/-- What the terminal can do: whether styles are in use at all, and whether the error stream is a
terminal. -/
structure Terminal where
  hasStyles : Bool := false
  errorsAreShown : Bool := false

/-- What the environment says about styles: that they are refused, whether they are wanted, and whether
they are wanted in any case. -/
structure StyleSettings where
  noColor : Option String := none
  color : Option String := none
  colorForced : Option String := none

/-- The terminal of a program whose output and error stream are or are not shown on one.  Styles can
be forced; otherwise they can be refused, and are in use only where the output is shown. -/
def Terminal.ofEnvironment (settings : StyleSettings) (outputIsShown errorsAreShown : Bool) :
    Terminal where
  hasStyles :=
    settings.colorForced.any (· ≠ "0") ||
      (settings.noColor.isNone && settings.color.all (· ≠ "0") && outputIsShown)
  errorsAreShown

/-- How the program ends: its exit code, and what it has written to its output and to the error
stream. -/
structure Ending where
  exitCode : UInt32
  output : String := ""
  errors : String := ""
deriving DecidableEq, Repr

/-- The version of the program. -/
def versionText : String := "sarlz 0.1.0"

/-- How the program is used. -/
def usageText : String :=
  lines
    ["Resolve inherited actions and synthesize default-value overloads of SARL types",
      "",
      "Usage: sarlz [OPTIONS] <COMMAND>",
      "",
      "Commands:",
      "  resolve    Print the inheritance context of a type",
      "  overloads  Print the overloads synthesized for an action of a type",
      "",
      "Options:",
      "  -c, --config <CONFIG>  Path to the configuration",
      "  -f, --format <FORMAT>  Output format: text or json",
      "      --no-color         Disable colored output",
      "  -h, --help             Print help",
      "  -V, --version          Print version"]

/-- The end of a program whose command line asks for nothing. -/
def UsageFault.ending : UsageFault → Ending
  | .displayHelp => { exitCode := 0, output := usageText }
  | .displayVersion => { exitCode := 0, output := versionText ++ "\n" }
  | .displayHelpOnMissing => { exitCode := 2, errors := usageText }
  | fault => { exitCode := 2, errors := "error: " ++ fault.message ++ "\n\n" ++ usageText }

/-- The end of a program whose run fails.  What lies behind the failure is listed below it. -/
def RunFault.ending (fault : RunFault) : Ending :=
  let causes := fault.messages.drop 1 ++ fault.cause?.toList
  let listed :=
    match causes with
    | [] => []
    | [cause] => ["", "Caused by:", "    " ++ cause]
    | _ => ["", "Caused by:"] ++ causes.zipIdx.map fun (cause, i) =>
        "    " ++ toString i ++ ": " ++ cause
  { exitCode := 1, errors := lines (("Error: " ++ fault.messages.headD "") :: listed) }

/-- A text with the end of its last line, unless it is empty. -/
def endLine (text : String) : String :=
  if text.isEmpty || text.toList.getLast? = some '\n' then text else text ++ "\n"

/-- The end of a program after a run. -/
def Outcome.ending (o : Outcome) (reporter : Reporter) : Ending where
  exitCode := if o.hasErrors then 1 else 0
  output := endLine o.output
  errors :=
    if o.diagnostics.isEmpty then ""
    else
      reporter.render o.diagnostics ++ "\n" ++
        (match reporter.summary o.diagnostics with
          | some summary => "\n" ++ summary ++ "\n"
          | none => "")

/-- **The program** with the given arguments in a working directory. -/
def program {m : Type → Type} [Monad m] (files : FileAccess m) (directory : String)
    (terminal : Terminal) (args : List String) : m Ending := do
  match Arguments.parse args with
  | .error fault => return fault.ending
  | .ok args =>
      match ← (args.run files directory terminal.hasStyles).run with
      | .error fault => return fault.ending
      | .ok outcome =>
          let reporter : Reporter :=
            ⟨terminal.hasStyles && terminal.errorsAreShown && !args.noColor⟩
          return outcome.ending reporter

end ActionSignatures
