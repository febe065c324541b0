/-
**The command line.**

The program reads the files of the machine, and takes what the terminal can do from the environment.
Everything else is `ActionSignatures.program`.

Main definitions:

* `ActionSignatures.machineFiles` — the files of the machine;
* `main` — the program.
-/

import ActionSignatures.CommandLine.Program

set_option relaxedAutoImplicit false
set_option autoImplicit false

namespace ActionSignatures

/-- **The files of the machine.**  A file that cannot be read, or does not hold text, has none. -/
def machineFiles : FileAccess IO where
  read? path := do
    try
      return some (← IO.FS.readFile path)
    catch _ =>
      return none
  isFile path := do
    try
      return (← ((← IO.currentDir) / path).metadata).type == .file
    catch _ =>
      return false

/-- The terminal of the machine. -/
def machineTerminal : IO Terminal := do
  let settings : StyleSettings :=
    { noColor := ← IO.getEnv "NO_COLOR"
      color := ← IO.getEnv "CLICOLOR"
      colorForced := ← IO.getEnv "CLICOLOR_FORCE" }
  return .ofEnvironment settings (← (← IO.getStdout).isTty) (← (← IO.getStderr).isTty)

end ActionSignatures

open ActionSignatures in
/-- **The program** with the arguments of the machine. -/
def main (args : List String) : IO UInt32 := do
  let directory := toString (← IO.currentDir)
  let ending ← program machineFiles directory (← machineTerminal) args
  IO.print ending.output
  IO.eprint ending.errors
  return ending.exitCode
