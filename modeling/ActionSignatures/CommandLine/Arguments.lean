/-
**Arguments of the command line.**

The program has two commands, `resolve` and `overloads`.  Options stand behind the command that they
belong to; the options of the program itself may stand in front of the command as well, and where
both places have one the later place counts.  A value follows its option as the next argument, behind
an equals sign, or, for an option of one letter, immediately.

Main definitions:

* `ActionSignatures.Arguments` — what the command line asks for;
* `ActionSignatures.UsageFault` — why a command line is refused, or answered with a text about the
  program;
* `ActionSignatures.Arguments.parse` — **reading the command line**.
-/

import ActionSignatures.Text.Pieces

set_option relaxedAutoImplicit false
set_option autoImplicit false

namespace ActionSignatures

/-! ### What can be asked for -/

/-- A format of the output. -/
inductive OutputFormat where
  | text
  | json
deriving DecidableEq, Repr

namespace OutputFormat

/-- The name of a format. -/
def name : OutputFormat → String
  | .text => "text"
  | .json => "json"

/-- All formats. -/
def all : List OutputFormat := [.text, .json]

/-- The format of a name, whatever the case of its ASCII letters. -/
def ofName? (name : String) : Option OutputFormat :=
  all.find? fun f => f.name.toList == name.toList.map Char.toLower

end OutputFormat

/-- What to resolve: a type of a model, and what the walk over its ancestors passes over. -/
structure ResolveArguments where
  model : String
  typeName : String
  exclude : List String
  includeObject : Bool
  includeSynthetic : Bool
deriving DecidableEq, Repr

/-- Which overloads to make: those of an action of a type of a model. -/
structure OverloadsArguments where
  model : String
  typeName : String
  action : String
  maxDefaultParameters : Option UInt32
deriving DecidableEq, Repr

/-- A command. -/
inductive Command where
  | resolve (args : ResolveArguments)
  | overloads (args : OverloadsArguments)
deriving DecidableEq, Repr

/-- **What the command line asks for.** -/
structure Arguments where
  config : Option String
  format : Option OutputFormat
  noColor : Bool
  command : Command
deriving DecidableEq, Repr

/-- Why a command line is refused, or answered with a text about the program. -/
inductive UsageFault where
  | displayHelp
  | displayVersion
  | displayHelpOnMissing
  | missingSubcommand
  | invalidSubcommand
  | unknownArgument
  | missingRequiredArgument
  | argumentConflict
  | invalidValue
  | valueValidation
  | tooManyValues
deriving DecidableEq, Repr

namespace UsageFault

/-- The name of a fault. -/
def name : UsageFault → String
  | .displayHelp => "DisplayHelp"
  | .displayVersion => "DisplayVersion"
  | .displayHelpOnMissing => "DisplayHelpOnMissingArgumentOrSubcommand"
  | .missingSubcommand => "MissingSubcommand"
  | .invalidSubcommand => "InvalidSubcommand"
  | .unknownArgument => "UnknownArgument"
  | .missingRequiredArgument => "MissingRequiredArgument"
  | .argumentConflict => "ArgumentConflict"
  | .invalidValue => "InvalidValue"
  | .valueValidation => "ValueValidation"
  | .tooManyValues => "TooManyValues"

/-- The wording of a fault. -/
def message : UsageFault → String
  | .displayHelp => ""
  | .displayVersion => ""
  | .displayHelpOnMissing => "a command is expected"
  | .missingSubcommand => "a command is expected behind the options"
  | .invalidSubcommand => "there is no such command"
  | .unknownArgument => "there is no such argument"
  | .missingRequiredArgument => "a required option is missing"
  | .argumentConflict => "an option is given twice"
  | .invalidValue => "the value of an option is missing or not one of its values"
  | .valueValidation => "the value of an option is not a number in its range"
  | .tooManyValues => "an option that takes no value is given one"

end UsageFault

/-! ### Options -/

/-- The options of the program and of its commands. -/
inductive CommandOption where
  | config
  | format
  | noColor
  | help
  | version
  | model
  | typeName
  | exclude
  | includeObject
  | includeSynthetic
  | action
  | maxDefaultParameters
deriving DecidableEq, Repr

namespace CommandOption

/-- The long name of an option. -/
def long : CommandOption → String
  | .config => "config"
  | .format => "format"
  | .noColor => "no-color"
  | .help => "help"
  | .version => "version"
  | .model => "model"
  | .typeName => "type"
  | .exclude => "exclude"
  | .includeObject => "include-object"
  | .includeSynthetic => "include-synthetic"
  | .action => "action"
  | .maxDefaultParameters => "max-default-parameters"

/-- The letter of an option. -/
def letter? : CommandOption → Option Char
  | .config => some 'c'
  | .format => some 'f'
  | .help => some 'h'
  | .version => some 'V'
  | .model => some 'm'
  | .typeName => some 't'
  | .exclude => some 'x'
  | .action => some 'a'
  | _ => none

/-- Whether an option takes a value. -/
def takesValue : CommandOption → Bool
  | .noColor => false
  | .help => false
  | .version => false
  | .includeObject => false
  | .includeSynthetic => false
  | _ => true

/-- Whether an option may be given several times. -/
def isRepeatable (o : CommandOption) : Bool := o = .exclude

/-- The values that one value of an option stands for: names to exclude are separated by commas. -/
def split (o : CommandOption) (value : String) : List String :=
  match o with
  | .exclude => (Text.pieces ',' value.toList).map String.ofList
  | _ => [value]

end CommandOption

/-- Where options are looked up: in front of the command, or behind it. -/
inductive Level where
  | program
  | resolve
  | overloads
deriving DecidableEq, Repr

/-- The options of a level. -/
def Level.options : Level → List CommandOption
  | .program => [.config, .format, .noColor, .help, .version]
  | .resolve =>
      [.model, .typeName, .exclude, .includeObject, .includeSynthetic, .config, .format, .noColor,
        .help]
  | .overloads =>
      [.model, .typeName, .action, .maxDefaultParameters, .config, .format, .noColor, .help]

/-- The level of a command. -/
def Level.ofCommand? (word : String) : Option Level :=
  if word = "resolve" then some .resolve
  else if word = "overloads" then some .overloads
  else none

/-! ### Values -/

/-- The digits of a decimal number as a number. -/
def decimalValue? (cs : List Char) : Option Nat :=
  if cs.isEmpty || !cs.all Char.isDigit then none
  else some (cs.foldl (fun n c => 10 * n + (c.toNat - '0'.toNat)) 0)

/-- A number of default-valued parameters: decimal digits behind an optional sign, in the range of an
unsigned word of 32 bits. -/
def countValue? (text : String) : Option UInt32 :=
  let inRange (n : Nat) : Option UInt32 :=
    if n < UInt32.size then some (UInt32.ofNat n) else none
  match text.toList with
  | '+' :: cs => (decimalValue? cs).bind inRange
  | '-' :: cs => (decimalValue? cs).bind fun n => if n = 0 then some 0 else none
  | cs => (decimalValue? cs).bind inRange

/-- What is wrong with a value of an option: paths are not empty, formats are known, and numbers are
in their range. -/
def CommandOption.valueFault? (o : CommandOption) (value : String) : Option UsageFault :=
  match o with
  | .config => if value.isEmpty then some .invalidValue else none
  | .model => if value.isEmpty then some .invalidValue else none
  | .format => if (OutputFormat.ofName? value).isNone then some .invalidValue else none
  | .maxDefaultParameters => if (countValue? value).isNone then some .valueValidation else none
  | _ => none

/-! ### Reading one level -/

/-- The options of a level read so far: the settled ones with their values, the latest first, an
option that is not settled yet, whether it still waits for its value, and whether a double dash has
come. -/
structure Reading where
  settled : List (CommandOption × List String) := []
  pending : Option (CommandOption × List String) := none
  awaitsValue : Bool := false
  afterDashes : Bool := false

namespace Reading

/-- The reading with an option settled.  A missing value is the first thing to be held against it,
then that the option has been given before, then its value. -/
def settle (r : Reading) (o : CommandOption) (values : List String) : Except UsageFault Reading :=
  if o.takesValue && values.isEmpty then .error .invalidValue
  else if o = .help then .error .displayHelp
  else if o = .version then .error .displayVersion
  else if !o.isRepeatable && r.settled.any (·.1 = o) then .error .argumentConflict
  else
    let values := values.flatMap o.split
    match values.findSome? o.valueFault? with
    | some fault => .error fault
    | none => .ok { r with settled := (o, values) :: r.settled }

/-- The reading with the pending option settled. -/
def flush (r : Reading) : Except UsageFault Reading :=
  match r.pending with
  | none => .ok r
  | some (o, values) => settle { r with pending := none } o values

/-- The reading after an option that is complete, such as one with its value attached. -/
def complete (r : Reading) (o : CommandOption) (values : List String) :
    Except UsageFault Reading := do
  let r ← r.flush
  settle { r with awaitsValue := false } o values

/-- The reading after an option whose value, if it takes one, is attached or comes next. -/
def addOption (r : Reading) (o : CommandOption) (attached : Option String) :
    Except UsageFault Reading :=
  match o.takesValue, attached with
  | true, some value => r.complete o [value]
  | true, none => do
      let r ← r.flush
      return { r with pending := some (o, []), awaitsValue := true }
  | false, some _ => .error .tooManyValues
  | false, none => r.complete o []

/-- The reading after an option with a long name, behind which a value may be attached. -/
def addLong (level : Level) (r : Reading) (body : List Char) : Except UsageFault Reading :=
  let name := String.ofList (body.takeWhile (· ≠ '='))
  let attached :=
    match body.dropWhile (· ≠ '=') with
    | [] => none
    | _ :: value => some (String.ofList value)
  match level.options.find? (·.long == name) with
  | some o => r.addOption o attached
  | none => .error .unknownArgument

/-- The reading after an option of one letter, behind which a value may be attached.  The options of
one letter that take no value end the reading, so that nothing behind them counts. -/
def addLetter (level : Level) (r : Reading) (letter : Char) (body : List Char) :
    Except UsageFault Reading :=
  match level.options.find? (·.letter? == some letter) with
  | some o =>
      if o.takesValue then
        r.addOption o
          (match body with
            | [] => none
            | '=' :: value => some (String.ofList value)
            | value => some (String.ofList value))
      else
        r.addOption o none
  | none => .error .unknownArgument

/-- The value of the pending option. -/
def addValue (r : Reading) (value : String) : Reading :=
  match r.pending with
  | some (o, values) => { r with pending := some (o, values ++ [value]), awaitsValue := false }
  | none => r

/-- What an argument is to a level: an option or a value that changes the reading, or a word. -/
def add (level : Level) (r : Reading) (arg : String) : Except UsageFault (Option Reading) :=
  if r.afterDashes then
    .ok none
  else
    match arg.toList with
    | ['-', '-'] => .ok (some { r with afterDashes := true })
    | '-' :: '-' :: body => (r.addLong level body).map some
    | '-' :: letter :: body => (r.addLetter level letter body).map some
    | _ => if r.awaitsValue then .ok (some (r.addValue arg)) else .ok none

/-- The values of an option, in the order of the command line. -/
def values (r : Reading) (o : CommandOption) : List String :=
  (r.settled.filter (·.1 = o)).reverse.flatMap (·.2)

/-- The value of an option that is given at most once. -/
def value? (r : Reading) (o : CommandOption) : Option String := (r.values o).head?

/-- Whether an option is given. -/
def has (r : Reading) (o : CommandOption) : Bool := r.settled.any (·.1 = o)

end Reading

/-! ### Reading the command line -/

/-- The options behind a command, which takes no other words. -/
def readCommand (level : Level) (r : Reading) : List String → Except UsageFault Reading
  | [] => r.flush
  | arg :: args => do
      match ← r.add level arg with
      | some r => readCommand level r args
      | none => .error .unknownArgument

/-- The answer to the command `help`, which names at most one command. -/
def helpFault (args : List String) : UsageFault :=
  match args with
  | [] => .displayHelp
  | [word] =>
      if word = "help" || (Level.ofCommand? word).isSome then .displayHelp else .invalidSubcommand
  | _ => .invalidSubcommand

/-- What stands on a command line: options of the program, and a command with its options. -/
structure ReadLine where
  program : Reading
  command : Option (Level × Reading)

/-- The options in front of the command, the command, and the options behind it.  The last option in
front of the command is settled after all that stands behind the command. -/
def readProgram (r : Reading) : List String → Except UsageFault ReadLine
  | [] => do return ⟨← r.flush, none⟩
  | arg :: args => do
      if !r.afterDashes && !r.awaitsValue && arg = "help" then
        .error (helpFault args)
      else
        match Level.ofCommand? arg, r.afterDashes || r.awaitsValue with
        | some level, false =>
            let command ← readCommand level {} args
            -- what is required behind the command is missed before the program's options settle
            if command.has .model && command.has .typeName &&
                (level ≠ .overloads || command.has .action) then
              return ⟨← r.flush, some (level, command)⟩
            else
              .error .missingRequiredArgument
        | found, _ =>
            match ← r.add .program arg with
            | some r => readProgram r args
            | none =>
                if r.afterDashes && (found.isSome || arg = "help") then .error .unknownArgument
                else .error .invalidSubcommand

/-- The command of a level with its options. -/
def Reading.command (r : Reading) (level : Level) : Command :=
  match level with
  | .overloads =>
      .overloads
        { model := (r.value? .model).getD ""
          typeName := (r.value? .typeName).getD ""
          action := (r.value? .action).getD ""
          maxDefaultParameters := (r.value? .maxDefaultParameters).bind countValue? }
  | _ =>
      .resolve
        { model := (r.value? .model).getD ""
          typeName := (r.value? .typeName).getD ""
          exclude := r.values .exclude
          includeObject := r.has .includeObject
          includeSynthetic := r.has .includeSynthetic }

/-- **Reading the command line**: the arguments behind the name of the program. -/
def Arguments.parse (args : List String) : Except UsageFault Arguments := do
  let line ← readProgram {} args
  match line.command with
  | none =>
      if line.program.settled.isEmpty then .error .displayHelpOnMissing
      else .error .missingSubcommand
  | some (level, command) =>
      let later (o : CommandOption) := (command.value? o).or (line.program.value? o)
      return {
        config := later .config
        format := (later .format).bind OutputFormat.ofName?
        noColor := command.has .noColor || line.program.has .noColor
        command := command.command level }

end ActionSignatures
