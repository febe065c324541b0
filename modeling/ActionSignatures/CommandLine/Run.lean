/-
**Runs of the program.**

A run loads the configuration and the model, answers the command, and prints the answer as text or as
JSON.  Files are reached through a record of two actions, so that a run can take place in any monad.

Main definitions:

* `ActionSignatures.FileAccess` — access to files;
* `ActionSignatures.RunFault` — why a run fails;
* `ActionSignatures.Outcome` — what a run prints, and the diagnostics it raises;
* `ActionSignatures.Arguments.run` — **the run** that a command line asks for.
-/

import ActionSignatures.CommandLine.Config
import ActionSignatures.CommandLine.Report
import ActionSignatures.Json.Writer

set_option relaxedAutoImplicit false
set_option autoImplicit false

namespace ActionSignatures

open Text (styledIf)

/-! ### Files -/

/-- Access to files: the text of a file, if it can be read, and whether a path leads to a file. -/
structure FileAccess (m : Type → Type) where
  read? : String → m (Option String)
  isFile : String → m Bool

/-- Whether a path starts at the root of the file system. -/
def isAbsolute (path : String) : Bool := path.toList.head? = some '/'

/-- The path as seen from a directory. -/
def pathFrom (directory path : String) : String :=
  if isAbsolute path then path
  else if directory.toList.getLast? = some '/' then directory ++ path
  else directory ++ "/" ++ path

/-! ### Failures -/

/-- **Why a run fails.** -/
inductive RunFault where
  | configUnreadable (path : String)
  | configMalformed (path : String)
  | modelUnreadable (path : String)
  | modelMalformed (path : String)
  | unknownType (typeName path : String)
  | unknownAction (typeName action : String)
deriving DecidableEq, Repr

namespace RunFault

/-- The wording of a failure, from the outermost statement inwards. -/
def messages : RunFault → List String
  | .configUnreadable path => ["failed to read config: " ++ path]
  | .configMalformed path => ["failed to parse config: " ++ path, Config.parseFailure]
  | .modelUnreadable path => ["failed to read model: " ++ path]
  | .modelMalformed path => ["failed to parse model: " ++ path]
  | .unknownType typeName path => ["unknown type '" ++ typeName ++ "' in " ++ path]
  | .unknownAction typeName action =>
      ["type '" ++ typeName ++ "' declares no action named '" ++ action ++ "'"]

/-- What lies behind a failure, where it is not a matter of the model: a file or its text. -/
def cause? : RunFault → Option String
  | .configUnreadable _ => some "the file cannot be read"
  | .configMalformed _ => some "the text is not a configuration"
  | .modelUnreadable _ => some "the file cannot be read"
  | .modelMalformed _ => some "the text is not a list of declarations"
  | .unknownType .. => none
  | .unknownAction .. => none

end RunFault

/-! ### Outcomes -/

/-- What a run prints, and the diagnostics it raises. -/
structure Outcome where
  output : String
  diagnostics : List Diagnostic

/-- Whether a run raised an error. -/
def Outcome.hasErrors (o : Outcome) : Bool := o.diagnostics.any (·.isError)

/-- A heading: bold where styles are wanted. -/
def heading (styled : Bool) (text : String) : String := styledIf styled { bold := true } text

/-- Lines of text, each with its end. -/
def lines (ls : List String) : String := String.join (ls.map (· ++ "\n"))

/-! ### Models -/

/-- The declarations that a text lists. -/
def parseModel (text : String) : Option (List TypeDeclaration) :=
  (Json.parse text).bind fun j => (j.list TypeDeclaration.ofJson).toOption

/-! ### Contexts -/

namespace InheritanceContext

/-- Parts on lines of their own, or a line that says that there are none. -/
def orNone (parts : List String) : List String :=
  if parts.isEmpty then ["  (none)"] else parts.map ("  " ++ ·)

/-- The section of some operations. -/
def operationLines (styled : Bool) (title : String) (operations : OperationMap) : List String :=
  (heading styled title ++ ":") ::
    orNone (operations.toList.map fun (_, op) =>
      op.prototype.display ++ " : " ++ op.returnType.display ++ "  (" ++ op.owner ++ ")")

/-- The section of the references that lead nowhere, where there are any. -/
def unresolvedLines (styled : Bool) (unresolved : List UnresolvedAncestor) : List String :=
  if unresolved.isEmpty then []
  else
    (heading styled "unresolved ancestors" ++ ":") ::
      unresolved.map fun u =>
        "  " ++ u.reference.display ++ "  (referenced by " ++ u.referencedBy ++ ")"

/-- **A context as text.** -/
def render (c : InheritanceContext) (typeName : String) (styled : Bool) : String :=
  lines
    ([heading styled typeName,
        "ancestors: " ++
          (if c.ancestors.isEmpty then "(none)" else ", ".intercalate c.ancestors.toList)] ++
      operationLines styled "final operations" c.finalOperations ++
      operationLines styled "overridable operations" c.overridableOperations ++
      operationLines styled "operations to implement" c.operationsToImplement ++
      ((heading styled "inherited fields" ++ ":") ::
        orNone (c.inheritedFields.values.map fun f =>
          f.name ++ " : " ++ f.type.display ++ "  (" ++ f.owner ++ ")")) ++
      ((heading styled "constructors" ++ ":") ::
        orNone (c.constructors.toList.map fun (_, k) =>
          k.prototype.display ++ "  (" ++ k.owner ++ ")")) ++
      unresolvedLines styled c.unresolved.toList ++
      c.truncated.toList.map fun t =>
        heading styled "truncated" ++ ": stopped after " ++ toString t.edgeLimit ++
          " super-type edges")

end InheritanceContext

/-- The options of the walk that a command asks for. -/
def ResolveArguments.options (args : ResolveArguments) (config : Config) : ResolverOptions :=
  let options := config.resolverOptions
  { excludedAncestors :=
      if args.includeObject then options.excludedAncestors.erase WellKnown.object
      else options.excludedAncestors
    skipSynthetic := options.skipSynthetic && !args.includeSynthetic }

/-- The answer to `resolve` for a model read from a path. -/
def ResolveArguments.answer (args : ResolveArguments) (config : Config) (format : OutputFormat)
    (styled : Bool) (path : String) (store : DeclarationStore) : Except RunFault Outcome :=
  match store.idOf? args.typeName with
  | none => .error (.unknownType args.typeName path)
  | some root =>
      let context := store.inheritance (args.options config) root args.exclude
      .ok {
        output :=
          match format with
          | .json =>
              Json.pretty (.obj [("type", .str args.typeName), ("context", context.toJson)])
          | .text => context.render args.typeName styled
        diagnostics := context.diagnostics path }

/-! ### Overloads -/

/-- A declared action with its overloads. -/
structure ActionReport where
  prototype : Prototype
  set : OverloadSet Unit

namespace ActionReport

/-- A report as a value. -/
def toJson (r : ActionReport) : Json :=
  .obj (("prototype", r.prototype.toJson) :: r.set.fields)

/-- The lines of one overload. -/
def overloadLines (action : String) (o : Overload) : List String :=
  ["  " ++ action ++ "(" ++ o.parameterTypes.display ++ ")",
    "      delegates: " ++ action ++ o.plan.display,
    "      uses defaults from: " ++ o.usesDefaultsFrom.display]

/-- **A report as text.** -/
def render (r : ActionReport) (owner action : String) (styled : Bool) : String :=
  lines
    ((heading styled (owner ++ "." ++ r.prototype.display) ++ "  [source of defaults]") ::
      (if r.set.isEmpty then ["  (no overloads)"]
        else r.set.overloads.toList.flatMap (overloadLines action)))

end ActionReport

/-- The options of the synthesis that a command asks for. -/
def OverloadsArguments.options (args : OverloadsArguments) (config : Config) : SynthesisOptions :=
  match args.maxDefaultParameters with
  | some max => { maxDefaultParameters := max }
  | none => config.synthesis

/-- The declared operations of a name, without generated ones. -/
def TypeDeclaration.declaredActions (d : TypeDeclaration) (action : String) : List Operation :=
  (d.operationsNamed action).filter (!·.isSynthetic)

/-- The report on an operation of an owner, or the diagnostic that says why there is none. -/
def Operation.report (op : Operation) (options : SynthesisOptions) (owner file : String) :
    Except Diagnostic ActionReport :=
  match synthesizeAction options owner op.name op.signature () with
  | .ok set => .ok ⟨.ofSignature op.name op.signature, set⟩
  | .error e => .error (e.toDiagnostic op.name ⟨file, 0, 0⟩)

/-- The answer to `overloads` for a model read from a path. -/
def OverloadsArguments.answer (args : OverloadsArguments) (config : Config)
    (format : OutputFormat) (styled : Bool) (path : String) (store : DeclarationStore) :
    Except RunFault Outcome :=
  match store.lookup? args.typeName with
  | none => .error (.unknownType args.typeName path)
  | some d =>
      let actions := d.declaredActions args.action
      if actions.isEmpty then
        .error (.unknownAction args.typeName args.action)
      else
        let results := actions.map (·.report (args.options config) d.name path)
        let reports := results.filterMap Except.toOption
        .ok {
          output :=
            match format with
            | .json => Json.pretty (.arr (reports.map ActionReport.toJson))
            | .text => "\n".intercalate (reports.map (·.render d.name args.action styled))
          diagnostics := results.filterMap fun
            | .error d => some d
            | .ok _ => none }

/-! ### Runs -/

section Runs

variable {m : Type → Type} [Monad m]

/-- The configuration: the file that is given, or else the one of the working directory, or else the
defaults. -/
def loadConfig (files : FileAccess m) (directory : String) (given : Option String) :
    ExceptT RunFault m Config := do
  let path := pathFrom directory (given.getD Config.fileName)
  let isThere ← if given.isSome then pure true else files.isFile path
  if !isThere then
    return {}
  else
    match ← files.read? path with
    | none => throw (.configUnreadable path)
    | some text =>
        match Config.parse text with
        | some config => return config
        | none => throw (.configMalformed path)

/-- The model of a path. -/
def loadModel (files : FileAccess m) (path : String) : ExceptT RunFault m DeclarationStore := do
  match ← files.read? path with
  | none => throw (.modelUnreadable path)
  | some text =>
      match parseModel text with
      | some declarations => return .ofList declarations
      | none => throw (.modelMalformed path)

/-- **The run** that a command line asks for in a working directory.  Styles are used for text only,
where the terminal has them and they are not refused. -/
def Arguments.run (args : Arguments) (files : FileAccess m) (directory : String)
    (terminalHasStyles : Bool) : ExceptT RunFault m Outcome := do
  let config ← loadConfig files directory args.config
  let format := (args.format.or config.format).getD .text
  let styled := terminalHasStyles && !args.noColor && format = .text
  match args.command with
  | .resolve command =>
      let path := pathFrom directory command.model
      let store ← loadModel files path
      liftExcept (command.answer config format styled path store)
  | .overloads command =>
      let path := pathFrom directory command.model
      let store ← loadModel files path
      liftExcept (command.answer config format styled path store)
where
  /-- The result of a part of the run that touches no files. -/
  liftExcept (result : Except RunFault Outcome) : ExceptT RunFault m Outcome := ExceptT.mk (pure result)

end Runs

end ActionSignatures
