import ComponentLowering.Compilation
import ComponentLowering.Inputs
import ComponentLowering.Version
/-!
The command line `compc`: what its arguments ask for, and what it answers.
-/

namespace ComponentLowering.CommandLine

/-- What a run of the compiler is asked to do. -/
structure Arguments where
  patterns : List String := []
  config : Option String := none
  emitTree : Bool := false
  logLevel : Option Level := none
  deriving DecidableEq, Repr

inductive Request where
  | compile (arguments : Arguments)
  | version
  | help
  deriving DecidableEq, Repr

inductive UsageError where
  | unknownOption (option : String)
  | repeatedOption (option : String)
  | missingValue (option : String)
  | unwantedValue (option : String)
  | invalidValue (option value : String)
  | missingPatterns
  deriving DecidableEq, Repr

def UsageError.message : UsageError → String
  | unknownOption option => "unexpected argument '" ++ option ++ "' found"
  | repeatedOption option => "the argument '" ++ option ++ "' cannot be used multiple times"
  | missingValue option => "a value is required for '" ++ option ++ "' but none was supplied"
  | unwantedValue option => "unexpected value for '" ++ option ++ "' found"
  | invalidValue option value => "invalid value '" ++ value ++ "' for '" ++ option ++ "'"
  | missingPatterns => "the required argument '<PATTERN>...' was not provided"

/-! ### Arguments -/

inductive ValueOption where
  | config
  | logLevel
  deriving DecidableEq, Repr

def ValueOption.name : ValueOption → String
  | config => "--config"
  | logLevel => "--log-level"

/-- One argument, by its form alone. -/
inductive Word where
  | pattern (text : String)
  | emitTree
  | version
  | help
  /-- An option with the value in the same argument, or without. -/
  | valued (option : ValueOption) (value : Option String)
  /-- All further arguments are patterns. -/
  | onlyPatterns
  | wrong (error : UsageError)
  deriving DecidableEq, Repr

namespace Word

/-- An option by its long name, with the text behind an equals sign. -/
def ofLong (name : String) (value : Option String) : Word :=
  let plain (word : Word) : Word :=
    if value.isSome then .wrong (.unwantedValue ("--" ++ name)) else word
  match name with
  | "config" => .valued .config value
  | "log-level" => .valued .logLevel value
  | "emit-tree" => plain .emitTree
  | "version" => plain .version
  | "help" => plain .help
  | _ => .wrong (.unknownOption ("--" ++ name))

/-- An option by its letter, with the text behind it. An equals sign may open that text. -/
def ofShort (letter : Char) (behind : List Char) : Word :=
  match letter, behind with
  | 'c', [] => .valued .config none
  | 'c', '=' :: value | 'c', value => .valued .config (some (String.ofList value))
  | 'V', _ => .version
  | 'h', _ => .help
  | _, _ => .wrong (.unknownOption (String.ofList ['-', letter]))

/-- Tells options from patterns. A lone dash is a pattern. -/
def ofArgument (argument : String) : Word :=
  match argument.toList with
  | ['-', '-'] => .onlyPatterns
  | '-' :: '-' :: long =>
    let name := long.takeWhile (· ≠ '=')
    match long.drop name.length with
    | [] => ofLong (String.ofList name) none
    | _ :: value => ofLong (String.ofList name) (some (String.ofList value))
  | '-' :: letter :: behind => ofShort letter behind
  | _ => .pattern argument

end Word

namespace Arguments

/-- Takes the value of an option, unless the option was given before. -/
def setValue (arguments : Arguments) (option : ValueOption) (value : String) :
    Except UsageError Arguments :=
  match option with
  | .config =>
    if arguments.config.isSome then .error (.repeatedOption option.name)
    else .ok { arguments with config := some value }
  | .logLevel =>
    if arguments.logLevel.isSome then .error (.repeatedOption option.name)
    else
      match Named.ofName? value with
      | some level => .ok { arguments with logLevel := some level }
      | none => .error (.invalidValue option.name value)

/-- Reads arguments from left to right; the first that settles the request ends it. -/
def parse (before : Arguments) : List String → Except UsageError Request
  | [] => if before.patterns.isEmpty then .error .missingPatterns else .ok (.compile before)
  | argument :: rest =>
    match Word.ofArgument argument with
    | .pattern text => parse { before with patterns := before.patterns ++ [text] } rest
    | .emitTree =>
      if before.emitTree then .error (.repeatedOption argument)
      else parse { before with emitTree := true } rest
    | .version => .ok .version
    | .help => .ok .help
    | .onlyPatterns =>
      let arguments := { before with patterns := before.patterns ++ rest }
      if arguments.patterns.isEmpty then .error .missingPatterns else .ok (.compile arguments)
    | .wrong error => .error error
    | .valued option (some value) => do parse (← before.setValue option value) rest
    | .valued option none =>
      match rest with
      | [] => .error (.missingValue option.name)
      | value :: rest =>
        match Word.ofArgument value with
        | .pattern value => do parse (← before.setValue option value) rest
        | _ => .error (.missingValue option.name)

/-- The settings of a run: options go before those of the settings file. -/
def override (arguments : Arguments) (config : Config) : Config where
  logLevel := arguments.logLevel <|> config.logLevel
  emitTree := if arguments.emitTree then some true else config.emitTree
  warningsAsErrors := config.warningsAsErrors

end Arguments

/-! ### Runs -/

/-- What a run of the program answers: its exit code, and the texts it writes, a line each. -/
structure Answer where
  exitCode : UInt32
  stdout : List String := []
  stderr : List String := []
  deriving DecidableEq, Repr

/-- The settings file that is read when none is asked for. -/
def standardConfig : FileName :=
  ⟨"compc.json"⟩

/-- The settings file of a run: the one that is asked for, or the standard one if it is there. -/
def settingsFile (files : Files) (arguments : Arguments) : Option FileName :=
  match arguments.config with
  | some name => some ⟨name⟩
  | none => if files.contains standardConfig then some standardConfig else none

def loadConfig (files : Files) (arguments : Arguments) : Except ConfigError Config :=
  match settingsFile files arguments with
  | some name => Config.load files name
  | none => .ok {}

/-- What is told of an error with its causes, outermost first. -/
def errorLine (causes : List String) : String :=
  "Error: " ++ ": ".intercalate causes

/-- What is told of a document: its diagnostics, or why it was not loaded. -/
def complaints (path : FileName) : Outcome → List String
  | .ok lowered => lowered.diagnostics.map fun diagnostic => path.text ++ ": " ++ diagnostic.text
  | .error failure => [errorLine (failure.context :: failure.error.causes)]

def trees (compilation : Compilation) : List String :=
  compilation.files.filterMap fun (_, outcome) => outcome.toOption.bind Lowered.tree

def compile (files : Files) (arguments : Arguments) : Answer :=
  match loadConfig files arguments with
  | .error error => { exitCode := 2, stderr := [errorLine [error.message]] }
  | .ok config =>
    let config := arguments.override config
    let logger := Logger.console config.level
    let opening := (logger.log .debug Version.banner).map Line.render
    match Inputs.expand files.matching arguments.patterns with
    | .error error => { exitCode := 2, stderr := opening ++ [errorLine [error.message]] }
    | .ok inputs =>
      let (compilation, lines) := (Compilation.compile files config inputs).run logger
      { exitCode := if compilation.hasFailures config.failsOnWarnings then 1 else 0
        stdout := trees compilation
        stderr := opening ++ lines.map Line.render ++
          compilation.files.flatMap fun (path, outcome) => complaints path outcome }

def usage : String :=
  "Usage: compc [--config PATH] [--emit-tree] [--log-level LEVEL] PATTERN..."

/-- Runs the program. -/
def run (files : Files) (arguments : List String) : Answer :=
  match Arguments.parse {} arguments with
  | .error error => { exitCode := 2, stderr := ["error: " ++ error.message, usage] }
  | .ok .version => { exitCode := 0, stdout := ["compc " ++ Version.commandLine] }
  | .ok .help => { exitCode := 0, stdout := [usage] }
  | .ok (.compile arguments) => compile files arguments

/-! ### What a run looks at -/

/-- The settings file that a run asks for, if only by its standard name. -/
def Arguments.settings (arguments : Arguments) : FileName :=
  (arguments.config.map FileName.mk).getD standardConfig

/-- The names that a run may follow before it knows its documents, with the number of levels below
them that its patterns reach. -/
def reach (arguments : List String) : List (FileName × Nat) :=
  match Arguments.parse {} arguments with
  | .ok (.compile arguments) =>
    (arguments.settings, 0) ::
      arguments.patterns.filterMap fun text => (Pattern.ofString text).toOption.map Pattern.reach
  | _ => []

/-- The files that a run reads. -/
def needed (files : Files) (arguments : List String) : List FileName :=
  match Arguments.parse {} arguments with
  | .ok (.compile arguments) =>
    arguments.settings ::
      match Inputs.expand files.matching arguments.patterns with
      | .ok inputs => inputs
      | .error _ => []
  | _ => []

end ComponentLowering.CommandLine
