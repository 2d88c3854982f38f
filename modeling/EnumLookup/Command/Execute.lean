import EnumLookup.Command.Generate
import EnumLookup.Command.Watch
import EnumLookup.CommandLine.Usage

/-!
A call of the program: the arguments are read, the configuration is checked against the
store, and the command is run. Whatever goes wrong becomes a printed message and an exit
code.
-/
namespace EnumLookup.Command

open EnumLookup.Command.Action CommandLine Package Text

variable [Characters]

structure Execution where
  exitCode : Nat
  output : String
  /-- What is printed on the error stream when the arguments cannot be read. -/
  usage : String
  /-- The events that are shown. -/
  events : List Event
  waits : List Binary64
  store : Store

/-- Warnings are always shown, the rest on demand. -/
def isShown (verbose : Bool) (event : Event) : Bool := verbose || event.level == .warning

def logLine (event : Event) : String :=
  event.level.label ++ " " ++ generatorName ++ ": " ++ event.text

def configText (error : ConfigError) : String :=
  let hint := match error.suggestion with
    | some suggestion => if suggestion = "" then "" else "Hint: " ++ suggestion ++ "\n"
    | none => ""
  "Config error [" ++ error.code.label ++ "]: " ++ error.message ++ "\n" ++ hint

/-- What is printed for a failure, and its exit code. -/
def Failure.report : Failure → String × Nat
  | .exit code => ("", code)
  | .store error =>
    let kind := if error.fault = .zeroCharacter then "Internal error: " else "Error: "
    (kind ++ error.message ++ "\n", 1)
  | .run error => ("Internal error: " ++ error.message ++ "\n", 1)
  | .unknownTag tag => ("Internal error: " ++ (WriteError.unknownTag tag).message ++ "\n", 1)

def perform (clock : Cancellation.Clock) (cycles : List Cycle) : Config → Action PUnit
  | .discovery config => list config
  | .generate config =>
    match config.mode with
    | .check => check config clock
    | .watch => do
      let _ ← watch config clock none cycles
    | .generate => do
      let _ ← generate config clock

def runConfig (clock : Cancellation.Clock) (cycles : List Cycle) (config : Config)
    (store : Store) : Execution :=
  let (outcome, shell) := perform clock cycles config (.start store)
  let (message, code) := match outcome with
    | .ok _ => ("", 0)
    | .error failure => failure.report
  ⟨code, shell.output ++ message, "", shell.events.filter (isShown config.verbose), shell.waits,
    shell.store⟩

def printOnly (code : Nat) (output usage : String) (store : Store) : Execution :=
  ⟨code, output, usage, [], [], store⟩

/-- A call with arguments, on a store, by a clock; `cycles` are those of a watch. -/
def execute (arguments : List String) (clock : Cancellation.Clock) (cycles : List Cycle)
    (store : Store) : Execution :=
  match request arguments with
  | .error error => printOnly 2 "" error.text store
  | .ok .help => printOnly 0 helpText "" store
  | .ok (.run arguments) =>
    match Config.ofArguments store arguments with
    | .error error => printOnly 1 (configText error) "" store
    | .ok config => runConfig clock cycles config store

end EnumLookup.Command
