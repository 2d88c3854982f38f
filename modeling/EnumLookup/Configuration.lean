import EnumLookup.CommandLine.Arguments
import EnumLookup.Store.Basic

/-!
From the arguments of a call to a configuration. Source roots must be directories, numbers
positive, and an interval belongs to watching; the first mistake counts.
-/
namespace EnumLookup

open CommandLine

inductive ConfigCode where
  | missingSourceRoot
  | pathNotFound
  | notADirectory
  | invalidInterval
  | invalidTimeout
  | intervalWithoutWatch
  deriving DecidableEq, Repr

namespace ConfigCode

def all : List ConfigCode :=
  [missingSourceRoot, pathNotFound, notADirectory, invalidInterval, invalidTimeout,
   intervalWithoutWatch]

def label : ConfigCode → String
  | missingSourceRoot => "MISSING_SOURCE_ROOT"
  | pathNotFound => "PATH_NOT_FOUND"
  | notADirectory => "NOT_A_DIRECTORY"
  | invalidInterval => "INVALID_INTERVAL"
  | invalidTimeout => "INVALID_TIMEOUT"
  | intervalWithoutWatch => "INTERVAL_WITHOUT_WATCH"

def ofLabel? (label : String) : Option ConfigCode := all.find? fun code => code.label == label

end ConfigCode

/-- A mistake, what it is, and what to do about it. -/
structure ConfigError where
  code : ConfigCode
  message : String
  suggestion : Option String
  deriving DecidableEq, Repr

/-- A label that stands for no kind of mistake. -/
structure UnknownCode where
  label : String
  deriving DecidableEq, Repr

def UnknownCode.message (error : UnknownCode) : String :=
  "Unknown config error code: " ++ error.label

namespace ConfigError

def make (label message : String) (suggestion : Option String) : Except UnknownCode ConfigError :=
  match ConfigCode.ofLabel? label with
  | some code => .ok ⟨code, message, suggestion⟩
  | none => .error ⟨label⟩

def missingSourceRoot : ConfigError :=
  ⟨.missingSourceRoot, "At least one --source-root is required.",
   some "Pass the directory that holds your enums, e.g. --source-root src."⟩

def pathNotFound (path : Path) : ConfigError :=
  ⟨.pathNotFound, "Path for --source-root does not exist: " ++ path.text,
   some "Provide an existing directory for this flag."⟩

def notADirectory (path : Path) : ConfigError :=
  ⟨.notADirectory, "--source-root must be a directory: " ++ path.text,
   some "Point --source-root at the directory that contains your packages."⟩

def intervalWithoutWatch : ConfigError :=
  ⟨.intervalWithoutWatch, "--interval requires --watch.",
   some "Add --watch or remove --interval."⟩

def invalidInterval (interval : Binary64) : ConfigError :=
  ⟨.invalidInterval, "--interval must be positive, got " ++ interval.general,
   some "Use a polling interval in seconds, e.g. --interval 0.5."⟩

def invalidTimeout (timeout : Binary64) : ConfigError :=
  ⟨.invalidTimeout, "--timeout must be positive, got " ++ timeout.general,
   some "Use a limit in seconds, e.g. --timeout 30."⟩

end ConfigError

inductive Mode where
  | generate
  | check
  | watch
  deriving DecidableEq, Repr

namespace Mode

def all : List Mode := [generate, check, watch]

def label : Mode → String
  | generate => "generate"
  | check => "check"
  | watch => "watch"

end Mode

structure GenerateConfig where
  sourceRoots : List Path
  outputDir : Path
  exclude : List String
  mode : Mode
  interval : Binary64
  timeout : Option Binary64
  verbose : Bool
  deriving DecidableEq, Repr

structure DiscoveryConfig where
  sourceRoots : List Path
  exclude : List String
  verbose : Bool
  deriving DecidableEq, Repr

inductive Config where
  | generate (config : GenerateConfig)
  | discovery (config : DiscoveryConfig)
  deriving DecidableEq, Repr

namespace Config

def verbose : Config → Bool
  | generate config => config.verbose
  | discovery config => config.verbose

def defaultInterval : Binary64 := Binary64.ofNat 1

def checkRoots (store : Store) : List Path → Except ConfigError PUnit
  | [] => .ok ⟨⟩
  | path :: rest =>
    if !store.contains path then .error (.pathNotFound path)
    else if !store.isDirectory path then .error (.notADirectory path)
    else checkRoots store rest

def checkInterval (arguments : Arguments) : Except ConfigError Binary64 :=
  if arguments.interval.isSome && !arguments.watch then .error .intervalWithoutWatch
  else
    let interval := arguments.interval.getD defaultInterval
    if interval.isNonPositive then .error (.invalidInterval interval) else .ok interval

def checkTimeout (arguments : Arguments) : Except ConfigError PUnit :=
  match arguments.timeout with
  | some timeout => if timeout.isNonPositive then .error (.invalidTimeout timeout) else .ok ⟨⟩
  | none => .ok ⟨⟩

def modeOf (arguments : Arguments) : Mode :=
  if arguments.check then .check else if arguments.watch then .watch else .generate

def ofArguments (store : Store) (arguments : Arguments) : Except ConfigError Config := do
  if arguments.sourceRoots.isEmpty then throw .missingSourceRoot
  checkRoots store arguments.sourceRoots
  let interval ← checkInterval arguments
  checkTimeout arguments
  if arguments.list then
    return .discovery ⟨arguments.sourceRoots, arguments.exclude, arguments.verbose⟩
  return .generate ⟨arguments.sourceRoots, arguments.outputDir, arguments.exclude,
    modeOf arguments, interval, arguments.timeout, arguments.verbose⟩

end Config

end EnumLookup
