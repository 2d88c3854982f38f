import EnumLookup.Binary64.Decimal

/-!
Options of the command line, and what a single argument can be: an option with or without
a value of its own, something that looks like an option and is none, or plain text. Long
names may be cut short as long as one option is meant.
-/
namespace EnumLookup.CommandLine

open Text

inductive Switch where
  | help
  | sourceRoot
  | outputDir
  | exclude
  | check
  | list
  | watch
  | interval
  | timeout
  | verbose
  deriving DecidableEq, Repr

namespace Switch

def all : List Switch :=
  [help, sourceRoot, outputDir, exclude, check, list, watch, interval, timeout, verbose]

def longName : Switch → String
  | help => "--help"
  | sourceRoot => "--source-root"
  | outputDir => "--output-dir"
  | exclude => "--exclude"
  | check => "--check"
  | list => "--list"
  | watch => "--watch"
  | interval => "--interval"
  | timeout => "--timeout"
  | verbose => "--verbose"

def title : Switch → String
  | help => "-h/--help"
  | other => other.longName

def takesValue : Switch → Bool
  | sourceRoot | outputDir | exclude | interval | timeout => true
  | help | check | list | watch | verbose => false

end Switch

inductive Word where
  | plain (text : String)
  /-- An option, with the value written behind an equals sign, if any. -/
  | switch (switch : Switch) (value : Option String)
  /-- It looks like an option, but there is none of that name. -/
  | unknown (text : String)
  /-- Everything behind it is plain. -/
  | separator
  deriving DecidableEq, Repr

inductive UsageError where
  | ambiguous (argument : String) (candidates : List Switch)
  | missingValue (switch : Switch)
  | needlessValue (switch : Switch) (value : String)
  | conflict (switch earlier : Switch)
  | invalidNumber (switch : Switch) (text : String)
  | unrecognized (arguments : List String)
  deriving DecidableEq, Repr

def UsageError.message : UsageError → String
  | ambiguous argument candidates =>
    "ambiguous option: " ++ argument ++ " could match " ++
      String.intercalate ", " (candidates.map Switch.longName)
  | missingValue switch => "argument " ++ switch.title ++ ": expected one argument"
  | needlessValue switch value =>
    "argument " ++ switch.title ++ ": ignored explicit argument " ++ quoted value
  | conflict switch earlier =>
    "argument " ++ switch.title ++ ": not allowed with argument " ++ earlier.title
  | invalidNumber switch text =>
    "argument " ++ switch.title ++ ": invalid float value: " ++ quoted text
  | unrecognized arguments => "unrecognized arguments: " ++ String.intercalate " " arguments

def splitEquals (text : List Char) : List Char × Option (List Char) :=
  match text.dropWhile (· ≠ '=') with
  | [] => (text, none)
  | _ :: value => (text.takeWhile (· ≠ '='), some value)

def isAnyDigit (c : Char) : Bool := Binary64.isDigit c || (digitValue? c).isSome

/-- Digits with an optional fraction; a line end behind them does not count. -/
def isUnsigned (text : List Char) : Bool :=
  let text := if text.getLast? = some '\n' then text.dropLast else text
  match text.dropWhile isAnyDigit with
  | [] => !text.isEmpty
  | '.' :: places => !places.isEmpty && places.all isAnyDigit
  | _ => false

/-- Negative numbers are no options. -/
def isNegativeNumber : List Char → Bool
  | '-' :: rest => isUnsigned rest
  | _ => false

def startingWith (text : List Char) : List Switch :=
  Switch.all.filter fun switch => text.isPrefixOf switch.longName.toList

def readUnnamed (argument : String) : Word :=
  if isNegativeNumber argument.toList || argument.toList.contains ' ' then .plain argument
  else .unknown argument

/-- Help by its short name. Letters that follow are short names again; what is left of them
is a value that help does not take. -/
def readShortHelp (rest : List Char) : Word :=
  let (letters, explicit) := match rest with
    | '=' :: value => (value, true)
    | letters => (letters, false)
  match letters.dropWhile (· == 'h') with
  | [] => .switch .help (if explicit && letters.isEmpty then some "" else none)
  | left => .switch .help (some (String.ofList left))

def readLong (argument : String) : Except UsageError Word :=
  let (name, value) := splitEquals argument.toList
  match Switch.all.find? fun switch => switch.longName.toList == name with
  | some switch => .ok (.switch switch (value.map String.ofList))
  | none =>
    match startingWith name with
    | [switch] => .ok (.switch switch (value.map String.ofList))
    | [] => .ok (readUnnamed argument)
    | candidates => .error (.ambiguous argument candidates)

def readWord (argument : String) : Except UsageError Word :=
  match argument.toList with
  | '-' :: '-' :: _ => readLong argument
  | '-' :: 'h' :: rest => .ok (readShortHelp rest)
  | '-' :: _ :: _ => .ok (readUnnamed argument)
  | _ => .ok (.plain argument)

def readWords : List String → Except UsageError (List Word)
  | [] => .ok []
  | "--" :: rest => .ok (.separator :: rest.map .plain)
  | argument :: rest =>
    match readWord argument with
    | .error error => .error error
    | .ok word => (readWords rest).map (word :: ·)

end EnumLookup.CommandLine
