import EnumLookup.CommandLine.Option
import EnumLookup.Path

/-!
The arguments of a call. Options are taken from left to right, and the first mistake ends
the reading; arguments that belong to no option are a mistake too, which is found last.
-/
namespace EnumLookup.CommandLine

structure Arguments where
  sourceRoots : List Path
  outputDir : Path
  exclude : List String
  check : Bool
  list : Bool
  watch : Bool
  interval : Option Binary64
  timeout : Option Binary64
  verbose : Bool
  deriving DecidableEq, Repr

namespace Arguments

def initial : Arguments :=
  ⟨[], Path.ofString "generated", [], false, false, false, none, none, false⟩

def modes (arguments : Arguments) : List Switch :=
  (if arguments.check then [.check] else []) ++ (if arguments.list then [.list] else []) ++
    (if arguments.watch then [.watch] else [])

end Arguments

inductive Request where
  | help
  | run (arguments : Arguments)
  deriving DecidableEq, Repr

def setMode (switch : Switch) (set : Arguments → Arguments) (arguments : Arguments) :
    Except UsageError Arguments :=
  match arguments.modes.find? (· ≠ switch) with
  | some earlier => .error (.conflict switch earlier)
  | none => .ok (set arguments)

def readNumber (switch : Switch) (text : String) : Except UsageError Binary64 :=
  match Binary64.ofText? text with
  | some number => .ok number
  | none => .error (.invalidNumber switch text)

def applyFlag (switch : Switch) (arguments : Arguments) : Except UsageError Arguments :=
  match switch with
  | .check => setMode .check (fun arguments => { arguments with check := true }) arguments
  | .list => setMode .list (fun arguments => { arguments with list := true }) arguments
  | .watch => setMode .watch (fun arguments => { arguments with watch := true }) arguments
  | .verbose => .ok { arguments with verbose := true }
  | other => .error (.missingValue other)

def applyValue (switch : Switch) (value : String) (arguments : Arguments) :
    Except UsageError Arguments :=
  match switch with
  | .sourceRoot =>
    .ok { arguments with sourceRoots := arguments.sourceRoots ++ [Path.ofString value] }
  | .outputDir => .ok { arguments with outputDir := Path.ofString value }
  | .exclude => .ok { arguments with exclude := arguments.exclude ++ [value] }
  | .interval =>
    (readNumber .interval value).map fun number => { arguments with interval := some number }
  | .timeout =>
    (readNumber .timeout value).map fun number => { arguments with timeout := some number }
  | other => .error (.needlessValue other value)

def strayText : Word → String
  | .plain text => text
  | .unknown text => text
  | .separator => "--"
  | .switch switch _ => switch.longName

/-- Goes through the arguments. Strays are kept, the last one first. -/
def takeWords (arguments : Arguments) (strays : List String) :
    List Word → Except UsageError Request
  | [] => if strays.isEmpty then .ok (.run arguments) else .error (.unrecognized strays.reverse)
  | .switch .help none :: _ => .ok .help
  | .switch switch (some value) :: rest =>
    match applyValue switch value arguments with
    | .error error => .error error
    | .ok arguments => takeWords arguments strays rest
  | .switch switch none :: rest =>
    if switch.takesValue then
      match rest with
      | .plain value :: rest =>
        match applyValue switch value arguments with
        | .error error => .error error
        | .ok arguments => takeWords arguments strays rest
      | _ => .error (.missingValue switch)
    else match applyFlag switch arguments with
      | .error error => .error error
      | .ok arguments => takeWords arguments strays rest
  | stray :: rest => takeWords arguments (strayText stray :: strays) rest

def request (arguments : List String) : Except UsageError Request :=
  match readWords arguments with
  | .error error => .error error
  | .ok words => takeWords .initial [] words

end EnumLookup.CommandLine
