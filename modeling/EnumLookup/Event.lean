import EnumLookup.Resolution
import EnumLookup.Text.Quoted

/-!
What a run reports besides its result. Events are data; their wording is in one place.
-/
namespace EnumLookup

inductive Level where
  | debug
  | warning
  deriving DecidableEq, Repr

def Level.label : Level → String
  | debug => "DEBUG"
  | warning => "WARNING"

inductive SkipReason where
  /-- The bytes do not fit the encoding, or the encoding is not known. -/
  | undecodable
  | unparsable
  | tooDeepToParse
  | tooDeepToIndex
  deriving DecidableEq, Repr

def SkipReason.message : SkipReason → String
  | undecodable => "cannot be decoded"
  | unparsable => "invalid syntax"
  | tooDeepToParse => "too deeply nested to parse"
  | tooDeepToIndex => "too deeply nested to index"

inductive Event where
  | excluded (path : String)
  | notImportable (path : String)
  | skipped (path : String) (reason : SkipReason)
  | alreadyLoaded (path module : String)
  | unclassified (name : String) (error : ResolutionError)
  | decoratorUnresolved (index : Nat) (name : String) (error : ResolutionError)
  | unresolved (name : String) (error : ResolutionError)
  | notAnEnum (name : String)
  | cancelled
  deriving DecidableEq, Repr

namespace Event

def level : Event → Level
  | skipped _ _ => .warning
  | _ => .debug

/-- How an error that ends a classification is shown. -/
def errorLabel : ResolutionError → String
  | .tooDeep _ => "RecursionError"
  | error => "ResolutionError(" ++ Text.quoted error.message ++ ")"

def text : Event → String
  | excluded path => "Excluded " ++ path
  | notImportable path => "Skipping " ++ path ++ ": not an importable module path"
  | skipped path reason => "Skipping " ++ path ++ ": " ++ reason.message
  | alreadyLoaded path module =>
    "Skipping " ++ path ++ ": module " ++ module ++ " already loaded"
  | unclassified name error => "Cannot classify " ++ name ++ ": " ++ errorLabel error
  | decoratorUnresolved index name error =>
    "Decorator " ++ Text.decimal index ++ " on " ++ name ++ " unresolved: " ++ error.message
  | unresolved name error => "Dropping " ++ name ++ ": " ++ error.message
  | notAnEnum name => "Dropping " ++ name ++ ": not resolvable to an enum type"
  | cancelled => "Generation cancelled before synthesis"

end Event

end EnumLookup
