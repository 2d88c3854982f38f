/-!
Why a question about a name or a class has no answer.
-/
namespace EnumLookup

inductive ResolutionError where
  /-- Following imports from module to module comes back to a name. -/
  | importCycle (name : String)
  /-- Following imports was given up before it came to an end. No answer of the analysis itself:
  without a limit it would still be at work, perhaps for ever. -/
  | endless (name : String)
  /-- A class is among its own bases. -/
  | inheritanceCycle (name : String)
  /-- A chain of base classes is longer than the analysis follows. -/
  | tooDeep (name : String)
  /-- The host knows no answer. -/
  | unanswered (name : String)
  deriving DecidableEq, Repr

def ResolutionError.message : ResolutionError → String
  | importCycle name => "Import cycle while resolving " ++ name
  | endless name => "No end while resolving " ++ name
  | inheritanceCycle name => "Inheritance cycle through " ++ name
  | tooDeep name => name ++ " is nested too deeply"
  | unanswered name => "cannot resolve " ++ name

end EnumLookup
