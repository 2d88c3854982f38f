/-!
The comment block that opens every generated file.
-/
namespace EnumLookup.Package

def generatorName : String := "enumgen"
def version : String := "0.1.0"

def border : String := "# x-------------------------------------------x #"

inductive HeaderError where
  | emptyTitle
  deriving DecidableEq, Repr

def HeaderError.message : HeaderError → String
  | emptyTitle => "header title must not be empty"

def titled (title : String) : List String :=
  [border,
   "# | " ++ title,
   "# | Generated by " ++ generatorName ++ " " ++ version,
   "# | Do not edit: rewritten on every run",
   border]

def header (title : String) : Except HeaderError (List String) :=
  if title = "" then .error .emptyTitle else .ok (titled title)

end EnumLookup.Package
