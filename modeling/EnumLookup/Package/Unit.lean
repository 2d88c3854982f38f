import EnumLookup.Package.Header
import EnumLookup.SourceFile
import EnumLookup.Text.Layout

/-!
The units of the generated package: one that defines the marker decorator and, when some
enum is marked, one that holds the lookup functions.
-/
namespace EnumLookup.Package

open Text

structure GeneratedUnit where
  tag : String
  text : String
  deriving DecidableEq, Repr

def markerTag : String := packageFile
def extensionsTag : String := "extensions.py"

/-- Every tag, in the order in which units are written. -/
def unitOrder : List String := [markerTag, extensionsTag]

def markerName : String := "enum_extensions"

/-- The name that a marking decorator resolves to. -/
def markerFullName : String := generatedPackage ++ "." ++ markerName

/-- The unit that defines the marker: a decorator that returns its class. -/
def markerText : String :=
  joinLines (titled "enumgen marker package" ++
    ["\"\"\"Marker decorator recognized by enumgen.\"\"\"",
     "",
     "__all__ = [\"" ++ markerName ++ "\"]",
     "",
     "",
     "def " ++ markerName ++ "(cls):",
     "    \"\"\"Mark an enum class for fast member-name lookup generation.\"\"\"",
     "    return cls"]) ++ "\n"

def markerUnit : GeneratedUnit := ⟨markerTag, markerText⟩

end EnumLookup.Package
