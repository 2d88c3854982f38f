import EnumLookup.Descriptor
import EnumLookup.Package.Write
import EnumLookup.Text.Layout

/-!
What is told about a run: a summary of what was written, and a table of the marked enums.
-/
namespace EnumLookup.Package

open Text

structure EnumRow where
  qualifiedName : String
  memberCount : Nat
  deriving DecidableEq, Repr

structure Summary where
  sources : String
  output : String
  enums : List EnumRow
  files : List FileResult
  deriving DecidableEq, Repr

def sourceLabel (roots : List Path) : String := String.intercalate ", " (roots.map Path.text)

def summarize (roots : List Path) (descriptors : List Descriptor) (result : WriteResult) :
    Summary :=
  ⟨sourceLabel roots, (packageDirectory result.outputDirectory).text,
    descriptors.map fun descriptor => ⟨descriptor.qualifiedName, descriptor.members.length⟩,
    result.files⟩

namespace Summary

def memberTotal (summary : Summary) : Nat := (summary.enums.map (·.memberCount)).foldl (· + ·) 0

def rowLine (row : EnumRow) : String :=
  let noun := if row.memberCount = 1 then "member" else "members"
  "    " ++ padRight 40 row.qualifiedName ++ " " ++ padLeft 4 (decimal row.memberCount) ++ " " ++
    noun

def enumLines (rows : List EnumRow) : List String :=
  if rows.isEmpty then ["  No enums marked with @" ++ markerName ++ " were found."]
  else "  Lookups generated:" :: rows.map rowLine

def fileLine (file : FileResult) : String :=
  "    " ++ padRight 16 file.filename ++ " " ++ padLeft 6 (grouped file.lineCount) ++ " lines  " ++
    file.status.label

def lines (summary : Summary) : List String :=
  ["Enum extensions generated:",
   "",
   "  Sources:    " ++ summary.sources,
   "  Output:     " ++ summary.output,
   "  Enums:      " ++ decimal summary.enums.length ++ " (" ++ decimal summary.memberTotal ++
     " members)",
   ""] ++
  enumLines summary.enums ++
  ["", "  Files:"] ++
  summary.files.map fileLine ++
  ["",
   "  Total: " ++ grouped ((summary.files.map (·.lineCount)).foldl (· + ·) 0) ++ " lines across " ++
     decimal summary.files.length ++ " files"]

def text (summary : Summary) : String := joinLines summary.lines ++ "\n"

end Summary

def memberList (members : List String) : String :=
  let names := String.intercalate ", " members
  if names = "" then "(no members)" else names

def enumTable (descriptors : List Descriptor) : String :=
  let title := "Marked enums: " ++ decimal descriptors.length
  let rows := descriptors.map fun descriptor =>
    "  " ++ padRight 40 descriptor.qualifiedName ++ " " ++ memberList descriptor.members
  joinLines (title :: (if descriptors.isEmpty then [] else "" :: rows)) ++ "\n"

end EnumLookup.Package
