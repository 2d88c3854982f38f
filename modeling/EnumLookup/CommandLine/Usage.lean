import EnumLookup.CommandLine.Option
import EnumLookup.Package.Header
import EnumLookup.Text.Layout

/-!
What the program says about its own command line.
-/
namespace EnumLookup.CommandLine

open Text

def usageLines : List String :=
  ["usage: " ++ Package.generatorName ++
     " [-h] [--source-root SOURCE_ROOT] [--output-dir OUTPUT_DIR]",
   "               [--exclude EXCLUDE] [--check | --list | --watch]",
   "               [--interval INTERVAL] [--timeout TIMEOUT] [--verbose]"]

def helpLines : List String :=
  usageLines ++
  ["",
   "Generate fast enum-to-string lookups for marked Python enums",
   "",
   "options:",
   "  -h, --help            show this help message and exit",
   "  --source-root SOURCE_ROOT",
   "  --output-dir OUTPUT_DIR",
   "  --exclude EXCLUDE",
   "  --check",
   "  --list",
   "  --watch",
   "  --interval INTERVAL",
   "  --timeout TIMEOUT",
   "  --verbose"]

def helpText : String := joinLines helpLines ++ "\n"

def UsageError.text (error : UsageError) : String :=
  joinLines (usageLines ++ [Package.generatorName ++ ": error: " ++ error.message]) ++ "\n"

end EnumLookup.CommandLine
