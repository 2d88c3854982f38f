import EnumLookup.Command.Shell

/-!
The commands that run once: to write the package, to check it, and to list the marked
enums.
-/
namespace EnumLookup.Command

open EnumLookup.Command.Action Package Text

variable [Characters]

def limitText (timeout : Option Binary64) : String := (timeout.map Binary64.general).getD ""

def generate (config : GenerateConfig) (clock : Cancellation.Clock) : Action WriteResult := do
  printLine ("Scanning: " ++ sourceLabel config.sourceRoots)
  let result ← runOnce config.sourceRoots config.exclude (.ofTimeout clock config.timeout)
  if result.cancelled then
    printLine ("Error: generation exceeded --timeout " ++ limitText config.timeout ++
      "s; nothing written")
    fail (.exit cancelledCode)
  else
    printLine ("  Found: " ++ decimal result.descriptors.length ++ " marked enums")
    let written ← writePackage config.outputDir result.units
    printText (summarize config.sourceRoots result.descriptors written).text
    return written

def check (config : GenerateConfig) (clock : Cancellation.Clock) : Action PUnit := do
  let result ← runOnce config.sourceRoots config.exclude (.ofTimeout clock config.timeout)
  if result.cancelled then
    printLine ("Error: check exceeded --timeout " ++ limitText config.timeout ++ "s")
    fail (.exit cancelledCode)
  else
    let outOfDate ← fun shell =>
      ofExcept ofWriteError (checkUnits shell.store config.outputDir result.units) shell
    let target := (packageDirectory config.outputDir).text
    if outOfDate.isEmpty then
      printLine ("Up to date: " ++ target ++ " (" ++ decimal result.descriptors.length ++
        " enums)")
    else
      printLine ("Out of date: " ++ target)
      printText (String.join (outOfDate.map fun tag => "  " ++ tag ++ "\n"))
      printLine "Hint: rerun enumgen without --check to regenerate."
      fail (.exit staleCode)

def list (config : DiscoveryConfig) : Action PUnit := do
  let result ← runOnce config.sourceRoots config.exclude .never
  printText (enumTable result.descriptors)

end EnumLookup.Command
