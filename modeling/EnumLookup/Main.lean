import EnumLookup.Command.Execute

/-!
The program. The names of the files that there are come on standard input, one a line; a
name that ends with a slash is that of a directory. Names are relative to the working
directory, which is the top directory of the copy of these files that commands run on, and
what they change in the copy is changed in the files. Watching starts every cycle from
the files as they are then, and ends when the program is stopped.
-/
namespace EnumLookup.Main

open Command CommandLine

partial def readNames (input : IO.FS.Stream) : IO (List String) := do
  let line ← input.getLine
  if line.isEmpty then return []
  let name := String.ofList (line.toList.takeWhile (· ≠ '\n'))
  return name :: (← readNames input)

def isDirectoryName (name : String) : Bool := name.toList.getLast? = some '/'

/-- Copies one of the named files; one that cannot be read is left out. -/
def copyFile (store : Store) (name : String) : IO Store := do
  let path := Path.ofString name
  if isDirectoryName name then return (Store.makeDirectories path store).2
  match ← (IO.FS.readBinFile name).toBaseIO with
  | .ok bytes => return (Store.writeWithin path bytes.toList store).2
  | .error _ => return store

def copyFiles (names : List String) : IO Store := names.foldlM copyFile .empty

def nameOf (location : Location) : String := (⟨0, location⟩ : Path).text

/-- Changes the files as their copy was changed. -/
def saveChanges (before after : Store) : IO PUnit := do
  for (location, entry) in after.entries.reverse do
    if before.entry? location ≠ some entry then
      match entry with
      | .file bytes => IO.FS.writeBinFile (nameOf location) ⟨bytes.toArray⟩
      | _ => IO.FS.createDirAll (nameOf location)
  for (location, _) in before.entries do
    if (after.entry? location).isNone then IO.FS.removeFile (nameOf location)

def printStreams (output errors : String) : IO PUnit := do
  (← IO.getStdout).putStr output
  (← IO.getStdout).flush
  (← IO.getStderr).putStr errors

def logText (verbose : Bool) (events : List Event) : String :=
  String.join ((events.filter (isShown verbose)).map fun event => logLine event ++ "\n")

def milliseconds : Binary64 → UInt32
  | .finite false units => UInt32.ofNat (min (units * 1000 / Binary64.one) 4294967295)
  | .infinite false => 4294967295
  | _ => 0

partial def watchFiles (config : GenerateConfig) (names : List String) (state : WatchState) :
    IO UInt32 := do
  let store ← copyFiles names
  let cycle := Cycle.last Cancellation.steadyClock
  let (outcome, shell) := watchCycle config cycle state (.start store)
  saveChanges store shell.store
  printStreams shell.output (logText config.verbose shell.events)
  match outcome with
  | .error failure =>
    let (message, code) := failure.report
    printStreams message ""
    return UInt32.ofNat code
  | .ok state =>
    IO.sleep (milliseconds config.interval)
    watchFiles config names state

def run (arguments : List String) (parsed : Arguments) : IO UInt32 := do
  let names ← readNames (← IO.getStdin)
  let store ← copyFiles names
  match Config.ofArguments store parsed with
  | .ok (.generate config) =>
    if config.mode = .watch then
      printStreams (watchTitle config) ""
      return ← watchFiles config names .start
  | _ => pure ()
  let execution := execute arguments Cancellation.steadyClock [] store
  saveChanges store execution.store
  printStreams execution.output
    (String.join (execution.events.map fun event => logLine event ++ "\n"))
  return UInt32.ofNat execution.exitCode

end EnumLookup.Main

def main (arguments : List String) : IO UInt32 := do
  match EnumLookup.CommandLine.request arguments with
  | .ok (.run parsed) => EnumLookup.Main.run arguments parsed
  | _ =>
    let execution := EnumLookup.Command.execute arguments
      EnumLookup.Cancellation.steadyClock [] .empty
    EnumLookup.Main.printStreams execution.output execution.usage
    return UInt32.ofNat execution.exitCode
