import EnumLookup.Command.Shell

/-!
Watching: cycles of looking for changes, running when there are some, and waiting, until an
interrupt. A cancelled run writes nothing and is tried again in the next cycle. Waiting itself
always succeeds here: an interval for which a wait fails, such as an infinite one, is left out.
-/
namespace EnumLookup.Command

open EnumLookup.Command.Action Package Text

variable [Characters]

/-- What happens around one cycle: the clock of its run, the poll from which on an interrupt is
seen, if one arrives before the wait, and what happens during the wait. -/
structure Cycle where
  clock : Cancellation.Clock
  interrupt : Option Nat
  /-- What others do to the store. -/
  change : Store → Store
  interruptedWait : Bool

namespace Cycle

/-- Nothing happens until the wait, which an interrupt ends. -/
def last (clock : Cancellation.Clock) : Cycle := ⟨clock, none, id, true⟩

def cancellation (cycle : Cycle) (timeout : Option Binary64) : Cancellation :=
  let deadline := Cancellation.ofTimeout cycle.clock timeout
  match cycle.interrupt with
  | some polls => Cancellation.either (.afterPolls polls) deadline
  | none => deadline

end Cycle

structure WatchState where
  session : Session
  /-- The digest of the sources written last. -/
  written : Option String
  cycles : Nat
  writes : Nat

def WatchState.start : WatchState := ⟨.empty, none, 0, 0⟩

/-- Runs over changed sources, and writes the package unless the run is cancelled. -/
def regenerate (config : GenerateConfig) (cycle : Cycle) (state : WatchState)
    (files : List SourceFile) (current : String) : Action WatchState := do
  let (result, session) ← runSession state.session (cycle.cancellation config.timeout) files
  if result.cancelled then
    printLine "  Run cancelled; nothing written"
    return { state with session }
  else
    let written ← writePackage config.outputDir result.units
    let outcome := if written.changed then "updated" else "unchanged"
    printLine ("  " ++ decimal result.descriptors.length ++ " enums, output " ++ outcome)
    return { state with session, written := some current, writes := state.writes + 1 }

def watchCycle (config : GenerateConfig) (cycle : Cycle) (state : WatchState) :
    Action WatchState := do
  let state := { state with cycles := state.cycles + 1 }
  let files ← discover config.sourceRoots config.exclude
  let current ← ofExcept (fun error => .run (.unencodable error)) (SourceFile.fingerprint files)
  if state.written = some current then return state
  else regenerate config cycle state files current

def wait (config : GenerateConfig) (cycle : Cycle) : Action PUnit := fun shell =>
  (.ok ⟨⟩, { shell with
    store := cycle.change shell.store, waits := shell.waits ++ [config.interval] })

/-- One cycle with its wait, and whether watching goes on. -/
def watchOnce (config : GenerateConfig) (cycle : Cycle) (state : WatchState) :
    Action (WatchState × Bool) := do
  let state ← watchCycle config cycle state
  if cycle.interrupt.isSome then return (state, false)
  else
    wait config cycle
    return (state, !cycle.interruptedWait)

def isDone (maxCycles : Option Nat) (state : WatchState) : Bool :=
  maxCycles.any fun limit => limit ≤ state.cycles

def watchCycles (config : GenerateConfig) (clock : Cancellation.Clock) (maxCycles : Option Nat) :
    List Cycle → WatchState → Action WatchState
  | [], state => do
    if isDone maxCycles state then return state
    else
      let (state, _) ← watchOnce config (.last clock) state
      return state
  | cycle :: rest, state => do
    if isDone maxCycles state then return state
    else
      let (state, goesOn) ← watchOnce config cycle state
      if goesOn then watchCycles config clock maxCycles rest state else return state

def watchTitle (config : GenerateConfig) : String :=
  "Watching: " ++ sourceLabel config.sourceRoots ++ " (Ctrl-C to stop)\n"

def watch (config : GenerateConfig) (clock : Cancellation.Clock) (maxCycles : Option Nat)
    (cycles : List Cycle) : Action Nat := do
  printText (watchTitle config)
  let state ← watchCycles config clock maxCycles cycles .start
  printLine "Stopped watching."
  return state.writes

end EnumLookup.Command
