import EnumLookup.Command.Watch
import EnumLookup.Proofs.Command.Actions

/-!
The cycles of a watch, one by one. A cycle ends in one of three ways: the sources are those written
last and nothing is done, or its run is cancelled and nothing is written, or the units of its run
are written.
-/
namespace EnumLookup.Command

open EnumLookup.Command.Action Generation Package

variable [Text.Characters]

/-- One cycle of a watch: what happens around it, and what the watch knows and finds when it
begins. -/
structure Turn where
  cycle : Cycle
  state : WatchState
  shell : Shell

namespace Turn

def files (config : GenerateConfig) (turn : Turn) : Except StoreError (List SourceFile) :=
  (Discovery.discover turn.shell.store config.sourceRoots config.exclude).1

/-- What tells them from those written last. -/
def digest? (config : GenerateConfig) (turn : Turn) : Option String := do
  let files ← (turn.files config).toOption
  (SourceFile.fingerprint files).toOption

def run (config : GenerateConfig) (turn : Turn) (files : List SourceFile) : Session.Run :=
  turn.state.session.run (turn.cycle.cancellation config.timeout) files

/-- The result of the run of the cycle. There is no run when the sources are those written last. -/
def result? (config : GenerateConfig) (turn : Turn) : Option Result := do
  let files ← (turn.files config).toOption
  let current ← (SourceFile.fingerprint files).toOption
  if turn.state.written = some current then none else (turn.run config files).outcome.toOption

def isCancelled (config : GenerateConfig) (turn : Turn) : Bool :=
  (turn.result? config).any (·.cancelled)

/-- The result that the cycle writes, which is that of a run that is not cancelled. -/
def written? (config : GenerateConfig) (turn : Turn) : Option Result :=
  (turn.result? config).filter (!·.cancelled)

def left (config : GenerateConfig) (turn : Turn) : Store :=
  (watchCycle config turn.cycle turn.state turn.shell).2.store

def waited (config : GenerateConfig) (turn : Turn) : Store :=
  (watchOnce config turn.cycle turn.state turn.shell).2.store

/-- How a cycle ends, with what the watch knows next and the store that is left. -/
inductive Ends (config : GenerateConfig) (turn : Turn) (files : List SourceFile)
    (current : String) : WatchState → Store → Prop
  | idle (same : turn.state.written = some current) (quiet : turn.result? config = none) :
    Ends config turn files current { turn.state with cycles := turn.state.cycles + 1 }
      turn.shell.store
  | cancelled {result : Result} (fresh : turn.state.written ≠ some current)
      (ran : (turn.run config files).outcome = .ok result)
      (yields : turn.result? config = some result) (cancelled : result.cancelled = true) :
    Ends config turn files current { turn.state with
      cycles := turn.state.cycles + 1
      session := (turn.run config files).session } turn.shell.store
  | written {result : Result} {outcome : WriteResult} {store : Store}
      (fresh : turn.state.written ≠ some current)
      (ran : (turn.run config files).outcome = .ok result)
      (yields : turn.result? config = some result) (uncancelled : result.cancelled = false)
      (wrote : writeUnits config.outputDir result.units turn.shell.store = (.ok outcome, store)) :
    Ends config turn files current { turn.state with
      cycles := turn.state.cycles + 1
      session := (turn.run config files).session
      written := some current
      writes := turn.state.writes + 1 } store

end Turn

variable {config : GenerateConfig} {cycle : Cycle} {state next : WatchState} {shell left : Shell}
  {files : List SourceFile} {current : String} {result : Result}
  {turn : Turn}

theorem regenerate_cancelled
    (ran : (state.session.run (cycle.cancellation config.timeout) files).outcome = .ok result)
    (cancelled : result.cancelled = true) :
    ∃ left, regenerate config cycle state files current shell =
      (.ok { state with
        session := (state.session.run (cycle.cancellation config.timeout) files).session },
        left) ∧ left.store = shell.store := by
  unfold regenerate
  rw [bind_of_ok (runSession_eq_ok.mpr ⟨ran, rfl, rfl⟩)]
  simp only [cancelled, if_true]
  rw [printLine, bind_of_ok (printText_eq _ _)]
  exact ⟨_, rfl, rfl⟩

theorem regenerate_written {written : WriteResult} {store : Store}
    (ran : (state.session.run (cycle.cancellation config.timeout) files).outcome = .ok result)
    (uncancelled : result.cancelled = false)
    (wrote : writeUnits config.outputDir result.units shell.store = (.ok written, store)) :
    ∃ left, regenerate config cycle state files current shell =
      (.ok { state with
        session := (state.session.run (cycle.cancellation config.timeout) files).session
        written := some current
        writes := state.writes + 1 }, left) ∧ left.store = store := by
  have placed (printed : List String) (events : List Event) (waits : List Binary64) :
      writePackage config.outputDir result.units ⟨shell.store, printed, events, waits⟩ =
        (.ok written, _) :=
    writePackage_eq_ok.mpr ⟨store, wrote, rfl⟩
  unfold regenerate
  rw [bind_of_ok (runSession_eq_ok.mpr ⟨ran, rfl, rfl⟩)]
  simp only [uncancelled, Bool.false_eq_true, if_false]
  rw [bind_of_ok (placed _ _ _), printLine, bind_of_ok (printText_eq _ _)]
  exact ⟨_, rfl, rfl⟩

/-- Once the sources are found and have a digest, a cycle runs over them unless they were written
last. -/
theorem watchCycle_eq
    (found : (Discovery.discover shell.store config.sourceRoots config.exclude).1 = .ok files)
    (digest : SourceFile.fingerprint files = .ok current) :
    ∃ middle, middle.store = shell.store ∧ watchCycle config cycle state shell =
      if state.written = some current then
        (.ok { state with cycles := state.cycles + 1 }, middle)
      else regenerate config cycle { state with cycles := state.cycles + 1 } files current
        middle := by
  unfold watchCycle
  rw [bind_of_ok (discover_eq_ok.mpr ⟨found, rfl⟩),
    bind_of_ok (ofExcept_eq_ok.mpr ⟨digest, rfl⟩)]
  refine ⟨{ shell with events := shell.events ++
    (Discovery.discover shell.store config.sourceRoots config.exclude).2 }, rfl, ?_⟩
  split
  · rfl
  · rfl

namespace Turn

omit [Text.Characters] in
theorem digest?_eq (found : turn.files config = .ok files)
    (digest : SourceFile.fingerprint files = .ok current) :
    turn.digest? config = some current := by
  simp [digest?, found, digest, Except.toOption]

theorem result?_eq (found : turn.files config = .ok files)
    (digest : SourceFile.fingerprint files = .ok current) :
    turn.result? config = if turn.state.written = some current then none
      else (turn.run config files).outcome.toOption := by
  simp [result?, found, digest, Except.toOption]

/-- A cycle that finds its sources ends when its run does and the units of the run can be
written. -/
theorem ends (found : turn.files config = .ok files)
    (digest : SourceFile.fingerprint files = .ok current)
    (ran : (turn.run config files).outcome = .ok result)
    (writes : ∀ result ∈ turn.written? config,
      (writeUnits config.outputDir result.units turn.shell.store).1.toOption.isSome = true) :
    ∃ next left, watchCycle config turn.cycle turn.state turn.shell = (.ok next, left) ∧
      Ends config turn files current next left.store := by
  obtain ⟨middle, same, cycle⟩ := watchCycle_eq found digest
  have yields := result?_eq found digest
  rw [cycle]
  by_cases idle : turn.state.written = some current
  · rw [if_pos idle] at yields ⊢
    exact ⟨_, middle, rfl, same ▸ .idle idle yields⟩
  · rw [if_neg idle, ran] at yields
    rw [if_neg idle]
    let counted : WatchState := { turn.state with cycles := turn.state.cycles + 1 }
    have countedRan : (counted.session.run (turn.cycle.cancellation config.timeout) files).outcome =
        .ok result := ran
    have yields : turn.result? config = some result := yields
    cases cancelled : result.cancelled with
    | true =>
      obtain ⟨left, regenerated, untouched⟩ := regenerate_cancelled countedRan cancelled
      refine ⟨_, left, regenerated, ?_⟩
      rw [untouched.trans same]
      exact .cancelled idle ran yields cancelled
    | false =>
      have writable := writes result (by simp [written?, yields, cancelled])
      rw [← same] at writable
      rcases wrote : writeUnits config.outputDir result.units middle.store with
        ⟨failed | outcome, store⟩
      · rw [wrote] at writable
        cases writable
      · obtain ⟨left, regenerated, stored⟩ := regenerate_written countedRan cancelled wrote
        refine ⟨_, left, regenerated, ?_⟩
        rw [same] at wrote
        rw [stored]
        exact .written idle ran yields cancelled wrote

end Turn

/-- A cycle that ends is followed by a wait, or by the end of the watch. -/
theorem watchOnce_ok (ended : watchCycle config cycle state shell = (.ok next, left)) :
    ∃ goesOn after, watchOnce config cycle state shell = (.ok (next, goesOn), after) := by
  unfold watchOnce
  rw [bind_of_ok ended]
  split
  · exact ⟨_, _, rfl⟩
  · exact ⟨_, _, rfl⟩

/-- A wait in which nobody changes the store changes nothing. -/
theorem Turn.waited_eq_left (unchanged : turn.cycle.change = id) :
    turn.waited config = turn.left config := by
  unfold waited left watchOnce
  rcases ended : watchCycle config turn.cycle turn.state turn.shell with ⟨failure | next, left⟩
  · change (Action.bind _ _ turn.shell).2.store = _
    simp only [Action.bind, ended]
  · rw [bind_of_ok ended]
    split
    · rfl
    · change turn.cycle.change left.store = left.store
      rw [unchanged]
      rfl

def turns (config : GenerateConfig) (clock : Cancellation.Clock) (maxCycles : Option Nat) :
    List Cycle → WatchState → Shell → List Turn
  | [], state, shell => if isDone maxCycles state then [] else [⟨.last clock, state, shell⟩]
  | cycle :: rest, state, shell =>
    if isDone maxCycles state then []
    else ⟨cycle, state, shell⟩ :: match watchOnce config cycle state shell with
      | (.ok (next, true), after) => turns config clock maxCycles rest next after
      | _ => []

def watchTurns (config : GenerateConfig) (clock : Cancellation.Clock) (maxCycles : Option Nat)
    (cycles : List Cycle) (shell : Shell) : List Turn :=
  turns config clock maxCycles cycles .start
    { shell with printed := shell.printed ++ [watchTitle config] }

theorem cycle_of_mem_turns {clock : Cancellation.Clock} {maxCycles : Option Nat}
    {cycles : List Cycle} (member : turn ∈ turns config clock maxCycles cycles state shell) :
    turn.cycle ∈ cycles ∨ turn.cycle = .last clock := by
  induction cycles generalizing state shell with
  | nil =>
    unfold turns at member
    split at member
    · cases member
    · obtain rfl := List.mem_singleton.mp member
      exact .inr rfl
  | cons cycle rest ih =>
    unfold turns at member
    split at member
    · cases member
    · rcases List.mem_cons.mp member with rfl | member
      · exact .inl (List.mem_cons_self ..)
      · split at member
        · exact (ih member).imp_left (List.mem_cons_of_mem _)
        · cases member

def lastWriting? (config : GenerateConfig) (turns : List Turn) : Option Turn :=
  turns.reverse.find? fun turn => (turn.written? config).isSome

theorem lastWriting?_append (config : GenerateConfig) (past : List Turn) (turn : Turn) :
    lastWriting? config (past ++ [turn]) =
      if (turn.written? config).isSome then some turn else lastWriting? config past := by
  simp only [lastWriting?, List.reverse_append, List.reverse_singleton, List.singleton_append,
    List.find?_cons]
  cases (turn.written? config).isSome
  · rfl
  · rfl

end EnumLookup.Command
