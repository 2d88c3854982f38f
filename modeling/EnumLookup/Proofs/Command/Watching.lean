import EnumLookup.Proofs.Command.Regeneration
import EnumLookup.Proofs.Command.Turns
import EnumLookup.Proofs.Runs

/-!
The safety of a watch. What a watch remembers between cycles always stands for what is in the
package: the digest is that of the sources of the last run that was not cancelled, and the files
hold the units of that run. This is kept by every cycle, whatever the sources become and wherever
runs are cancelled.
-/
namespace EnumLookup.Command

open EnumLookup.Command.Action Generation Package

variable {config : GenerateConfig} {initial : Store} {all past later : List Turn} {turn : Turn}
  {state next : WatchState} {store after : Store} {files : List SourceFile} {current : String}
  {result : Result}

def textsOfTurns (config : GenerateConfig) (turns : List Turn) : List String :=
  turns.flatMap fun turn => (turn.files config).toOption.elim [] textsOf

theorem frames_encodable {bytes : List UInt8} (framed : SourceFile.frames files = .ok bytes) :
    AllEncodable files := by
  induction files generalizing bytes with
  | nil => exact fun file member => nomatch member
  | cons file rest ih =>
    unfold SourceFile.frames SourceFile.frame Text.SourceText.encodable at framed
    cases text : file.text.toString? with
    | none =>
      rw [text] at framed
      cases framed
    | some text' =>
      cases rests : SourceFile.frames rest with
      | error error =>
        rw [text, rests] at framed
        cases framed
      | ok others =>
        exact List.forall_mem_cons.mpr ⟨by rw [text]; rfl, ih rests⟩

theorem fingerprint_encodable (digest : SourceFile.fingerprint files = .ok current) :
    AllEncodable files := by
  unfold SourceFile.fingerprint at digest
  cases framed : SourceFile.frames files with
  | error error =>
    rw [framed] at digest
    cases digest
  | ok bytes => exact frames_encodable framed

section

variable [Text.Characters]

/-- What a watch relies on. The sources are found and the digests tell them apart, and their texts;
what is to be written can be written, to files of the package that are no links; and nobody else
writes the package. -/
structure Undisturbed (config : GenerateConfig) (turns : List Turn) : Prop where
  found : ∀ turn ∈ turns, (turn.digest? config).isSome = true
  separates : ∀ a ∈ turns, ∀ b ∈ turns, a.digest? config = b.digest? config →
    a.files config = b.files config
  texts : Separated (textsOfTurns config turns)
  writes : ∀ turn ∈ turns, ∀ result ∈ turn.written? config,
    (writeUnits config.outputDir result.units turn.shell.store).1.toOption.isSome = true
  systems : ∀ turn ∈ turns, turn.shell.store.IsFileSystem
  unlinked : ∀ turn ∈ turns, ∀ home, (opened config.outputDir turn.shell.store).DirectoryAt
    (packageDirectory config.outputDir) home → Unlinked turn.shell.store home
  alone : ∀ turn ∈ turns, ∀ tag ∈ unitOrder,
    (turn.waited config).content? (unitPath config.outputDir tag) =
      (turn.left config).content? (unitPath config.outputDir tag)

/-- The content of a file of the package after some cycles: that of the units written last, or the
one that was there before the watch. -/
def contentAfter (config : GenerateConfig) (initial : Store) (past : List Turn) (tag : String) :
    Option (List UInt8) :=
  match (lastWriting? config past).bind (·.written? config) with
  | some result => expected? result.units tag
  | none => initial.content? (unitPath config.outputDir tag)

/-- What holds between the cycles of a watch, after some of them. -/
structure Standing (config : GenerateConfig) (all : List Turn) (initial : Store)
    (past : List Turn) (state : WatchState) (store : Store) : Prop where
  sound : Session.Sound (textsOfTurns config all) state.session
  counted : state.writes = past.countP fun turn => (turn.written? config).isSome
  known : state.written = (lastWriting? config past).bind (·.digest? config)
  fresh : ∀ last ∈ lastWriting? config past, last ∈ all ∧ ∃ files result ordered,
    last.files config = .ok files ∧ last.written? config = some result ∧
    runAfresh .never files = .ok result ∧ orderUnits result.units = .ok ordered
  package : ∀ tag ∈ unitOrder,
    store.content? (unitPath config.outputDir tag) = contentAfter config initial past tag

/-- What a cycle guarantees. The package is the one written last; it is up to date for the sources
that the cycle found, unless the run was cancelled. A cancelled run leaves everything as it is, and
the next cycle runs again unless the sources return to those written last. -/
structure Safe (config : GenerateConfig) (initial : Store) (past : List Turn) (turn : Turn)
    (later : List Turn) : Prop where
  package : ∀ tag ∈ unitOrder, (turn.left config).content? (unitPath config.outputDir tag) =
    contentAfter config initial (past ++ [turn]) tag
  current : turn.isCancelled config = false → ∃ files result, turn.files config = .ok files ∧
    runAfresh .never files = .ok result ∧
    checkUnits (turn.left config) config.outputDir result.units = .ok []
  untouched : turn.isCancelled config = true → turn.left config = turn.shell.store
  retried : turn.isCancelled config = true → ∀ next ∈ later.head?,
    (next.files config = turn.files config ∨
      ∀ last ∈ lastWriting? config past, next.files config ≠ last.files config) →
    (next.result? config).isSome = true

namespace Undisturbed

theorem sources (undisturbed : Undisturbed config all) (member : turn ∈ all) :
    ∃ files current, turn.files config = .ok files ∧
      SourceFile.fingerprint files = .ok current := by
  have found := undisturbed.found turn member
  unfold Turn.digest? at found
  cases files : turn.files config with
  | error error =>
    rw [files] at found
    cases found
  | ok sources =>
    rw [files] at found
    cases digest : SourceFile.fingerprint sources with
    | error error =>
      simp [digest, Except.toOption] at found
    | ok current => exact ⟨sources, current, rfl, digest⟩

omit [Text.Characters] in
theorem seen (member : turn ∈ all) (found : turn.files config = .ok files) :
    ∀ text ∈ textsOf files, text ∈ textsOfTurns config all := by
  intro text inFiles
  refine List.mem_flatMap.mpr ⟨turn, member, ?_⟩
  rw [found]
  exact inFiles

/-- The run of a cycle has the result of a run from scratch. -/
theorem run (undisturbed : Undisturbed config all) (member : turn ∈ all)
    (sound : Session.Sound (textsOfTurns config all) turn.state.session)
    (found : turn.files config = .ok files)
    (digest : SourceFile.fingerprint files = .ok current) :
    ∃ result, (turn.run config files).outcome = .ok result ∧
      runAfresh (turn.cycle.cancellation config.timeout) files = .ok result ∧
      Session.Sound (textsOfTurns config all) (turn.run config files).session := by
  have encodable := fingerprint_encodable digest
  obtain ⟨same, after⟩ := sound.run undisturbed.texts (turn.cycle.cancellation config.timeout)
    encodable (seen member found)
  have separated : Separated (textsOf files) := fun a inA b inB =>
    undisturbed.texts a (seen member found a inA) b (seen member found b inB)
  obtain ⟨result, ran⟩ := runAfresh_succeeds encodable separated
    (Discovery.discover_named found) (turn.cycle.cancellation config.timeout)
  exact ⟨result, same.trans ran, ran, after⟩

end Undisturbed

theorem Standing.moved (standing : Standing config all initial past state store)
    (same : ∀ tag ∈ unitOrder, after.content? (unitPath config.outputDir tag) =
      store.content? (unitPath config.outputDir tag)) :
    Standing config all initial past state after :=
  { standing with package := fun tag known => (same tag known).trans (standing.package tag known) }

theorem contentAfter_append (quiet : turn.written? config = none) (tag : String) :
    contentAfter config initial (past ++ [turn]) tag = contentAfter config initial past tag := by
  simp [contentAfter, lastWriting?_append, quiet]

/-- A cycle that writes nothing changes nothing that the watch relies on. -/
theorem Standing.quiet (standing : Standing config all initial past state store)
    (quiet : turn.written? config = none)
    (sound : Session.Sound (textsOfTurns config all) next.session)
    (same : next.written = state.written) (count : next.writes = state.writes) :
    Standing config all initial (past ++ [turn]) next store where
  sound := sound
  counted := by
    rw [count, standing.counted]
    simp [quiet]
  known := by
    rw [same, standing.known, lastWriting?_append]
    simp [quiet]
  fresh := by
    rw [lastWriting?_append]
    simpa [quiet] using standing.fresh
  package tag known := by
    rw [contentAfter_append quiet, standing.package tag known]

namespace Undisturbed

/-- Every cycle of an undisturbed watch comes to its end, and what holds between cycles holds
again. -/
theorem step (undisturbed : Undisturbed config all) (member : turn ∈ all)
    (standing : Standing config all initial past turn.state turn.shell.store) :
    ∃ files current next left, turn.files config = .ok files ∧
      SourceFile.fingerprint files = .ok current ∧
      watchCycle config turn.cycle turn.state turn.shell = (.ok next, left) ∧
      turn.Ends config files current next left.store ∧
      Standing config all initial (past ++ [turn]) next left.store := by
  obtain ⟨files, current, found, digest⟩ := undisturbed.sources member
  obtain ⟨result, ran, afresh, sound⟩ := undisturbed.run member standing.sound found digest
  obtain ⟨next, left, ended, ends⟩ :=
    Turn.ends found digest ran (undisturbed.writes turn member)
  refine ⟨files, current, next, left, found, digest, ended, ends, ?_⟩
  generalize left.store = store at ends
  cases ends with
  | idle same quiet =>
    exact standing.quiet (by simp [Turn.written?, quiet]) standing.sound rfl rfl
  | cancelled fresh ran yields cancelled =>
    exact standing.quiet (by simp [Turn.written?, yields, cancelled]) sound rfl rfl
  | written fresh ranAgain yields uncancelled wrote =>
    obtain rfl := Except.ok.inj (ran.symm.trans ranAgain)
    have written : turn.written? config = some result := by
      simp [Turn.written?, yields, uncancelled]
    have last : lastWriting? config (past ++ [turn]) = some turn := by
      simp [lastWriting?_append, written]
    obtain ⟨ordered, home, sorted, -, places⟩ := writeUnits_places (undisturbed.systems turn member)
      (runAfresh_units afresh) (undisturbed.unlinked turn member) wrote
    refine ⟨sound, ?_, ?_, ?_, fun tag known => ?_⟩
    · simp [standing.counted, written]
    · rw [last]
      exact (Turn.digest?_eq found digest).symm
    · rw [last]
      rintro _ ⟨⟩
      exact ⟨member, files, result, ordered, found, written,
        runAfresh_uncancelled afresh uncancelled, sorted⟩
    · simp only [contentAfter, last, Option.bind_some, written]
      rw [places.contents tag known, expected?_ordered sorted known]

/-- A cycle runs unless the sources are those written last. -/
theorem runs_iff (undisturbed : Undisturbed config all) (member : turn ∈ all)
    (standing : Standing config all initial past turn.state store) :
    (turn.result? config).isSome = true ↔ turn.state.written ≠ turn.digest? config := by
  obtain ⟨files, current, found, digest⟩ := undisturbed.sources member
  obtain ⟨result, ran, -⟩ := undisturbed.run member standing.sound found digest
  rw [Turn.result?_eq found digest, Turn.digest?_eq found digest, ran]
  split
  · next same => simp [same]
  · next fresh => simp [fresh, Except.toOption]

/-- Sources with the digest of those written last are those written last. -/
theorem returned (undisturbed : Undisturbed config all) (member : turn ∈ all)
    (standing : Standing config all initial past turn.state store)
    (same : turn.state.written = turn.digest? config) :
    ∃ last ∈ lastWriting? config past, last.files config = turn.files config := by
  obtain ⟨current, digest⟩ := Option.isSome_iff_exists.mp (undisturbed.found turn member)
  have known := standing.known
  rw [same, digest] at known
  obtain ⟨last, written, lastDigest⟩ := Option.bind_eq_some_iff.mp known.symm
  have inAll := (standing.fresh last written).1
  exact ⟨last, written, undisturbed.separates last inAll turn member (lastDigest.trans digest.symm)⟩

end Undisturbed

/-- Between cycles the package is up to date for the sources written last. -/
theorem Standing.upToDate (standing : Standing config all initial past state store) {last : Turn}
    (written : last ∈ lastWriting? config past) :
    ∃ files result, last.files config = .ok files ∧ runAfresh .never files = .ok result ∧
      checkUnits store config.outputDir result.units = .ok [] := by
  obtain ⟨-, files, result, ordered, found, yields, ran, sorted⟩ := standing.fresh last written
  refine ⟨files, result, found, ran, checkUnits_current sorted fun tag known => ?_⟩
  rw [standing.package tag known, contentAfter, Option.mem_def.mp written, Option.bind_some, yields]

namespace Undisturbed

/-- The cycle that wrote last, when a cycle ends whose run was not cancelled, found the sources of
this cycle. -/
theorem last_of_uncancelled (undisturbed : Undisturbed config all) (member : turn ∈ all)
    (standing : Standing config all initial past turn.state store)
    (digest : turn.digest? config = some current)
    (ends : turn.Ends config files current next after)
    (uncancelled : turn.isCancelled config = false) :
    ∃ last ∈ lastWriting? config (past ++ [turn]), last.files config = turn.files config := by
  rw [lastWriting?_append]
  cases ends with
  | idle same quiet =>
    simpa [Turn.written?, quiet] using
      undisturbed.returned member standing (same.trans digest.symm)
  | cancelled fresh ran yields cancelled =>
    simp [Turn.isCancelled, yields, cancelled] at uncancelled
  | written fresh ran yields kept wrote =>
    exact ⟨turn, by simp [Turn.written?, yields, kept], rfl⟩

theorem safe (undisturbed : Undisturbed config all) (member : turn ∈ all)
    (standing : Standing config all initial past turn.state turn.shell.store)
    (goesOn : ∀ next ∈ later.head?, next ∈ all ∧
      Standing config all initial (past ++ [turn]) next.state next.shell.store) :
    Safe config initial past turn later := by
  obtain ⟨files, current, next, left, found, digest, ended, ends, stands⟩ :=
    undisturbed.step member standing
  have digest := Turn.digest?_eq found digest
  have same : turn.left config = left.store := by rw [Turn.left, ended]
  rw [← same] at ends stands
  refine ⟨stands.package, fun uncancelled => ?_, fun cancelled => ?_,
    fun cancelled after inLater changed => ?_⟩
  · obtain ⟨last, written, sameFiles⟩ :=
      undisturbed.last_of_uncancelled member standing digest ends uncancelled
    rw [← sameFiles]
    exact stands.upToDate written
  · generalize turn.left config = store at ends
    cases ends with
    | idle same quiet => rfl
    | cancelled fresh ran yields cancelled => rfl
    | written fresh ran yields uncancelled wrote =>
      simp [Turn.isCancelled, yields, uncancelled] at cancelled
  · obtain ⟨result, yields, cancelled⟩ := (Option.any_eq_true _ _).mp cancelled
    have quiet : turn.written? config = none := by simp [Turn.written?, yields, cancelled]
    obtain ⟨inAll, later⟩ := goesOn after inLater
    rw [undisturbed.runs_iff inAll later]
    intro repeated
    obtain ⟨last, written, sameFiles⟩ := undisturbed.returned inAll later repeated
    simp only [lastWriting?_append, quiet, Option.isSome_none, Bool.false_eq_true,
      if_false] at written
    rcases changed with unchanged | changed
    · have fresh := (undisturbed.runs_iff member standing).mp (by simp [yields])
      refine fresh ?_
      rw [standing.known, Option.mem_def.mp written, Option.bind_some, Turn.digest?, sameFiles,
        unchanged]
      rfl
    · exact changed last written sameFiles.symm

/-- What holds between cycles holds again after the wait. -/
theorem once (undisturbed : Undisturbed config all) {cycle : Cycle} {shell : Shell}
    (member : ⟨cycle, state, shell⟩ ∈ all)
    (standing : Standing config all initial past state shell.store) :
    ∃ next goesOn after, watchOnce config cycle state shell = (.ok (next, goesOn), after) ∧
      Standing config all initial (past ++ [⟨cycle, state, shell⟩]) next after.store := by
  obtain ⟨files, current, next, left, -, -, ended, -, stands⟩ := undisturbed.step member standing
  obtain ⟨goesOn, after, ran⟩ := watchOnce_ok ended
  refine ⟨next, goesOn, after, ran, stands.moved fun tag known => ?_⟩
  have alone := undisturbed.alone _ member tag known
  rwa [Turn.waited, Turn.left, ran, ended] at alone

end Undisturbed

/-- Each of some more cycles begins with what holds between cycles, and at the end every cycle that
wrote is counted. -/
structure Proceeds (config : GenerateConfig) (all : List Turn) (initial : Store)
    (past more : List Turn) (final : WatchState) : Prop where
  counted : final.writes = (past ++ more).countP fun turn => (turn.written? config).isSome
  begins : ∀ earlier turn later, more = earlier ++ turn :: later →
    Standing config all initial (past ++ earlier) turn.state turn.shell.store

namespace Proceeds

theorem nil (standing : Standing config all initial past state store) :
    Proceeds config all initial past [] state where
  counted := by rw [List.append_nil, standing.counted]
  begins earlier turn later none := by simp at none

theorem cons {more : List Turn}
    (standing : Standing config all initial past turn.state turn.shell.store)
    (rest : Proceeds config all initial (past ++ [turn]) more next) :
    Proceeds config all initial past (turn :: more) next where
  counted := by rw [rest.counted, List.append_assoc, List.singleton_append]
  begins earlier other later whole := by
    rcases earlier with _ | ⟨first, earlier⟩
    · obtain ⟨rfl, -⟩ := List.cons.inj whole
      rwa [List.append_nil]
    · obtain ⟨rfl, rests⟩ := List.cons.inj whole
      have begins := rest.begins earlier other later rests
      rwa [List.append_assoc] at begins

end Proceeds

/-- An undisturbed watch comes to its end, and every cycle of it begins with what holds between
cycles. -/
theorem Undisturbed.proceeds (undisturbed : Undisturbed config all) {clock : Cancellation.Clock}
    {maxCycles : Option Nat} {cycles : List Cycle} {shell : Shell}
    (inside : ∀ turn ∈ turns config clock maxCycles cycles state shell, turn ∈ all)
    (standing : Standing config all initial past state shell.store) :
    ∃ final after, watchCycles config clock maxCycles cycles state shell = (.ok final, after) ∧
      Proceeds config all initial past (turns config clock maxCycles cycles state shell) final := by
  induction cycles generalizing past state shell with
  | nil =>
    unfold turns at inside ⊢
    unfold watchCycles
    by_cases done : isDone maxCycles state = true
    · simp only [done, if_true]
      exact ⟨state, shell, rfl, .nil standing⟩
    · simp only [done, if_false, Bool.false_eq_true] at inside ⊢
      obtain ⟨next, goesOn, after, ran, stands⟩ :=
        undisturbed.once (inside _ (List.mem_cons_self ..)) standing
      exact ⟨next, after, bind_of_ok ran, .cons standing (.nil stands)⟩
  | cons cycle rest ih =>
    unfold turns at inside ⊢
    unfold watchCycles
    by_cases done : isDone maxCycles state = true
    · simp only [done, if_true]
      exact ⟨state, shell, rfl, .nil standing⟩
    · simp only [done, if_false, Bool.false_eq_true] at inside ⊢
      obtain ⟨next, goesOn, after, ran, stands⟩ :=
        undisturbed.once (inside _ (List.mem_cons_self ..)) standing
      rw [bind_of_ok ran]
      cases goesOn with
      | false =>
        simp only [ran, Bool.false_eq_true, if_false]
        exact ⟨next, after, rfl, .cons standing (.nil stands)⟩
      | true =>
        simp only [ran, if_true] at inside ⊢
        obtain ⟨final, last, ended, proceeds⟩ :=
          ih (fun turn member => inside turn (List.mem_cons_of_mem _ member)) stands
        exact ⟨final, last, ended, .cons standing proceeds⟩

theorem standing_start (config : GenerateConfig) (all : List Turn) (initial : Store) :
    Standing config all initial [] .start initial where
  sound := Session.empty_sound _
  counted := rfl
  known := rfl
  fresh := by simp [lastWriting?]
  package _ _ := rfl

/-- Watching is safe. An undisturbed watch returns the number of its runs that were not cancelled;
after each of its cycles the package is the one that the last of these runs wrote; it is up to date
unless the run of the cycle was cancelled; and a cancelled run changes nothing and is tried
again. -/
theorem watch_safe {clock : Cancellation.Clock} {maxCycles : Option Nat} {cycles : List Cycle}
    {shell : Shell}
    (undisturbed : Undisturbed config (watchTurns config clock maxCycles cycles shell)) :
    (watch config clock maxCycles cycles shell).1 =
      .ok ((watchTurns config clock maxCycles cycles shell).countP
        fun turn => (turn.written? config).isSome) ∧
    ∀ past turn later, watchTurns config clock maxCycles cycles shell = past ++ turn :: later →
      Safe config shell.store past turn later := by
  obtain ⟨final, after, ended, proceeds⟩ := undisturbed.proceeds
    (fun turn member => member) (standing_start config _ shell.store)
  refine ⟨?_, fun past turn later whole => ?_⟩
  · unfold watch
    rw [bind_of_ok (printText_eq _ _), bind_of_ok ended, printLine, bind_of_ok (printText_eq _ _)]
    exact congrArg Except.ok proceeds.counted
  · have member : turn ∈ watchTurns config clock maxCycles cycles shell := by simp [whole]
    refine undisturbed.safe member (proceeds.begins past turn later whole) fun next first => ?_
    obtain ⟨rest, rfl⟩ := List.head?_eq_some_iff.mp first
    have split : watchTurns config clock maxCycles cycles shell =
        (past ++ [turn]) ++ next :: rest := by simpa using whole
    exact ⟨by simp [whole], proceeds.begins _ next rest split⟩

end

def sampleShell : Shell :=
  .start { entries := [(["src"], .directory), (["src", "a.py"], .file (utf8 "x = 1\n"))] }

def sampleConfig : GenerateConfig :=
  { rootConfig ⟨0, ["src"]⟩ ⟨0, ["out"]⟩ with timeout := some (Binary64.ofNat 1) }

def sampleCycles : List Cycle :=
  [⟨fun _ => Binary64.ofNat 2, none, id, false⟩, ⟨Cancellation.steadyClock, none, id, false⟩]

def sampleTurns : List Turn :=
  watchTurns sampleConfig Cancellation.steadyClock none sampleCycles sampleShell

/-- A run is cancelled, tried again and not needed after that. -/
theorem watch_safe_retried :
    Undisturbed sampleConfig sampleTurns ∧
      sampleTurns.map (·.isCancelled sampleConfig) = [true, false, false] ∧
      (watch sampleConfig Cancellation.steadyClock none sampleCycles sampleShell).1 = .ok 1 ∧
      ∀ past turn later, sampleTurns = past ++ turn :: later →
        Safe sampleConfig sampleShell.store past turn later := by
  have checked : ((∀ turn ∈ sampleTurns, (turn.digest? sampleConfig).isSome = true) ∧
      (∀ a ∈ sampleTurns, ∀ b ∈ sampleTurns, a.digest? sampleConfig = b.digest? sampleConfig →
        a.files sampleConfig = b.files sampleConfig) ∧
      (∀ a ∈ textsOfTurns sampleConfig sampleTurns, ∀ b ∈ textsOfTurns sampleConfig sampleTurns,
        SourceFile.contentKey a = SourceFile.contentKey b → a = b) ∧
      (∀ turn ∈ sampleTurns, ∀ result ∈ turn.written? sampleConfig,
        (writeUnits sampleConfig.outputDir result.units turn.shell.store).1.toOption.isSome =
          true) ∧
      (∀ turn ∈ sampleTurns, turn.shell.store.IsFileSystem) ∧
      ∀ turn ∈ sampleTurns, ∀ home, (opened sampleConfig.outputDir turn.shell.store).DirectoryAt
        (packageDirectory sampleConfig.outputDir) home → Unlinked turn.shell.store home) ∧
      sampleTurns.map (·.isCancelled sampleConfig) = [true, false, false] ∧
      sampleTurns.countP (fun turn => (turn.written? sampleConfig).isSome) = 1 := by
    decide +kernel
  obtain ⟨⟨found, separates, texts, writes, systems, unlinked⟩, cancelled, written⟩ := checked
  have undisturbed : Undisturbed sampleConfig sampleTurns := by
    refine ⟨found, separates, texts, writes, systems, unlinked, fun turn member tag _ => ?_⟩
    have unchanged : turn.cycle.change = id := by
      rcases cycle_of_mem_turns member with listed | last
      · revert listed
        generalize turn.cycle = cycle
        simp only [sampleCycles, List.mem_cons, List.not_mem_nil, or_false]
        rintro (rfl | rfl)
        · rfl
        · rfl
      · rw [last]
        rfl
    rw [Turn.waited_eq_left unchanged]
  obtain ⟨counted, safe⟩ := watch_safe undisturbed
  exact ⟨undisturbed, cancelled, counted.trans (congrArg Except.ok written), safe⟩

/-- A file of the package that is a link to the other one is lost when that one is removed: the
cycle is not cancelled, and yet the package is out of date at its end. -/
theorem watch_unsafe_behind_link :
    let config := rootConfig ⟨0, ["src"]⟩ ⟨0, ["out"]⟩
    let shell := Shell.start (linkedStore [] (.link extensionsTag))
    let watched := watch config Cancellation.steadyClock (some 1) [] shell
    watched.1.toOption = some 1 ∧
      (watchTurns config Cancellation.steadyClock (some 1) [] shell).map
        (fun turn => (turn.files config, turn.isCancelled config)) = [(.ok [], false)] ∧
      ∃ result, runAfresh .never [] = .ok result ∧
        checkUnits watched.2.store config.outputDir result.units = .ok [markerTag] := by
  intro config shell watched
  refine ⟨by decide +kernel, by decide +kernel, ⟨[markerUnit], [], false⟩, by decide +kernel, ?_⟩
  decide +kernel

end EnumLookup.Command
