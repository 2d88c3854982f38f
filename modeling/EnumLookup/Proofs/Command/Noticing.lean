import EnumLookup.Proofs.Command.Regeneration
import EnumLookup.Proofs.Command.Turns
import EnumLookup.Proofs.Discovery.Found
import EnumLookup.Proofs.Fingerprints
import EnumLookup.Proofs.Store.Routes

/-!
What a watch notices. Between cycles it remembers the digest of the sources written last, however
its runs end, so a cycle without a run has found sources with the bytes of these. Then nothing has
changed, unless a text holds a zero.
-/
namespace EnumLookup

open SourceFile

/-- A file is read at a path without zeros. -/
theorem Discovery.FoundAt.zeroFree {store : Store} {root relative : Path} {file : SourceFile}
    (foundAt : FoundAt store root relative file) : '\x00' ∉ file.path.toList := by
  intro zero
  obtain ⟨bytes, held, -⟩ := foundAt.text
  unfold Store.read at held
  split at held
  · cases held
  · next location located =>
    rw [foundAt.path] at zero
    rcases Path.mem_text zero with slash | dot | ⟨part, inside, zero⟩
    · exact absurd slash (by decide)
    · exact absurd dot (by decide)
    · have free := (Store.locate_eq_ok.mp located).1
      have holds : (root.append relative).parts.any Store.hasZero = true :=
        List.any_eq_true.mpr ⟨part, inside, List.contains_iff_mem.mpr zero⟩
      rw [free] at holds
      cases holds

namespace Command

open EnumLookup.Command.Action Generation Package

variable {config : GenerateConfig} {cycle : Cycle} {state next : WatchState} {shell left : Shell}
  {files : List SourceFile} {current : String} {past : List Turn} {turn : Turn}

namespace Turn

def bytes? (config : GenerateConfig) (turn : Turn) : Option (List UInt8) := do
  let files ← (turn.files config).toOption
  (frames files).toOption

/-- Whether the cycle takes the sources that it finds for those written last. -/
def SeesNoChange (config : GenerateConfig) (turn : Turn) : Prop :=
  ∃ current, turn.digest? config = some current ∧ turn.state.written = some current

theorem digest?_eq_map : turn.digest? config = (turn.bytes? config).map Digest.sha256Hex := by
  unfold digest? bytes?
  cases turn.files config with
  | error error => rfl
  | ok files =>
    change (fingerprint files).toOption = (frames files).toOption.map _
    unfold fingerprint
    cases frames files with
    | error error => rfl
    | ok bytes => rfl

/-- What a cycle finds can be told by its bytes when the texts have a UTF-8 form. -/
theorem framable (found : turn.files config = .ok files) (encodable : AllEncodable files) :
    Framable files := by
  refine ⟨fun file member => ?_, encodable⟩
  obtain ⟨root, -, relative, foundAt⟩ := Discovery.discover_found found member
  exact foundAt.zeroFree

theorem bytes?_eq_some {bytes : List UInt8} : turn.bytes? config = some bytes ↔
    ∃ files, turn.files config = .ok files ∧ frames files = .ok bytes := by
  unfold bytes?
  cases turn.files config with
  | error error => simp [Except.toOption]
  | ok files =>
    cases framed : frames files with
    | error error => simp [Except.toOption, framed]
    | ok own => simp [Except.toOption, framed]

theorem regenerate_ok [Text.Characters]
    (ended : regenerate config cycle state files current shell = (.ok next, left)) :
    ∃ result, (state.session.run (cycle.cancellation config.timeout) files).outcome = .ok result ∧
      (result.cancelled = false →
        (writeUnits config.outputDir result.units shell.store).1.toOption.isSome = true) := by
  unfold regenerate at ended
  obtain ⟨⟨result, session⟩, middle, ran, goesOn⟩ := bind_eq_ok.mp ended
  obtain ⟨outcome, -, rfl⟩ := runSession_eq_ok.mp ran
  refine ⟨result, outcome, fun uncancelled => ?_⟩
  simp only [uncancelled, Bool.false_eq_true, if_false] at goesOn
  obtain ⟨written, _, placed, -⟩ := bind_eq_ok.mp goesOn
  obtain ⟨store, wrote, -⟩ := writePackage_eq_ok.mp placed
  rw [wrote]
  rfl

/-- A cycle that comes to its end ends in one of the three ways. -/
theorem ends_of_ok [Text.Characters]
    (ended : watchCycle config turn.cycle turn.state turn.shell = (.ok next, left)) :
    ∃ files current, turn.files config = .ok files ∧ fingerprint files = .ok current ∧
      Ends config turn files current next left.store := by
  have whole := ended
  unfold watchCycle at whole
  obtain ⟨files, _, discovered, whole⟩ := bind_eq_ok.mp whole
  obtain ⟨found, rfl⟩ := discover_eq_ok.mp discovered
  obtain ⟨current, _, hashed, goesOn⟩ := bind_eq_ok.mp whole
  obtain ⟨digest, rfl⟩ := ofExcept_eq_ok.mp hashed
  refine ⟨files, current, found, digest, ?_⟩
  have here : turn.files config = .ok files := found
  have yields := result?_eq here digest
  by_cases idle : turn.state.written = some current
  · rw [if_pos idle] at goesOn yields
    cases goesOn
    exact .idle idle yields
  · rw [if_neg idle] at goesOn yields
    obtain ⟨result, ran, writes⟩ := regenerate_ok goesOn
    have ran : (turn.run config files).outcome = .ok result := ran
    have writable : ∀ result ∈ turn.written? config,
        (writeUnits config.outputDir result.units turn.shell.store).1.toOption.isSome = true := by
      intro written holds
      obtain ⟨yielded, uncancelled⟩ := Option.filter_eq_some_iff.mp holds
      rw [yields, ran] at yielded
      cases yielded
      exact writes (by simpa using uncancelled)
    obtain ⟨_, _, again, ends⟩ := Turn.ends found digest ran writable
    rw [ended] at again
    cases again
    exact ends

end Turn

def bytesOfTurns (config : GenerateConfig) (turns : List Turn) : List (List UInt8) :=
  turns.filterMap (·.bytes? config)

theorem mem_bytesOfTurns {turns : List Turn} {bytes : List UInt8} (inside : turn ∈ turns)
    (known : turn.bytes? config = some bytes) : bytes ∈ bytesOfTurns config turns :=
  List.mem_filterMap.mpr ⟨turn, inside, known⟩

/-- No two of the cycles find sources of one digest whose bytes differ. -/
def Apart (config : GenerateConfig) (turns : List Turn) : Prop :=
  ∀ s ∈ bytesOfTurns config turns, ∀ t ∈ bytesOfTurns config turns,
    Digest.sha256Hex s = Digest.sha256Hex t → s = t

section

variable [Text.Characters]

/-- What a watch remembers after some cycles is the digest of the sources written last. -/
def Remembers (config : GenerateConfig) (past : List Turn) (state : WatchState) : Prop :=
  state.written = (lastWriting? config past).bind (·.digest? config)

namespace Remembers

theorem start : Remembers config [] .start := rfl

/-- However a cycle ends, the watch remembers what was written last. -/
theorem step (remembers : Remembers config past turn.state)
    (ended : watchCycle config turn.cycle turn.state turn.shell = (.ok next, left)) :
    Remembers config (past ++ [turn]) next := by
  obtain ⟨files, current, found, digest, ends⟩ := Turn.ends_of_ok ended
  unfold Remembers at remembers ⊢
  rw [lastWriting?_append]
  revert ends
  generalize left.store = store
  intro ends
  cases ends with
  | idle same quiet =>
    have silent : turn.written? config = none := by simp [Turn.written?, quiet]
    simpa [silent] using remembers
  | cancelled fresh ran yields cancelled =>
    have silent : turn.written? config = none := by simp [Turn.written?, yields, cancelled]
    simpa [silent] using remembers
  | written fresh ran yields uncancelled wrote =>
    have wrote : (turn.written? config).isSome = true := by
      simp [Turn.written?, yields, uncancelled]
    rw [if_pos wrote, Option.bind_some, Turn.digest?_eq found digest]

theorem once {goesOn : Bool} {after : Shell} (remembers : Remembers config past state)
    (ran : watchOnce config cycle state shell = (.ok (next, goesOn), after)) :
    Remembers config (past ++ [⟨cycle, state, shell⟩]) next := by
  unfold watchOnce at ran
  obtain ⟨reached, left, ended, waits⟩ := bind_eq_ok.mp ran
  have kept : reached = next := by
    split at waits
    · cases waits
      rfl
    · obtain ⟨_, _, _, stops⟩ := bind_eq_ok.mp waits
      cases stops
      rfl
  let turn : Turn := ⟨cycle, state, shell⟩
  have before : Remembers config past turn.state := remembers
  exact kept ▸ before.step ended

/-- At every cycle of a watch, it remembers what the cycles before have written. -/
theorem run {clock : Cancellation.Clock} {maxCycles : Option Nat} {cycles : List Cycle}
    {earlier later : List Turn} (remembers : Remembers config past state)
    (whole : turns config clock maxCycles cycles state shell = earlier ++ turn :: later) :
    Remembers config (past ++ earlier) turn.state := by
  induction cycles generalizing past state shell earlier with
  | nil =>
    unfold turns at whole
    split at whole
    · simp at whole
    · rcases List.singleton_eq_append_iff.mp whole with ⟨rfl, single⟩ | ⟨-, none⟩
      · obtain ⟨rfl, -⟩ := List.cons.inj single
        rwa [List.append_nil]
      · cases none
  | cons cycle rest ih =>
    unfold turns at whole
    split at whole
    · simp at whole
    · rcases earlier with _ | ⟨first, earlier⟩
      · obtain ⟨rfl, -⟩ := List.cons.inj whole
        rwa [List.append_nil]
      · obtain ⟨rfl, others⟩ := List.cons.inj whole
        split at others
        · next ran =>
          have remembers := ih (remembers.once ran) others
          rwa [List.append_assoc] at remembers
        · simp at others

end Remembers

/-- Nothing seems to have changed just when the bytes of the sources are those written last. -/
theorem Remembers.seesNoChange_iff {all : List Turn} {bytes : List UInt8}
    (remembers : Remembers config past turn.state) (apart : Apart config all)
    (inAll : ∀ other ∈ past, other ∈ all) (member : turn ∈ all)
    (found : turn.files config = .ok files) (framed : frames files = .ok bytes) :
    turn.SeesNoChange config ↔ ∃ last written, lastWriting? config past = some last ∧
      last.files config = .ok written ∧ frames written = frames files := by
  have known : turn.bytes? config = some bytes := Turn.bytes?_eq_some.mpr ⟨files, found, framed⟩
  unfold Remembers at remembers
  constructor
  · rintro ⟨current, digest, same⟩
    rw [remembers] at same
    obtain ⟨last, isLast, lastDigest⟩ := Option.bind_eq_some_iff.mp same
    have inPast : last ∈ past := List.mem_reverse.mp (List.mem_of_find?_eq_some isLast)
    rw [Turn.digest?_eq_map] at digest lastDigest
    rw [known, Option.map_some, Option.some.injEq] at digest
    obtain ⟨lastBytes, lastKnown, sameDigest⟩ := Option.map_eq_some_iff.mp lastDigest
    obtain ⟨written, lastFound, lastFramed⟩ := Turn.bytes?_eq_some.mp lastKnown
    have equal : lastBytes = bytes :=
      apart lastBytes (mem_bytesOfTurns (inAll last inPast) lastKnown)
        bytes (mem_bytesOfTurns member known) (sameDigest.trans digest.symm)
    exact ⟨last, written, isLast, lastFound, by rw [lastFramed, equal, framed]⟩
  · rintro ⟨last, written, isLast, lastFound, same⟩
    have lastKnown : last.bytes? config = some bytes :=
      Turn.bytes?_eq_some.mpr ⟨written, lastFound, same.trans framed⟩
    refine ⟨Digest.sha256Hex bytes, ?_, ?_⟩
    · rw [Turn.digest?_eq_map, known, Option.map_some]
    · rw [remembers, isLast, Option.bind_some, Turn.digest?_eq_map, lastKnown, Option.map_some]

/-- What a cycle that finds these files notices, after some cycles. It takes the files for those
written last just when the bytes of the two are the same. Then nothing has changed, or the two
clash. -/
structure Notices (config : GenerateConfig) (past : List Turn) (turn : Turn)
    (files : List SourceFile) : Prop where
  exact : turn.SeesNoChange config ↔ ∃ last written, lastWriting? config past = some last ∧
    last.files config = .ok written ∧ frames written = frames files
  same : turn.SeesNoChange config → ∃ last written, lastWriting? config past = some last ∧
    last.files config = .ok written ∧
    (sources written = sources files ∨ Clash written files ∨ Clash files written) ∧
    ((∀ text ∈ textsOf written ++ textsOf files, '\x00' ∉ text.toList) →
      sources written = sources files)

/-- A source set is told apart by its bytes, unless a text with a zero makes two of them clash; and
as long as digests tell the bytes apart, a watch notices every other change of its sources. -/
theorem watch_notices {clock : Cancellation.Clock} {maxCycles : Option Nat} {cycles : List Cycle}
    {shell : Shell} (apart : Apart config (watchTurns config clock maxCycles cycles shell)) :
    (∀ files others, Framable files → Framable others → ∃ bytes otherBytes,
      frames files = .ok bytes ∧ frames others = .ok otherBytes ∧
        Separates files others bytes otherBytes) ∧
    ∀ past turn later, watchTurns config clock maxCycles cycles shell = past ++ turn :: later →
      ∀ files, turn.files config = .ok files → AllEncodable files →
        Notices config past turn files := by
  refine ⟨fun files others => frames_separate,
    fun past turn later whole files found encodable => ?_⟩
  have start : Remembers config [] .start := .start
  have remembers : Remembers config past turn.state := start.run whole
  have framable := Turn.framable found encodable
  obtain ⟨bytes, framed, -⟩ := frames_pieces framable
  have inAll : ∀ other ∈ past, other ∈ watchTurns config clock maxCycles cycles shell :=
    fun other member => whole ▸ List.mem_append_left _ member
  have exact := remembers.seesNoChange_iff apart inAll (by simp [whole]) found framed
  refine ⟨exact, fun unseen => ?_⟩
  obtain ⟨last, written, isLast, lastFound, same⟩ := exact.mp unseen
  have lastFramable := Turn.framable lastFound (encodable_of_frames (same.trans framed))
  obtain ⟨bytes, otherBytes, framed, otherFramed, separates⟩ :=
    frames_separate lastFramable framable
  have equal : bytes = otherBytes := Except.ok.inj (framed.symm.trans (same.trans otherFramed))
  exact ⟨last, written, isLast, lastFound, separates.same equal,
    fun zeroFree => separates.zeroFree zeroFree equal⟩

end

def singleStore (text : String) : Store where
  entries :=
    [(["src"], .directory), (["src", "a.py"], .file (utf8 text)), (["lib"], .directory)]

def bothRoots : GenerateConfig :=
  { rootConfig ⟨0, ["src"]⟩ ⟨0, ["out"]⟩ with sourceRoots := [⟨0, ["src"]⟩, ⟨0, ["lib"]⟩] }

def emptyAndAdd (store : Store) : Store :=
  (store.put ["src", "a.py"] (.file [])).put ["lib", "b.py"] (.file (utf8 "x = 1\n"))

def changingTurns [Text.Characters] (text : String) : List Turn :=
  watchTurns bothRoots Cancellation.steadyClock (some 2)
    [⟨Cancellation.steadyClock, none, emptyAndAdd, false⟩] (.start (singleStore text))

def noticedTurns : List Turn := changingTurns "x = 2\n"

/-- The second cycle notices the change. -/
theorem watch_notices_added :
    Apart bothRoots noticedTurns ∧
      noticedTurns.map (fun turn => turn.digest? bothRoots == turn.state.written) =
        [false, false] ∧
      ∀ past turn later, noticedTurns = past ++ turn :: later → ∀ files,
        turn.files bothRoots = .ok files → AllEncodable files →
          Notices bothRoots past turn files := by
  have checked : (∀ s ∈ bytesOfTurns bothRoots noticedTurns,
      ∀ t ∈ bytesOfTurns bothRoots noticedTurns, Digest.sha256Hex s = Digest.sha256Hex t → s = t) ∧
      noticedTurns.map (fun turn => turn.digest? bothRoots == turn.state.written) =
        [false, false] := by
    decide +kernel
  exact ⟨checked.1, checked.2, (watch_notices checked.1).2⟩

/-- A text with a zero, and behind it the path and the text of another file, has the bytes of the
two files. -/
def spelledOut : String := "\x00lib/b.py\x00x = 1\n"

/-- When the two files take the place of the one that spells them out, the watch takes them for
those written last. -/
theorem watch_misses_zero :
    let files : List SourceFile := [⟨"src/a.py", "a", false, .ofString spelledOut⟩]
    let others : List SourceFile :=
      [⟨"src/a.py", "a", false, .ofString ""⟩, ⟨"lib/b.py", "b", false, .ofString "x = 1\n"⟩]
    (Framable files ∧ Framable others ∧ sources files ≠ sources others ∧
        frames files = frames others) ∧
      (changingTurns spelledOut).map (·.files bothRoots) = [.ok files, .ok others] ∧
      (changingTurns spelledOut).map (fun turn => turn.digest? bothRoots == turn.state.written) =
        [false, true] := by
  intro files others
  have checked : ((∀ file ∈ files, '\x00' ∉ file.path.toList) ∧
      (∀ file ∈ others, '\x00' ∉ file.path.toList) ∧
      (∀ file ∈ files, file.text.toString?.isSome) ∧
      (∀ file ∈ others, file.text.toString?.isSome) ∧
      sources files ≠ sources others ∧ frames files = frames others) ∧
      (changingTurns spelledOut).map (·.files bothRoots) = [.ok files, .ok others] ∧
      (changingTurns spelledOut).map (fun turn => turn.digest? bothRoots == turn.state.written) =
        [false, true] := by
    decide +kernel
  obtain ⟨⟨paths, otherPaths, encodable, otherEncodable, differ, same⟩, found, unnoticed⟩ := checked
  exact ⟨⟨⟨paths, encodable⟩, ⟨otherPaths, otherEncodable⟩, differ, same⟩, found, unnoticed⟩

end Command

end EnumLookup
