import EnumLookup.Command.Generate
import EnumLookup.Proofs.Command.Actions
import EnumLookup.Proofs.Package.Rescanning

/-!
Checking the package after generating it. A run that is not cancelled yields what the sources yield
by themselves, and the write leaves the sources as they are unless it gets into their way: then the
check that follows goes over the same files, has the same result and finds the package up to date.
-/
namespace EnumLookup.Command

open EnumLookup.Command.Action Package Store

variable {config : GenerateConfig} {clock later : Cancellation.Clock} {shell after again : Shell}
  {written : WriteResult} {home : Location}

/-- Generating succeeds when the sources are found, the run over them is not cancelled and its units
are written. -/
theorem generate_store_iff [Text.Characters] {store : Store} :
    (∃ after, generate config clock shell = (.ok written, after) ∧ after.store = store) ↔
      ∃ files result,
        (Discovery.discover shell.store config.sourceRoots config.exclude).1 = .ok files ∧
        (Session.empty.run (.ofTimeout clock config.timeout) files).outcome = .ok result ∧
        result.cancelled = false ∧
        writeUnits config.outputDir result.units shell.store = (.ok written, store) := by
  unfold generate
  constructor
  · rintro ⟨after, ran, rfl⟩
    obtain ⟨_, _, started, ran⟩ := bind_eq_ok.mp ran
    cases started
    obtain ⟨result, _, ranOnce, ran⟩ := bind_eq_ok.mp ran
    obtain ⟨files, found, outcome, rfl⟩ := runOnce_eq_ok.mp ranOnce
    refine ⟨files, result, found, outcome, ?_⟩
    split at ran
    · obtain ⟨_, _, _, ran⟩ := bind_eq_ok.mp ran
      cases ran
    · next uncancelled =>
      obtain ⟨_, _, counted, ran⟩ := bind_eq_ok.mp ran
      cases counted
      obtain ⟨_, _, placed, ran⟩ := bind_eq_ok.mp ran
      obtain ⟨store, wrote, rfl⟩ := writePackage_eq_ok.mp placed
      cases ran
      exact ⟨Bool.eq_false_iff.mpr uncancelled, wrote⟩
  · rintro ⟨files, result, found, outcome, uncancelled, wrote⟩
    have ranOnce (printed : List String) (events : List Event) (waits : List Binary64) :
        runOnce config.sourceRoots config.exclude (.ofTimeout clock config.timeout)
          ⟨shell.store, printed, events, waits⟩ = (.ok result, _) :=
      runOnce_eq_ok.mpr ⟨files, found, outcome, rfl⟩
    have placed (printed : List String) (events : List Event) (waits : List Binary64) :
        writePackage config.outputDir result.units ⟨shell.store, printed, events, waits⟩ =
          (.ok written, _) :=
      writePackage_eq_ok.mpr ⟨store, wrote, rfl⟩
    rw [printLine, bind_of_ok (printText_eq _ shell), bind_of_ok (ranOnce _ _ _)]
    simp only [uncancelled, Bool.false_eq_true, if_false]
    rw [printLine, bind_of_ok (printText_eq _ _), bind_of_ok (placed _ _ _),
      bind_of_ok (printText_eq _ _)]
    exact ⟨_, rfl, rfl⟩

def upToDate (config : GenerateConfig) (enums : Nat) : String :=
  "Up to date: " ++ (packageDirectory config.outputDir).text ++ " (" ++ Text.decimal enums ++
    " enums)" ++ "\n"

/-- Checking finds the package up to date when nothing is out of date for the units of the run. -/
theorem check_current [Text.Characters] {files : List SourceFile} {result : Generation.Result}
    (found : (Discovery.discover shell.store config.sourceRoots config.exclude).1 = .ok files)
    (outcome : (Session.empty.run (.ofTimeout clock config.timeout) files).outcome = .ok result)
    (uncancelled : result.cancelled = false)
    (current : checkUnits shell.store config.outputDir result.units = .ok []) :
    ∃ events, check config clock shell = (.ok ⟨⟩, { shell with
      printed := shell.printed ++ [upToDate config result.descriptors.length],
      events := shell.events ++ events }) := by
  have ranOnce := runOnce_eq_ok.mpr ⟨files, found, outcome, rfl⟩
  rw [List.append_assoc] at ranOnce
  refine ⟨(Discovery.discover shell.store config.sourceRoots config.exclude).2 ++
    (Session.empty.run (.ofTimeout clock config.timeout) files).events, ?_⟩
  refine bind_eq_ok.mpr ⟨result, _, ranOnce, ?_⟩
  simp only [uncancelled, Bool.false_eq_true, if_false]
  exact bind_eq_ok.mpr ⟨[], _, ofExcept_eq_ok.mpr ⟨current, rfl⟩, rfl⟩

/-- Generating and then checking without a time limit: the check finds the same source files, has
the same result and reports that the package is up to date. The package stands outside the roots or
directly in them, its files are no links, and writing it leads the roots nowhere else. -/
theorem generate_then_check [Text.Characters] (later : Cancellation.Clock)
    (system : shell.store.IsFileSystem) (ran : generate config clock shell = (.ok written, after))
    (found : (opened config.outputDir shell.store).DirectoryAt
      (packageDirectory config.outputDir) home)
    (outside : ∀ root ∈ config.sourceRoots, ∀ start, after.store.DirectoryAt root start →
      start <+: home → home = start ++ [generatedPackage])
    (unlinked : Unlinked shell.store home)
    (detached : ∀ root ∈ config.sourceRoots,
      Detached config.exclude root home shell.store after.store)
    (unchanged : again.store = after.store) :
    ∃ files result events,
      (Discovery.discover shell.store config.sourceRoots config.exclude).1 = .ok files ∧
      (Discovery.discover again.store config.sourceRoots config.exclude).1 = .ok files ∧
      (Session.empty.run (.ofTimeout clock config.timeout) files).outcome = .ok result ∧
      (Session.empty.run .never files).outcome = .ok result ∧
      check { config with timeout := none } later again = (.ok ⟨⟩, { again with
        printed := again.printed ++ [upToDate config result.descriptors.length],
        events := again.events ++ events }) := by
  obtain ⟨files, result, discovered, outcome, uncancelled, wrote⟩ :=
    generate_store_iff.mp ⟨after, ran, rfl⟩
  have unread (root : Path) (member : root ∈ config.sourceRoots) :
      Unread config.exclude root home after.store :=
    unread_of_outside (outside root member)
  obtain ⟨ordered, place, sorted, placed, places⟩ := writeUnits_places system
    (Session.run_units outcome) (fun other alsoFound => found.unique alsoFound ▸ unlinked) wrote
  obtain rfl := found.unique placed
  have rediscovered := places.discover system detached unread discovered
  have current := places.checkUnits sorted
  have same := Session.run_uncancelled outcome uncancelled
  rw [← unchanged] at rediscovered current
  rw [← same] at outcome
  obtain ⟨events, checked⟩ : ∃ events, check { config with timeout := none } later again = _ :=
    check_current rediscovered outcome uncancelled current
  exact ⟨files, result, events, discovered, rediscovered, same ▸ outcome, outcome, checked⟩

def rootConfig (root output : Path) : GenerateConfig :=
  ⟨[root], output, [], .generate, Config.defaultInterval, none, false⟩

def markedText : String :=
  "from enum import Enum\nfrom enum_generators import enum_extensions\n" ++
    "@enum_extensions\nclass C(Enum):\n  A = 1\n"

def markedStore : Store where
  entries :=
    [(["src"], .directory), (["src", "m.py"], .file (utf8 markedText))]

/-- The package stands in the source root. -/
theorem generate_then_check_in_root :
    let config := rootConfig ⟨0, ["src"]⟩ ⟨0, ["src"]⟩
    markedStore.IsFileSystem ∧ ∃ written after,
      generate config Cancellation.steadyClock (.start markedStore) = (.ok written, after) ∧
      ∃ files result events,
        files.map (·.module) = ["m"] ∧ result.descriptors.map (·.qualifiedName) = ["m.C"] ∧
        (Discovery.discover after.store config.sourceRoots []).1 = .ok files ∧
        (Session.empty.run .never files).outcome = .ok result ∧
        check config Cancellation.steadyClock after = (.ok ⟨⟩, { after with
          printed := after.printed ++ [upToDate config 1],
          events := after.events ++ events }) := by
  intro config
  let descriptor : Descriptor := ⟨"m.C", "m", ["A"], by decide⟩
  let result : Generation.Result :=
    ⟨[markerUnit, ⟨extensionsTag, extensionsText [descriptor]⟩], [descriptor], false⟩
  let files : List SourceFile := [⟨"src/m.py", "m", false, .ofString markedText⟩]
  let home : Location := ["src", generatedPackage]
  have system : markedStore.IsFileSystem := by decide +kernel
  have discovered : (Discovery.discover markedStore config.sourceRoots config.exclude).1 =
      .ok files := by decide +kernel
  have outcome : (Session.empty.run .never files).outcome = .ok result := by decide +kernel
  obtain ⟨written, wrote⟩ : ∃ written, writeUnits config.outputDir result.units markedStore =
      (.ok written, (writeUnits config.outputDir result.units markedStore).2) :=
    exists_of_written (by decide +kernel)
  obtain ⟨after, ran, store⟩ : ∃ after,
      generate config Cancellation.steadyClock (.start markedStore) = (.ok written, after) ∧
        after.store = (writeUnits config.outputDir result.units markedStore).2 :=
    generate_store_iff.mpr ⟨files, result, discovered, outcome, rfl, wrote⟩
  have found : (opened config.outputDir markedStore).DirectoryAt
      (packageDirectory config.outputDir) home := by
    unfold Store.DirectoryAt
    decide +kernel
  have outside : ∀ start, after.store.DirectoryAt ⟨0, ["src"]⟩ start →
      start <+: home → home = start ++ [generatedPackage] := by
    rw [store]
    decide +kernel
  have detached : Detached [] ⟨0, ["src"]⟩ home markedStore after.store := by
    rw [store]
    decide +kernel
  obtain ⟨_, _, events, again, rediscovered, -, ranAgain, checked⟩ :=
    generate_then_check Cancellation.steadyClock system ran found
      (List.forall_mem_singleton.mpr outside) (by decide +kernel)
      (List.forall_mem_singleton.mpr detached) rfl
  obtain rfl := Except.ok.inj (discovered.symm.trans again)
  obtain rfl := Except.ok.inj (outcome.symm.trans ranAgain)
  exact ⟨system, written, after, ran, files, result, events, rfl, rfl, rediscovered, outcome,
    checked⟩

/-- Generating succeeds, with the package at a location outside the root, and yet the check that
follows fails. -/
def Relapses [Text.Characters] (root output : Path) (home : Location) (store : Store) : Prop :=
  let config := rootConfig root output
  let generated := generate config Cancellation.steadyClock (.start store)
  store.IsFileSystem ∧ generated.1.toOption.isSome = true ∧
    generated.2.store.locate (packageDirectory output) = .ok home ∧
    (∀ start, generated.2.store.DirectoryAt root start → ¬ start <+: home) ∧
    (check config Cancellation.steadyClock generated.2).1.toOption.isNone = true

/-- A package in `out` with a first file, and an empty file of lookup functions; the directory `src`
holds at most one entry. -/
def linkedStore (sources : List (Location × Entry)) (first : Entry) : Store where
  entries :=
    [(["src"], .directory), (["out"], .directory), (["out", generatedPackage], .directory),
     (["out", generatedPackage, markerTag], first),
     (["out", generatedPackage, extensionsTag], .file [])] ++ sources

/-- Writing can get into the way of the sources though the package stands outside the root: it makes
a directory with the name of a source file, on the way to the package; it removes the file that a
link among the sources leads to; it writes one file of the package through a link over another one;
and it makes a directory that the path of the root goes through. -/
theorem check_fails_after_generate :
    Relapses ⟨0, ["src"]⟩ ⟨0, ["out", "..", "src", "gen.py", "..", "..", "out"]⟩
      ["out", generatedPackage] { entries := [(["src"], .directory)] } ∧
    Relapses ⟨0, ["src"]⟩ ⟨0, ["out"]⟩ ["out", generatedPackage]
      (linkedStore
        [(["src", "a.py"], .link ("../out/" ++ generatedPackage ++ "/" ++ extensionsTag))]
        (.file [])) ∧
    Relapses ⟨0, ["src"]⟩ ⟨0, ["out"]⟩ ["out", generatedPackage]
      (linkedStore [] (.link extensionsTag)) ∧
    Relapses ⟨0, ["gen", "..", "src"]⟩ ⟨0, ["gen"]⟩ ["gen", generatedPackage]
      { entries := [(["src"], .directory), (["src", "m.py"], .directory)] } := by
  unfold Relapses
  decide +kernel

end EnumLookup.Command
