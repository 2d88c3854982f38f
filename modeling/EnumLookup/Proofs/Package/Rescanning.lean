import EnumLookup.Proofs.Discovery
import EnumLookup.Proofs.Package.Placing
import EnumLookup.Proofs.Text.Utf8
import EnumLookup.Session

/-!
Looking for source files after the package was written. The files of the package are told from
sources by the module that a root gives them, so they are passed over where the package stands
directly in the root. A package further down is a source like any other: it is passed over only when
it is excluded or no import can name it.
-/
namespace EnumLookup.Encoding

theorem decode_utf8 (text : String) :
    utf8.decode (EnumLookup.utf8 text) = some (.ofString text) := by
  simp only [decode, EnumLookup.utf8, toList_eq, Array.toArray_toList, String.fromUTF8?,
    String.toUTF8_eq_toByteArray, dif_pos text.isValidUTF8]
  rfl

def isUndeclared (line : List UInt8) : Bool :=
  (String.fromUTF8? ⟨line.toArray⟩).any fun text => (declaredName? text.toList).isNone

theorem judgeLine_undeclared {line : List UInt8} (codecs : Codecs) (marked : Bool)
    (undeclared : isUndeclared line = true) :
    ∃ text, judgeLine codecs marked line = .silent text := by
  obtain ⟨text, read, unnamed⟩ := (Option.any_eq_true _ _).mp undeclared
  refine ⟨text.toList, ?_⟩
  simp only [judgeLine, read, Option.isNone_iff_eq_none.mp unnamed]

theorem ofContent?_undeclared {bytes : List UInt8} (codecs : Codecs) (marked : Bool)
    (first : isUndeclared (splitLine bytes).1 = true)
    (second : isUndeclared (splitLine (splitLine bytes).2).1 = true) :
    ofContent? codecs marked bytes = some utf8.decode := by
  obtain ⟨line, silent⟩ := judgeLine_undeclared codecs marked first
  obtain ⟨next, silentNext⟩ := judgeLine_undeclared codecs marked second
  simp only [ofContent?, silent, silentNext, ite_self]

/-- A text that was written without a mark, and declares no other encoding, is read again. -/
theorem readText?_utf8 {codecs : Codecs} {text : String}
    (unmarked : byteOrderMark.isPrefixOf (EnumLookup.utf8 text) = false)
    (plain : ofContent? codecs false (EnumLookup.utf8 text) = some utf8.decode) :
    readText? codecs (EnumLookup.utf8 text) = some (.ofString text) := by
  simp only [readText?, splitMark, unmarked, Bool.false_eq_true, if_false, plain, Option.bind_some,
    decode_utf8]

end EnumLookup.Encoding

namespace EnumLookup.Package

open Discovery
open Store (Alters Made)

variable {store written : Store} {output root : Path} {home location : Location}
  {roots : List Path} {exclude : List String} {units ordered : List GeneratedUnit}
  {result : WriteResult} {files : List SourceFile}

/-- The write leads a root nowhere else: the root does not come to lead to source files that were
there before, no directory that is made below it has the path of a source file, and no source file
below it is a link to a file of the package. -/
structure Detached (exclude : List String) (root : Path) (home : Location)
    (store written : Store) : Prop where
  steady : ∀ start, written.DirectoryAt root start →
    readBelow store exclude start ≠ [] → store.DirectoryAt root start
  unnamed : ∀ start, written.DirectoryAt root start → ∀ location, Made store written location →
    isRead exclude start location = false
  unreached : ∀ start, written.DirectoryAt root start → ∀ names target,
    isRead exclude start (start ++ names) = true →
    store.entry? (start ++ names) = some (.link target) → ∀ tag ∈ unitOrder,
    store.locate (root.append ⟨0, names⟩) ≠ .ok (home ++ [tag])

def Unread (exclude : List String) (root : Path) (home : Location) (written : Store) : Prop :=
  ∀ start, written.DirectoryAt root start → ∀ tag ∈ unitOrder,
    isRead exclude start (home ++ [tag]) = false

theorem spares_of_detached (detached : ∀ root ∈ roots, Detached exclude root home store written)
    (unread : ∀ root ∈ roots, Unread exclude root home written) :
    Spares (fun location => Made store written location ∨ Owned home location) roots exclude
      store written where
  steady root member := (detached root member).steady
  unread root member start found location := by
    rintro (made | ⟨tag, known, rfl⟩)
    · exact (detached root member).unnamed start found location made
    · exact unread root member start found tag known
  unreached root member start found names target read link location bytes located isFile := by
    rintro (made | ⟨tag, known, rfl⟩)
    · rw [made.1] at isFile
      cases isFile
    · exact (detached root member).unreached start found names target read link tag known located

/-- A write that leads the roots nowhere else leaves the source files as they are, if none of the
files of the package is read. -/
theorem Places.discover (places : Places output home ordered store written)
    (system : store.IsFileSystem)
    (detached : ∀ root ∈ roots, Detached exclude root home store written)
    (unread : ∀ root ∈ roots, Unread exclude root home written)
    (discovered : (discover store roots exclude).1 = .ok files) :
    (discover written roots exclude).1 = .ok files :=
  (spares_of_detached detached unread).discover system places.alters discovered

/-- Directly in a root, the files of the package are told from sources. -/
theorem counts_generated {tag : String} (known : tag ∈ unitOrder) :
    counts exclude ⟨0, [generatedPackage, tag]⟩ = false := by
  have generated : ∃ module, moduleName? ⟨0, [generatedPackage, tag]⟩ = .ok (some module) ∧
      isGenerated module = true := by
    have either : tag = markerTag ∨ tag = extensionsTag := by simpa [unitOrder] using known
    rcases either with rfl | rfl
    · exact ⟨generatedPackage, by decide +kernel, by decide +kernel⟩
    · exact ⟨generatedPackage ++ ".extensions", by decide +kernel, by decide +kernel⟩
  obtain ⟨module, names, generated⟩ := generated
  simp only [counts, standing, names, generated, if_true]
  split
  · next found =>
    split at found
    · cases found
    · cases found
  · rfl

/-- Outside a root, and directly in it, no file of the package is read. -/
theorem unread_of_outside (outside : ∀ start, written.DirectoryAt root start →
    start <+: home → home = start ++ [generatedPackage]) : Unread exclude root home written := by
  intro start reached tag known
  rw [Bool.eq_false_iff]
  intro read
  obtain ⟨names, whole⟩ := isRead_prefix read
  have below := read
  rw [← whole, isRead_append] at below
  obtain ⟨above, last, rfl⟩ := (List.eq_nil_or_concat' names).resolve_left below.1
  rw [← List.append_assoc] at whole
  have direct := outside start reached ⟨above, (List.append_inj' whole rfl).1⟩
  rw [direct, List.append_assoc, List.singleton_append, isRead_append] at read
  rw [counts_generated known] at read
  cases read.2.2

theorem forall_directoryAt_iff {p : Location → Prop} :
    (∀ start, store.DirectoryAt root start → p start) ↔
      ∀ start ∈ (store.locate root).toOption,
        store.entry? start = some .directory → p start := by
  unfold Store.DirectoryAt
  cases store.locate root with
  | error fault => simp [Except.toOption]
  | ok location => simp [Except.toOption]

instance (store : Store) (root : Path) (p : Location → Prop) [DecidablePred p] :
    Decidable (∀ start, store.DirectoryAt root start → p start) :=
  decidable_of_iff _ forall_directoryAt_iff.symm

instance (store : Store) (root : Path) (start : Location) :
    Decidable (store.DirectoryAt root start) :=
  inferInstanceAs (Decidable (_ ∧ _))

instance : (found : Option Entry) → Decidable (∀ target, found ≠ some (.link target))
  | some (.link target) => isFalse fun free => free target rfl
  | some .directory => isTrue nofun
  | some (.file _) => isTrue nofun
  | none => isTrue nofun

instance (store : Store) (home : Location) : Decidable (Unlinked store home) :=
  inferInstanceAs (Decidable (∀ tag ∈ unitOrder, ∀ _ : String, _))

instance (exclude : List String) (root : Path) (home : Location) (written : Store) :
    Decidable (Unread exclude root home written) :=
  inferInstanceAs (Decidable (∀ start, written.DirectoryAt root start → _))

theorem mem_entries (below : location ≠ []) (there : store.entry? location ≠ none) :
    location ∈ store.entries.map (·.1) := by
  by_contra absent
  exact there ((Store.entry?_eq_none_iff below).mpr absent)

/-- It is enough to look at the entries that are there. -/
theorem detached_iff : Detached exclude root home store written ↔
    (∀ start, written.DirectoryAt root start →
      readBelow store exclude start ≠ [] → store.DirectoryAt root start) ∧
    (∀ start, written.DirectoryAt root start → ∀ location ∈ written.entries.map (·.1),
      (store.entry? location = none ∧ written.entry? location = some .directory) →
      isRead exclude start location = false) ∧
    ∀ start, written.DirectoryAt root start → ∀ location ∈ store.entries.map (·.1),
      isRead exclude start location = true →
        (∀ target, store.entry? location ≠ some (.link target)) ∨
        ∀ tag ∈ unitOrder,
          store.locate (root.append ⟨0, location.drop start.length⟩) ≠ .ok (home ++ [tag]) := by
  constructor
  · intro detached
    refine ⟨detached.steady, fun start found location _ => detached.unnamed start found location,
      fun start found location _ read => ?_⟩
    obtain ⟨names, rfl⟩ := isRead_prefix read
    by_cases link : ∃ target, store.entry? (start ++ names) = some (.link target)
    · obtain ⟨target, link⟩ := link
      rw [List.drop_left]
      exact .inr (detached.unreached start found names target read link)
    · exact .inl (not_exists.mp link)
  · rintro ⟨steady, unnamed, unreached⟩
    refine ⟨steady, fun start found location made => ?_,
      fun start found names target read link => ?_⟩
    · refine unnamed start found location (mem_entries ?_ (by simp [made.2])) made
      rintro rfl
      simp [Made] at made
    · have listed : start ++ names ∈ store.entries.map (·.1) := by
        refine mem_entries ?_ (by simp [link])
        intro top
        simp [top] at link
      have far := unreached start found _ listed read
      rw [List.drop_left] at far
      exact far.resolve_left fun free => free target link

instance (exclude : List String) (root : Path) (home : Location) (store written : Store) :
    Decidable (Detached exclude root home store written) := decidable_of_iff _ detached_iff.symm

/-- Writing the package leaves the source files as they are: the same files are found, in the same
order, as long as none of its files is read as a source and the write leads the roots nowhere
else. -/
theorem writeUnits_spares_sources (system : store.IsFileSystem) (nonempty : units ≠ [])
    (ran : writeUnits output units store = (.ok result, written))
    (found : (opened output store).DirectoryAt (packageDirectory output) home)
    (unlinked : Unlinked store home)
    (detached : ∀ root ∈ roots, Detached exclude root home store written)
    (unread : ∀ root ∈ roots, Unread exclude root home written)
    (discovered : (discover store roots exclude).1 = .ok files) :
    (discover written roots exclude).1 = .ok files := by
  obtain ⟨ordered, place, -, placed, places⟩ := writeUnits_places system nonempty
    (fun other alsoFound => found.unique alsoFound ▸ unlinked) ran
  obtain rfl := found.unique placed
  exact places.discover system detached unread discovered

def besideStore : Store where
  entries :=
    [(["a.py"], .file (utf8 "x = 1\n")), (["build-out"], .directory)]

theorem exists_of_written (ran : (writeUnits output units store).1.toOption.isSome = true) :
    ∃ result, writeUnits output units store = (.ok result, (writeUnits output units store).2) := by
  revert ran
  rcases writeUnits output units store with ⟨error | result, written⟩
  · nofun
  · exact fun _ => ⟨result, rfl⟩

theorem writeUnits_spares_sources_unnameable :
    let output : Path := ⟨0, ["build-out"]⟩
    let written := (writeUnits output [markerUnit] besideStore).2
    besideStore.IsFileSystem ∧ Unlinked besideStore ["build-out", generatedPackage] ∧
      Detached [] ⟨0, []⟩ ["build-out", generatedPackage] besideStore written ∧
      Unread [] ⟨0, []⟩ ["build-out", generatedPackage] written ∧
      ∃ files, files.map (·.module) = ["a"] ∧
        (discover besideStore [⟨0, []⟩] []).1 = .ok files ∧
        (discover written [⟨0, []⟩] []).1 = .ok files := by
  intro output written
  have system : besideStore.IsFileSystem := by decide +kernel
  have unlinked : Unlinked besideStore ["build-out", generatedPackage] := by decide +kernel
  have detached : Detached [] ⟨0, []⟩ ["build-out", generatedPackage] besideStore written := by
    decide +kernel
  have unread : Unread [] ⟨0, []⟩ ["build-out", generatedPackage] written := by decide +kernel
  have found : (opened output besideStore).DirectoryAt (packageDirectory output)
      ["build-out", generatedPackage] := by
    unfold Store.DirectoryAt
    decide +kernel
  have discovered : (discover besideStore [⟨0, []⟩] []).1 =
      .ok [⟨"a.py", "a", false, .ofString "x = 1\n"⟩] := by decide +kernel
  obtain ⟨result, ran⟩ : ∃ result, writeUnits output [markerUnit] besideStore =
      (.ok result, written) := exists_of_written (by decide +kernel)
  refine ⟨system, unlinked, detached, unread, _, rfl, discovered, ?_⟩
  exact writeUnits_spares_sources system (by decide) ran found unlinked
    (List.forall_mem_singleton.mpr detached) (List.forall_mem_singleton.mpr unread) discovered

/-- The package that is written below a root, in a directory that an import can name, is a source of
the next run. -/
theorem package_below_root_is_source :
    let output : Path := ⟨0, ["generated"]⟩
    (discover .empty [⟨0, []⟩] []).1 = .ok [] ∧
      (runAfresh .never []).map (·.units) = .ok [markerUnit] ∧
      ∃ result written, writeUnits output [markerUnit] .empty = (.ok result, written) ∧
        (discover written [⟨0, []⟩] []).1.map (·.map (·.module)) =
          .ok ["generated.enum_generators"] := by
  intro output
  let package : Path := ⟨0, ["generated", generatedPackage, markerTag]⟩
  obtain ⟨result, ran⟩ : ∃ result, writeUnits output [markerUnit] .empty = (.ok result, _) :=
    exists_of_written (by decide +kernel)
  refine ⟨by decide +kernel, by decide +kernel, result, _, ran, ?_⟩
  have unlinked (home : Location) : Unlinked .empty home := by
    intro tag _ target link
    simp [Store.empty, Store.entry?] at link
  obtain ⟨ordered, home, sorted, -, places⟩ :=
    writeUnits_places (by decide +kernel) (by simp) (fun home _ => unlinked home) ran
  have paths : candidates (writeUnits output [markerUnit] .empty).2 [⟨0, []⟩] =
      [(⟨0, []⟩, package)] := by
    decide +kernel
  -- From here on the text is only compared: decoding its bytes step by step takes long.
  generalize (writeUnits output [markerUnit] .empty).2 = written at places paths
  have content := places.contents markerTag (by simp [unitOrder])
  rw [expected?_ordered sorted (by simp [unitOrder])] at content
  have held : written.read ((⟨0, []⟩ : Path).append package) = .ok (utf8 markerText) :=
    Store.read_of_content? content
  have importable : standing [] package = .importable "generated.enum_generators" := by
    decide +kernel
  have read : Encoding.readText? written.setting.codecs (utf8 markerText) =
      some (.ofString markerText) :=
    Encoding.readText?_utf8 (by decide +kernel)
      (Encoding.ofContent?_undeclared _ _ (by decide +kernel) (by decide +kernel))
  rw [discover, paths, visitAll, visit_importable importable held read]
  rfl

end EnumLookup.Package
