import EnumLookup.Proofs.Discovery.Found
import EnumLookup.Proofs.Store.Files

/-!
When the search for source files comes to its end, and what it returns. Whatever the names of the
entries and the bytes of the files are, each path that looks like a source file is passed, skipped
or returned, as long as a file stands there. The pattern of source files is one of names only, so
a directory can have such a name as well, and so can a link that leads to no file: the search reads
them, and ends with an error.
-/
namespace EnumLookup

open Text

namespace Store

variable {store : Store} {root relative path : Path} {bytes : List UInt8} {error : StoreError}
  {entry : Entry}

theorem read_eq_ok : store.read path = .ok bytes ↔ store.content? path = some bytes := by
  refine ⟨fun held => content?_eq_some.mpr ?_, read_of_content?⟩
  unfold read at held
  unfold find?
  split at held
  · cases held
  · next location located =>
    split at held
    · next file =>
      cases held
      simp only [located, file]
    · cases held
    · cases held

theorem read_error_path (failed : store.read path = .error error) : error.path = path := by
  unfold read at failed
  split at failed
  · cases failed
    rfl
  · split at failed
    · cases failed
    · cases failed
      rfl
    · cases failed
      rfl

/-- The entry stands below the directory that the root leads to, at this path from there. -/
def LiesBelow (store : Store) (root relative : Path) (entry : Entry) : Prop :=
  ∃ start, store.DirectoryAt root start ∧ relative.root = 0 ∧ relative.parts ≠ [] ∧
    store.entry? (start ++ relative.parts) = some entry

/-- A file with these bytes stands below the root at this path, or a link that leads to one. -/
def HoldsBelow (store : Store) (root relative : Path) (bytes : List UInt8) : Prop :=
  store.LiesBelow root relative (.file bytes) ∨
    ∃ target, store.LiesBelow root relative (.link target) ∧
      store.content? (root.append relative) = some bytes

theorem HoldsBelow.lies (holds : store.HoldsBelow root relative bytes) :
    ∃ entry, store.LiesBelow root relative entry := by
  rcases holds with file | ⟨target, link, -⟩
  · exact ⟨_, file⟩
  · exact ⟨_, link⟩

namespace IsFileSystem

theorem find?_below (system : store.IsFileSystem) (lies : store.LiesBelow root relative entry)
    (notLink : ∀ target, entry ≠ .link target) :
    store.find? (root.append relative) = some entry := by
  obtain ⟨start, found, rootless, below, there⟩ := lies
  obtain ⟨_, names⟩ := relative
  obtain rfl : _ = 0 := rootless
  have located := system.locate_append found below there fun target link =>
    notLink target (Option.some.inj (there.symm.trans link))
  simp only [find?, located, there]

/-- What can be read at the path of an entry is what a file holds there. -/
theorem holdsBelow_iff (system : store.IsFileSystem)
    (lies : store.LiesBelow root relative entry) :
    store.HoldsBelow root relative bytes ↔ store.content? (root.append relative) = some bytes := by
  constructor
  · rintro (file | ⟨target, -, content⟩)
    · exact content?_eq_some.mpr (system.find?_below file nofun)
    · exact content
  · intro content
    have found := content?_eq_some.mp content
    cases entry with
    | file held =>
      rw [system.find?_below lies nofun] at found
      cases found
      exact .inl lies
    | directory =>
      rw [system.find?_below lies nofun] at found
      cases found
    | link target => exact .inr ⟨target, lies, content⟩

end IsFileSystem

end Store

namespace Discovery

variable {store : Store} {exclude : List String} {roots : List Path} {root relative : Path}
  {files : List SourceFile} {file : SourceFile} {module : String} {entry : Entry}
  {candidates : List (Path × Path)} {error : StoreError}

/-- The path is that of a module that is read: it is named like a source file and not excluded,
imports can name it, and it is none of the generated package. -/
structure IsSource (exclude : List String) (relative : Path) (module : String) : Prop where
  named : isSourceName relative.name = true
  included : ∀ pattern ∈ exclude, Glob.accepts pattern relative.text = false
  importable : moduleName? relative = .ok (some module)
  written : isGenerated module = false

theorem isSource_iff : IsSource exclude relative module ↔
    isSourceName relative.name = true ∧ standing exclude relative = .importable module := by
  rw [standing_eq_importable]
  exact ⟨fun source => ⟨source.named, source.included, source.importable, source.written⟩,
    fun ⟨named, included, importable, written⟩ => ⟨named, included, importable, written⟩⟩

theorem counts_iff :
    counts exclude relative = true ↔ ∃ module, standing exclude relative = .importable module := by
  unfold counts
  split
  · next module importable => simp [importable]
  · next other => simpa using other

/-- The module of a path that is read is named by components that imports can name. -/
theorem IsSource.components (source : IsSource exclude relative module) : ∃ parts, parts ≠ [] ∧
    (∀ part ∈ parts, Identifier.isImportable part = true) ∧ module = Dotted.join parts := by
  have named := source.importable
  unfold moduleName? at named
  split at named
  · cases named
  · obtain ⟨kept, some, joined, importable, -⟩ := moduleOfParts?_eq_some (Except.ok.inj named)
    exact ⟨kept, some, importable, joined⟩

/-- The paths of a root that are read, whatever stands there. -/
theorem mem_readPaths : relative ∈ readPaths store exclude root ↔
    (∃ entry, store.LiesBelow root relative entry) ∧
      ∃ module, IsSource exclude relative module := by
  simp only [isSource_iff, exists_and_left, ← counts_iff]
  constructor
  · intro member
    by_cases nowhere : ∀ start, ¬ store.DirectoryAt root start
    · rw [readPaths_nil nowhere] at member
      cases member
    · obtain ⟨start, found⟩ := not_forall_not.mp nowhere
      obtain ⟨rootless, below, named, counted, entry, there⟩ :=
        mem_readBelow ((readPaths_perm found).mem_iff.mp member)
      exact ⟨⟨entry, start, found, rootless, below, there⟩, named, counted⟩
  · rintro ⟨⟨entry, start, found, rootless, below, there⟩, named, counted⟩
    obtain ⟨_, names⟩ := relative
    obtain rfl : _ = 0 := rootless
    have listed : start ++ names ∈ store.entries.map (·.1) := by
      by_contra absent
      rw [(Store.entry?_eq_none_iff (by simp [below])).mpr absent] at there
      cases there
    obtain ⟨⟨location, held⟩, inside, rfl⟩ := List.mem_map.mp listed
    refine (readPaths_perm found).mem_iff.mpr (List.mem_map.mpr ⟨_, List.mem_filter.mpr
      ⟨inside, isRead_append.mpr ⟨below, named, counted⟩⟩, ?_⟩)
    rw [List.drop_left]

/-! One path. -/

/-- A path below a root at which the search ends: it is that of a module, and no file is there. -/
def Stops (store : Store) (exclude : List String) (root relative : Path) : Prop :=
  ∃ entry module, store.LiesBelow root relative entry ∧ IsSource exclude relative module ∧
    ∀ bytes, ¬ store.HoldsBelow root relative bytes

/-- A source file below a root: it stands at a path that is read, and its bytes are its text. -/
def Returned (store : Store) (exclude : List String) (root relative : Path) (file : SourceFile) :
    Prop :=
  ∃ module bytes text, IsSource exclude relative module ∧ store.HoldsBelow root relative bytes ∧
    Encoding.readText? store.setting.codecs bytes = some text ∧
    file = ⟨(root.append relative).text, module, relative.name == packageFile, text⟩

theorem visit_source (source : IsSource exclude relative module) :
    visit store exclude root relative = readModule store root relative module := by
  rw [visit, (isSource_iff.mp source).2]

/-- A visit fails where no file stands at the path, and its error names the path. -/
theorem visit_stops (system : store.IsFileSystem) (lies : store.LiesBelow root relative entry)
    (source : IsSource exclude relative module)
    (failed : visit store exclude root relative = .error error) :
    Stops store exclude root relative ∧ error.path = root.append relative := by
  rw [visit_source source, readModule] at failed
  cases held : store.read (root.append relative) with
  | ok bytes =>
    rw [held] at failed
    cases failed
  | error fault =>
    rw [held] at failed
    cases failed
    refine ⟨⟨entry, module, lies, source, fun bytes holds => ?_⟩, Store.read_error_path held⟩
    rw [system.holdsBelow_iff lies, ← Store.read_eq_ok, held] at holds
    cases holds

/-- Where a path is visited with success, what it adds is what is returned for it. -/
theorem visit_returned (system : store.IsFileSystem) (lies : store.LiesBelow root relative entry)
    (source : IsSource exclude relative module) {own : List SourceFile} {events : List Event}
    (visited : visit store exclude root relative = .ok (own, events)) :
    ¬ Stops store exclude root relative ∧
      ∀ file, file ∈ own ↔ Returned store exclude root relative file := by
  rw [visit_source source, readModule] at visited
  cases held : store.read (root.append relative) with
  | error fault =>
    rw [held] at visited
    cases visited
  | ok bytes =>
    have holds := (system.holdsBelow_iff lies).mpr (Store.read_eq_ok.mp held)
    refine ⟨?_, fun file => ⟨fun member => ?_, ?_⟩⟩
    · rintro ⟨-, -, -, -, without⟩
      exact without bytes holds
    · rw [held, Except.map] at visited
      split at visited
      · next text read =>
        cases visited
        exact ⟨module, bytes, text, source, holds, read, List.mem_singleton.mp member⟩
      · cases visited
        cases member
    · rintro ⟨other, otherBytes, text, also, otherHolds, read, rfl⟩
      obtain rfl : module = other :=
        Option.some.inj (Except.ok.inj (source.importable.symm.trans also.importable))
      rw [system.holdsBelow_iff lies, ← Store.read_eq_ok, held] at otherHolds
      cases otherHolds
      simp only [held, Except.map, read] at visited
      cases visited
      exact List.mem_singleton.mpr rfl

/-! All paths. -/

theorem visitAll_error (failed : (visitAll store exclude candidates).1 = .error error) :
    ∃ candidate ∈ candidates, visit store exclude candidate.1 candidate.2 = .error error := by
  induction candidates with
  | nil => cases failed
  | cons candidate rest ih =>
    obtain ⟨root, relative⟩ := candidate
    cases found : visit store exclude root relative with
    | error fault =>
      simp only [visitAll, found] at failed
      cases failed
      exact ⟨(root, relative), List.mem_cons_self .., found⟩
    | ok found' =>
      cases others : (visitAll store exclude rest).1 with
      | error fault =>
        simp only [visitAll, found, others] at failed
        cases failed
        obtain ⟨candidate, member, ends⟩ := ih others
        exact ⟨candidate, List.mem_cons_of_mem _ member, ends⟩
      | ok more =>
        simp only [visitAll, found, others] at failed
        cases failed

/-- A search that comes to its end has visited each path with success and kept what it added. -/
theorem visitAll_visited (visited : (visitAll store exclude candidates).1 = .ok files)
    {candidate : Path × Path} (member : candidate ∈ candidates) : ∃ own events,
      visit store exclude candidate.1 candidate.2 = .ok (own, events) ∧ own ⊆ files := by
  induction candidates generalizing files with
  | nil => cases member
  | cons first rest ih =>
    obtain ⟨own, others, events, found, rests, rfl⟩ := visitAll_cons_ok.mp visited
    rcases List.mem_cons.mp member with rfl | inRest
    · exact ⟨own, events, found, List.subset_append_left ..⟩
    · obtain ⟨more, moreEvents, also, kept⟩ := ih rests inRest
      exact ⟨more, moreEvents, also, List.Subset.trans kept (List.subset_append_right ..)⟩

/-- The paths of all roots that are read. -/
theorem mem_allPaths {candidate : Path × Path} :
    candidate ∈ (roots.flatMap fun root => (readPaths store exclude root).map (root, ·)) ↔
      candidate.1 ∈ roots ∧ (∃ entry, store.LiesBelow candidate.1 candidate.2 entry) ∧
        ∃ module, IsSource exclude candidate.2 module := by
  obtain ⟨root, relative⟩ := candidate
  simp only [List.mem_flatMap, List.mem_map, Prod.mk.injEq, ← mem_readPaths]
  constructor
  · rintro ⟨_, member, _, inside, rfl, rfl⟩
    exact ⟨member, inside⟩
  · rintro ⟨member, inside⟩
    exact ⟨root, member, relative, inside, rfl, rfl⟩

theorem discover_error (system : store.IsFileSystem)
    (failed : (discover store roots exclude).1 = .error error) :
    ∃ root ∈ roots, ∃ relative, Stops store exclude root relative ∧
      error.path = root.append relative := by
  rw [discover_eq] at failed
  obtain ⟨⟨root, relative⟩, candidate, ends⟩ := visitAll_error failed
  obtain ⟨member, ⟨entry, lies⟩, module, source⟩ := mem_allPaths.mp candidate
  exact ⟨root, member, relative, visit_stops system lies source ends⟩

theorem discover_not_stopped (system : store.IsFileSystem)
    (found : (discover store roots exclude).1 = .ok files) (member : root ∈ roots) :
    ¬ Stops store exclude root relative := by
  intro stops
  obtain ⟨entry, module, lies, source, -⟩ := id stops
  have candidate : (root, relative) ∈ _ := mem_allPaths.mpr ⟨member, ⟨entry, lies⟩, module, source⟩
  rw [discover_eq] at found
  obtain ⟨own, events, visited, -⟩ := visitAll_visited found candidate
  exact (visit_returned system lies source visited).1 stops

theorem discover_returned (system : store.IsFileSystem)
    (found : (discover store roots exclude).1 = .ok files) :
    file ∈ files ↔ ∃ root ∈ roots, ∃ relative, Returned store exclude root relative file := by
  rw [discover_eq] at found
  constructor
  · intro inFiles
    obtain ⟨⟨root, relative⟩, candidate, own, events, visited, inOwn⟩ := mem_visitAll found inFiles
    obtain ⟨member, ⟨entry, lies⟩, module, source⟩ := mem_allPaths.mp candidate
    exact ⟨root, member, relative, ((visit_returned system lies source visited).2 file).mp inOwn⟩
  · rintro ⟨root, member, relative, returned⟩
    obtain ⟨module, bytes, text, source, holds, -⟩ := id returned
    obtain ⟨entry, lies⟩ := holds.lies
    have candidate : (root, relative) ∈ _ :=
      mem_allPaths.mpr ⟨member, ⟨entry, lies⟩, module, source⟩
    obtain ⟨own, events, visited, kept⟩ := visitAll_visited found candidate
    exact kept (((visit_returned system lies source visited).2 file).mpr returned)

/-- The search for source files comes to its end exactly when a file stands at every path below the
roots that is that of a module, or a link that leads to one; an error names a path where there is
none. What it returns then are exactly these files, each with the text that its bytes are decoded
to, without those that cannot be decoded. Their modules are named by components that imports can
name, and none is of the generated package. This holds whatever codecs the process knows, and in
whatever directory it works. -/
theorem discover_survives (system : store.IsFileSystem) (roots : List Path)
    (exclude : List String) :
    ((∃ files, (discover store roots exclude).1 = .ok files) ↔
      ∀ root ∈ roots, ∀ relative, ¬ Stops store exclude root relative) ∧
    (∀ error, (discover store roots exclude).1 = .error error →
      ∃ root ∈ roots, ∃ relative, Stops store exclude root relative ∧
        error.path = root.append relative) ∧
    ∀ files, (discover store roots exclude).1 = .ok files → ∀ file,
      (file ∈ files ↔
        ∃ root ∈ roots, ∃ relative, Returned store exclude root relative file) ∧
      (file ∈ files → isGenerated file.module = false ∧ ∃ parts, parts ≠ [] ∧
        (∀ part ∈ parts, Identifier.isImportable part = true) ∧
        file.module = Dotted.join parts) := by
  refine ⟨⟨fun ⟨files, found⟩ root member relative => discover_not_stopped system found member,
    fun free => ?_⟩, fun error => discover_error system, fun files found file => ?_⟩
  · cases ends : (discover store roots exclude).1 with
    | ok files => exact ⟨files, rfl⟩
    | error error =>
      obtain ⟨root, member, relative, stops, -⟩ := discover_error system ends
      exact absurd stops (free root member relative)
  · refine ⟨discover_returned system found, fun member => ?_⟩
    obtain ⟨root, -, relative, returned⟩ := (discover_returned system found).mp member
    obtain ⟨module, bytes, text, source, -, -, rfl⟩ := returned
    exact ⟨source.written, source.components⟩

/-- A codec of a process beside those that are known here: Windows-1251, as far as its letters. -/
def cyrillic : Codecs := fun name =>
  if name = "cp1251" then some fun bytes => (bytes.mapM letter?).map .ofChars
  else Encoding.codecs name
where
  letter? (byte : UInt8) : Option Char :=
    if byte < 0x80 then some (Char.ofNat byte.toNat)
    else if 0xC0 ≤ byte then some (Char.ofNat (byte.toNat - 0xC0 + 0x410))
    else none

/-- Files that are returned or passed for all kinds of reasons, links to a relative and to an
absolute path, and directories, below a working directory. -/
def untidyTree : Store where
  entries :=
    [(["home"], .directory), (["home", "src"], .directory),
     (["home", "src", "bad.py"], .file [0xFF]),
     (["home", "src", "class.py"], .file []), (["home", "src", "enum_generators"], .directory),
     (["home", "src", "enum_generators", "__init__.py"], .file []),
     (["home", "src", "far.py"], .link "/home/src/ok.py"),
     (["home", "src", "ok.py"], .file [0x41]), (["home", "src", "out.py"], .file []),
     (["home", "src", "pkg"], .directory),
     (["home", "src", "pkg", "__init__.py"], .link "../ok.py"),
     (["home", "src", "ru.py"], .file (utf8 "#coding:cp1251\n" ++ [0xC0])),
     (["home", "src", "tests.d"], .directory), (["home", "src", "tests.d", "t.py"], .file [])]
  setting := ⟨["home"], cyrillic⟩

def tidyFiles : List SourceFile :=
  [⟨"src/far.py", "far", false, .ofString "A"⟩, ⟨"src/ok.py", "ok", false, .ofString "A"⟩,
    ⟨"src/pkg/__init__.py", "pkg", true, .ofString "A"⟩,
    ⟨"src/ru.py", "ru", false, .ofString "#coding:cp1251\n\u0410"⟩]

theorem discover_untidyTree :
    (discover untidyTree [⟨0, ["src"]⟩] ["out*"]).1 = .ok tidyFiles := by
  have located : untidyTree.DirectoryAt ⟨0, ["src"]⟩ ["home", "src"] := ⟨rfl, rfl⟩
  have paths := sourcePaths_of_sorted _ located rfl (by decide)
  rw [discover, candidates, List.flatMap_singleton, paths]
  decide +kernel

theorem discover_survives_untidy :
    untidyTree.IsFileSystem ∧ (discover untidyTree [⟨0, ["src"]⟩] ["out*"]).1 = .ok tidyFiles ∧
      (∀ relative, ¬ Stops untidyTree ["out*"] ⟨0, ["src"]⟩ relative) ∧
      ∀ file ∈ tidyFiles, ∃ relative,
        Returned untidyTree ["out*"] ⟨0, ["src"]⟩ relative file := by
  have system : untidyTree.IsFileSystem := by decide
  have found := discover_untidyTree
  obtain ⟨survives, -, returns⟩ := discover_survives system [⟨0, ["src"]⟩] ["out*"]
  have free := survives.mp ⟨tidyFiles, found⟩ _ (List.mem_singleton.mpr rfl)
  refine ⟨system, found, free, fun file member => ?_⟩
  obtain ⟨root, isRoot, returned⟩ := (returns tidyFiles found file).1.mp member
  obtain rfl := List.mem_singleton.mp isRoot
  exact returned

def directoryTree : Store where
  entries :=
    [(["src"], .directory), (["src", "d.py"], .directory), (["src", "ok.py"], .file [])]

/-- A directory with the name of a source file ends the search, though every file can be read. -/
theorem directory_stops :
    directoryTree.IsFileSystem ∧ directoryTree.isDirectory ⟨0, ["src"]⟩ = true ∧
      (discover directoryTree [⟨0, ["src"]⟩] []).1 =
        .error ⟨.isDirectory, ⟨0, ["src", "d.py"]⟩⟩ := by
  refine ⟨by decide, by decide, ?_⟩
  have located : directoryTree.DirectoryAt ⟨0, ["src"]⟩ ["src"] := ⟨rfl, rfl⟩
  have paths := sourcePaths_of_sorted _ located rfl (by decide)
  rw [discover, candidates, List.flatMap_singleton, paths]
  decide +kernel

end Discovery

end EnumLookup
