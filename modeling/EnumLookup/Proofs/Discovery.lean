import EnumLookup.Discovery
import EnumLookup.Proofs.Store.Alterations
import Mathlib.Data.List.Infix

/-!
Discovery after a change. The source files under the roots are those paths that count, in their
order, each read where it leads. As long as no root starts to lead somewhere and no path that counts
is touched, itself or through a link, the files stay the same.
-/
namespace EnumLookup.Discovery

open Store (Alters IsFileSystem)

variable {store after : Store} {exclude : List String} {root : Path} {roots : List Path}
  {start : Location} {files : List SourceFile} {touched : Location → Prop}

/-- Whether the file of a path that looks like a source file is read. -/
def counts (exclude : List String) (relative : Path) : Bool :=
  match standing exclude relative with
  | .importable _ => true
  | _ => false

theorem visit_passed {relative : Path} (passed : counts exclude relative = false) :
    ∃ events, visit store exclude root relative = .ok ([], events) := by
  cases found : standing exclude relative with
  | importable module => simp [counts, found] at passed
  | excluded => exact ⟨[.excluded relative.text], by simp only [visit, found]⟩
  | notImportable => exact ⟨[.notImportable relative.text], by simp only [visit, found]⟩
  | generated => exact ⟨[], by simp only [visit, found]⟩

theorem visit_importable {relative : Path} {module : String} {bytes : List UInt8}
    {text : Text.SourceText} (importable : standing exclude relative = .importable module)
    (held : store.read (root.append relative) = .ok bytes)
    (read : Encoding.readText? store.setting.codecs bytes = some text) :
    visit store exclude root relative = .ok
      ([⟨(root.append relative).text, module, relative.name == packageFile, text⟩], []) := by
  simp only [visit, importable, readModule, held, read, Except.map]

theorem visitAll_cons_ok {relative : Path} {rest : List (Path × Path)} :
    (visitAll store exclude ((root, relative) :: rest)).1 = .ok files ↔
      ∃ own others events, visit store exclude root relative = .ok (own, events) ∧
        (visitAll store exclude rest).1 = .ok others ∧ files = own ++ others := by
  simp only [visitAll]
  cases visit store exclude root relative with
  | error error => simp
  | ok found =>
    obtain ⟨own, events⟩ := found
    cases (visitAll store exclude rest).1 with
    | error error => simp [Except.map]
    | ok others => simp [Except.map, eq_comm]

/-- Every file was added by one of the paths. -/
theorem mem_visitAll {candidates : List (Path × Path)} {file : SourceFile}
    (visited : (visitAll store exclude candidates).1 = .ok files) (member : file ∈ files) :
    ∃ candidate ∈ candidates, ∃ own events,
      visit store exclude candidate.1 candidate.2 = .ok (own, events) ∧ file ∈ own := by
  induction candidates generalizing files with
  | nil =>
    cases visited
    cases member
  | cons candidate rest ih =>
    obtain ⟨root, relative⟩ := candidate
    obtain ⟨own, others, events, found, rests, rfl⟩ := visitAll_cons_ok.mp visited
    rcases List.mem_append.mp member with inOwn | inOthers
    · exact ⟨(root, relative), List.mem_cons_self .., own, events, found, inOwn⟩
    · obtain ⟨candidate, inRest, found⟩ := ih rests inOthers
      exact ⟨candidate, List.mem_cons_of_mem _ inRest, found⟩

/-- Paths that do not count add nothing. -/
theorem visitAll_counts (store : Store) (exclude : List String) (candidates : List (Path × Path)) :
    (visitAll store exclude candidates).1 =
      (visitAll store exclude
        (candidates.filter fun candidate => counts exclude candidate.2)).1 := by
  induction candidates with
  | nil => rfl
  | cons candidate rest ih =>
    obtain ⟨root, relative⟩ := candidate
    by_cases counted : counts exclude relative = true
    · simp only [counted, List.filter_cons_of_pos, visitAll]
      cases visit store exclude root relative with
      | error error => rfl
      | ok found => simp only [ih]
    · obtain ⟨events, passed⟩ : ∃ events, visit store exclude root relative = .ok ([], events) :=
        visit_passed (Bool.eq_false_iff.mpr counted)
      simp only [counted, Bool.false_eq_true, not_false_eq_true, List.filter_cons_of_neg, visitAll,
        passed, ih]
      cases (visitAll store exclude (rest.filter fun candidate => counts exclude candidate.2)).1
      · rfl
      · rfl

/-- Paths that are visited with success, and would be visited alike, give the same files. -/
theorem visitAll_same {candidates : List (Path × Path)}
    (same : ∀ candidate ∈ candidates, ∀ found,
      visit store exclude candidate.1 candidate.2 = .ok found →
      visit after exclude candidate.1 candidate.2 = .ok found)
    (visited : (visitAll store exclude candidates).1 = .ok files) :
    (visitAll after exclude candidates).1 = .ok files := by
  induction candidates generalizing files with
  | nil => exact visited
  | cons candidate rest ih =>
    obtain ⟨root, relative⟩ := candidate
    obtain ⟨first, others⟩ := List.forall_mem_cons.mp same
    obtain ⟨own, more, events, found, rests, rfl⟩ := visitAll_cons_ok.mp visited
    exact visitAll_cons_ok.mpr ⟨own, more, events, first _ found, ih others rests, rfl⟩

/-- Source paths are what is listed when they are in order. -/
theorem sourcePaths_of_sorted (paths : List Path) (located : store.DirectoryAt root start)
    (listed : (store.below start).map (fun (parts, _) => (⟨0, parts⟩ : Path)) = paths)
    (sorted : (paths.filter fun path => isSourceName path.name).Pairwise
      fun a b => Path.le a b = true) :
    sourcePaths store root = paths.filter fun path => isSourceName path.name := by
  simp only [sourcePaths, located.1, located.2, if_true]
  rw [listed, List.mergeSort_of_pairwise sorted]

def readPaths (store : Store) (exclude : List String) (root : Path) : List Path :=
  (sourcePaths store root).filter (counts exclude)

theorem discover_eq (store : Store) (roots : List Path) (exclude : List String) :
    (discover store roots exclude).1 = (visitAll store exclude
      (roots.flatMap fun root => (readPaths store exclude root).map (root, ·))).1 := by
  rw [discover, visitAll_counts, candidates, List.filter_flatMap]
  simp only [List.filter_map, readPaths]
  rfl

theorem le_iff {a b : Path} : Path.le a b = true ↔ List.le a.components b.components := by
  rw [Path.le, Bool.not_eq_true', List.lex_eq_false_iff_ge]
  rfl

def isRead (exclude : List String) (start location : Location) : Bool :=
  start.isPrefixOf location && start.length < location.length &&
    (isSourceName (Path.name ⟨0, location.drop start.length⟩) &&
      counts exclude ⟨0, location.drop start.length⟩)

theorem isRead_append {names : Location} : isRead exclude start (start ++ names) = true ↔
    names ≠ [] ∧ isSourceName (Path.name ⟨0, names⟩) = true ∧ counts exclude ⟨0, names⟩ = true := by
  have inside : start.isPrefixOf (start ++ names) = true :=
    List.isPrefixOf_iff_prefix.mpr (List.prefix_append ..)
  have below : start.length < (start ++ names).length ↔ names ≠ [] := by
    rw [List.length_append, Nat.lt_add_right_iff_pos, List.length_pos_iff]
  simp only [isRead, inside, Bool.and_eq_true, decide_eq_true_eq, below, List.drop_left, true_and]

theorem isRead_prefix {location : Location} (read : isRead exclude start location = true) :
    start <+: location := by
  simp only [isRead, Bool.and_eq_true, List.isPrefixOf_iff_prefix] at read
  exact read.1.1

def readBelow (store : Store) (exclude : List String) (start : Location) : List Path :=
  (store.entries.filter fun entry => isRead exclude start entry.1).map fun entry =>
    ⟨0, entry.1.drop start.length⟩

theorem readPaths_perm (found : store.DirectoryAt root start) :
    (readPaths store exclude root).Perm (readBelow store exclude start) := by
  have listed : (((store.below start).map fun entry => (⟨0, entry.1⟩ : Path)).filter
      fun path => isSourceName path.name).filter (counts exclude) =
        readBelow store exclude start := by
    rw [readBelow, Store.below, List.filter_filter]
    induction store.entries with
    | nil => rfl
    | cons entry rest ih =>
      obtain ⟨location, entry⟩ := entry
      by_cases below : (start.isPrefixOf location &&
          decide (start.length < location.length)) = true
      · by_cases named : (counts exclude ⟨0, location.drop start.length⟩ &&
            isSourceName (Path.name ⟨0, location.drop start.length⟩)) = true
        · have read : isRead exclude start location = true := by
            rw [isRead, below, Bool.and_comm (isSourceName _), named]
            rfl
          simp only [List.filterMap_cons, below, if_true, List.map_cons, List.filter_cons, named,
            read, ih]
        · have unread : ¬ isRead exclude start location = true := by
            rw [isRead, below, Bool.and_comm (isSourceName _)]
            simpa using named
          simp only [List.filterMap_cons, below, if_true, List.map_cons, List.filter_cons, named,
            unread, Bool.false_eq_true, if_false, ih]
      · have unread : ¬ isRead exclude start location = true := by
          rw [isRead, Bool.eq_false_iff.mpr below]
          simp
        simp only [List.filterMap_cons, below, if_false, List.filter_cons, unread, ih,
          Bool.false_eq_true]
  rw [readPaths, sourcePaths, found.1]
  simp only [found.2, if_true]
  rw [← listed]
  exact (List.mergeSort_perm _ _).filter _

theorem readPaths_sorted (store : Store) (exclude : List String) (root : Path) :
    (readPaths store exclude root).Pairwise fun a b => Path.le a b = true := by
  apply List.Pairwise.filter
  unfold sourcePaths
  split
  · exact .nil
  · split
    · apply List.pairwise_mergeSort
      · intro a b c
        simp only [le_iff]
        exact List.le_trans
      · intro a b
        simp only [Bool.or_eq_true, le_iff]
        exact List.le_total _ _
    · exact .nil

theorem readPaths_nil (nowhere : ∀ start, ¬ store.DirectoryAt root start) :
    readPaths store exclude root = [] := by
  unfold readPaths sourcePaths
  split
  · rfl
  · next location located =>
    split
    · next found => exact absurd ⟨located, found⟩ (nowhere location)
    · rfl

theorem mem_readBelow {path : Path} (member : path ∈ readBelow store exclude start) :
    path.root = 0 ∧ path.parts ≠ [] ∧ isSourceName path.name = true ∧
      counts exclude path = true ∧ ∃ entry, store.entry? (start ++ path.parts) = some entry := by
  obtain ⟨listed, inside, rfl⟩ := List.mem_map.mp member
  obtain ⟨inside, read⟩ := List.mem_filter.mp inside
  obtain ⟨names, whole⟩ := isRead_prefix read
  rw [← whole, isRead_append] at read
  have there : store.entry? listed.1 ≠ none := by
    rw [ne_eq, Store.entry?_eq_none_iff (by simp [← whole, read.1]), not_not]
    exact List.mem_map.mpr ⟨listed, inside, rfl⟩
  have path : listed.1.drop start.length = names := by rw [← whole, List.drop_left]
  rw [path]
  refine ⟨rfl, read.1, read.2.1, read.2.2, ?_⟩
  rw [whole]
  exact Option.ne_none_iff_exists'.mp there

theorem readPaths_eq_nil (found : store.DirectoryAt root start)
    (empty : readBelow store exclude start = []) : readPaths store exclude root = [] := by
  apply List.Perm.eq_nil
  rw [← empty]
  exact readPaths_perm found

/-- The order in which paths are read depends only on which ones are listed. -/
theorem readPaths_congr (before : store.DirectoryAt root start)
    (found : after.DirectoryAt root start)
    (listed : readBelow after exclude start = readBelow store exclude start) :
    readPaths after exclude root = readPaths store exclude root := by
  have perm : (readPaths after exclude root).Perm (readPaths store exclude root) :=
    (readPaths_perm found).trans (listed ▸ (readPaths_perm before).symm)
  refine List.Perm.eq_of_pairwise (fun a b inAfter inStore lower upper => ?_)
    (readPaths_sorted ..) (readPaths_sorted ..) perm
  have relative {path : Path} (listed : path ∈ readBelow store exclude start) :
      path.components = path.parts := if_pos (mem_readBelow listed).1
  have aListed : a ∈ readBelow store exclude start :=
    listed ▸ (readPaths_perm found).mem_iff.mp inAfter
  have bListed := (readPaths_perm before).mem_iff.mp inStore
  have parts := List.le_antisymm (le_iff.mp lower) (le_iff.mp upper)
  rw [relative aListed, relative bListed] at parts
  have root := (mem_readBelow aListed).1.trans (mem_readBelow bListed).1.symm
  cases a
  cases b
  simp only at parts root
  rw [parts, root]

/-- No root starts to lead to source files that were out of its reach, and no path that is read is
touched, whether it is a file itself or a link to one. -/
structure Spares (touched : Location → Prop) (roots : List Path) (exclude : List String)
    (store after : Store) : Prop where
  steady : ∀ root ∈ roots, ∀ start, after.DirectoryAt root start →
    readBelow store exclude start ≠ [] → store.DirectoryAt root start
  unread : ∀ root ∈ roots, ∀ start, after.DirectoryAt root start → ∀ location,
    touched location → isRead exclude start location = false
  unreached : ∀ root ∈ roots, ∀ start, after.DirectoryAt root start → ∀ names target,
    isRead exclude start (start ++ names) = true →
    store.entry? (start ++ names) = some (.link target) → ∀ location bytes,
    store.locate (root.append ⟨0, names⟩) = .ok location →
    store.entry? location = some (.file bytes) → ¬ touched location

namespace Spares

theorem readBelow_eq (spares : Spares touched roots exclude store after)
    (alters : Alters touched store after) (member : root ∈ roots)
    (found : after.DirectoryAt root start) :
    readBelow after exclude start = readBelow store exclude start := by
  unfold readBelow
  rw [alters.listed (isRead exclude start) (spares.unread root member start found)]

theorem readPaths_eq (spares : Spares touched roots exclude store after)
    (alters : Alters touched store after) (member : root ∈ roots) :
    readPaths after exclude root = readPaths store exclude root := by
  by_cases nowhere : ∀ start, ¬ after.DirectoryAt root start
  · rw [readPaths_nil nowhere, readPaths_nil]
    exact fun start found => nowhere start (alters.keeps.directoryAt found)
  · obtain ⟨start, found⟩ := not_forall_not.mp nowhere
    have listed := spares.readBelow_eq alters member found
    by_cases empty : readBelow store exclude start = []
    · rw [readPaths_eq_nil found (listed.trans empty)]
      by_cases unreached : ∀ other, ¬ store.DirectoryAt root other
      · rw [readPaths_nil unreached]
      · obtain ⟨other, before⟩ := not_forall_not.mp unreached
        obtain rfl := (alters.keeps.directoryAt before).unique found
        rw [readPaths_eq_nil before empty]
    · exact readPaths_congr (spares.steady root member start found empty) found listed

theorem read (spares : Spares touched roots exclude store after)
    (system : store.IsFileSystem) (alters : Alters touched store after) (member : root ∈ roots)
    {relative : Path} (inside : relative ∈ readPaths after exclude root) {bytes : List UInt8}
    (read : store.read (root.append relative) = .ok bytes) :
    after.read (root.append relative) = .ok bytes := by
  by_cases nowhere : ∀ start, ¬ after.DirectoryAt root start
  · rw [readPaths_nil nowhere] at inside
    cases inside
  · obtain ⟨start, found⟩ := not_forall_not.mp nowhere
    have listed := (readPaths_perm found).mem_iff.mp inside
    rw [spares.readBelow_eq alters member found] at listed
    obtain ⟨relativeRoot, below, named, counted, entry, present⟩ := mem_readBelow listed
    have before := spares.steady root member start found (List.ne_nil_of_mem listed)
    obtain ⟨_, names⟩ := relative
    obtain rfl : _ = 0 := relativeRoot
    unfold Store.read at read
    split at read
    · cases read
    · next location located =>
      split at read
      · next held isFile =>
        cases read
        have free : ¬ touched location := by
          by_cases link : ∃ target, store.entry? (start ++ names) = some (.link target)
          · obtain ⟨target, link⟩ := link
            exact spares.unreached root member start found names target
              (isRead_append.mpr ⟨below, named, counted⟩) link _ _ located isFile
          · have there := system.locate_append before below present (not_exists.mp link)
            obtain rfl := Except.ok.inj (there.symm.trans located)
            intro inside
            have unread := spares.unread root member start found _ inside
            rw [isRead_append.mpr ⟨below, named, counted⟩] at unread
            cases unread
        have still := alters.keeps.locate isFile (.inr free) located
        simp only [Store.read, still, alters.entry?_eq free, isFile]
      · cases read
      · cases read

end Spares

/-- What was found is found again when the change spares it. -/
theorem Spares.discover (spares : Spares touched roots exclude store after)
    (system : store.IsFileSystem) (alters : Alters touched store after)
    (found : (discover store roots exclude).1 = .ok files) :
    (discover after roots exclude).1 = .ok files := by
  rw [discover_eq] at found ⊢
  have same : (roots.flatMap fun root => (readPaths after exclude root).map (root, ·)) =
      roots.flatMap fun root => (readPaths store exclude root).map (root, ·) := by
    apply List.flatMap_congr
    intro root member
    rw [spares.readPaths_eq alters member]
  rw [same]
  refine visitAll_same (fun candidate listed own visited => ?_) found
  obtain ⟨root, member, inside⟩ := List.mem_flatMap.mp listed
  obtain ⟨relative, read, rfl⟩ := List.mem_map.mp inside
  rw [← spares.readPaths_eq alters member] at read
  unfold visit at visited ⊢
  split at visited
  · exact visited
  · exact visited
  · exact visited
  · next module standing =>
    unfold readModule at visited ⊢
    rw [alters.setting]
    dsimp only at visited ⊢
    cases bytes : store.read (root.append relative) with
    | error error =>
      rw [bytes] at visited
      cases visited
    | ok bytes =>
      rw [bytes] at visited
      rw [spares.read system alters member read bytes]
      exact visited

end EnumLookup.Discovery
