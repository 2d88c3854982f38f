import EnumLookup.Proofs.Store.Directories
import EnumLookup.Proofs.Store.Routes

/-!
Changes of a file system that touch some places only. Directories and links stay, and the entries
elsewhere are listed as before. Making directories touches the places of those it makes, and none
when the directory is there.
-/
namespace EnumLookup.Store

variable {store middle after : Store} {path : Path} {directory location : Location}
  {name : String} {entry : Entry} {touched : Location → Prop}

/-- A later file system with all directories and links, which differs at touched places at most. -/
structure Alters (touched : Location → Prop) (store after : Store) : Prop where
  system : after.IsFileSystem
  setting : after.setting = store.setting
  directories : ∀ location, store.entry? location = some .directory →
    after.entry? location = some .directory
  links : ∀ location target, store.entry? location = some (.link target) →
    after.entry? location = some (.link target)
  listed : ∀ keep : Location → Bool, (∀ location, touched location → keep location = false) →
    after.entries.filter (fun entry => keep entry.1) =
      store.entries.filter (fun entry => keep entry.1)

theorem IsFileSystem.alters (system : store.IsFileSystem) (touched : Location → Prop) :
    Alters touched store store :=
  ⟨system, rfl, fun _ found => found, fun _ _ found => found, fun _ _ => rfl⟩

namespace Alters

theorem trans (first : Alters touched store middle) (second : Alters touched middle after) :
    Alters touched store after where
  system := second.system
  setting := second.setting.trans first.setting
  directories location found := second.directories location (first.directories location found)
  links location target found := second.links location target (first.links location target found)
  listed keep free := (second.listed keep free).trans (first.listed keep free)

theorem mono {more : Location → Prop} (alters : Alters touched store after)
    (within : ∀ location, touched location → more location) : Alters more store after where
  system := alters.system
  setting := alters.setting
  directories := alters.directories
  links := alters.links
  listed keep free :=
    alters.listed keep fun location inside => free location (within location inside)

theorem entry?_eq (alters : Alters touched store after) (free : ¬ touched location) :
    after.entry? location = store.entry? location := by
  by_cases top : location = []
  · simp [top]
  · have kept := alters.listed (fun other => other == location) fun other inside => by
      rw [beq_eq_false_iff_ne]
      rintro rfl
      exact free inside
    have own (entries : List (Location × Entry)) :
        (entries.filter fun entry => entry.1 == location).lookup location =
          entries.lookup location := by
      rw [lookup_filter_key (fun other => other == location)]
      simp
    rw [entry?_below _ top, entry?_below _ top, ← own after.entries, kept, own]

theorem keeps (alters : Alters touched store after) : Keeps touched store after where
  setting := alters.setting
  directories := alters.directories
  links := alters.links
  files location bytes free found := by rw [alters.entry?_eq free, found]

end Alters

/-- A change at one place, where no directory and no link stands. What stands there afterwards
stands in a directory, under a name that a file can have. -/
theorem IsFileSystem.alters_at (system : store.IsFileSystem) {place : Location}
    (setting : after.setting = store.setting)
    (free : ∀ found, store.entry? place = some found → ∃ bytes, found = .file bytes)
    (others : ∀ other, other ≠ place → after.entry? other = store.entry? other)
    (placed : ∀ above last entry, place = above ++ [last] → after.entry? place = some entry →
      store.entry? above = some .directory ∧ Proper last)
    (listed : ∀ keep : Location → Bool, keep place = false →
      after.entries.filter (fun entry => keep entry.1) =
        store.entries.filter (fun entry => keep entry.1)) :
    Alters (· = place) store after := by
  have kept (other : Location) (entry : Entry) (notFile : ∀ bytes, entry ≠ .file bytes)
      (present : store.entry? other = some entry) : after.entry? other = some entry := by
    rw [others, present]
    rintro rfl
    obtain ⟨bytes, isFile⟩ := free entry present
    exact notFile bytes isFile
  have stands (above : Location) (last : String) (entry : Entry)
      (present : after.entry? (above ++ [last]) = some entry) :
      store.entry? above = some .directory ∧ Proper last := by
    by_cases same : above ++ [last] = place
    · exact placed above last entry same.symm (same ▸ present)
    · rw [others _ same] at present
      exact ⟨system.rooted _ _ _ present, system.named _ _ _ present⟩
  exact ⟨⟨fun above last entry present => kept _ _ nofun (stands above last entry present).1,
    fun above last entry present => (stands above last entry present).2⟩, setting,
    fun other => kept other _ nofun, fun other target => kept other _ nofun,
    fun keep dropped => listed keep (dropped place rfl)⟩

/-- Puts a file or a directory in place of a file, or where nothing is. -/
theorem IsFileSystem.put_alters (system : store.IsFileSystem)
    (home : store.entry? directory = some .directory) (proper : Proper name)
    (free : ∀ found, store.entry? (directory ++ [name]) = some found → ∃ bytes, found = .file bytes)
    (entry : Entry) :
    Alters (· = directory ++ [name]) store (store.put (directory ++ [name]) entry) := by
  refine system.alters_at rfl free (fun other apart => entry?_put_other store apart entry) ?_ ?_
  · intro above last found same _
    obtain ⟨rfl, names⟩ := List.append_inj' same rfl
    obtain rfl := List.singleton_inj.mp names
    exact ⟨home, proper⟩
  · intro keep gone
    rw [put, List.filter_cons, gone, if_neg Bool.false_ne_true, List.filter_filter]
    apply List.filter_congr
    intro listed _
    by_cases same : listed.1 = directory ++ [name]
    · simp [same, gone]
    · simp [same]

theorem IsFileSystem.nothing_below (system : store.IsFileSystem) {place below : Location}
    (noDirectory : store.entry? place ≠ some .directory) (inside : below ≠ []) :
    store.entry? (place ++ below) = none := by
  cases present : store.entry? (place ++ below) with
  | none => rfl
  | some entry => exact absurd (system.ancestor inside present) noDirectory

/-- Nothing stands below what is no directory. -/
theorem IsFileSystem.entry?_erase_other (system : store.IsFileSystem) {place : Location}
    (below : place ≠ []) (noDirectory : store.entry? place ≠ some .directory)
    (apart : location ≠ place) :
    Store.entry? (store.erase place) location = store.entry? location := by
  rw [entry?_erase store below]
  split
  · next inside =>
    obtain ⟨rest, rfl⟩ := inside
    have deeper : rest ≠ [] := by
      rintro rfl
      exact apart (List.append_nil _)
    exact (system.nothing_below noDirectory deeper).symm
  · rfl

theorem entry?_erase_same (store : Store) {place : Location} (below : place ≠ []) :
    Store.entry? (store.erase place) place = none := by
  rw [entry?_erase store below, if_pos (List.prefix_refl _)]

/-- Nothing is listed below what is no directory. -/
theorem IsFileSystem.listed_below (system : store.IsFileSystem) {place : Location}
    (noDirectory : store.entry? place ≠ some .directory) {listed : Location × Entry}
    (member : listed ∈ store.entries) (inside : place <+: listed.1) : listed.1 = place := by
  obtain ⟨rest, whole⟩ := inside
  by_cases deeper : rest = []
  · rw [← whole, deeper, List.append_nil]
  · have absent := system.nothing_below noDirectory deeper
    have there : listed.1 ∈ store.entries.map (·.1) := List.mem_map.mpr ⟨listed, member, rfl⟩
    rw [whole] at absent
    exact absurd there ((entry?_eq_none_iff (by simp [← whole, deeper])).mp absent)

theorem IsFileSystem.erase_alters (system : store.IsFileSystem) {bytes : List UInt8}
    (found : store.entry? location = some (.file bytes)) :
    Alters (· = location) store (store.erase location) := by
  have below : location ≠ [] := by
    rintro rfl
    simp at found
  have noDirectory : store.entry? location ≠ some .directory := by simp [found]
  refine system.alters_at rfl
    (fun other present => ⟨bytes, Option.some.inj (present.symm.trans found)⟩)
    (fun other apart => system.entry?_erase_other below noDirectory apart) ?_ ?_
  · intro above last entry _ present
    rw [entry?_erase_same store below] at present
    cases present
  · intro keep gone
    rw [erase, List.filter_filter]
    apply List.filter_congr
    intro listed member
    by_cases inside : location <+: listed.1
    · simp [system.listed_below noDirectory member inside, gone]
    · rw [← List.isPrefixOf_iff_prefix, Bool.not_eq_true] at inside
      simp [inside]

def Made (store after : Store) (location : Location) : Prop :=
  store.entry? location = none ∧ after.entry? location = some .directory

theorem Alters.opened (first : Alters (Made store middle) store middle)
    (second : Alters (Made middle after) middle after) : Alters (Made store after) store after := by
  apply (first.mono fun location made => ?_).trans (second.mono fun location made => ?_)
  · exact ⟨made.1, second.directories _ made.2⟩
  · refine ⟨?_, made.2⟩
    by_cases opened : Made store middle location
    · exact opened.1
    · rw [← first.entry?_eq opened, made.1]

structure Opens (path : Path) (store : Store) (outcome : Except StoreError PUnit × Store) :
    Prop where
  alters : Alters (Made store outcome.2) store outcome.2
  there : outcome.1 = .ok ⟨⟩ → outcome.2.isDirectory path = true

/-- An entry that is missing is missing in a directory. -/
theorem IsFileSystem.locateEntry_free (system : store.IsFileSystem)
    (located : store.locateEntry path = .ok location) (free : store.entry? location = none) :
    ∃ above name directory, path = Path.child above name ∧ Proper name ∧
      store.DirectoryAt above directory ∧ location = directory ++ [name] := by
  obtain ⟨root, parts⟩ := path
  rcases List.eq_nil_or_concat' parts with rfl | ⟨above, name, rfl⟩
  · obtain ⟨-, home, ends⟩ := locate_eq_ok.mp located
    cases ends
    rw [home] at free
    cases free
  · by_cases turns : IsTurn name
    · simp only [locateEntry, List.getLast?_concat, turns, if_true] at located
      have located : store.locate (Path.child ⟨root, above⟩ name) = .ok location := located
      obtain ⟨directory, found⟩ := system.directory_before located
      have behind := found.turn system turns
      obtain rfl := Except.ok.inj (behind.1.symm.trans located)
      rw [behind.2] at free
      cases free
    · simp only [locateEntry, List.getLast?_concat, turns, if_false,
        List.dropLast_concat] at located
      split at located
      · cases located
      · next directory home =>
        split at located
        · next found =>
          split at located
          · cases located
          · next zeroFree =>
            cases located
            exact ⟨⟨root, above⟩, name, directory, rfl, ⟨turns, by simpa [hasZero] using zeroFree⟩,
              ⟨home, found⟩, rfl⟩
        · cases located
        · cases located

/-- The directory of a path stands as an entry, or a link does that leads to it. -/
theorem IsFileSystem.locateEntry_there (system : store.IsFileSystem)
    (found : store.DirectoryAt path directory) : ∃ location entry,
      store.locateEntry path = .ok location ∧ store.entry? location = some entry := by
  obtain ⟨root, parts⟩ := path
  rcases List.eq_nil_or_concat' parts with rfl | ⟨above, name, rfl⟩
  · exact ⟨directory, .directory, found.1, found.2⟩
  · by_cases turns : IsTurn name
    · exact ⟨directory, .directory, by simpa [locateEntry, turns] using found.1, found.2⟩
    · have located : store.locate (Path.child ⟨root, above⟩ name) = .ok directory := found.1
      have proper : Proper name := by
        have zeroFree := (locate_eq_ok.mp located).1
        simp only [Path.child, List.any_append, Bool.or_eq_false_iff] at zeroFree
        exact ⟨turns, by simpa using zeroFree.2⟩
      obtain ⟨home, homeFound⟩ := system.directory_before located
      refine ⟨home ++ [name], ?_⟩
      cases present : store.entry? (home ++ [name]) with
      | none =>
        have named := homeFound.find?_child proper (by simp [present])
        simp [find?, located, found.2, present] at named
      | some entry => exact ⟨entry, locateEntry_child proper homeFound, rfl⟩

theorem IsFileSystem.ensureDirectory_there (system : store.IsFileSystem)
    (there : store.isDirectory path = true) : ensureDirectory path store = (.ok ⟨⟩, store) := by
  obtain ⟨directory, found⟩ := isDirectory_iff.mp there
  obtain ⟨location, entry, located, present⟩ := system.locateEntry_there found
  simp [ensureDirectory, makeDirectory, create, located, present, there]

theorem IsFileSystem.makeDirectories_there (system : store.IsFileSystem)
    (there : store.isDirectory path = true) : makeDirectories path store = (.ok ⟨⟩, store) := by
  have ensured := system.ensureDirectory_there there
  obtain ⟨root, parts⟩ := path
  unfold makeDirectories
  rcases List.eq_nil_or_concat' parts with rfl | ⟨above, name, rfl⟩
  · exact ensured
  · have reversed : (above ++ [name]).reverse = name :: above.reverse := by simp
    simp only [reversed, makeReversed, List.reverse_cons, List.reverse_reverse, ensured]

theorem IsFileSystem.ensureDirectory_opens (system : store.IsFileSystem) (path : Path) :
    Opens path store (ensureDirectory path store) := by
  unfold ensureDirectory
  cases made : store.makeDirectory path with
  | error error =>
    dsimp only
    split
    · next there =>
      simp only [Bool.and_eq_true] at there
      exact ⟨system.alters _, fun _ => there.2⟩
    · exact ⟨system.alters _, nofun⟩
  | ok after =>
    obtain ⟨location, located, free, rfl⟩ := create_ok made
    obtain ⟨above, name, directory, rfl, proper, home, rfl⟩ := system.locateEntry_free located free
    have alters := system.put_alters home.2 proper (by simp [free]) .directory
    have placed := entry?_put_same store (by simp : directory ++ [name] ≠ []) .directory
    refine ⟨alters.mono ?_, fun _ => isDirectory_iff.mpr ⟨directory ++ [name], ?_, placed⟩⟩
    · rintro _ rfl
      exact ⟨free, placed⟩
    · exact (alters.keeps.directoryAt home).locate_child proper (by simp [placed])

theorem IsFileSystem.makeReversed_opens (system : store.IsFileSystem) (root : Nat)
    (reversed : List String) :
    Opens ⟨root, reversed.reverse⟩ store (makeReversed root reversed store) := by
  induction reversed generalizing store with
  | nil => exact system.ensureDirectory_opens _
  | cons name above ih =>
    have first := system.ensureDirectory_opens ⟨root, (name :: above).reverse⟩
    simp only [makeReversed]
    revert first
    generalize ensureDirectory ⟨root, (name :: above).reverse⟩ store = outcome
    intro first
    split
    · next middle =>
      have upper := ih first.alters.system
      revert upper
      generalize makeReversed root above middle = reached
      intro upper
      have alters := first.alters.opened upper.alters
      split
      · have last := upper.alters.system.ensureDirectory_opens ⟨root, (name :: above).reverse⟩
        exact ⟨alters.opened last.alters, last.there⟩
      · next failed =>
        exact ⟨alters, fun made => (failed ⟨⟩ reached.2 (Prod.ext made rfl)).elim⟩
    · exact first

/-- Making a directory touches nothing but the places of the directories it makes, and when it
succeeds the directory is there. -/
theorem IsFileSystem.makeDirectories_opens (system : store.IsFileSystem) (path : Path) :
    Opens path store (makeDirectories path store) := by
  have opens := system.makeReversed_opens path.root path.parts.reverse
  rwa [List.reverse_reverse] at opens

theorem not_made_self : ¬ Made store store location := by
  rintro ⟨free, there⟩
  rw [free] at there
  cases there

theorem IsFileSystem.ensureDirectory_way (system : store.IsFileSystem)
    (made : Made store (ensureDirectory path store).2 location) :
    (ensureDirectory path store).2.DirectoryAt path location := by
  revert made
  unfold ensureDirectory
  cases creation : store.makeDirectory path with
  | error error =>
    dsimp only
    split
    · exact fun made => absurd made not_made_self
    · exact fun made => absurd made not_made_self
  | ok after =>
    intro made
    obtain ⟨place, located, free, rfl⟩ := create_ok creation
    obtain ⟨above, name, directory, rfl, proper, home, rfl⟩ := system.locateEntry_free located free
    have alters := system.put_alters home.2 proper (by simp [free]) .directory
    have placed := entry?_put_same store (by simp : directory ++ [name] ≠ []) .directory
    have same : location = directory ++ [name] := by
      by_contra apart
      have there := made.2
      rw [alters.entry?_eq apart, made.1] at there
      cases there
    subst same
    exact ⟨(alters.keeps.directoryAt home).locate_child proper (by simp [placed]), placed⟩

/-- A directory on the way of a path: the path leads there, or a path does that it goes on from. -/
def OnWay (path : Path) (store : Store) (location : Location) : Prop :=
  ∃ above, above <+: path.parts ∧ store.DirectoryAt ⟨path.root, above⟩ location

def Way (path : Path) (store after : Store) : Prop :=
  ∀ location, Made store after location → OnWay path after location

theorem Way.trans (first : Way path store middle) (second : Way path middle after)
    (alters : Alters (Made middle after) middle after) : Way path store after := by
  intro location made
  by_cases late : Made middle after location
  · exact second location late
  · have early : Made store middle location := ⟨made.1, (alters.entry?_eq late).symm.trans made.2⟩
    obtain ⟨above, inPath, found⟩ := first location early
    exact ⟨above, inPath, alters.keeps.directoryAt found⟩

theorem IsFileSystem.makeReversed_way (system : store.IsFileSystem) (root : Nat)
    (reversed : List String) :
    Way ⟨root, reversed.reverse⟩ store (makeReversed root reversed store).2 := by
  have whole (path : Path) {store : Store} (system : store.IsFileSystem) :
      Way path store (ensureDirectory path store).2 :=
    fun location made => ⟨path.parts, List.prefix_refl _, system.ensureDirectory_way made⟩
  induction reversed generalizing store with
  | nil => exact whole _ system
  | cons name above ih =>
    have first := system.ensureDirectory_opens ⟨root, (name :: above).reverse⟩
    have firstWay := whole ⟨root, (name :: above).reverse⟩ system
    simp only [makeReversed]
    revert first firstWay
    generalize ensureDirectory ⟨root, (name :: above).reverse⟩ store = outcome
    intro first firstWay
    split
    · next middle =>
      have upper := first.alters.system.makeReversed_opens root above
      have upperWay : Way ⟨root, (name :: above).reverse⟩ middle
          (makeReversed root above middle).2 := by
        intro location made
        obtain ⟨higher, inPath, found⟩ := ih first.alters.system location made
        rw [List.reverse_cons]
        exact ⟨higher, inPath.trans (List.prefix_append _ _), found⟩
      have reachedWay := firstWay.trans upperWay upper.alters
      revert upper reachedWay
      generalize makeReversed root above middle = reached
      intro upper reachedWay
      split
      · have last := upper.alters.system.ensureDirectory_opens ⟨root, (name :: above).reverse⟩
        exact reachedWay.trans (whole _ upper.alters.system) last.alters
      · exact reachedWay
    · exact firstWay

/-- Making a directory makes nothing but directories on the way to it. -/
theorem IsFileSystem.makeDirectories_way (system : store.IsFileSystem) (path : Path) :
    Way path store (makeDirectories path store).2 := by
  have way := system.makeReversed_way path.root path.parts.reverse
  rwa [List.reverse_reverse] at way

end EnumLookup.Store
