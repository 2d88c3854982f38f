import EnumLookup.Proofs.Store.Walks

/-!
Making directories. Whether or not it succeeds, nothing is lost and nothing but directories comes
new; when it succeeds the directory is there, and making it again does nothing. Files that are
found by a path are found by it afterwards, and no others, as long as the path climbs with `..`
only from directories that were there: behind a directory that is made first, `..` leads to places
that the path did not reach before.
-/
namespace EnumLookup.Store

variable {store middle after : Store} {path : Path} {start directory location : Location}
  {name : String} {parts : List String} {entry : Entry}

/-- A later tree with the same entries and perhaps more directories. -/
structure Grows (store after : Store) : Prop where
  tree : after.IsTree
  setting : after.setting = store.setting
  kept : ∀ location entry, store.entry? location = some entry → after.entry? location = some entry
  made : ∀ location entry, after.entry? location = some entry → entry ≠ .directory →
    store.entry? location = some entry

theorem IsTree.grows (tree : store.IsTree) : Grows store store :=
  ⟨tree, rfl, fun _ _ found => found, fun _ _ found _ => found⟩

theorem Grows.trans (first : Grows store middle) (second : Grows middle after) :
    Grows store after where
  tree := second.tree
  setting := second.setting.trans first.setting
  kept location entry found := second.kept location entry (first.kept location entry found)
  made location entry found notDirectory :=
    first.made location entry (second.made location entry found notDirectory) notDirectory

theorem IsTree.grows_put (tree : store.IsTree) (home : store.entry? directory = some .directory)
    (free : store.entry? (directory ++ [name]) = none) :
    Grows store (store.put (directory ++ [name]) .directory) where
  tree := tree.put home (by rw [free]; nofun) nofun
  setting := rfl
  kept location entry found := by
    have apart : location ≠ directory ++ [name] := by
      rintro rfl
      rw [free] at found
      cases found
    rwa [entry?_put_other store apart]
  made location entry found notDirectory := by
    by_cases same : location = directory ++ [name]
    · subst same
      rw [entry?_put_same store (by simp)] at found
      exact absurd (Option.some.inj found).symm notDirectory
    · rwa [entry?_put_other store same] at found

/-- A walk that ends with a turn ends in a directory. -/
theorem IsTree.leads_of_walk_turn (tree : store.IsTree) (turns : IsTurn name)
    (home : store.entry? start = some .directory)
    (ends : store.walk start (parts ++ [name]) = .ok location) :
    store.entry? location = some .directory := by
  induction parts generalizing start with
  | nil =>
    rw [List.nil_append, walk_turn turns] at ends
    cases ends
    exact tree.turn home
  | cons first rest ih =>
    by_cases firstTurns : IsTurn first
    · rw [List.cons_append, walk_turn firstTurns] at ends
      exact ih (tree.turn home) ends
    · rcases tree.walk_cases firstTurns ends with ⟨down, ends⟩ | ⟨-, last, -⟩
      · exact ih down ends
      · simp at last

/-- Where a directory is found, it stands as an entry. -/
theorem DirectoryAt.locateEntry (tree : store.IsTree) (found : store.DirectoryAt path directory) :
    store.locateEntry path = .ok directory := by
  obtain ⟨root, parts⟩ := path
  rcases List.eq_nil_or_concat' parts with rfl | ⟨above, name, rfl⟩
  · exact found.1
  · by_cases turns : IsTurn name
    · simpa [Store.locateEntry, turns] using found.1
    · have zeroFree := (tree.directoryAt_iff.mp found).1
      have proper : Proper name := ⟨turns, by simp at zeroFree; exact zeroFree.2⟩
      have located : store.locate (Path.child ⟨root, above⟩ name) = .ok directory := found.1
      obtain ⟨home, homeFound, rfl⟩ := (tree.locate_child proper).mp located
      exact locateEntry_child proper homeFound

/-- An entry that is missing is missing in a directory. -/
theorem IsTree.locateEntry_free (tree : store.IsTree)
    (located : store.locateEntry path = .ok location) (free : store.entry? location = none) :
    ∃ above name directory, path = Path.child above name ∧ Proper name ∧
      store.DirectoryAt above directory ∧ location = directory ++ [name] := by
  obtain ⟨root, parts⟩ := path
  rcases List.eq_nil_or_concat' parts with rfl | ⟨above, name, rfl⟩
  · obtain ⟨-, home, ends⟩ := tree.locate_eq_ok.mp located
    cases ends
    rw [home] at free
    cases free
  · by_cases turns : IsTurn name
    · simp only [locateEntry, List.getLast?_concat, turns, if_true] at located
      obtain ⟨-, home, ends⟩ := tree.locate_eq_ok.mp located
      rw [tree.leads_of_walk_turn turns home ends] at free
      cases free
    · simp only [locateEntry, List.getLast?_concat, turns, if_false,
        List.dropLast_concat] at located
      split at located
      · cases located
      · next directory home =>
        split at located
        · next found =>
          split at located
          · cases located
          · next zeroFree =>
            cases located
            exact ⟨⟨root, above⟩, name, directory, rfl, ⟨turns, by simpa [hasZero] using zeroFree⟩,
              ⟨home, found⟩, rfl⟩
        · cases located
        · cases located

structure Prepares (path : Path) (store : Store) (outcome : Except StoreError PUnit × Store) :
    Prop where
  grows : Grows store outcome.2
  there : outcome.1 = .ok ⟨⟩ → outcome.2.isDirectory path = true

theorem create_ok (made : store.create path entry = .ok after) : ∃ location,
    store.locateEntry path = .ok location ∧ store.entry? location = none ∧
      after = store.put location entry := by
  unfold create at made
  split at made
  · cases made
  · next location located =>
    split at made
    · cases made
    · next free =>
      cases made
      exact ⟨location, located, by simpa using free, rfl⟩

theorem ensureDirectory_there (tree : store.IsTree) (there : store.isDirectory path = true) :
    ensureDirectory path store = (.ok ⟨⟩, store) := by
  obtain ⟨directory, found⟩ := isDirectory_iff.mp there
  simp [ensureDirectory, makeDirectory, create, found.locateEntry tree, found.2, there]

theorem ensureDirectory_prepares (tree : store.IsTree) (path : Path) :
    Prepares path store (ensureDirectory path store) := by
  unfold ensureDirectory
  cases made : store.makeDirectory path with
  | error error =>
    dsimp only
    split
    · next there =>
      simp only [Bool.and_eq_true] at there
      exact ⟨tree.grows, fun _ => there.2⟩
    · exact ⟨tree.grows, nofun⟩
  | ok after =>
    obtain ⟨location, located, free, rfl⟩ := create_ok made
    obtain ⟨above, name, directory, rfl, proper, home, rfl⟩ := tree.locateEntry_free located free
    have grows := tree.grows_put home.2 free
    refine ⟨grows, fun _ => isDirectory_iff.mpr ⟨directory ++ [name], ?_, ?_⟩⟩
    · apply (grows.tree.locate_child proper).mpr
      refine ⟨directory, ?_, rfl⟩
      exact home.mono tree grows.tree grows.setting fun location => grows.kept location .directory
    · exact entry?_put_same store (by simp) _

theorem makeReversed_prepares (tree : store.IsTree) (root : Nat) (reversed : List String) :
    Prepares ⟨root, reversed.reverse⟩ store (makeReversed root reversed store) := by
  induction reversed generalizing store with
  | nil => exact ensureDirectory_prepares tree _
  | cons name above ih =>
    have first := ensureDirectory_prepares tree ⟨root, (name :: above).reverse⟩
    simp only [makeReversed]
    revert first
    generalize ensureDirectory ⟨root, (name :: above).reverse⟩ store = outcome
    intro first
    split
    · next middle =>
      have upper := ih first.grows.tree
      revert upper
      generalize makeReversed root above middle = reached
      intro upper
      have grows := first.grows.trans upper.grows
      split
      · have last := ensureDirectory_prepares upper.grows.tree ⟨root, (name :: above).reverse⟩
        exact ⟨grows.trans last.grows, last.there⟩
      · next failed =>
        exact ⟨grows, fun made => (failed ⟨⟩ reached.2 (Prod.ext made rfl)).elim⟩
    · exact first

/-- Making a directory adds directories only, and when it succeeds the directory is there. -/
theorem makeDirectories_prepares (tree : store.IsTree) (path : Path) :
    Prepares path store (makeDirectories path store) := by
  have prepares := makeReversed_prepares tree path.root path.parts.reverse
  rwa [List.reverse_reverse] at prepares

theorem makeDirectories_there (tree : store.IsTree) (there : store.isDirectory path = true) :
    makeDirectories path store = (.ok ⟨⟩, store) := by
  have ensured := ensureDirectory_there tree there
  obtain ⟨root, parts⟩ := path
  unfold makeDirectories
  rcases List.eq_nil_or_concat' parts with rfl | ⟨above, name, rfl⟩
  · exact ensured
  · have reversed : (above ++ [name]).reverse = name :: above.reverse := by simp
    simp only [reversed, makeReversed, List.reverse_cons, List.reverse_reverse, ensured]

/-- The path climbs with `..` only from directories that are there. -/
def ClimbsFromDirectories (store : Store) (path : Path) : Prop :=
  ∀ above below, path.parts = above ++ ".." :: below → store.isDirectory ⟨path.root, above⟩ = true

theorem climbsFromDirectories_iff : store.ClimbsFromDirectories path ↔
    ∀ count < path.parts.length, path.parts[count]? = some ".." →
      store.isDirectory ⟨path.root, path.parts.take count⟩ = true := by
  constructor
  · intro climbs count bound up
    apply climbs _ (path.parts.drop (count + 1))
    rw [List.getElem?_eq_getElem bound] at up
    rw [← Option.some.inj up, List.cons_getElem_drop_succ, List.take_append_drop]
  · rintro climbs above below same
    have found := climbs above.length (by simp [same]) (by simp [same])
    simpa [same] using found

instance (store : Store) (path : Path) : Decidable (store.ClimbsFromDirectories path) :=
  decidable_of_iff _ climbsFromDirectories_iff.symm

/-- A walk in a store that has grown, to a directory that was there, was possible before. -/
theorem Grows.leads (grows : Grows store after) (tree : store.IsTree)
    (leads : after.Leads start parts directory)
    (home : store.entry? start = some .directory)
    (there : store.entry? directory = some .directory)
    (climbs : ∀ above below, parts = above ++ ".." :: below → ∃ top, store.Leads start above top) :
    store.Leads start parts directory := by
  induction parts generalizing start with
  | nil =>
    rw [leads_nil] at leads ⊢
    exact ⟨leads.1, home⟩
  | cons name rest ih =>
    by_cases turns : IsTurn name
    · rw [leads_turn turns] at leads ⊢
      apply ih leads (tree.turn home)
      rintro above below rfl
      obtain ⟨top, reached⟩ := climbs (name :: above) below rfl
      exact ⟨top, (leads_turn turns).mp reached⟩
    · rw [grows.tree.leads_down turns] at leads
      rw [tree.leads_down turns]
      have down : store.entry? (start ++ [name]) = some .directory := by
        by_cases climb : ".." ∈ rest
        · obtain ⟨above, below, rfl⟩ := List.append_of_mem climb
          obtain ⟨top, reached⟩ := climbs (name :: above) below rfl
          exact ((tree.leads_down turns).mp reached).1
        · exact tree.directory_above (grows.tree.prefix_of_leads climb leads.2) there
      refine ⟨down, ih leads.2 down ?_⟩
      rintro above below rfl
      obtain ⟨top, reached⟩ := climbs (name :: above) below rfl
      exact ⟨top, ((tree.leads_down turns).mp reached).2⟩

/-- A path that climbs from directories only leads to the same files when directories are made. -/
theorem Grows.file_iff (grows : Grows store after) (tree : store.IsTree)
    (climbs : store.ClimbsFromDirectories path) (proper : Proper name) {bytes : List UInt8} :
    after.find? (path.child name) = some (.file bytes) ↔
      store.find? (path.child name) = some (.file bytes) := by
  rw [grows.tree.find?_child proper, tree.find?_child proper]
  constructor
  · rintro ⟨directory, found, present⟩
    have before := grows.made _ _ present nofun
    obtain ⟨zeroFree, -, leads⟩ := grows.tree.directoryAt_iff.mp found
    rw [origin_eq grows.setting] at leads
    have there := tree.rooted _ _ _ before
    have reached (above below : List String) (same : path.parts = above ++ ".." :: below) :
        ∃ top, store.DirectoryAt ⟨path.root, above⟩ top :=
      isDirectory_iff.mp (climbs above below same)
    have home : store.entry? (store.origin path) = some .directory := by
      by_cases climb : ".." ∈ path.parts
      · obtain ⟨above, below, same⟩ := List.append_of_mem climb
        obtain ⟨top, topFound⟩ := reached above below same
        exact (tree.directoryAt_iff.mp topFound).2.1
      · exact tree.directory_above (grows.tree.prefix_of_leads climb leads) there
    refine ⟨directory, tree.directoryAt_iff.mpr ⟨zeroFree, home, ?_⟩, before⟩
    apply grows.leads tree leads home there
    intro above below same
    obtain ⟨top, topFound⟩ := reached above below same
    exact ⟨top, (tree.directoryAt_iff.mp topFound).2.2⟩
  · rintro ⟨directory, found, present⟩
    exact ⟨directory,
      found.mono tree grows.tree grows.setting fun location => grows.kept location .directory,
      grows.kept _ _ present⟩

theorem ClimbsFromDirectories.child (climbs : store.ClimbsFromDirectories path)
    (named : name ≠ "..") : store.ClimbsFromDirectories (path.child name) := by
  intro above below same
  rcases List.eq_nil_or_concat' below with rfl | ⟨inner, last, rfl⟩
  · have ends := congrArg List.getLast? same
    simp [Path.child, named] at ends
  · apply climbs above inner
    have parts : path.parts ++ [name] = (above ++ ".." :: inner) ++ [last] := by
      simpa [Path.child] using same
    exact (List.append_inj' parts rfl).1

end EnumLookup.Store
