import EnumLookup.Proofs.Store.Walks

/-!
Following paths where there may be links. A path that leads to a directory goes on from there with
the links that are left, so a name behind it stands in that directory. What a path leads to stays
where it is when directories, links and the file at its end are kept.
-/
namespace EnumLookup.Store

variable {store after : Store} {path : Path} {start directory location : Location}
  {name : String} {parts rest : List String} {entry : Entry}

/-- Files, directories and links as a disk holds them: every entry stands in a directory, under a
name that a file can have. -/
structure IsFileSystem (store : Store) : Prop where
  rooted : ∀ location name entry, store.entry? (location ++ [name]) = some entry →
    store.entry? location = some .directory
  named : ∀ location name entry, store.entry? (location ++ [name]) = some entry → Proper name

theorem isFileSystem_iff : store.IsFileSystem ↔ ∀ location ∈ store.entries.map (·.1),
    store.entry? location.dropLast = some .directory ∧
      ∀ name ∈ location.getLast?, ¬ IsTurn name ∧ hasZero name = false := by
  constructor
  · intro system location member
    rcases List.eq_nil_or_concat' location with rfl | ⟨above, name, rfl⟩
    · simp
    · obtain ⟨entry, found⟩ := Option.ne_none_iff_exists'.mp
        (mt (entry?_eq_none_iff (by simp)).mp (not_not.mpr member))
      rw [List.dropLast_concat, List.getLast?_concat]
      refine ⟨system.rooted above name entry found, ?_⟩
      rintro _ ⟨⟩
      obtain ⟨named, zeroFree⟩ := system.named above name entry found
      exact ⟨named, zeroFree⟩
  · intro sound
    have listed (location : Location) (name : String) (entry : Entry)
        (found : store.entry? (location ++ [name]) = some entry) :
        location ++ [name] ∈ store.entries.map (·.1) := by
      by_contra absent
      rw [(entry?_eq_none_iff (by simp)).mpr absent] at found
      cases found
    refine ⟨fun location name entry found => ?_, fun location name entry found => ?_⟩
    · have above := (sound _ (listed location name entry found)).1
      rwa [List.dropLast_concat] at above
    · have last := (sound _ (listed location name entry found)).2
      rw [List.getLast?_concat] at last
      obtain ⟨named, zeroFree⟩ := last name rfl
      exact ⟨named, zeroFree⟩

instance (store : Store) : Decidable store.IsFileSystem := decidable_of_iff _ isFileSystem_iff.symm

namespace IsFileSystem

theorem ancestor (system : store.IsFileSystem) {below : Location} (inside : below ≠ [])
    (found : store.entry? (location ++ below) = some entry) :
    store.entry? location = some .directory := by
  induction below using List.reverseRecOn generalizing entry with
  | nil => exact absurd rfl inside
  | append_singleton above name ih =>
    rw [← List.append_assoc] at found
    have parent := system.rooted _ _ _ found
    by_cases top : above = []
    · simpa [top] using parent
    · exact ih top parent

theorem parent (system : store.IsFileSystem)
    (found : store.entry? location = some .directory) :
    store.entry? location.dropLast = some .directory := by
  rcases List.eq_nil_or_concat' location with rfl | ⟨above, name, rfl⟩
  · exact found
  · rw [List.dropLast_concat]
    exact system.rooted _ _ _ found

theorem turn (system : store.IsFileSystem) (found : store.entry? location = some .directory) :
    store.entry? (turn location name) = some .directory := by
  unfold Store.turn
  split
  · exact system.parent found
  · exact found

end IsFileSystem

theorem entry?_startOf (found : store.entry? location = some .directory) :
    store.entry? (startOf path location) = some .directory := by
  unfold startOf
  split
  · exact found
  · exact entry?_nil store

variable {behind behind' : Location → List String → Except Fault Location} {links : Nat}

theorem followFrom_append
    (goesOn : ∀ start parts, behind start parts = .ok directory → ∃ left, ∀ rest,
      behind start (parts ++ rest) = store.follow left directory rest)
    (own : ∀ rest, store.followFrom behind directory rest = store.follow links directory rest)
    (ends : store.followFrom behind start parts = .ok directory)
    (found : store.entry? directory = some .directory) :
    ∃ left, ∀ rest,
      store.followFrom behind start (parts ++ rest) = store.follow left directory rest := by
  induction parts generalizing start with
  | nil =>
    cases ends
    exact ⟨links, own⟩
  | cons name rest ih =>
    rw [followFrom] at ends
    simp only [List.cons_append, followFrom]
    by_cases turns : IsTurn name
    · simp only [turns, if_true] at ends ⊢
      exact ih ends
    · simp only [turns, if_false] at ends ⊢
      cases next : store.entry? (start ++ [name]) with
      | none =>
        simp only [next] at ends
        split at ends
        · cases ends
          rw [next] at found
          cases found
        · cases ends
      | some entry =>
        cases entry with
        | directory =>
          simp only [next] at ends ⊢
          exact ih ends
        | file bytes =>
          simp only [next] at ends
          split at ends
          · cases ends
            rw [next] at found
            cases found
          · cases ends
        | link target =>
          simp only [next, ← List.append_assoc] at ends ⊢
          exact goesOn _ _ ends

/-- A path that leads to a directory goes on from there, with the links that are left. -/
theorem follow_append (ends : store.follow links start parts = .ok directory)
    (found : store.entry? directory = some .directory) :
    ∃ left, ∀ rest,
      store.follow links start (parts ++ rest) = store.follow left directory rest := by
  induction links generalizing start parts with
  | zero =>
    have own (rest : List String) :
        store.followFrom (fun _ _ => .error .tooManyLinks) directory rest =
          store.follow 0 directory rest := rfl
    apply followFrom_append _ own ends found
    intro start parts ends
    cases ends
  | succ links ih =>
    have own (rest : List String) :
        store.followFrom (store.follow links) directory rest =
          store.follow (links + 1) directory rest := rfl
    exact followFrom_append (fun _ _ => ih) own ends found

theorem followFrom_before (system : store.IsFileSystem)
    (before : ∀ start parts, store.entry? start = some .directory →
      behind start (parts ++ [name]) = .ok location →
      ∃ directory, behind start parts = .ok directory ∧ store.entry? directory = some .directory)
    (home : store.entry? start = some .directory)
    (ends : store.followFrom behind start (parts ++ [name]) = .ok location) :
    ∃ directory, store.followFrom behind start parts = .ok directory ∧
      store.entry? directory = some .directory := by
  induction parts generalizing start with
  | nil => exact ⟨start, rfl, home⟩
  | cons first rest ih =>
    rw [List.cons_append, followFrom] at ends
    rw [followFrom]
    by_cases turns : IsTurn first
    · simp only [turns, if_true] at ends ⊢
      exact ih (system.turn home) ends
    · simp only [turns, if_false] at ends ⊢
      cases next : store.entry? (start ++ [first]) with
      | none => simp [next] at ends
      | some entry =>
        cases entry with
        | directory =>
          simp only [next] at ends ⊢
          exact ih next ends
        | file bytes => simp [next] at ends
        | link target =>
          simp only [next, ← List.append_assoc] at ends ⊢
          exact before _ _ (entry?_startOf home) ends

/-- Whatever stands before the last component leads to a directory. -/
theorem IsFileSystem.follow_before (system : store.IsFileSystem)
    (home : store.entry? start = some .directory)
    (ends : store.follow links start (parts ++ [name]) = .ok location) :
    ∃ directory, store.follow links start parts = .ok directory ∧
      store.entry? directory = some .directory := by
  induction links generalizing start parts with
  | zero =>
    apply followFrom_before system _ home ends
    intro start parts _ ends
    cases ends
  | succ links ih => exact followFrom_before system (fun _ _ => ih) home ends

theorem follow_name (named : ¬ IsTurn name)
    (notLink : ∀ target, store.entry? (start ++ [name]) ≠ some (.link target)) :
    store.follow links start [name] = .ok (start ++ [name]) := by
  have step (behind : Location → List String → Except Fault Location) :
      store.followFrom behind start [name] = .ok (start ++ [name]) := by
    cases next : store.entry? (start ++ [name]) with
    | none => simp [followFrom, named, next]
    | some entry =>
      cases entry with
      | file bytes => simp [followFrom, named, next]
      | directory => simp [followFrom, named, next]
      | link target => exact absurd next (notLink target)
  cases links with
  | zero => exact step _
  | succ links => exact step _

theorem follow_turn (turns : IsTurn name) :
    store.follow links start [name] = .ok (turn start name) := by
  cases links with
  | zero => simp [follow, followFrom, turns]
  | succ links => simp [follow, followFrom, turns]

theorem IsTurn.zeroFree (turns : IsTurn name) : hasZero name = false := by
  rcases turns with rfl | rfl
  · decide
  · decide

/-- A name that is no link stands in the directory that the path before it leads to. -/
theorem DirectoryAt.locate_child (found : store.DirectoryAt path directory) (proper : Proper name)
    (notLink : ∀ target, store.entry? (directory ++ [name]) ≠ some (.link target)) :
    store.locate (path.child name) = .ok (directory ++ [name]) := by
  obtain ⟨zeroFree, home, ends⟩ := locate_eq_ok.mp found.1
  obtain ⟨left, goesOn⟩ := follow_append ends found.2
  refine locate_eq_ok.mpr ⟨?_, home, ?_⟩
  · simp [Path.child, zeroFree, proper.zeroFree]
  · exact (goesOn [name]).trans (follow_name proper.named notLink)

theorem DirectoryAt.find?_child (found : store.DirectoryAt path directory) (proper : Proper name)
    (notLink : ∀ target, store.entry? (directory ++ [name]) ≠ some (.link target)) :
    store.find? (path.child name) = store.entry? (directory ++ [name]) := by
  simp only [find?, found.locate_child proper notLink]

/-- The directory behind a path that ends with a turn. -/
theorem DirectoryAt.turn (system : store.IsFileSystem) (found : store.DirectoryAt path directory)
    (turns : IsTurn name) :
    store.DirectoryAt (path.child name) (Store.turn directory name) := by
  obtain ⟨zeroFree, home, ends⟩ := locate_eq_ok.mp found.1
  obtain ⟨left, goesOn⟩ := follow_append ends found.2
  refine ⟨locate_eq_ok.mpr ⟨?_, home, (goesOn [name]).trans (follow_turn turns)⟩,
    system.turn found.2⟩
  simp [Path.child, zeroFree, turns.zeroFree]

/-- A path with a location has a directory before its last component. -/
theorem IsFileSystem.directory_before (system : store.IsFileSystem)
    (located : store.locate (path.child name) = .ok location) :
    ∃ directory, store.DirectoryAt path directory := by
  obtain ⟨zeroFree, home, ends⟩ := locate_eq_ok.mp located
  obtain ⟨directory, ends, found⟩ := system.follow_before home ends
  have before : path.parts.any hasZero = false := by
    simp only [Path.child, List.any_append, Bool.or_eq_false_iff] at zeroFree
    exact zeroFree.1
  exact ⟨directory, locate_eq_ok.mpr ⟨before, home, ends⟩, found⟩

theorem append_child (path : Path) (above : List String) (name : String) :
    path.append ⟨0, above ++ [name]⟩ = (path.append ⟨0, above⟩).child name := by
  simp [Path.append, Path.child]

/-- A path goes on through directories that stand below the one it leads to. -/
theorem IsFileSystem.directoryAt_append (system : store.IsFileSystem)
    (found : store.DirectoryAt path start) {names : List String}
    (there : store.entry? (start ++ names) = some .directory) :
    store.DirectoryAt (path.append ⟨0, names⟩) (start ++ names) := by
  induction names using List.reverseRecOn with
  | nil => simpa [Path.append] using found
  | append_singleton above name ih =>
    rw [← List.append_assoc] at there ⊢
    have home := ih (system.rooted _ _ _ there)
    rw [append_child]
    refine ⟨home.locate_child (system.named _ _ _ there) fun target link => ?_, there⟩
    rw [there] at link
    cases link

/-- Below the directory of a path, an entry that is no link is found where it stands. -/
theorem IsFileSystem.locate_append (system : store.IsFileSystem)
    (found : store.DirectoryAt path start) {names : List String} (below : names ≠ [])
    (there : store.entry? (start ++ names) = some entry)
    (notLink : ∀ target, store.entry? (start ++ names) ≠ some (.link target)) :
    store.locate (path.append ⟨0, names⟩) = .ok (start ++ names) := by
  obtain ⟨above, name, rfl⟩ := (List.eq_nil_or_concat' names).resolve_left below
  rw [← List.append_assoc] at there notLink ⊢
  have home := system.directoryAt_append found (system.rooted _ _ _ there)
  rw [append_child]
  exact home.locate_child (system.named _ _ _ there) notLink

/-- A later store in which directories and links stay, and files do that are not among the changed
ones. -/
structure Keeps (changed : Location → Prop) (store after : Store) : Prop where
  setting : after.setting = store.setting
  directories : ∀ location, store.entry? location = some .directory →
    after.entry? location = some .directory
  links : ∀ location target, store.entry? location = some (.link target) →
    after.entry? location = some (.link target)
  files : ∀ location bytes, ¬ changed location → store.entry? location = some (.file bytes) →
    after.entry? location = some (.file bytes)

namespace Keeps

variable {changed : Location → Prop}

theorem entry? (keeps : Keeps changed store after)
    (kept : entry = .directory ∨ ¬ changed location)
    (found : store.entry? location = some entry) : after.entry? location = some entry := by
  cases entry with
  | directory => exact keeps.directories _ found
  | link target => exact keeps.links _ _ found
  | file bytes => exact keeps.files _ _ (kept.resolve_left nofun) found

theorem followFrom (keeps : Keeps changed store after)
    (same : ∀ start parts, behind start parts = .ok location → behind' start parts = .ok location)
    (found : store.entry? location = some entry) (kept : entry = .directory ∨ ¬ changed location)
    (ends : store.followFrom behind start parts = .ok location) :
    after.followFrom behind' start parts = .ok location := by
  induction parts generalizing start with
  | nil => exact ends
  | cons name rest ih =>
    rw [Store.followFrom] at ends ⊢
    by_cases turns : IsTurn name
    · simp only [turns, if_true] at ends ⊢
      exact ih ends
    · simp only [turns, if_false] at ends ⊢
      cases next : store.entry? (start ++ [name]) with
      | none =>
        simp only [next] at ends
        split at ends
        · cases ends
          rw [next] at found
          cases found
        · cases ends
      | some entry =>
        cases entry with
        | directory =>
          simp only [next, keeps.directories _ next] at ends ⊢
          exact ih ends
        | file bytes =>
          simp only [next] at ends
          split at ends
          · next last =>
            cases ends
            obtain rfl := Option.some.inj (next.symm.trans found)
            simp only [keeps.entry? kept next, last, if_true]
          · cases ends
        | link target =>
          simp only [next, keeps.links _ _ next] at ends ⊢
          exact same _ _ ends

theorem follow (keeps : Keeps changed store after) (found : store.entry? location = some entry)
    (kept : entry = .directory ∨ ¬ changed location)
    (ends : store.follow links start parts = .ok location) :
    after.follow links start parts = .ok location := by
  induction links generalizing start parts with
  | zero =>
    apply keeps.followFrom _ found kept ends
    intro start parts ends
    cases ends
  | succ links ih => exact keeps.followFrom (fun _ _ => ih) found kept ends

/-- What a path leads to stays where it is. -/
theorem locate (keeps : Keeps changed store after) (found : store.entry? location = some entry)
    (kept : entry = .directory ∨ ¬ changed location)
    (located : store.locate path = .ok location) : after.locate path = .ok location := by
  obtain ⟨zeroFree, home, ends⟩ := locate_eq_ok.mp located
  rw [← origin_eq keeps.setting] at home ends
  exact locate_eq_ok.mpr ⟨zeroFree, keeps.directories _ home, keeps.follow found kept ends⟩

theorem directoryAt (keeps : Keeps changed store after)
    (found : store.DirectoryAt path directory) : after.DirectoryAt path directory :=
  ⟨keeps.locate found.2 (.inl rfl) found.1, keeps.directories _ found.2⟩

end Keeps

end EnumLookup.Store
