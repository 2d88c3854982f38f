import EnumLookup.Proofs.Store.Directories

/-!
Writing and removing files of a directory. The other files of the directory stay as they are, and
so do all directories, so every path leads to where it led before.
-/
namespace EnumLookup.Store

variable {store middle after : Store} {path : Path} {location home : Location}
  {name other : String} {bytes : List UInt8} {content : Option (List UInt8)}

def content? (store : Store) (path : Path) : Option (List UInt8) :=
  match store.find? path with
  | some (.file bytes) => some bytes
  | _ => none

theorem content?_eq_some :
    store.content? path = some bytes ↔ store.find? path = some (.file bytes) := by
  unfold content?
  split
  · next found => simp [found]
  · next noFile =>
    constructor
    · nofun
    · intro found
      exact absurd found (noFile bytes)

theorem read_of_content? (content : store.content? path = some bytes) :
    store.read path = .ok bytes := by
  rw [content?_eq_some, find?] at content
  unfold read
  split at content
  · next location located => simp only [located, content]
  · cases content

theorem isFile_eq (store : Store) (path : Path) :
    store.isFile path = (store.content? path).isSome := by
  unfold isFile content?
  cases store.find? path with
  | none => rfl
  | some entry => cases entry <;> rfl

theorem IsTree.content?_child (tree : store.IsTree) (proper : Proper name) :
    store.content? (path.child name) = some bytes ↔
      ∃ home, store.DirectoryAt path home ∧ store.entry? (home ++ [name]) = some (.file bytes) := by
  rw [content?_eq_some, tree.find?_child proper]

theorem Grows.content?_child (grows : Grows store after) (tree : store.IsTree)
    (climbs : store.ClimbsFromDirectories path) (proper : Proper name) :
    after.content? (path.child name) = store.content? (path.child name) := by
  apply Option.ext
  intro bytes
  rw [content?_eq_some, content?_eq_some]
  exact grows.file_iff tree climbs proper

/-- A tree with the same directories that differs at most at one location. -/
structure Differs (location : Location) (store after : Store) : Prop where
  tree : after.IsTree
  setting : after.setting = store.setting
  directories : ∀ other,
    after.entry? other = some .directory ↔ store.entry? other = some .directory
  others : ∀ other, other ≠ location → after.entry? other = store.entry? other

theorem Differs.directoryAt_iff (differs : Differs location store after) (tree : store.IsTree) :
    after.DirectoryAt path home ↔ store.DirectoryAt path home := by
  constructor
  · exact .mono differs.tree tree differs.setting.symm fun other => (differs.directories other).mp
  · exact .mono tree differs.tree differs.setting fun other => (differs.directories other).mpr

theorem IsTree.put_differs (tree : store.IsTree) (bytes : List UInt8)
    (found : store.entry? home = some .directory)
    (noDirectory : store.entry? (home ++ [name]) ≠ some .directory) :
    Differs (home ++ [name]) store (store.put (home ++ [name]) (.file bytes)) where
  tree := tree.put found noDirectory nofun
  setting := rfl
  directories other := by
    by_cases same : other = home ++ [name]
    · subst same
      rw [entry?_put_same store (by simp)]
      exact ⟨nofun, fun directory => absurd directory noDirectory⟩
    · rw [entry?_put_other store same]
  others other apart := entry?_put_other store apart _

theorem IsTree.erase_differs (tree : store.IsTree) (below : location ≠ [])
    (found : store.entry? location = some (.file bytes)) :
    Differs location store (store.erase location) := by
  -- Nothing stands below a file.
  have others (other : Location) (apart : other ≠ location) :
      Store.entry? (store.erase location) other = store.entry? other := by
    rw [entry?_erase store below]
    split
    · next inside =>
      obtain ⟨rest, rfl⟩ := inside
      have deeper : rest ≠ [] := by
        rintro rfl
        exact apart (List.append_nil _)
      cases present : store.entry? (location ++ rest) with
      | none => rfl
      | some entry =>
        have directory := tree.ancestor deeper present
        rw [found] at directory
        cases directory
    · rfl
  refine ⟨tree.erase below, rfl, fun other => ?_, others⟩
  by_cases same : other = location
  · subst same
    rw [entry?_erase store below, if_pos (List.prefix_refl _), found]
    simp
  · rw [others other same]

/-- The file of a name gets these contents, or goes; the other files of the directory stay, and
all directories do. -/
structure Sets (path : Path) (name : String) (content : Option (List UInt8))
    (store after : Store) : Prop where
  tree : after.IsTree
  content : after.content? (path.child name) = content
  others : ∀ other, other ≠ name → Proper other →
    after.content? (path.child other) = store.content? (path.child other)
  directories : ∀ path, after.isDirectory path = store.isDirectory path

theorem IsTree.sets (tree : store.IsTree) (found : store.content? (path.child name) = content) :
    Sets path name content store store :=
  ⟨tree, found, fun _ _ _ => rfl, fun _ => rfl⟩

theorem Sets.content?_eq (sets : Sets path name content store after) (proper : Proper other) :
    after.content? (path.child other) =
      if other = name then content else store.content? (path.child other) := by
  by_cases same : other = name
  · subst same
    rw [if_pos rfl, sets.content]
  · rw [if_neg same, sets.others other same proper]

theorem Differs.sets (differs : Differs (home ++ [name]) store after) (tree : store.IsTree)
    (found : store.DirectoryAt path home)
    (held : after.content? (path.child name) = content) : Sets path name content store after := by
  refine ⟨differs.tree, held, fun other apart proper => ?_, fun path => ?_⟩
  · apply Option.ext
    intro bytes
    rw [differs.tree.content?_child proper, tree.content?_child proper]
    simp only [differs.directoryAt_iff tree]
    constructor
    all_goals
      rintro ⟨directory, again, present⟩
      obtain rfl := found.unique again
      have elsewhere := differs.others (home ++ [other]) (by simpa using apart)
      exact ⟨home, again, by simpa [elsewhere] using present⟩
  · rw [Bool.eq_iff_iff, isDirectory_iff, isDirectory_iff]
    simp only [differs.directoryAt_iff tree]

theorem IsTree.write_sets (tree : store.IsTree) (proper : Proper name)
    (wrote : store.write (path.child name) bytes = .ok after) :
    Sets path name (some bytes) store after := by
  unfold write at wrote
  split at wrote
  · cases wrote
  · next location located =>
    split at wrote
    · cases wrote
    · next noDirectory =>
      cases wrote
      obtain ⟨home, found, rfl⟩ := (tree.locate_child proper).mp located
      have differs := tree.put_differs bytes found.2 noDirectory
      apply differs.sets tree found
      apply (differs.tree.content?_child proper).mpr
      exact ⟨home, (differs.directoryAt_iff tree).mpr found, entry?_put_same store (by simp) _⟩

/-- A file that is there can be removed. -/
theorem IsTree.unlink_sets (tree : store.IsTree) (proper : Proper name)
    (there : store.isFile (path.child name) = true) :
    ∃ after, store.unlink (path.child name) = .ok after ∧ Sets path name none store after := by
  rw [isFile_eq, Option.isSome_iff_exists] at there
  obtain ⟨bytes, content⟩ := there
  obtain ⟨home, found, present⟩ := (tree.content?_child proper).mp content
  have below : home ++ [name] ≠ [] := by simp
  have differs := tree.erase_differs below present
  refine ⟨store.erase (home ++ [name]), ?_, differs.sets tree found ?_⟩
  · simp [unlink, locateEntry_child proper found, present]
  · rw [Option.eq_none_iff_forall_ne_some]
    intro bytes content
    obtain ⟨directory, again, kept⟩ := (differs.tree.content?_child proper).mp content
    obtain rfl := found.unique ((differs.directoryAt_iff tree).mp again)
    rw [entry?_erase store below, if_pos (List.prefix_refl _)] at kept
    cases kept

end EnumLookup.Store
