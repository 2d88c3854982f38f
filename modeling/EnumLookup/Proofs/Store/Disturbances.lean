import EnumLookup.Proofs.Store.Placement

/-!
Changes of files that disturb no way to a directory. Writing a file where a path leads, and removing
what a path takes for a file, change one place and leave every directory where it was to be found;
when a link to a file is removed, this is so because no way to a directory goes over it.
-/
namespace EnumLookup.Store

variable {store middle after : Store} {path above : Path}
  {start directory location place : Location} {name : String} {parts rest : List String}
  {links more : Nat} {bytes : List UInt8}
  {behind behind' : Location → List String → Except Fault Location}

namespace IsFileSystem

theorem followFrom_file (system : store.IsFileSystem)
    (file : store.entry? location = some (.file bytes))
    (behindFile : ∀ start parts rest, store.entry? start = some .directory →
      behind start parts = .ok location → behind' start (parts ++ rest) = .ok place →
      place = location)
    (home : store.entry? start = some .directory)
    (ends : store.followFrom behind start parts = .ok location)
    (goesOn : store.followFrom behind' start (parts ++ rest) = .ok place) : place = location := by
  induction parts generalizing start with
  | nil =>
    cases ends
    rw [home] at file
    cases file
  | cons name more ih =>
    by_cases turns : IsTurn name
    · rw [List.cons_append, followFrom, if_pos turns] at goesOn
      rw [followFrom, if_pos turns] at ends
      exact ih (system.turn home) ends goesOn
    · cases next : store.entry? (start ++ [name]) with
      | none =>
        obtain ⟨-, rfl⟩ := (followFrom_leaf turns (.inl next)).mp ends
        rw [next] at file
        cases file
      | some entry =>
        cases entry with
        | file bytes =>
          obtain ⟨-, rfl⟩ := (followFrom_leaf turns (.inr ⟨bytes, next⟩)).mp ends
          exact ((followFrom_leaf turns (.inr ⟨bytes, next⟩)).mp goesOn).2
        | directory =>
          simp only [List.cons_append, followFrom, turns, if_false, next] at ends goesOn
          exact ih next ends goesOn
        | link target =>
          simp only [List.cons_append, followFrom, turns, if_false, next,
            ← List.append_assoc] at ends goesOn
          exact behindFile _ _ _ (entry?_startOf home) ends goesOn

theorem follow_file (system : store.IsFileSystem)
    (file : store.entry? location = some (.file bytes))
    (home : store.entry? start = some .directory)
    (ends : store.follow links start parts = .ok location)
    (goesOn : store.follow more start (parts ++ rest) = .ok place) : place = location := by
  induction links generalizing start parts rest more with
  | zero =>
    cases more with
    | zero => exact system.followFrom_file file (fun _ _ _ _ ends => by cases ends) home ends goesOn
    | succ more =>
      exact system.followFrom_file file (fun _ _ _ _ ends => by cases ends) home ends goesOn
  | succ links ih =>
    cases more with
    | zero =>
      exact system.followFrom_file file (fun _ _ _ _ _ goesOn => by cases goesOn) home ends goesOn
    | succ more =>
      exact system.followFrom_file file (fun _ _ _ home ends goesOn => ih home ends goesOn) home
        ends goesOn

end IsFileSystem

namespace IsDisk

theorem erase (disk : store.IsDisk) (below : place ≠ [])
    (noDirectory : store.entry? place ≠ some .directory) : (store.erase place).IsDisk := by
  have before (location : Location) (entry : Entry)
      (present : Store.entry? (store.erase place) location = some entry) :
      location ≠ place ∧ store.entry? location = some entry := by
    have apart : location ≠ place := by
      rintro rfl
      rw [entry?_erase_same store below] at present
      cases present
    rw [disk.entry?_erase_other below noDirectory apart] at present
    exact ⟨apart, present⟩
  refine ⟨⟨fun location name entry present => ?_, fun location name entry present => ?_⟩,
    fun location target present => ?_⟩
  · have above := disk.rooted _ _ _ (before _ _ present).2
    have apart : location ≠ place := by
      rintro rfl
      exact noDirectory above
    rwa [disk.entry?_erase_other below noDirectory apart]
  · exact disk.named _ _ _ (before _ _ present).2
  · exact disk.targets _ _ (before _ _ present).2

end IsDisk

theorem followFrom_without
    (others : ∀ other, other ≠ place → after.entry? other = store.entry? other)
    (avoids : ∀ start name rest, start ++ [name] = place →
      store.followFrom behind start (name :: rest) ≠ .ok location)
    (same : ∀ start parts, behind start parts = .ok location → behind' start parts = .ok location)
    (ends : store.followFrom behind start parts = .ok location) :
    after.followFrom behind' start parts = .ok location := by
  induction parts generalizing start with
  | nil => exact ends
  | cons name rest ih =>
    have apart : start ++ [name] ≠ place := fun inPlace => avoids start name rest inPlace ends
    rw [followFrom] at ends ⊢
    by_cases turns : IsTurn name
    · rw [if_pos turns] at ends ⊢
      exact ih ends
    · simp only [turns, if_false, others _ apart] at ends ⊢
      cases next : store.entry? (start ++ [name]) with
      | none => simpa only [next] using ends
      | some entry =>
        simp only [next] at ends ⊢
        cases entry with
        | directory => exact ih ends
        | file bytes => exact ends
        | link target => exact same _ _ ends

/-- Removing what a path takes for a file cuts no way to a directory, even if it is a link. -/
theorem IsFileSystem.erase_directoryAt (system : store.IsFileSystem)
    (home : store.DirectoryAt above start)
    (located : store.locate (above.child name) = .ok location)
    (file : store.entry? location = some (.file bytes))
    (noDirectory : store.entry? (start ++ [name]) ≠ some .directory)
    (found : store.DirectoryAt path directory) :
    (store.erase (start ++ [name])).DirectoryAt path directory := by
  have below : start ++ [name] ≠ [] := by simp
  obtain ⟨left, ends⟩ : ∃ left, store.follow left start [name] = .ok location := by
    obtain ⟨left, goesOn⟩ := follow_append (locate_eq_ok.mp home.1).2.2 home.2
    exact ⟨left, (goesOn [name]).symm.trans (locate_eq_ok.mp located).2.2⟩
  have avoids (links : Nat) (top : Location) (last : String) (rest : List String)
      (inPlace : top ++ [last] = start ++ [name]) :
      store.follow links top (last :: rest) ≠ .ok directory := by
    intro reached
    obtain ⟨rfl, same⟩ := List.append_inj' inPlace rfl
    obtain rfl := (List.cons.inj same).1
    have onward : store.follow links top ([last] ++ rest) = .ok directory := reached
    obtain rfl := system.follow_file file home.2 ends onward
    rw [found.2] at file
    cases file
  have follows (links : Nat) (top : Location) (parts : List String)
      (ends : store.follow links top parts = .ok directory) :
      Store.follow (store.erase (start ++ [name])) links top parts = .ok directory := by
    induction links generalizing top parts with
    | zero =>
      exact followFrom_without (fun _ => system.entry?_erase_other below noDirectory) (avoids 0)
        (fun _ _ never => by cases never) ends
    | succ links ih =>
      exact followFrom_without (fun _ => system.entry?_erase_other below noDirectory)
        (avoids (links + 1)) ih ends
  obtain ⟨zeroFree, top, reached⟩ := locate_eq_ok.mp found.1
  have kept (other : Location) (present : store.entry? other = some .directory) :
      Store.entry? (store.erase (start ++ [name])) other = some .directory := by
    have apart : other ≠ start ++ [name] := by
      rintro rfl
      exact noDirectory present
    rw [system.entry?_erase_other below noDirectory apart, present]
  exact ⟨locate_eq_ok.mpr ⟨zeroFree, kept _ top, follows _ _ _ reached⟩, kept _ found.2⟩

/-- A later disk that differs at touched places at most, on which the same paths lead to the same
directories, and every path ends where it did before or at a touched place. -/
structure Disturbs (touched : Location → Prop) (store after : Store) : Prop where
  disk : after.IsDisk
  setting : after.setting = store.setting
  elsewhere : ∀ location, ¬ touched location → after.entry? location = store.entry? location
  directories : ∀ path directory,
    after.DirectoryAt path directory ↔ store.DirectoryAt path directory
  ends : ∀ path location, after.locate path = .ok location →
    store.locate path = .ok location ∨ touched location

theorem IsDisk.disturbs (disk : store.IsDisk) (touched : Location → Prop) :
    Disturbs touched store store :=
  ⟨disk, rfl, fun _ _ => rfl, fun _ _ => Iff.rfl, fun _ _ located => .inl located⟩

namespace Disturbs

variable {touched : Location → Prop}

theorem trans (first : Disturbs touched store middle) (second : Disturbs touched middle after) :
    Disturbs touched store after where
  disk := second.disk
  setting := second.setting.trans first.setting
  elsewhere location free :=
    (second.elsewhere location free).trans (first.elsewhere location free)
  directories path directory :=
    (second.directories path directory).trans (first.directories path directory)
  ends path location located := by
    rcases second.ends path location located with before | inside
    · exact first.ends path location before
    · exact .inr inside

theorem mono {wider : Location → Prop} (disturbs : Disturbs touched store after)
    (within : ∀ location, touched location → wider location) : Disturbs wider store after where
  disk := disturbs.disk
  setting := disturbs.setting
  elsewhere location free := disturbs.elsewhere location (mt (within location) free)
  directories := disturbs.directories
  ends path location located := (disturbs.ends path location located).imp_right (within location)

end Disturbs

/-- Writing a file where a path leads touches this place. -/
theorem IsDisk.put_disturbs (disk : store.IsDisk) (located : store.locate path = .ok place)
    (noDirectory : store.entry? place ≠ some .directory) (bytes : List UInt8) :
    Disturbs (· = place) store (store.put place (.file bytes)) := by
  obtain ⟨directory, name, rfl, proper, home, notLink⟩ :=
    (disk.locate_place located).resolve_left noDirectory
  have free : ∀ found, store.entry? (directory ++ [name]) = some found →
      ∃ bytes, found = .file bytes := by
    intro found present
    cases found with
    | file bytes => exact ⟨bytes, rfl⟩
    | directory => exact absurd present noDirectory
    | link target => exact absurd present (notLink target)
  have leaf : IsLeaf (store.entry? (directory ++ [name])) := by
    cases present : store.entry? (directory ++ [name]) with
    | none => exact .inl rfl
    | some entry =>
      obtain ⟨bytes, rfl⟩ := free entry present
      exact .inr ⟨bytes, rfl⟩
  have placed : Store.entry? (store.put (directory ++ [name]) (.file bytes)) (directory ++ [name]) =
      some (.file bytes) := entry?_put_same store (by simp) _
  have alters := disk.put_alters home proper free (.file bytes)
  have trims : Trims (fun _ => False) store (store.put (directory ++ [name]) (.file bytes)) := by
    refine ⟨rfl, fun other => ?_⟩
    by_cases same : other = directory ++ [name]
    · subst same
      exact .inr (.inl ⟨leaf, .inr ⟨bytes, placed⟩⟩)
    · exact .inl (entry?_put_other store same _)
  refine ⟨⟨alters.system, fun other target found => ?_⟩, rfl,
    fun other apart => alters.entry?_eq apart,
    fun path other => ⟨trims.directoryAt (fun _ never => never.elim), alters.keeps.directoryAt⟩,
    fun path other located => (trims.locate located).imp_right False.elim⟩
  by_cases same : other = directory ++ [name]
  · rw [same, placed] at found
    cases found
  · rw [entry?_put_other store same] at found
    exact disk.targets _ _ found

/-- Removing what a path takes for a file touches the place where it stands. -/
theorem IsDisk.erase_disturbs (disk : store.IsDisk) (home : store.DirectoryAt above start)
    (located : store.locate (above.child name) = .ok location)
    (file : store.entry? location = some (.file bytes))
    (noDirectory : store.entry? (start ++ [name]) ≠ some .directory) :
    Disturbs (· = start ++ [name]) store (store.erase (start ++ [name])) := by
  have below : start ++ [name] ≠ [] := by simp
  have gone := entry?_erase_same store below
  have trims : Trims (· = start ++ [name]) store (store.erase (start ++ [name])) := by
    refine ⟨rfl, fun other => ?_⟩
    by_cases same : other = start ++ [name]
    · exact .inr (.inr ⟨same, same ▸ gone⟩)
    · exact .inl (disk.entry?_erase_other below noDirectory same)
  refine ⟨disk.erase below noDirectory, rfl, fun other => disk.entry?_erase_other below noDirectory,
    fun path directory => ⟨trims.directoryAt ?_, ?_⟩, fun path other => trims.locate⟩
  · rintro _ rfl
    exact gone
  · exact disk.erase_directoryAt home located file noDirectory

end EnumLookup.Store
